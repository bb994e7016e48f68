import Texel.Builtin
import Texel.Proofs.Graph.Schedule

/-!
# Texel — what is reported of cycles

When nothing is at hand any more and not all nodes are placed, `schedule` reports the nodes that
still wait for a connection. These are more than the nodes of one cycle: every cycle is in the
report, and with it whatever a cycle leads to, because such a node waits for one that is never
placed.

* **`OnCycle`**, **`Blocked`** — the nodes of cycles, and those that connections lead to from there.
* **`Progress.notMem_of_blocked`** — at no time of the loop is a blocked node placed.
* **`Progress.blocked_of_notMem`** — at the end of it, every node that is not placed is blocked.
* **`Progress.degree_pos_iff`** — so the nodes that wait for something are exactly the blocked ones.
-/

namespace Texel.Graph

open Relation

variable {β : Type} {g : Graph β} {placed : List Nat} {w : Waiting} {a id : Nat}

/-- Connections lead from the node back to itself. -/
def OnCycle (g : Graph β) (id : Nat) : Prop := TransGen g.Feeds id id

/-- The node is on a cycle, or connections lead to it from one. -/
def Blocked (g : Graph β) (id : Nat) : Prop := ∃ v, g.OnCycle v ∧ ReflTransGen g.Feeds v id

theorem OnCycle.blocked (h : g.OnCycle id) : g.Blocked id := ⟨id, h, .refl⟩

theorem Blocked.feeds (h : g.Blocked a) (hfeeds : g.Feeds a id) : g.Blocked id := by
  obtain ⟨v, hv, hlead⟩ := h
  exact ⟨v, hv, hlead.tail hfeeds⟩

theorem blocked_iff : g.Blocked id ↔ g.OnCycle id ∨ ∃ v, g.OnCycle v ∧ TransGen g.Feeds v id := by
  constructor
  · rintro ⟨v, hv, hlead⟩
    rcases reflTransGen_iff_eq_or_transGen.mp hlead with rfl | hlead
    · exact Or.inl hv
    · exact Or.inr ⟨v, hv, hlead⟩
  · rintro (h | ⟨v, hv, hlead⟩)
    · exact h.blocked
    · exact ⟨v, hv, hlead.to_reflTransGen⟩

/-- A blocked node waits for a blocked node. -/
theorem Blocked.exists_feeds (h : g.Blocked id) : ∃ a, g.Blocked a ∧ g.Feeds a id := by
  have hlead : ∃ v, g.OnCycle v ∧ TransGen g.Feeds v id :=
    (blocked_iff.mp h).elim (fun hcycle => ⟨id, hcycle, hcycle⟩) fun hlead => hlead
  obtain ⟨v, hv, hlead⟩ := hlead
  obtain ⟨a, hva, hfeeds⟩ := TransGen.tail'_iff.mp hlead
  exact ⟨a, ⟨v, hv, hva⟩, hfeeds⟩

/-! ## During the loop -/

/-- Whatever leads to a placed node has been placed before it. -/
theorem Progress.mem_before (h : Progress g placed w) (hlead : TransGen g.Feeds a id) :
    ∀ {before after : List Nat}, placed = before ++ id :: after → a ∈ before := by
  induction hlead with
  | single hfeeds => exact fun hsplit => h.closed _ _ _ hsplit a hfeeds
  | @tail b id _ hfeeds ih =>
    intro before after hsplit
    obtain ⟨early, late, rfl⟩ := List.append_of_mem (h.closed before id after hsplit b hfeeds)
    -- `b` stands before `id`, and what leads to `b` stands before that
    have hearly : placed = early ++ b :: (late ++ id :: after) := by
      rw [hsplit]
      simp
    exact List.mem_append_left _ (ih hearly)

theorem Progress.notMem_of_onCycle (h : Progress g placed w) (hcycle : g.OnCycle id) :
    id ∉ placed := by
  intro hid
  obtain ⟨before, after, hsplit⟩ := List.append_of_mem hid
  have hbefore : id ∈ before := h.mem_before hcycle hsplit
  have hnodup : placed.Nodup := (List.nodup_append.mp h.nodup).1
  rw [hsplit] at hnodup
  exact (List.nodup_append.mp hnodup).2.2 id hbefore id List.mem_cons_self rfl

/-- **Blocked nodes are not placed.** -/
theorem Progress.notMem_of_blocked (h : Progress g placed w) (hid : g.Blocked id) :
    id ∉ placed := by
  obtain ⟨v, hv, hlead⟩ := hid
  induction hlead with
  | refl => exact h.notMem_of_onCycle hv
  | tail _ hfeeds ih => exact h.notMem_of_feeds ih hfeeds

/-- A node waits as long as one that feeds it has not been placed. -/
theorem Progress.degree_pos (h : Progress g placed w) :
    0 < w.degrees.getD id 0 ↔ ∃ a, g.Feeds a id ∧ a ∉ placed := by
  rw [h.degree, List.countP_pos_iff]
  constructor
  · rintro ⟨c, hc, hwaits⟩
    have hwaits : c.destination = id ∧ c.source ∉ placed := by simpa using hwaits
    exact ⟨c.source, ⟨c, hc, rfl, hwaits.1⟩, hwaits.2⟩
  · rintro ⟨_, ⟨c, hc, rfl, hd⟩, ha⟩
    exact ⟨c, hc, by simpa using ⟨hd, ha⟩⟩

/-! ## At its end -/

/-- **Nodes that are not placed are blocked.** Of those that lead to such a node and are not placed,
none would be fed by placed nodes only; if none of them was on a cycle, one would have to be. -/
theorem Progress.blocked_of_notMem (hg : g.WellFormed) (h : Progress g placed w)
    (hempty : w.ready = []) (hlt : id < g.size) (hid : id ∉ placed) : g.Blocked id := by
  let Stuck : Nat → Prop := fun x => x < g.size ∧ x ∉ placed ∧ ReflTransGen g.Feeds x id
  by_contra hfree
  have hcycle : ∀ x, Stuck x → ¬ TransGen g.Feeds x x := fun x hx hcycle =>
    hfree ⟨x, hcycle, hx.2.2⟩
  obtain ⟨m, ⟨hmlt, hm, hlead⟩, hsource⟩ :=
    exists_source_of_not_transGen hcycle (fun _ hx => hx.1) ⟨id, hlt, hid, .refl⟩
  -- nothing is at hand, so `m` waits for something
  have hwaits : 0 < w.degrees.getD m 0 := by
    rw [Nat.pos_iff_ne_zero]
    intro hzero
    have hmem := (h.mem_ready m).mpr ⟨hmlt, hm, hzero⟩
    rw [hempty] at hmem
    cases hmem
  obtain ⟨a, hfeeds, ha⟩ := h.degree_pos.mp hwaits
  exact hsource a hfeeds ⟨(hg.feeds_lt hfeeds).1, ha, hlead.head hfeeds⟩

/-- **What is left waiting.** -/
theorem Progress.degree_pos_iff (hg : g.WellFormed) (h : Progress g placed w)
    (hempty : w.ready = []) : 0 < w.degrees.getD id 0 ↔ g.Blocked id := by
  rw [h.degree_pos]
  constructor
  · rintro ⟨a, hfeeds, ha⟩
    exact (h.blocked_of_notMem hg hempty (hg.feeds_lt hfeeds).1 ha).feeds hfeeds
  · intro hid
    obtain ⟨a, ha, hfeeds⟩ := hid.exists_feeds
    exact ⟨a, hfeeds, h.notMem_of_blocked ha⟩

/-- The report of a graph with a cycle. -/
theorem WellFormed.schedule_of_onCycle (hg : g.WellFormed) (hcycle : g.OnCycle id) :
    ∃ nodes, g.schedule = .error (.cycle nodes) ∧ nodes.Pairwise (· < ·) ∧
      ∀ x, x ∈ nodes ↔ g.Blocked x := by
  obtain ⟨_, hempty, hprogress⟩ := hg.progress.take hg (n := g.size) (by simp)
  rw [List.nil_append] at hprogress
  have hlen : (g.take g.size g.initialWaiting).1.length ≠ g.size := fun hlen =>
    (hprogress.length_eq_iff hg hempty).mp hlen id hcycle
  refine ⟨(List.range g.size).filter fun x =>
    0 < (g.take g.size g.initialWaiting).2.degrees.getD x 0, ?_, ?_, fun x => ?_⟩
  · simp only [Graph.schedule, hlen, if_false]
  · exact List.pairwise_lt_range.filter _
  · rw [List.mem_filter, List.mem_range, decide_eq_true_eq, hprogress.degree_pos_iff hg hempty]
    refine and_iff_right_of_imp fun hx => ?_
    obtain ⟨a, _, hfeeds⟩ := hx.exists_feeds
    exact (hg.feeds_lt hfeeds).2

/-- **Cycles are reported in full.** If the connections of a graph with a history form a cycle, the
report lists, in ascending order, exactly the nodes that are on a cycle or that connections lead to
from one. So it has the nodes of every cycle, and at least one. -/
theorem schedule_reports_blocked [Operable β] (operations : List (Operation β))
    (hcycle : ∃ id, (ofOperations operations).OnCycle id) :
    let g := ofOperations operations
    ∃ nodes, g.schedule = .error (.cycle nodes) ∧ nodes.Pairwise (· < ·) ∧
      (∀ id, id ∈ nodes ↔ g.OnCycle id ∨ ∃ v, g.OnCycle v ∧ TransGen g.Feeds v id) ∧
      nodes ≠ [] ∧ ∀ id, g.OnCycle id → id ∈ nodes := by
  intro g
  have hg : g.WellFormed := wellFormed_ofOperations operations
  obtain ⟨id, hid⟩ := hcycle
  obtain ⟨nodes, hschedule, hascending, hmem⟩ := hg.schedule_of_onCycle hid
  refine ⟨nodes, hschedule, hascending, fun x => (hmem x).trans blocked_iff, ?_, ?_⟩
  · exact List.ne_nil_of_mem ((hmem id).mpr hid.blocked)
  · exact fun x hx => (hmem x).mpr hx.blocked

/-- Two nodes feed each other, twice in one direction, and a third feeds itself. The fourth is fed
by the first two, the fifth feeds them. -/
def tangle : List (Operation Builtin) :=
  [.edit (.create .mix), .edit (.create .blend), .edit (.create .output), .edit (.create .output),
    .edit (.create .color)] ++
  [⟨0, 0, 1, 0⟩, ⟨0, 0, 1, 1⟩, ⟨1, 0, 0, 0⟩, ⟨4, 0, 0, 1⟩, ⟨2, 0, 2, 0⟩, ⟨1, 0, 3, 0⟩].map
    fun c => .edit (.connect c)

theorem tangle_reported :
    (ofOperations tangle).OnCycle 2 ∧ ¬ (ofOperations tangle).Blocked 4 ∧
      ∃ nodes, (ofOperations tangle).schedule = .error (.cycle nodes) ∧ nodes = [0, 1, 2, 3] := by
  have hloop : (ofOperations tangle).OnCycle 2 := by
    refine .single ⟨⟨2, 0, 2, 0⟩, ?_, rfl, rfl⟩
    decide +kernel
  obtain ⟨nodes, hschedule, _, hmem, _⟩ := schedule_reports_blocked tangle ⟨2, hloop⟩
  have hnodes : nodes = [0, 1, 2, 3] := by
    have hfound : (ofOperations tangle).schedule = .error (.cycle [0, 1, 2, 3]) := by decide +kernel
    rw [hfound] at hschedule
    cases hschedule
    rfl
  refine ⟨hloop, ?_, nodes, hschedule, hnodes⟩
  rw [blocked_iff, ← hmem, hnodes]
  decide

end Texel.Graph
