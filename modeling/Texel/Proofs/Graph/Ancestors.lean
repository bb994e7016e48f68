import Texel.Builtin
import Texel.Graph.Ancestors
import Texel.Proofs.Graph.Schedule

/-!
# Texel — ancestors are what leads to a node

`ancestors` visits what feeds a node, then what feeds that, in a bounded number of steps. The bound
is enough, because every connection becomes pending at most once; so the visited nodes are exactly
those from which a chain of connections leads to the start, without the start itself. Neither
depends on which of the pending nodes is taken next, nor on the graph being acyclic.

* **`waiting`** — the connections that have not become pending yet.
* **`Searches`**, **`Ends`** — a step that takes any pending node, and what holds of every search.
* **`Searching.step`** — a step visits ancestors only, and loses nothing that feeds a visited node.
* **`Searching.ends`** — so every search ends, and has then visited the ancestors.
* **`mem_ancestors_iff`** — the bounded search is one of them.
* **`mem_before_of_feeds`** — an evaluation order lists ancestors after what feeds them.
-/

namespace Texel.Graph

open Relation

variable {β : Type}

theorem mem_sources {g : Graph β} {id a : Nat} : a ∈ g.sources id ↔ g.Feeds a id := by
  simp only [sources, List.mem_map, List.mem_filter, decide_eq_true_eq, Feeds]
  constructor
  · rintro ⟨c, ⟨hc, hd⟩, hs⟩
    exact ⟨c, hc, hs, hd⟩
  · rintro ⟨c, hc, hs, hd⟩
    exact ⟨c, ⟨hc, hd⟩, hs⟩

/-- The number of connections into nodes that have been neither started from nor visited. -/
def waiting (g : Graph β) (start : Nat) (visited : List Nat) : Nat :=
  g.connections.countP fun c => c.destination ≠ start ∧ c.destination ∉ visited

/-- Visiting a node makes the connections into it pending. -/
theorem waiting_cons (g : Graph β) {start id : Nat} {visited : List Nat} (hstart : id ≠ start)
    (hid : id ∉ visited) :
    g.waiting start visited = (g.sources id).length + g.waiting start (id :: visited) := by
  simp only [waiting, sources, List.length_map]
  induction g.connections with
  | nil => simp
  | cons c cs ih =>
    simp only [List.countP_cons, List.filter_cons]
    by_cases hd : c.destination = id
    · simp [hd, hstart, hid] at ih ⊢
      omega
    · by_cases hc : c.destination ≠ start ∧ c.destination ∉ visited
      · simp [hd, hc] at ih ⊢
        omega
      · simp [hd, hc] at ih ⊢
        omega

/-- At the start, every connection is pending or waiting. -/
theorem length_sources_add_waiting (g : Graph β) (start : Nat) :
    (g.sources start).length + g.waiting start [] = g.connections.length := by
  simp only [waiting, sources, List.length_map]
  induction g.connections with
  | nil => simp
  | cons c cs ih =>
    simp only [List.countP_cons, List.filter_cons, List.length_cons]
    by_cases hd : c.destination = start
    · simp [hd] at ih ⊢
      omega
    · simp [hd] at ih ⊢
      omega

/-- What the search has found so far. -/
structure Searching (g : Graph β) (start : Nat) (pending visited : List Nat) : Prop where
  pending_leads : ∀ x ∈ pending, TransGen g.Feeds x start
  visited_leads : ∀ x ∈ visited, x ≠ start ∧ TransGen g.Feeds x start
  /-- What feeds a visited node or the start is pending or has been dealt with. -/
  closed : ∀ v, v = start ∨ v ∈ visited → ∀ a, g.Feeds a v → a = start ∨ a ∈ visited ∨ a ∈ pending

/-- The start and visited nodes need not be looked at again. -/
theorem Searching.skip {g : Graph β} {start id : Nat} {pending visited : List Nat}
    (h : Searching g start (id :: pending) visited) (hskip : id = start ∨ id ∈ visited) :
    Searching g start pending visited where
  pending_leads x hx := h.pending_leads x (List.mem_cons_of_mem _ hx)
  visited_leads := h.visited_leads
  closed v hv a ha := by
    rcases h.closed v hv a ha with hs | hs | hs
    · exact Or.inl hs
    · exact Or.inr (Or.inl hs)
    · -- `a` may be the node that is skipped
      rcases List.mem_cons.mp hs with rfl | hs
      · exact hskip.imp_right Or.inl
      · exact Or.inr (Or.inr hs)

/-- What feeds a node that is visited becomes pending. -/
theorem Searching.visit {g : Graph β} {start id : Nat} {pending visited : List Nat}
    (h : Searching g start (id :: pending) visited) (hstart : id ≠ start) :
    Searching g start (g.sources id ++ pending) (id :: visited) where
  pending_leads x hx := by
    rcases List.mem_append.mp hx with hx | hx
    · exact TransGen.head (mem_sources.mp hx) (h.pending_leads id List.mem_cons_self)
    · exact h.pending_leads x (List.mem_cons_of_mem _ hx)
  visited_leads x hx := by
    rcases List.mem_cons.mp hx with rfl | hx
    · exact ⟨hstart, h.pending_leads x List.mem_cons_self⟩
    · exact h.visited_leads x hx
  closed v hv a ha := by
    have hcase : v = id ∨ v = start ∨ v ∈ visited := by
      rcases hv with hv | hv
      · exact Or.inr (Or.inl hv)
      · exact (List.mem_cons.mp hv).imp_right Or.inr
    rcases hcase with rfl | hv
    · exact Or.inr (Or.inr (List.mem_append_left _ (mem_sources.mpr ha)))
    · rcases h.closed v hv a ha with hs | hs | hs
      · exact Or.inl hs
      · exact Or.inr (Or.inl (List.mem_cons_of_mem _ hs))
      · rcases List.mem_cons.mp hs with rfl | hs
        · exact Or.inr (Or.inl List.mem_cons_self)
        · exact Or.inr (Or.inr (List.mem_append_right _ hs))

/-- Only the members of the pending list matter. -/
theorem Searching.congr {g : Graph β} {start : Nat} {pending pending' visited : List Nat}
    (h : Searching g start pending visited) (hmem : ∀ x, x ∈ pending' ↔ x ∈ pending) :
    Searching g start pending' visited where
  pending_leads x hx := h.pending_leads x ((hmem x).mp hx)
  visited_leads := h.visited_leads
  closed v hv a ha := (h.closed v hv a ha).imp_right (Or.imp_right (hmem a).mpr)

/-- When nothing is pending, the visited nodes and the start are closed under what feeds them. -/
theorem Searching.mem_iff {g : Graph β} {start x : Nat} {visited : List Nat}
    (h : Searching g start [] visited) : x ∈ visited ↔ x ≠ start ∧ TransGen g.Feeds x start := by
  refine ⟨h.visited_leads x, ?_⟩
  rintro ⟨hne, hlead⟩
  have hmem : ∀ y, TransGen g.Feeds y start → y = start ∨ y ∈ visited := by
    intro y hy
    induction hy using TransGen.head_induction_on with
    | single hstep => simpa using h.closed start (Or.inl rfl) _ hstep
    | head hstep _ ih => simpa using h.closed _ ih _ hstep
  exact (hmem x hlead).resolve_left hne

theorem searching_sources (g : Graph β) (start : Nat) : Searching g start (g.sources start) [] where
  pending_leads _ hx := TransGen.single (mem_sources.mp hx)
  visited_leads _ hx := absurd hx List.not_mem_nil
  closed v hv a ha := by
    rcases hv with rfl | hv
    · exact Or.inr (Or.inr (mem_sources.mpr ha))
    · exact absurd hv List.not_mem_nil

/-! ## Searches in any order -/

/-- One step of a search that may take any of its pending nodes. The start and visited nodes are
dropped; any other node is visited, and what feeds it becomes pending. -/
inductive Searches (g : Graph β) (start : Nat) : List Nat × List Nat → List Nat × List Nat → Prop
  | drop {id : Nat} {before after visited : List Nat} (h : id = start ∨ id ∈ visited) :
    Searches g start (before ++ id :: after, visited) (before ++ after, visited)
  | visit {id : Nat} {before after visited : List Nat} (h : ¬ (id = start ∨ id ∈ visited)) :
    Searches g start (before ++ id :: after, visited)
      (before ++ (g.sources id ++ after), id :: visited)

/-- Whichever pending nodes are taken, the search goes on until nothing is pending, and then the
visited nodes are as stated. -/
inductive Ends (g : Graph β) (start : Nat) (P : List Nat → Prop) : List Nat × List Nat → Prop
  | done {visited : List Nat} (h : P visited) : Ends g start P ([], visited)
  | step {now : List Nat × List Nat} (hnext : ∃ later, g.Searches start now later)
    (h : ∀ later, g.Searches start now later → Ends g start P later) : Ends g start P now

variable {g : Graph β} {start : Nat} {P : List Nat → Prop} {pending visited : List Nat}
  {now later : List Nat × List Nat}

/-- A step takes a pending node away, and connections that become pending are no longer waiting. -/
theorem Searches.lt (h : g.Searches start now later) :
    later.1.length + g.waiting start later.2 < now.1.length + g.waiting start now.2 := by
  cases h with
  | drop _ =>
    simp only [List.length_append, List.length_cons]
    omega
  | @visit id before after visited h =>
    rw [not_or] at h
    -- what becomes pending has been waiting until now
    have hwaiting := waiting_cons g h.1 h.2
    simp only [List.length_append, List.length_cons]
    omega

theorem not_searches_nil : ¬ g.Searches start ([], visited) later := by
  generalize hnow : (([], visited) : List Nat × List Nat) = now
  intro h
  cases h <;> simp at hnow

/-- A search can take the first pending node. -/
theorem searches_drop {id : Nat} (h : id = start ∨ id ∈ visited) :
    g.Searches start (id :: pending, visited) (pending, visited) :=
  @Searches.drop _ g start id [] pending visited h

theorem searches_visit {id : Nat} (h : ¬ (id = start ∨ id ∈ visited)) :
    g.Searches start (id :: pending, visited) (g.sources id ++ pending, id :: visited) :=
  @Searches.visit _ g start id [] pending visited h

theorem Searching.step (hsearch : Searching g start now.1 now.2)
    (h : g.Searches start now later) : Searching g start later.1 later.2 := by
  cases h with
  | @drop id before after visited h =>
    -- the node that is taken may as well stand in front
    have hfront : Searching g start (id :: (before ++ after)) visited :=
      hsearch.congr fun x => List.perm_middle.mem_iff.symm
    exact hfront.skip h
  | @visit id before after visited h =>
    have hfront : Searching g start (id :: (before ++ after)) visited :=
      hsearch.congr fun x => List.perm_middle.mem_iff.symm
    refine (hfront.visit (not_or.mp h).1).congr fun x => ?_
    simp only [List.mem_append, or_left_comm]

/-- **Every search.** By the connections that are pending or waiting, it ends; and what it has found
then is closed. -/
theorem Searching.ends (h : Searching g start now.1 now.2)
    (hP : ∀ visited, Searching g start [] visited → P visited) : g.Ends start P now := by
  induction hn : now.1.length + g.waiting start now.2 using Nat.strong_induction_on
    generalizing now with
  | _ n ih =>
    obtain ⟨_ | ⟨id, pending⟩, visited⟩ := now
    · exact .done (hP visited h)
    · refine .step ?_ fun later hstep => ih _ (hn ▸ hstep.lt) (h.step hstep) rfl
      by_cases hskip : id = start ∨ id ∈ visited
      · exact ⟨_, searches_drop hskip⟩
      · exact ⟨_, searches_visit hskip⟩

theorem Ends.of_nil (h : g.Ends start P ([], visited)) : P visited := by
  cases h with
  | done h => exact h
  | step hnext _ =>
    obtain ⟨later, hstep⟩ := hnext
    exact absurd hstep not_searches_nil

theorem Ends.of_searches (h : g.Ends start P now) (hstep : g.Searches start now later) :
    g.Ends start P later := by
  cases h with
  | done _ => exact absurd hstep not_searches_nil
  | step _ h => exact h later hstep

/-- The bounded search is one that takes the first pending node each time. -/
theorem Ends.visit {n : Nat} (h : g.Ends start P (pending, visited))
    (hn : pending.length + g.waiting start visited ≤ n) : P (g.visit start n pending visited) := by
  induction n generalizing pending visited with
  | zero =>
    have hpending : pending = [] := List.length_eq_zero_iff.mp (by omega)
    subst hpending
    exact h.of_nil
  | succ n ih =>
    cases pending with
    | nil => exact h.of_nil
    | cons id pending =>
      by_cases hskip : id = start ∨ id ∈ visited
      · rw [Graph.visit, if_pos hskip]
        have hstep : g.Searches start (id :: pending, visited) (pending, visited) :=
          searches_drop hskip
        exact ih (h.of_searches hstep) (Nat.le_of_lt_succ (hstep.lt.trans_le hn))
      · rw [Graph.visit, if_neg hskip]
        have hstep : g.Searches start (id :: pending, visited)
          (g.sources id ++ pending, id :: visited) := searches_visit hskip
        exact ih (h.of_searches hstep) (Nat.le_of_lt_succ (hstep.lt.trans_le hn))

/-- The ancestors of a node are the other nodes from which connections lead to it. -/
theorem mem_ancestors_iff {g : Graph β} (hg : g.WellFormed) {start x : Nat} :
    x ∈ g.ancestors start ↔ x ≠ start ∧ TransGen g.Feeds x start := by
  have hvisit : x ∈ g.visit start g.connections.length (g.sources start) [] ↔
      x ≠ start ∧ TransGen g.Feeds x start :=
    ((searching_sources g start).ends fun _ hend => hend.mem_iff).visit
      (P := fun visited => x ∈ visited ↔ x ≠ start ∧ TransGen g.Feeds x start)
      (length_sources_add_waiting g start).le
  simp only [ancestors, List.mem_filter, List.mem_range, decide_eq_true_eq, hvisit]
  refine and_iff_right_of_imp fun hlead => ?_
  obtain ⟨a, hfeeds, _⟩ := TransGen.head'_iff.mp hlead.2
  exact (hg.feeds_lt hfeeds).1

/-! ## In the evaluation order -/

/-- No node is fed by a later one. -/
theorem IsEvaluationOrder.pairwise {order : List Nat} (h : g.IsEvaluationOrder order) :
    order.Pairwise fun a b => ¬ g.Feeds b a := by
  rw [List.pairwise_iff_getElem]
  intro i j hi hj hij hfeeds
  have hlt := h.lt_of_transGen (.single hfeeds)
  rw [h.nodup.idxOf_getElem, h.nodup.idxOf_getElem] at hlt
  omega

/-- In an evaluation order cut down to the ancestors of a node, what feeds an ancestor stands before
it. -/
theorem mem_before_of_feeds (hg : g.WellFormed) {order before after : List Nat} {a x : Nat}
    (horder : g.IsEvaluationOrder order)
    (hsplit : order.filter (· ∈ g.ancestors start) = before ++ x :: after) (hfeeds : g.Feeds a x) :
    a ∈ before := by
  have hx : x ∈ g.ancestors start := by
    have hmem : x ∈ order.filter (· ∈ g.ancestors start) := by simp [hsplit]
    simpa using (List.mem_filter.mp hmem).2
  have hlead := TransGen.head hfeeds ((mem_ancestors_iff hg).mp hx).2
  -- the start feeds none of its ancestors
  have hne : a ≠ start := fun heq => horder.acyclic start (heq ▸ hlead)
  have ha : a ∈ before ++ x :: after := by
    rw [← hsplit, List.mem_filter, horder.mem_iff, decide_eq_true_eq]
    exact ⟨(hg.feeds_lt hfeeds).1, (mem_ancestors_iff hg).mpr ⟨hne, hlead⟩⟩
  -- so it is one of the ancestors; as it feeds `x`, it is neither `x` nor any later one
  have hpairwise := hsplit ▸ horder.pairwise.filter (· ∈ g.ancestors start)
  rw [List.pairwise_append, List.pairwise_cons] at hpairwise
  rcases List.mem_append.mp ha with ha | ha
  · exact ha
  · rcases List.mem_cons.mp ha with rfl | ha
    · exact absurd (.single hfeeds) (horder.acyclic a)
    · exact absurd hfeeds (hpairwise.2.1.1 a ha)

/-- **Ancestors.** In a graph with a history, with cycles or without, and for any number, whether it
is a node or not: the ancestors are the other nodes from which a chain of connections leads there.
Every search for them ends and has then visited exactly these. If there is no cycle, the evaluation
order cut down to the ancestors has each of them, after whatever is connected to it. -/
theorem search_ends_at_ancestors [Operable β] (operations : List (Operation β)) (start : Nat) :
    let g := ofOperations operations
    (∀ x, x ∈ g.ancestors start ↔ x ≠ start ∧ TransGen g.Feeds x start) ∧
    (g.ancestors start).Pairwise (· < ·) ∧
    g.Ends start (fun visited => ∀ x, x ∈ visited ↔ x ∈ g.ancestors start) (g.sources start, []) ∧
    (g.Acyclic → ∃ order, g.schedule = .ok order ∧ (∀ x ∈ g.ancestors start, x ∈ order) ∧
      ∀ before x after, order.filter (· ∈ g.ancestors start) = before ++ x :: after →
        ∀ c ∈ g.connections, c.destination = x → c.source ∈ before) := by
  intro g
  have hg : g.WellFormed := wellFormed_ofOperations operations
  refine ⟨fun x => mem_ancestors_iff hg, List.pairwise_lt_range.filter _, ?_, fun hacyclic => ?_⟩
  · exact (searching_sources g start).ends fun _ hend _ =>
      hend.mem_iff.trans (mem_ancestors_iff hg).symm
  · rcases hg.schedule with ⟨_, order, hschedule, horder⟩ | ⟨hcycle, _⟩
    · refine ⟨order, hschedule, fun x hx => (horder.mem_iff x).mpr ?_, ?_⟩
      · exact List.mem_range.mp (List.mem_filter.mp hx).1
      · rintro before x after hsplit c hc rfl
        exact mem_before_of_feeds hg horder hsplit ⟨c, hc, rfl, rfl⟩
    · exact absurd hacyclic hcycle

/-- From the color at 4, two ways lead to the output at 0. One of them leads also to the output at
3. -/
def diamond : List (Operation Builtin) :=
  [.edit (.create .output), .edit (.create .mix), .edit (.create .blend), .edit (.create .output),
    .edit (.create .color)] ++
  [⟨4, 0, 2, 0⟩, ⟨4, 0, 1, 0⟩, ⟨2, 0, 1, 1⟩, ⟨2, 0, 3, 0⟩, ⟨1, 0, 0, 0⟩].map
    fun c => .edit (.connect c)

theorem diamond_searched :
    (ofOperations diamond).Acyclic ∧ (ofOperations diamond).ancestors 0 = [1, 2, 4] ∧
      (¬ ∃ x, TransGen (ofOperations diamond).Feeds x 7) ∧
      ∀ c ∈ (ofOperations diamond).connections, c.destination = 1 → c.source ∈ [4, 2] := by
  have hfound : (ofOperations diamond).schedule = .ok [4, 2, 1, 3, 0] := by decide +kernel
  have hancestors : (ofOperations diamond).ancestors 0 = [1, 2, 4] := by decide +kernel
  have hacyclic : (ofOperations diamond).Acyclic := by
    rcases (wellFormed_ofOperations diamond).schedule with ⟨hacyclic, _⟩ | ⟨_, nodes, hcycle⟩
    · exact hacyclic
    · rw [hfound] at hcycle
      cases hcycle
  refine ⟨hacyclic, hancestors, ?_, ?_⟩
  · rintro ⟨x, hx⟩
    have hne : x ≠ 7 := fun heq => hacyclic 7 (heq ▸ hx)
    have hmem := ((search_ends_at_ancestors diamond 7).1 x).mpr ⟨hne, hx⟩
    have hnone : (ofOperations diamond).ancestors 7 = [] := by decide +kernel
    exact absurd (hnone ▸ hmem) List.not_mem_nil
  · obtain ⟨order, hschedule, _, hbefore⟩ := (search_ends_at_ancestors diamond 0).2.2.2 hacyclic
    rw [hfound] at hschedule
    cases hschedule
    exact hbefore [4, 2] 1 [] (by rw [hancestors]; rfl)

end Texel.Graph
