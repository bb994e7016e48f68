import Texel.Proofs.Graph.History

/-!
# Texel — the evaluation order is a topological order

`schedule` takes nodes that wait for no connection and releases what they feed. This module proves
that it answers with an order exactly when the connections form no cycle, and that the order is one
in which every connection leads forward.

* **`Feeds`**, **`Acyclic`**, **`IsEvaluationOrder`** — what the result is measured against.
* **`Waiting.released_foldl`** — what releasing a list of connections does, counted with
  multiplicity.
* **`Progress`** — the invariant of the loop: the degree of a node counts the connections into it
  from nodes that are not placed yet, and the nodes at hand are the unplaced ones of degree zero.
* **`Progress.step`**, **`Progress.take`** — one round and all rounds; the rounds suffice, because
  placed nodes and nodes at hand are distinct and all below the size.
* **`Progress.length_eq_iff`** — when nothing is at hand any more, all nodes are placed if and only
  if there is no cycle.
-/

namespace Texel.Graph

open Relation

variable {β : Type}

/-! ## Cycles and orders -/

/-- A connection leads from `a` to `b`. -/
def Feeds (g : Graph β) (a b : Nat) : Prop :=
  ∃ c ∈ g.connections, c.source = a ∧ c.destination = b

/-- No node feeds itself, directly or through others. -/
def Acyclic (g : Graph β) : Prop := ∀ id, ¬ TransGen g.Feeds id id

/-- An order of all nodes, each once, in which every connection leads forward. -/
structure IsEvaluationOrder (g : Graph β) (order : List Nat) : Prop where
  nodup : order.Nodup
  mem_iff : ∀ id, id ∈ order ↔ id < g.size
  forward : ∀ c ∈ g.connections, order.idxOf c.source < order.idxOf c.destination

theorem WellFormed.feeds_lt {g : Graph β} (h : g.WellFormed) {a b : Nat} (hab : g.Feeds a b) :
    a < g.size ∧ b < g.size := by
  obtain ⟨c, hc, rfl, rfl⟩ := hab
  obtain ⟨src, hsrc, _⟩ := h.leaves c hc
  obtain ⟨dst, hdst, _⟩ := h.enters c hc
  exact ⟨(List.getElem?_eq_some_iff.mp hsrc).1, (List.getElem?_eq_some_iff.mp hdst).1⟩

/-- A rank that every connection raises is raised along every path. -/
theorem rank_lt_of_transGen {g : Graph β} (rank : Nat → Nat)
    (h : ∀ c ∈ g.connections, rank c.source < rank c.destination) {a b : Nat}
    (hab : TransGen g.Feeds a b) : rank a < rank b := by
  induction hab with
  | single hstep =>
    obtain ⟨c, hc, rfl, rfl⟩ := hstep
    exact h c hc
  | tail _ hstep ih =>
    obtain ⟨c, hc, rfl, rfl⟩ := hstep
    exact ih.trans (h c hc)

theorem acyclic_of_rank {g : Graph β} (rank : Nat → Nat)
    (h : ∀ c ∈ g.connections, rank c.source < rank c.destination) : g.Acyclic :=
  fun _ hcycle => lt_irrefl _ (rank_lt_of_transGen rank h hcycle)

theorem IsEvaluationOrder.lt_of_transGen {g : Graph β} {order : List Nat}
    (h : g.IsEvaluationOrder order) {a b : Nat} (hab : TransGen g.Feeds a b) :
    order.idxOf a < order.idxOf b :=
  rank_lt_of_transGen order.idxOf h.forward hab

theorem IsEvaluationOrder.acyclic {g : Graph β} {order : List Nat}
    (h : g.IsEvaluationOrder order) : g.Acyclic :=
  acyclic_of_rank order.idxOf h.forward

theorem IsEvaluationOrder.notMem_done {g : Graph β} {order done rest : List Nat} {id : Nat}
    (h : g.IsEvaluationOrder order) (hsplit : done ++ id :: rest = order) : id ∉ done := by
  have hnodup := h.nodup
  rw [← hsplit, List.nodup_append] at hnodup
  exact fun hid => hnodup.2.2 id hid id List.mem_cons_self rfl

/-- Every set of nodes that are on no cycle has one that no other of them feeds. -/
theorem exists_source_of_not_transGen {g : Graph β} {p : Nat → Prop}
    (hcycle : ∀ id, p id → ¬ TransGen g.Feeds id id) (hlt : ∀ id, p id → id < g.size)
    (hex : ∃ id, p id) : ∃ id, p id ∧ ∀ a, g.Feeds a id → ¬ p a := by
  let r : Fin g.size → Fin g.size → Prop := fun a b => p a ∧ TransGen g.Feeds a b
  have : IsTrans (Fin g.size) r := ⟨fun _ _ _ hab hbc => ⟨hab.1, hab.2.trans hbc.2⟩⟩
  have : Std.Irrefl r := ⟨fun a ha => hcycle a ha.1 ha.2⟩
  have hwf : WellFounded r := Finite.wellFounded_of_trans_of_irrefl r
  obtain ⟨id, hid⟩ := hex
  obtain ⟨m, hm, hmin⟩ := hwf.has_min {x : Fin g.size | p x} ⟨⟨id, hlt id hid⟩, hid⟩
  refine ⟨m, hm, ?_⟩
  intro a hfeeds ha
  exact hmin ⟨a, hlt a ha⟩ ha ⟨ha, TransGen.single hfeeds⟩

/-- In a graph without cycles, every set of nodes has one that no other of them feeds. -/
theorem Acyclic.exists_source {g : Graph β} (h : g.Acyclic) {p : Nat → Prop}
    (hlt : ∀ id, p id → id < g.size) (hex : ∃ id, p id) :
    ∃ id, p id ∧ ∀ a, g.Feeds a id → ¬ p a :=
  exists_source_of_not_transGen (fun id _ => h id) hlt hex

/-! ## Releasing connections -/

namespace Waiting

theorem release_degrees (w : Waiting) (id x : Nat) (hid : id < w.degrees.length) :
    (w.release id).degrees.getD x 0 =
      if x = id then w.degrees.getD id 0 - 1 else w.degrees.getD x 0 := by
  simp only [release, List.getD_eq_getElem?_getD, List.getElem?_set]
  by_cases hx : x = id
  · subst hx
    simp [hid]
  · simp [hx, Ne.symm hx]

theorem release_ready (w : Waiting) (id : Nat) :
    (w.release id).ready =
      if w.degrees.getD id 0 - 1 = 0 then w.ready ++ [id] else w.ready := rfl

@[simp]
theorem release_length (w : Waiting) (id : Nat) :
    (w.release id).degrees.length = w.degrees.length := by
  simp [release]

/-- A node with a positive degree is one of the nodes. -/
theorem lt_length_of_pos {w : Waiting} {id : Nat} (h : 0 < w.degrees.getD id 0) :
    id < w.degrees.length := by
  by_contra hid
  rw [List.getD_eq_default _ _ (by omega)] at h
  exact lt_irrefl 0 h

/-- One connection released, provided there is one. -/
def release? (w : Waiting) (id : Nat) : Option Waiting :=
  if 0 < w.degrees.getD id 0 then some (w.release id) else none

/-- What releasing the connections into some nodes makes of the degrees: each goes down by the
number of occurrences, and the nodes that come to hand are those whose degree is used up, each
once. -/
structure Released (w : Waiting) (ids : List Nat) (w' : Waiting) : Prop where
  length : w'.degrees.length = w.degrees.length
  degrees : ∀ x, w'.degrees.getD x 0 = w.degrees.getD x 0 - ids.count x
  ready : ∃ new : List Nat, w'.ready = w.ready ++ new ∧ new.Nodup ∧
    ∀ x, x ∈ new ↔ x ∈ ids ∧ ids.count x = w.degrees.getD x 0

section Release

-- one connection into `id` is released first, and no node occurs more often than its degree allows
variable {w w' : Waiting} {id : Nat} {ids : List Nat}
  (hcount : ∀ x, (id :: ids).count x ≤ w.degrees.getD x 0)
include hcount

theorem pos_of_count : 0 < w.degrees.getD id 0 := by
  have := hcount id
  rw [List.count_cons_self] at this
  omega

/-- What is left to release fits the degrees after the first release. -/
theorem count_release (x : Nat) : ids.count x ≤ (w.release id).degrees.getD x 0 := by
  have := hcount x
  rw [release_degrees w id x (lt_length_of_pos (pos_of_count hcount))]
  by_cases hx : x = id
  · subst hx
    rw [List.count_cons_self] at this
    rw [if_pos rfl]
    omega
  · rwa [if_neg hx, ← List.count_cons_of_ne (Ne.symm hx)]

/-- A node is used up after the first release if it was before, as far as the rest is concerned. -/
theorem used_release {x : Nat} (hx : x ∈ ids ∨ x ≠ id) :
    (x ∈ ids ∧ ids.count x = (w.release id).degrees.getD x 0) ↔
      x ∈ id :: ids ∧ (id :: ids).count x = w.degrees.getD x 0 := by
  have hpos := pos_of_count hcount
  rw [release_degrees w id x (lt_length_of_pos hpos)]
  by_cases hsame : x = id
  · subst hsame
    have hmem := hx.resolve_right (fun h => h rfl)
    rw [if_pos rfl, List.count_cons_self]
    simp only [hmem, List.mem_cons_self, true_and]
    omega
  · simp [hsame, List.count_cons_of_ne (Ne.symm hsame)]

theorem Released.cons (h : Released (w.release id) ids w') : Released w (id :: ids) w' := by
  have hpos := pos_of_count hcount
  have hid := lt_length_of_pos hpos
  refine ⟨h.length.trans (release_length w id), fun x => ?_, ?_⟩
  · rw [h.degrees, release_degrees w id x hid]
    by_cases hx : x = id
    · subst hx
      rw [if_pos rfl, List.count_cons_self]
      omega
    · rw [if_neg hx, List.count_cons_of_ne (Ne.symm hx)]
  · obtain ⟨new, hready, hnodup, hnew⟩ := h.ready
    have hleft := count_release hcount id
    rw [release_degrees w id id hid, if_pos rfl] at hleft
    by_cases hzero : w.degrees.getD id 0 - 1 = 0
    · -- `id` comes to hand now, and cannot occur again
      have hlast : ids.count id = 0 := by omega
      have hnotin : id ∉ ids := List.count_eq_zero.mp hlast
      refine ⟨id :: new, ?_, List.nodup_cons.mpr ⟨fun hmem => hnotin ((hnew id).mp hmem).1, hnodup⟩,
        ?_⟩
      · rw [hready, release_ready, if_pos hzero, List.append_assoc, List.singleton_append]
      · intro x
        rw [List.mem_cons, hnew x]
        by_cases hx : x = id
        · subst hx
          simp only [true_or, List.mem_cons_self, List.count_cons_self, true_iff, true_and]
          omega
        · rw [used_release hcount (Or.inr hx)]
          simp [hx]
    · refine ⟨new, by rw [hready, release_ready, if_neg hzero], hnodup, fun x => ?_⟩
      rw [hnew x]
      by_cases hx : x ∈ ids ∨ x ≠ id
      · exact used_release hcount hx
      · -- `id` itself, with a degree that is not used up
        simp only [not_or, not_not] at hx
        obtain ⟨hnotin, rfl⟩ := hx
        have hlast : ids.count x = 0 := List.count_eq_zero.mpr hnotin
        simp only [hnotin, false_and, List.count_cons_self, hlast, false_iff, not_and]
        omega

end Release

/-- **Releasing a list of connections.** -/
theorem released_foldl (ids : List Nat) (w : Waiting)
    (hcount : ∀ x, ids.count x ≤ w.degrees.getD x 0) :
    Released w ids (ids.foldl release w) := by
  induction ids generalizing w with
  | nil => exact ⟨rfl, fun _ => by simp, [], by simp, by simp, by simp⟩
  | cons id ids ih => exact (ih (w.release id) (count_release hcount)).cons hcount

/-- No degree goes below zero on the way. -/
theorem foldlM_release? (ids : List Nat) (w : Waiting)
    (hcount : ∀ x, ids.count x ≤ w.degrees.getD x 0) :
    ids.foldlM release? w = some (ids.foldl release w) := by
  induction ids generalizing w with
  | nil => rfl
  | cons id ids ih =>
    rw [List.foldlM_cons, release?, if_pos (pos_of_count hcount)]
    exact ih (w.release id) (count_release hcount)

end Waiting

/-! ## The loop -/

/-- How far the loop has come: `placed` are the nodes taken so far. -/
structure Progress (g : Graph β) (placed : List Nat) (w : Waiting) : Prop where
  length : w.degrees.length = g.size
  /-- Degrees count the connections from nodes that are not placed. -/
  degree : ∀ id, w.degrees.getD id 0 =
    g.connections.countP fun c => c.destination = id ∧ c.source ∉ placed
  mem_ready : ∀ id, id ∈ w.ready ↔ id < g.size ∧ id ∉ placed ∧ w.degrees.getD id 0 = 0
  nodup : (placed ++ w.ready).Nodup
  lt_size : ∀ id ∈ placed, id < g.size
  /-- Everything that feeds a placed node has been placed before it. -/
  closed : ∀ before id after, placed = before ++ id :: after → ∀ a, g.Feeds a id → a ∈ before

theorem getD_inDegrees (g : Graph β) (id : Nat) :
    g.inDegrees.getD id 0 =
      if id < g.size then g.connections.countP (·.destination = id) else 0 := by
  simp only [inDegrees, List.getD_eq_getElem?_getD, List.getElem?_map]
  by_cases hid : id < g.size
  · simp [hid]
  · simp [hid]

/-- The start: nothing is placed, and what no connection enters is at hand. -/
theorem WellFormed.progress {g : Graph β} (h : g.WellFormed) : Progress g [] g.initialWaiting where
  length := by simp [initialWaiting, inDegrees]
  degree := by
    intro id
    simp only [initialWaiting, getD_inDegrees, List.not_mem_nil, not_false_eq_true, and_true]
    by_cases hid : id < g.size
    · rw [if_pos hid]
    · rw [if_neg hid, eq_comm, List.countP_eq_zero]
      intro c hc hdest
      have := (h.feeds_lt ⟨c, hc, rfl, rfl⟩).2
      simp only [decide_eq_true_eq] at hdest
      omega
  mem_ready := by
    intro id
    simp [initialWaiting]
  nodup := by
    simpa [initialWaiting] using List.nodup_range.filter _
  lt_size := by simp
  closed := by simp

/-- The connections into `x` that wait for `id` are those that `id` releases. -/
theorem countP_not_placed (cs : List Connection) {placed : List Nat} {id : Nat}
    (hid : id ∉ placed) (x : Nat) :
    cs.countP (fun c => c.destination = x ∧ c.source ∉ placed) =
      cs.countP (fun c => c.destination = x ∧ c.source ∉ placed ++ [id]) +
        ((cs.filter (·.source = id)).map (·.destination)).count x := by
  induction cs with
  | nil => simp
  | cons c cs ih =>
    simp only [List.countP_cons, List.filter_cons, ih]
    by_cases hs : c.source = id
    · by_cases hd : c.destination = x
      · simp [hs, hd, hid]
        omega
      · simp [hs, hd]
    · by_cases hd : c.destination = x
      · simp [hs, hd]
        omega
      · simp [hs, hd]

/-- What a node still waits for is what has not been placed. -/
theorem Progress.degree_eq_zero {g : Graph β} {placed : List Nat} {w : Waiting}
    (h : Progress g placed w) {id : Nat} (hid : w.degrees.getD id 0 = 0) {a : Nat}
    (ha : g.Feeds a id) : a ∈ placed := by
  obtain ⟨c, hc, rfl, rfl⟩ := ha
  rw [h.degree, List.countP_eq_zero] at hid
  have := hid c hc
  simpa using this

theorem mem_successors {g : Graph β} {id x : Nat} : x ∈ g.successors id ↔ g.Feeds id x := by
  simp only [successors, List.mem_map, List.mem_filter, decide_eq_true_eq, Feeds]
  constructor
  · rintro ⟨c, ⟨hc, hs⟩, hd⟩
    exact ⟨c, hc, hs, hd⟩
  · rintro ⟨c, hc, hs, hd⟩
    exact ⟨c, ⟨hc, hs⟩, hd⟩

/-- No node has more connections to release into it than its degree. -/
theorem Progress.count_le {g : Graph β} {placed : List Nat} {w : Waiting}
    (h : Progress g placed w) {id : Nat} (hid : id ∉ placed) (x : Nat) :
    (g.successors id).count x ≤ w.degrees.getD x 0 := by
  rw [h.degree, countP_not_placed g.connections hid x]
  exact Nat.le_add_left ..

/-- What a node that is not placed feeds is not placed. -/
theorem Progress.notMem_of_feeds {g : Graph β} {placed : List Nat} {w : Waiting}
    (h : Progress g placed w) {id x : Nat} (hid : id ∉ placed) (hfeeds : g.Feeds id x) :
    x ∉ placed := by
  intro hx
  obtain ⟨before, after, rfl⟩ := List.append_of_mem hx
  exact hid (List.mem_append_left _ (h.closed before x after rfl id hfeeds))

/-- A node that waits for nothing can be placed next. -/
theorem Progress.closed_snoc {g : Graph β} {placed : List Nat} {w : Waiting}
    (h : Progress g placed w) {id : Nat} (hzero : w.degrees.getD id 0 = 0) :
    ∀ before x after, placed ++ [id] = before ++ x :: after → ∀ a, g.Feeds a x → a ∈ before := by
  intro before x after hsplit a ha
  rcases List.eq_nil_or_concat after with rfl | ⟨after', y, rfl⟩
  · obtain ⟨rfl, hx⟩ := List.append_inj' hsplit rfl
    cases hx
    exact h.degree_eq_zero hzero ha
  · have hsplit' : placed ++ [id] = (before ++ x :: after') ++ [y] := by
      rw [hsplit]
      simp
    obtain ⟨hp, _⟩ := List.append_inj' hsplit' rfl
    exact h.closed before x after' hp a ha

section Round

-- the first node at hand has been taken, and what it feeds has been released
variable {g : Graph β} {placed ready : List Nat} {w w' : Waiting} {id : Nat}
  (h : Progress g placed w) (hready : w.ready = id :: ready)
  (hreleased : Waiting.Released { w with ready } (g.successors id) w')
include h hready

theorem Progress.first : id < g.size ∧ id ∉ placed ∧ w.degrees.getD id 0 = 0 :=
  (h.mem_ready id).mp (hready ▸ List.mem_cons_self)

include hreleased

theorem Progress.degree_round (x : Nat) : w'.degrees.getD x 0 =
    g.connections.countP fun c => c.destination = x ∧ c.source ∉ placed ++ [id] := by
  have hsum := countP_not_placed g.connections (h.first hready).2.1 x
  have hdegree := h.degree x
  rw [hreleased.degrees x]
  simp only [successors]
  omega

/-- What is at hand after the round was at hand before, or has just been used up. -/
theorem Progress.mem_ready_round (hg : g.WellFormed) (x : Nat) :
    x ∈ w'.ready ↔ x < g.size ∧ x ∉ placed ++ [id] ∧ w'.degrees.getD x 0 = 0 := by
  obtain ⟨_, hplaced, hzero⟩ := h.first hready
  obtain ⟨new, hnewReady, _, hnew⟩ := hreleased.ready
  have hcount := h.count_le hplaced x
  have hdegree : w'.degrees.getD x 0 = w.degrees.getD x 0 - (g.successors id).count x :=
    hreleased.degrees x
  rw [hnewReady, hdegree, List.mem_append, hnew x, List.mem_append, List.mem_singleton, not_or]
  constructor
  · rintro (hx | ⟨hx, hused⟩)
    · have hxready : x ∈ w.ready := hready ▸ List.mem_cons_of_mem _ hx
      obtain ⟨hlt, hxplaced, hxzero⟩ := (h.mem_ready x).mp hxready
      have hnodup := h.nodup
      rw [hready] at hnodup
      refine ⟨hlt, ⟨hxplaced, ?_⟩, by omega⟩
      rintro rfl
      exact (List.nodup_cons.mp (List.nodup_append.mp hnodup).2.1).1 hx
    · have hfeeds := mem_successors.mp hx
      have hpos : 0 < (g.successors id).count x := List.count_pos_iff.mpr hx
      change (g.successors id).count x = w.degrees.getD x 0 at hused
      refine ⟨(hg.feeds_lt hfeeds).2, ⟨h.notMem_of_feeds hplaced hfeeds, ?_⟩, by omega⟩
      rintro rfl
      omega
  · rintro ⟨hlt, ⟨hxplaced, hne⟩, hxzero⟩
    by_cases hold : w.degrees.getD x 0 = 0
    · have hxready := (h.mem_ready x).mpr ⟨hlt, hxplaced, hold⟩
      rw [hready] at hxready
      exact Or.inl ((List.mem_cons.mp hxready).resolve_left hne)
    · refine Or.inr ⟨List.count_pos_iff.mp (by omega), ?_⟩
      change (g.successors id).count x = w.degrees.getD x 0
      omega

theorem Progress.nodup_round : (placed ++ [id] ++ w'.ready).Nodup := by
  obtain ⟨_, hplaced, _⟩ := h.first hready
  obtain ⟨new, hnewReady, hnodup, hnew⟩ := hreleased.ready
  have hold := h.nodup
  rw [hready] at hold
  rw [hnewReady, List.append_assoc, List.singleton_append, ← List.cons_append, ← List.append_assoc]
  refine List.nodup_append.mpr ⟨hold, hnodup, ?_⟩
  rintro x hx _ hxnew rfl
  -- a node that comes to hand has waited for something until now
  obtain ⟨hsuccessor, hused⟩ := (hnew x).mp hxnew
  have hpos : 0 < (g.successors id).count x := List.count_pos_iff.mpr hsuccessor
  have hxready : x ∈ w.ready := by
    rw [hready]
    exact (List.mem_append.mp hx).resolve_left
      (h.notMem_of_feeds hplaced (mem_successors.mp hsuccessor))
  have hxzero := ((h.mem_ready x).mp hxready).2.2
  change (g.successors id).count x = w.degrees.getD x 0 at hused
  omega

end Round

/-- **One round.** Taking the first node at hand and releasing what it feeds. -/
theorem Progress.step {g : Graph β} (hg : g.WellFormed) {placed : List Nat} {w : Waiting}
    (h : Progress g placed w) {id : Nat} {ready : List Nat} (hready : w.ready = id :: ready) :
    Progress g (placed ++ [id]) ((g.successors id).foldl .release { w with ready }) := by
  obtain ⟨hlt, hplaced, hzero⟩ := h.first hready
  have hreleased := Waiting.released_foldl (g.successors id) { w with ready } (h.count_le hplaced)
  refine ⟨hreleased.length.trans h.length, h.degree_round hready hreleased,
    h.mem_ready_round hready hreleased hg, h.nodup_round hready hreleased, fun x hx => ?_,
    h.closed_snoc hzero⟩
  rcases List.mem_append.mp hx with hx | hx
  · exact h.lt_size x hx
  · rwa [List.mem_singleton.mp hx]

/-- `take` with every subtraction checked. -/
def takeChecked (g : Graph β) : Nat → Waiting → Option (List Nat × Waiting)
  | 0, w => some ([], w)
  | n + 1, w =>
    match w.ready with
    | [] => some ([], w)
    | id :: ready => do
      let released ← (g.successors id).foldlM Waiting.release? { w with ready }
      let (rest, final) ← g.takeChecked n released
      return (id :: rest, final)

/-- When all nodes are placed, none is left to be at hand. -/
theorem Progress.ready_eq_nil {g : Graph β} {placed : List Nat} {w : Waiting}
    (h : Progress g placed w) (hlen : placed.length = g.size) : w.ready = [] := by
  have hle : (placed ++ w.ready).length ≤ (List.range g.size).length := by
    refine h.nodup.length_le_of_subset fun x hx => List.mem_range.mpr ?_
    rcases List.mem_append.mp hx with hx | hx
    · exact h.lt_size x hx
    · exact ((h.mem_ready x).mp hx).1
  rw [List.length_append, List.length_range] at hle
  exact List.length_eq_zero_iff.mp (by omega)

/-- **All rounds.** As many rounds as there are nodes left use up what is at hand, and no degree
goes below zero on the way. -/
theorem Progress.take {g : Graph β} (hg : g.WellFormed) :
    ∀ {n : Nat} {placed : List Nat} {w : Waiting}, Progress g placed w →
      n + placed.length = g.size →
      g.takeChecked n w = some (g.take n w) ∧ (g.take n w).2.ready = [] ∧
        Progress g (placed ++ (g.take n w).1) (g.take n w).2 := by
  intro n
  induction n with
  | zero =>
    intro placed w h hn
    refine ⟨rfl, h.ready_eq_nil (by omega), ?_⟩
    rw [show (g.take 0 w).1 = [] from rfl, List.append_nil]
    exact h
  | succ n ih =>
    intro placed w h hn
    cases hready : w.ready with
    | nil =>
      have htake : g.take (n + 1) w = ([], w) := by
        rw [Graph.take, hready]
      refine ⟨?_, ?_, ?_⟩
      · rw [takeChecked, hready, htake]
      · rw [htake, hready]
      · rw [htake, List.append_nil]
        exact h
    | cons id ready =>
      have hrelease := Waiting.foldlM_release? (g.successors id) { w with ready }
        (h.count_le (h.first hready).2.1)
      obtain ⟨hchecked, hempty, hprogress⟩ := ih (h.step hg hready) (by simp; omega)
      have htake : g.take (n + 1) w =
          (id :: (g.take n ((g.successors id).foldl .release { w with ready })).1,
            (g.take n ((g.successors id).foldl .release { w with ready })).2) := by
        rw [Graph.take, hready]
      refine ⟨?_, ?_, ?_⟩
      · rw [takeChecked, hready]
        simp only [hrelease, Option.bind_eq_bind, Option.bind_some, hchecked, htake]
        rfl
      · rw [htake]
        exact hempty
      · rw [htake]
        simpa using hprogress

/-! ## Reading the result -/

/-- Once as many nodes are placed as there are, they are all placed. -/
theorem Progress.mem_placed_iff {g : Graph β} {placed : List Nat} {w : Waiting}
    (h : Progress g placed w) (hlen : placed.length = g.size) (id : Nat) :
    id ∈ placed ↔ id < g.size := by
  have hnodup : placed.Nodup := (List.nodup_append.mp h.nodup).1
  have hsub : placed ⊆ List.range g.size := fun x hx => List.mem_range.mpr (h.lt_size x hx)
  have hperm : placed.Perm (List.range g.size) :=
    (List.subperm_of_subset hnodup hsub).perm_of_length_le (by simp [hlen])
  rw [hperm.mem_iff, List.mem_range]

theorem Progress.isEvaluationOrder {g : Graph β} {placed : List Nat} {w : Waiting}
    (hg : g.WellFormed) (h : Progress g placed w) (hlen : placed.length = g.size) :
    g.IsEvaluationOrder placed where
  nodup := (List.nodup_append.mp h.nodup).1
  mem_iff := h.mem_placed_iff hlen
  forward := by
    intro c hc
    have hfeeds : g.Feeds c.source c.destination := ⟨c, hc, rfl, rfl⟩
    have hdest : c.destination ∈ placed :=
      (h.mem_placed_iff hlen _).mpr (hg.feeds_lt hfeeds).2
    obtain ⟨before, after, hsplit⟩ := List.append_of_mem hdest
    have hsource : c.source ∈ before := h.closed before c.destination after hsplit _ hfeeds
    have hnodup : placed.Nodup := (List.nodup_append.mp h.nodup).1
    have hnotin : c.destination ∉ before := by
      intro hmem
      rw [hsplit] at hnodup
      exact (List.nodup_append.mp hnodup).2.2 _ hmem _ List.mem_cons_self rfl
    rw [hsplit, List.idxOf_append_of_mem hsource, List.idxOf_append_of_notMem hnotin]
    have := List.idxOf_lt_length_iff.mpr hsource
    omega

/-- When nothing is at hand, the placed nodes are all nodes if and only if there is no cycle. -/
theorem Progress.length_eq_iff {g : Graph β} {placed : List Nat} {w : Waiting}
    (hg : g.WellFormed) (h : Progress g placed w) (hempty : w.ready = []) :
    placed.length = g.size ↔ g.Acyclic := by
  constructor
  · intro hlen
    exact (h.isEvaluationOrder hg hlen).acyclic
  · intro hacyclic
    -- every node is placed: take an unplaced one that only placed nodes feed
    have hall : ∀ id, id < g.size → id ∈ placed := by
      by_contra hex
      simp only [not_forall] at hex
      obtain ⟨id, hlt, hid⟩ := hex
      obtain ⟨m, ⟨hmlt, hm⟩, hsource⟩ := hacyclic.exists_source
        (p := fun id => id < g.size ∧ id ∉ placed) (fun _ hp => hp.1) ⟨id, hlt, hid⟩
      -- it waits for nothing, and yet it is not at hand
      have hzero : w.degrees.getD m 0 = 0 := by
        rw [h.degree, List.countP_eq_zero]
        intro c hc hwaits
        simp only [decide_eq_true_eq] at hwaits
        have hfeeds : g.Feeds c.source m := ⟨c, hc, rfl, hwaits.1⟩
        exact hsource c.source hfeeds ⟨(hg.feeds_lt hfeeds).1, hwaits.2⟩
      have hmem := (h.mem_ready m).mpr ⟨hmlt, hm, hzero⟩
      rw [hempty] at hmem
      cases hmem
    have hnodup : placed.Nodup := (List.nodup_append.mp h.nodup).1
    have hle : placed.length ≤ (List.range g.size).length :=
      hnodup.length_le_of_subset fun x hx => List.mem_range.mpr (h.lt_size x hx)
    have hge : (List.range g.size).length ≤ placed.length :=
      List.nodup_range.length_le_of_subset fun x hx => hall x (List.mem_range.mp hx)
    rw [List.length_range] at hle hge
    omega

/-- What `schedule` answers for a well-formed graph. -/
theorem WellFormed.schedule {g : Graph β} (h : g.WellFormed) :
    (g.Acyclic ∧ ∃ order, g.schedule = .ok order ∧ g.IsEvaluationOrder order) ∨
    (¬ g.Acyclic ∧ ∃ nodes, g.schedule = .error (.cycle nodes)) := by
  obtain ⟨_, hempty, hprogress⟩ := h.progress.take h (n := g.size) (by simp)
  rw [List.nil_append] at hprogress
  by_cases hlen : (g.take g.size g.initialWaiting).1.length = g.size
  · refine Or.inl ⟨(hprogress.length_eq_iff h hempty).mp hlen, _, ?_,
      hprogress.isEvaluationOrder h hlen⟩
    simp only [Graph.schedule, hlen, if_true]
  · refine Or.inr ⟨fun hacyclic => hlen ((hprogress.length_eq_iff h hempty).mpr hacyclic),
      (List.range g.size).filter fun id =>
        0 < (g.take g.size g.initialWaiting).2.degrees.getD id 0, ?_⟩
    simp only [Graph.schedule, hlen, if_false]

/-- The evaluation order of any graph with a history. It exists exactly when the connections form no
cycle; then it lists every node once and every connection leads forward. The rounds of the loop use
up the nodes at hand, and no degree is taken below zero in them. -/
theorem schedule_isEvaluationOrder [Operable β] (operations : List (Operation β)) :
    let g := ofOperations operations
    (match g.schedule with
      | .ok order => g.Acyclic ∧ g.IsEvaluationOrder order
      | .error _ => ¬ g.Acyclic) ∧
    (g.take g.size g.initialWaiting).2.ready = [] ∧
    g.takeChecked g.size g.initialWaiting = some (g.take g.size g.initialWaiting) := by
  intro g
  have h : g.WellFormed := wellFormed_ofOperations operations
  obtain ⟨hchecked, hempty, _⟩ := h.progress.take h (n := g.size) (by simp)
  refine ⟨?_, hempty, hchecked⟩
  rcases h.schedule with ⟨hacyclic, order, hs, horder⟩ | ⟨hcycle, nodes, hs⟩
  · rw [hs]
    exact ⟨hacyclic, horder⟩
  · rw [hs]
    exact hcycle

end Texel.Graph
