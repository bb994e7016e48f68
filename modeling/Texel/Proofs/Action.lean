import Texel.Action
import Mathlib

/-!
# Texel — actions that return

`x.Returns s a s'` says that the action succeeds from the state `s` with the value `a` and leaves
the state `s'`; the events it reports are left open. Each way to make an action has its rule, so a
whole sequence is followed step by step without opening any of them. `x.Stops s s'` says that it
fails and leaves the state `s'`. `x.Keeps P` says that whatever holds of the state holds of it
afterwards, whether the action succeeds or not. `x.Meets s Q R` is about both outcomes: an error is
one of `Q`, and what is returned is as `R` states.
-/

namespace Texel.Action

variable {σ τ ε ε' α β : Type}

def Returns (x : Action σ ε α) (s : σ) (a : α) (s' : σ) : Prop :=
  (x.run s).result = .ok a ∧ (x.run s).state = s'

theorem Returns.pure (a : α) (s : σ) : (pure a : Action σ ε α).Returns s a s := ⟨rfl, rfl⟩

theorem Returns.state (s : σ) : (state : Action σ ε σ).Returns s s s := ⟨rfl, rfl⟩

theorem Returns.update (f : σ → σ) (s : σ) : (update f : Action σ ε Unit).Returns s () (f s) :=
  ⟨rfl, rfl⟩

theorem Returns.update_of {f : σ → σ} {s s' : σ} (h : f s = s') :
    (Action.update f : Action σ ε Unit).Returns s () s' :=
  ⟨rfl, h⟩

theorem Returns.report (e : Event) (s : σ) : (report e : Action σ ε Unit).Returns s () s :=
  ⟨rfl, rfl⟩

theorem Returns.reportAll (es : List Event) (s : σ) :
    (reportAll es : Action σ ε Unit).Returns s () s :=
  ⟨rfl, rfl⟩

theorem Returns.ofExcept {x : Except ε α} {a : α} (h : x = .ok a) (s : σ) :
    (ofExcept x : Action σ ε α).Returns s a s :=
  ⟨h, rfl⟩

theorem Returns.ofOption {o : Option α} {a : α} (h : o = some a) (e : ε) (s : σ) :
    (ofOption e o : Action σ ε α).Returns s a s := by
  subst h
  exact ⟨rfl, rfl⟩

/-- One step after another. -/
theorem Returns.bind {x : Action σ ε α} {f : α → Action σ ε β} {s s' s'' : σ} {a : α} {b : β}
    (hx : x.Returns s a s') (hf : (f a).Returns s' b s'') : (x >>= f).Returns s b s'' := by
  obtain ⟨hresult, hstate⟩ := hx
  show ((Action.bind x f) s).result = _ ∧ ((Action.bind x f) s).state = _
  unfold Action.bind
  cases hxs : x s with
  | mk result state events =>
    have hrun : x.run s = ⟨result, state, events⟩ := hxs
    rw [hrun] at hresult hstate
    simp only at hresult hstate
    rw [hresult, hstate]
    exact hf

/-- The steps of a sequence that returns. -/
theorem Returns.of_bind {x : Action σ ε α} {f : α → Action σ ε β} {s s'' : σ} {b : β}
    (h : (x >>= f).Returns s b s'') : ∃ a s', x.Returns s a s' ∧ (f a).Returns s' b s'' := by
  obtain ⟨hresult, hstate⟩ := h
  change ((Action.bind x f) s).result = _ at hresult
  change ((Action.bind x f) s).state = _ at hstate
  unfold Action.bind at hresult hstate
  cases hxs : x s with
  | mk result state events =>
    rw [hxs] at hresult hstate
    cases result with
    | error e => cases hresult
    | ok a =>
      refine ⟨a, state, ⟨?_, ?_⟩, hresult, hstate⟩
      · rw [run, hxs]
      · rw [run, hxs]

theorem returns_bind_iff {x : Action σ ε α} {f : α → Action σ ε β} {s s'' : σ} {b : β} :
    (x >>= f).Returns s b s'' ↔ ∃ a s', x.Returns s a s' ∧ (f a).Returns s' b s'' := by
  constructor
  · exact Returns.of_bind
  · rintro ⟨a, s', hx, hf⟩
    exact hx.bind hf

/-- A sequence stops where its first step stops. -/
theorem result_bind_of_error {x : Action σ ε α} {f : α → Action σ ε β} {s : σ} {e : ε}
    (h : (x.run s).result = .error e) : ((x >>= f).run s).result = .error e := by
  show ((Action.bind x f) s).result = _
  unfold Action.bind
  cases hxs : x s with
  | mk result state events =>
    rw [run, hxs] at h
    simp only at h
    rw [h]

/-- A sequence whose first step returns has the result of the others. -/
theorem Returns.result_bind {x : Action σ ε α} {f : α → Action σ ε β} {s s' : σ} {a : α}
    (hx : x.Returns s a s') : ((x >>= f).run s).result = ((f a).run s').result := by
  obtain ⟨hresult, hstate⟩ := hx
  show ((Action.bind x f) s).result = _
  unfold Action.bind
  cases hxs : x s with
  | mk result state events =>
    rw [run, hxs] at hresult hstate
    simp only at hresult hstate
    rw [hresult, hstate]
    rfl

/-- The same for the state that is left. -/
theorem state_bind_of_error {x : Action σ ε α} {f : α → Action σ ε β} {s : σ} {e : ε}
    (h : (x.run s).result = .error e) : ((x >>= f).run s).state = (x.run s).state := by
  show ((Action.bind x f) s).state = _
  unfold Action.bind
  cases hxs : x s with
  | mk result state events =>
    rw [run, hxs] at h
    simp only at h
    rw [h, run, hxs]

theorem Returns.state_bind {x : Action σ ε α} {f : α → Action σ ε β} {s s' : σ} {a : α}
    (hx : x.Returns s a s') : ((x >>= f).run s).state = ((f a).run s').state := by
  obtain ⟨hresult, hstate⟩ := hx
  show ((Action.bind x f) s).state = _
  unfold Action.bind
  cases hxs : x s with
  | mk result state events =>
    rw [run, hxs] at hresult hstate
    simp only at hresult hstate
    rw [hresult, hstate]
    rfl

/-- A sequence that stops has stopped at its first step or after it. -/
theorem error_of_bind {x : Action σ ε α} {f : α → Action σ ε β} {s : σ} {e : ε}
    (h : ((x >>= f).run s).result = .error e) :
    (x.run s).result = .error e ∨ ∃ a s', x.Returns s a s' ∧ ((f a).run s').result = .error e := by
  cases hx : (x.run s).result with
  | error e' =>
    rw [result_bind_of_error hx] at h
    exact Or.inl (congrArg Except.error (Except.error.inj h))
  | ok a =>
    have hreturns : x.Returns s a (x.run s).state := ⟨hx, rfl⟩
    exact Or.inr ⟨a, _, hreturns, hreturns.result_bind.symm.trans h⟩

theorem Returns.mapError {x : Action σ ε α} {s s' : σ} {a : α} (h : x.Returns s a s')
    (f : ε → ε') : (x.mapError f).Returns s a s' := by
  refine ⟨?_, h.2⟩
  show (x.run s).result.mapError f = _
  rw [h.1]
  rfl

theorem Returns.attempt {x : Action σ ε α} {s s' : σ} {a : α} (h : x.Returns s a s') :
    (x.attempt : Action σ ε' (Except ε α)).Returns s (.ok a) s' :=
  ⟨congrArg Except.ok h.1, h.2⟩

/-- An action on a part of the state leaves the rest alone. -/
theorem Returns.within {x : Action σ ε α} {part : τ → σ} {put : τ → σ → τ} {t : τ} {a : α} {s' : σ}
    (h : x.Returns (part t) a s') : (x.within part put).Returns t a (put t s') := by
  refine ⟨h.1, ?_⟩
  show put t (x.run (part t)).state = _
  rw [h.2]

theorem Returns.each_nil (f : α → Action σ ε Unit) (s : σ) : (each f []).Returns s () s :=
  .pure () s

theorem Returns.each_cons {f : α → Action σ ε Unit} {x : α} {xs : List α} {s s' s'' : σ}
    (hx : (f x).Returns s () s') (hxs : (each f xs).Returns s' () s'') :
    (each f (x :: xs)).Returns s () s'' :=
  hx.bind hxs

/-- A loop over one item. -/
theorem Returns.of_each_singleton {f : α → Action σ ε Unit} {x : α} {s s' : σ}
    (h : (each f [x]).Returns s () s') : (f x).Returns s () s' := by
  obtain ⟨_, s₁, hx, hnil⟩ := h.of_bind
  obtain rfl : s₁ = s' := hnil.2
  exact hx

/-- **Loops.** What a loop keeps may depend on the items that it has dealt with. -/
theorem Returns.each {f : α → Action σ ε Unit} {P : List α → σ → Prop} {xs : List α}
    (hf : ∀ done x rest, done ++ x :: rest = xs → ∀ s, P done s →
      ∃ s', (f x).Returns s () s' ∧ P (done ++ [x]) s') {s : σ} (hs : P [] s) :
    ∃ s', (each f xs).Returns s () s' ∧ P xs s' := by
  suffices hloop : ∀ rest done, done ++ rest = xs → ∀ s, P done s →
      ∃ s', (Action.each f rest).Returns s () s' ∧ P xs s' from hloop xs [] rfl s hs
  intro rest
  induction rest with
  | nil =>
    intro done hdone s hs
    rw [List.append_nil] at hdone
    exact ⟨s, .each_nil f s, hdone ▸ hs⟩
  | cons x rest ih =>
    intro done hdone s hs
    obtain ⟨s', hx, hs'⟩ := hf done x rest hdone s hs
    obtain ⟨s'', hrest, hs''⟩ := ih (done ++ [x]) (by rw [← hdone]; simp) s' hs'
    exact ⟨s'', .each_cons hx hrest, hs''⟩

/-- A loop that stops has stopped at one of its items. -/
theorem error_of_each {f : α → Action σ ε Unit} {xs : List α} {s : σ} {e : ε}
    (h : ((Action.each f xs).run s).result = .error e) :
    ∃ before x after s', xs = before ++ x :: after ∧ (Action.each f before).Returns s () s' ∧
      ((f x).run s').result = .error e := by
  induction xs generalizing s with
  | nil => cases h
  | cons x xs ih =>
    rcases error_of_bind h with h | ⟨_, s', hx, h⟩
    · exact ⟨[], x, xs, s, rfl, .each_nil f s, h⟩
    · obtain ⟨before, y, after, s'', rfl, hbefore, hy⟩ := ih h
      exact ⟨x :: before, y, after, s'', rfl, .each_cons hx hbefore, hy⟩

theorem each_map {γ : Type} (f : α → Action σ ε Unit) (k : γ → α) (xs : List γ) :
    Action.each f (xs.map k) = Action.each (fun x => f (k x)) xs := by
  induction xs with
  | nil => rfl
  | cons x xs ih => rw [List.map_cons, Action.each, Action.each, ih]

/-! ## What an action that has returned did -/

theorem Returns.of_pure {a b : α} {s s' : σ} (h : (Pure.pure a : Action σ ε α).Returns s b s') :
    a = b ∧ s = s' :=
  ⟨Except.ok.inj h.1, h.2⟩

theorem Returns.of_state {s a s' : σ} (h : (Action.state : Action σ ε σ).Returns s a s') :
    s = a ∧ s = s' :=
  ⟨Except.ok.inj h.1, h.2⟩

theorem Returns.of_update {f : σ → σ} {s s' : σ}
    (h : (Action.update f : Action σ ε Unit).Returns s () s') :
    s' = f s :=
  h.2.symm

theorem Returns.of_ofExcept {x : Except ε α} {s s' : σ} {a : α}
    (h : (Action.ofExcept x : Action σ ε α).Returns s a s') : x = .ok a ∧ s = s' :=
  h

theorem Returns.of_ofOption {o : Option α} {e : ε} {s s' : σ} {a : α}
    (h : (Action.ofOption e o : Action σ ε α).Returns s a s') : o = some a ∧ s = s' := by
  cases o with
  | none => cases h.1
  | some b => exact ⟨congrArg some (Except.ok.inj h.1), h.2⟩

theorem Returns.of_within {x : Action σ ε α} {part : τ → σ} {put : τ → σ → τ} {t t' : τ} {a : α}
    (h : (x.within part put).Returns t a t') : ∃ s', x.Returns (part t) a s' ∧ t' = put t s' :=
  ⟨_, ⟨h.1, rfl⟩, h.2.symm⟩

theorem Returns.of_mapError {x : Action σ ε α} {f : ε → ε'} {s s' : σ} {a : α}
    (h : (x.mapError f).Returns s a s') : x.Returns s a s' := by
  obtain ⟨hresult, hstate⟩ := h
  change (x.run s).result.mapError f = _ at hresult
  cases hx : (x.run s).result with
  | error e =>
    rw [hx] at hresult
    cases hresult
  | ok b =>
    rw [hx] at hresult
    cases hresult
    exact ⟨hx, hstate⟩

/-- **Loops**, one item at a time. -/
theorem Returns.of_each {f : α → Action σ ε Unit} {P : List α → σ → Prop} {xs : List α}
    (hf : ∀ done x rest, done ++ x :: rest = xs → ∀ s s', P done s → (f x).Returns s () s' →
      P (done ++ [x]) s') {s s' : σ} (hs : P [] s) (h : (Action.each f xs).Returns s () s') :
    P xs s' := by
  suffices hloop : ∀ rest done, done ++ rest = xs → ∀ s, P done s →
      (Action.each f rest).Returns s () s' → P xs s' from hloop xs [] rfl s hs h
  intro rest
  induction rest with
  | nil =>
    intro done hdone s hs h
    rw [List.append_nil] at hdone
    rw [← h.of_pure.2, ← hdone]
    exact hs
  | cons x rest ih =>
    intro done hdone s hs h
    obtain ⟨_, s₁, hx, hrest⟩ := h.of_bind
    refine ih (done ++ [x]) (by rw [← hdone]; simp) s₁ ?_ hrest
    exact hf done x rest hdone s s₁ hs hx

/-- In a loop that has returned, every item has. -/
theorem Returns.exists_of_each {f : α → Action σ ε Unit} {xs : List α} {s s' : σ}
    (h : (Action.each f xs).Returns s () s') {x : α} (hx : x ∈ xs) :
    ∃ t t', (f x).Returns t () t' := by
  induction xs generalizing s with
  | nil => cases hx
  | cons y xs ih =>
    obtain ⟨_, s₁, hy, hrest⟩ := h.of_bind
    rcases List.mem_cons.mp hx with rfl | hx
    · exact ⟨s, s₁, hy⟩
    · exact ih hrest hx

/-! ## Actions that stop -/

def Stops (x : Action σ ε α) (s s' : σ) : Prop :=
  ∃ e, (x.run s).result = .error e ∧ (x.run s).state = s'

theorem Stops.fail (e : ε) (s : σ) : (Action.fail e : Action σ ε α).Stops s s := ⟨e, rfl, rfl⟩

/-- Nothing comes after the step that stops. -/
theorem Stops.bind {x : Action σ ε α} {s s' : σ} (h : x.Stops s s') (f : α → Action σ ε β) :
    (x >>= f).Stops s s' := by
  obtain ⟨e, hresult, hstate⟩ := h
  exact ⟨e, result_bind_of_error hresult, (state_bind_of_error hresult).trans hstate⟩

theorem Returns.stops {x : Action σ ε α} {s s' s'' : σ} {a : α} (hx : x.Returns s a s')
    {f : α → Action σ ε β} (h : (f a).Stops s' s'') : (x >>= f).Stops s s'' := by
  obtain ⟨e, hresult, hstate⟩ := h
  exact ⟨e, hx.result_bind.trans hresult, hx.state_bind.trans hstate⟩

theorem Stops.within {x : Action σ ε α} {part : τ → σ} {put : τ → σ → τ} {t : τ} {s' : σ}
    (h : x.Stops (part t) s') : (x.within part put).Stops t (put t s') := by
  obtain ⟨e, hresult, rfl⟩ := h
  exact ⟨e, hresult, rfl⟩

/-! ## What actions keep -/

def Keeps (P : σ → Prop) (x : Action σ ε α) : Prop := ∀ s, P s → P (x.run s).state

variable {P : σ → Prop}

theorem Keeps.pure (a : α) : Keeps P (Pure.pure a : Action σ ε α) := fun _ h => h

theorem Keeps.state : Keeps P (Action.state : Action σ ε σ) := fun _ h => h

theorem Keeps.report (e : Event) : Keeps P (Action.report e : Action σ ε Unit) := fun _ h => h

theorem Keeps.reportAll (es : List Event) : Keeps P (Action.reportAll es : Action σ ε Unit) :=
  fun _ h => h

theorem Keeps.ofExcept (x : Except ε α) : Keeps P (Action.ofExcept x : Action σ ε α) := fun _ h => h

theorem Keeps.ofOption (e : ε) (o : Option α) : Keeps P (Action.ofOption e o : Action σ ε α) := by
  cases o with
  | none => exact fun _ h => h
  | some a => exact fun _ h => h

theorem Keeps.fail (e : ε) : Keeps P (Action.fail e : Action σ ε α) := fun _ h => h

theorem Keeps.update {f : σ → σ} (h : ∀ s, P s → P (f s)) :
    Keeps P (Action.update f : Action σ ε Unit) := h

theorem Keeps.attempt {x : Action σ ε α} (h : Keeps P x) :
    Keeps P (x.attempt : Action σ ε' (Except ε α)) := h

theorem Returns.kept {x : Action σ ε α} {s s' : σ} {a : α} (h : x.Returns s a s') (hx : Keeps P x)
    (hs : P s) : P s' :=
  h.2 ▸ hx s hs

/-- The second step runs only if the first one returns. -/
theorem Keeps.after {f : α → Action σ ε β} (hf : ∀ a, Keeps P (f a)) {x : Action σ ε α} {s : σ}
    (hx : P (x.run s).state) : P ((x >>= f).run s).state := by
  show P ((Action.bind x f) s).state
  unfold Action.bind
  cases hxs : x s with
  | mk result state events =>
    rw [run, hxs] at hx
    cases result with
    | error e => exact hx
    | ok a => exact hf a state hx

theorem Keeps.bind {x : Action σ ε α} {f : α → Action σ ε β} (hx : Keeps P x)
    (hf : ∀ a, Keeps P (f a)) : Keeps P (x >>= f) :=
  fun s hs => Keeps.after hf (hx s hs)

theorem Keeps.each {f : α → Action σ ε Unit} (hf : ∀ x, Keeps P (f x)) (xs : List α) :
    Keeps P (Action.each f xs) := by
  induction xs with
  | nil => exact Keeps.pure ()
  | cons x xs ih => exact (hf x).bind fun _ => ih

/-! ## Both outcomes -/

variable {s : σ} {Q : ε → Prop}

/-- An error is of the one sort; what is returned, and the state that is left then, of the other. -/
structure Meets (x : Action σ ε α) (s : σ) (Q : ε → Prop) (R : α → σ → Prop) : Prop where
  stops : ∀ e, (x.run s).result = .error e → Q e
  returns : ∀ a s', x.Returns s a s' → R a s'

theorem Returns.meets {x : Action σ ε α} {a : α} {s' : σ} {R : α → σ → Prop} (h : x.Returns s a s')
    (hR : R a s') : x.Meets s Q R where
  stops e he := by
    rw [h.1] at he
    cases he
  returns b t hb := by
    obtain rfl := Except.ok.inj (h.1.symm.trans hb.1)
    obtain rfl := h.2.symm.trans hb.2
    exact hR

theorem Meets.mono {x : Action σ ε α} {R R' : α → σ → Prop} (h : x.Meets s Q R)
    (hR : ∀ a s', R a s' → R' a s') : x.Meets s Q R' :=
  ⟨h.stops, fun a s' ha => hR a s' (h.returns a s' ha)⟩

theorem Meets.ofExcept {x : Except ε α} {R : α → σ → Prop} (hstops : ∀ e, x = .error e → Q e)
    (hreturns : ∀ a, x = .ok a → R a s) : (Action.ofExcept x).Meets s Q R where
  stops := hstops
  returns a _ h := h.of_ofExcept.2 ▸ hreturns a h.of_ofExcept.1

theorem Meets.ofOption {o : Option α} {e : ε} {R : α → σ → Prop} (hnone : o = none → Q e)
    (hsome : ∀ a, o = some a → R a s) : (Action.ofOption e o).Meets s Q R := by
  cases o with
  | none =>
    refine ⟨fun e' he => ?_, fun a s' h => absurd h.of_ofOption.1 (Option.some_ne_none a).symm⟩
    cases he
    exact hnone rfl
  | some a => exact (Returns.ofOption rfl e s).meets (hsome a rfl)

theorem Meets.bind {x : Action σ ε α} {f : α → Action σ ε β} {M : α → σ → Prop} {R : β → σ → Prop}
    (hx : x.Meets s Q M) (hf : ∀ a s', x.Returns s a s' → M a s' → (f a).Meets s' Q R) :
    (x >>= f).Meets s Q R where
  stops e he := by
    rcases error_of_bind he with he | ⟨a, s', ha, he⟩
    · exact hx.stops e he
    · exact (hf a s' ha (hx.returns a s' ha)).stops e he
  returns b t hb := by
    obtain ⟨a, s', ha, hb⟩ := hb.of_bind
    exact (hf a s' ha (hx.returns a s' ha)).returns b t hb

/-- **Loops.** What is known of the state may depend on the items that have been dealt with. -/
theorem Meets.each {f : α → Action σ ε Unit} {P : List α → σ → Prop} {xs : List α}
    (hf : ∀ done x rest, done ++ x :: rest = xs → ∀ s, P done s →
      (f x).Meets s Q fun _ s' => P (done ++ [x]) s') (hs : P [] s) :
    (Action.each f xs).Meets s Q fun _ s' => P xs s' := by
  suffices hloop : ∀ rest done, done ++ rest = xs → ∀ s, P done s →
      (Action.each f rest).Meets s Q fun _ s' => P xs s' from hloop xs [] rfl s hs
  intro rest
  induction rest with
  | nil =>
    intro done hdone s hs
    rw [List.append_nil] at hdone
    exact (Returns.each_nil f s).meets (hdone ▸ hs)
  | cons x rest ih =>
    intro done hdone s hs
    refine (hf done x rest hdone s hs).bind fun _ s' _ hs' => ?_
    exact ih (done ++ [x]) (by rw [← hdone]; simp) s' hs'

end Texel.Action
