import Texel.Event

/-!
# Actions

An action works on a state, reports events and either returns a value or stops with an error. The
state and the events survive an error: whatever happened before it has happened.
-/

namespace Texel

/-- What an action leaves behind. -/
structure Outcome (σ ε α : Type) where
  result : Except ε α
  state : σ
  events : List Event := []

def Action (σ ε α : Type) : Type := σ → Outcome σ ε α

namespace Action

variable {σ τ ε ε' α β : Type}

def run (x : Action σ ε α) (s : σ) : Outcome σ ε α := x s

protected def pure (a : α) : Action σ ε α := fun s => ⟨.ok a, s, []⟩

protected def bind (x : Action σ ε α) (f : α → Action σ ε β) : Action σ ε β := fun s =>
  match x s with
  | ⟨.ok a, s', events⟩ =>
    let rest := f a s'
    ⟨rest.result, rest.state, events ++ rest.events⟩
  | ⟨.error e, s', events⟩ => ⟨.error e, s', events⟩

instance : Monad (Action σ ε) where
  pure := Action.pure
  bind := Action.bind

/-- Stops with an error. -/
def fail (e : ε) : Action σ ε α := fun s => ⟨.error e, s, []⟩

/-- Reports one event. -/
def report (e : Event) : Action σ ε Unit := fun s => ⟨.ok (), s, [e]⟩

/-- Reports several events. -/
def reportAll (es : List Event) : Action σ ε Unit := fun s => ⟨.ok (), s, es⟩

/-- The current state. -/
def state : Action σ ε σ := fun s => ⟨.ok s, s, []⟩

def update (f : σ → σ) : Action σ ε Unit := fun s => ⟨.ok (), f s, []⟩

/-- A computation without effects, which may fail. -/
def ofExcept (x : Except ε α) : Action σ ε α := fun s => ⟨x, s, []⟩

/-- The value of an option, or an error. -/
def ofOption (e : ε) : Option α → Action σ ε α
  | some a => fun s => ⟨.ok a, s, []⟩
  | none => fail e

/-- Restates the error. -/
def mapError (f : ε → ε') (x : Action σ ε α) : Action σ ε' α := fun s =>
  let o := x s
  ⟨o.result.mapError f, o.state, o.events⟩

/-- Runs an action on a part of the state. -/
def within (part : τ → σ) (put : τ → σ → τ) (x : Action σ ε α) : Action τ ε α := fun t =>
  let o := x (part t)
  ⟨o.result, put t o.state, o.events⟩

/-- Turns the error of an action into a value. -/
def attempt (x : Action σ ε α) : Action σ ε' (Except ε α) := fun s =>
  let o := x s
  ⟨.ok o.result, o.state, o.events⟩

/-- Runs an action for every item, in order. -/
def each (f : α → Action σ ε Unit) : List α → Action σ ε Unit
  | [] => pure ()
  | a :: as => do
    f a
    each f as

@[simp]
theorem run_pure (a : α) (s : σ) : (pure a : Action σ ε α).run s = ⟨.ok a, s, []⟩ := rfl

@[simp]
theorem run_fail (e : ε) (s : σ) : (fail e : Action σ ε α).run s = ⟨.error e, s, []⟩ := rfl

@[simp]
theorem run_report (e : Event) (s : σ) : (report e : Action σ ε Unit).run s = ⟨.ok (), s, [e]⟩ :=
  rfl

@[simp]
theorem run_reportAll (es : List Event) (s : σ) :
    (reportAll es : Action σ ε Unit).run s = ⟨.ok (), s, es⟩ := rfl

@[simp]
theorem run_ofExcept (x : Except ε α) (s : σ) : (ofExcept x : Action σ ε α).run s = ⟨x, s, []⟩ :=
  rfl

@[simp]
theorem run_state (s : σ) : (state : Action σ ε σ).run s = ⟨.ok s, s, []⟩ := rfl

@[simp]
theorem run_update (f : σ → σ) (s : σ) : (update f : Action σ ε Unit).run s = ⟨.ok (), f s, []⟩ :=
  rfl

end Action
end Texel
