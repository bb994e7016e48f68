import Texel.Session.Solve
import Texel.Proofs.Program.Values

/-!
# Texel — histories of sessions

A session is reached by steps: edits of its graph, changes of its settings, generations and solves,
each of which may succeed or fail. What a step can do is said here once, case by case.

* **`Step`** — what can be asked of a session.
* **`run_connect`** … **`run_solve`** — what is left by each of them.
* **`Step.keeps_graph`** — no step does more to the graph than an edit, an evaluation order or a
  value pass would.
-/

namespace Texel.Session

variable {δ π β : Type}

/-- What can be asked of a session. -/
inductive Step (β : Type)
  | create (behavior : β)
  | connect (c : Connection)
  | disconnect (c : Connection)
  | setParam (id : Nat) (name : String) (value : Value)
  | setImage (id : Nat) (name : String) (image : Option Image) (path : Option String)
  | loadImage (id : Nat) (name path : String)
  | clearChanges
  | setOutputSize (extent : Extent)
  | listen (name : String)
  | generate
  | solve

/-- The session after a step, whether the step has succeeded or not. -/
def Step.apply [Device δ π] [Operable β] (s : Session δ π β) : Step β → Session δ π β
  | .create behavior => ((Session.create behavior).run s).state
  | .connect c => ((Session.connect c).run s).state
  | .disconnect c => ((Session.disconnect c).run s).state
  | .setParam id name value => ((Session.setParam id name value).run s).state
  | .setImage id name image path => ((Session.setImage id name image path).run s).state
  | .loadImage id name path => ((Session.loadImage id name path).run s).state
  | .clearChanges => (Session.clearChanges.run s).state
  | .setOutputSize extent => ((Session.setOutputSize extent).run s).state
  | .listen name => ((Session.listen name).run s).state
  | .generate => (Session.generate.run s).state
  | .solve => (Session.solve.run s).state

/-! ## What each step does -/

/-- A connection is made and the program is stale, or nothing has happened. -/
theorem run_connect (s : Session δ π β) (c : Connection) :
    ((connect c).run s).state = s ∨ ((connect c).run s).state =
      { s with graph := ((Graph.connect c).run s.graph).state, status := .stale } := by
  unfold connect
  split
  · exact .inl rfl
  · cases hrefusal : s.graph.refusal? c with
    | some e =>
      left
      simp only [Action.run, bind, Action.bind, onGraph, Action.mapError, Action.within,
        Graph.connect, Action.state, hrefusal]
      rfl
    | none =>
      right
      simp only [Action.run, bind, Action.bind, onGraph, Action.mapError, Action.within,
        Graph.connect, Action.state, hrefusal]
      rfl

/-- A connection is removed and the program is stale, or nothing has happened. -/
theorem run_disconnect (s : Session δ π β) (c : Connection) :
    ((disconnect c).run s).state = s ∨ ((disconnect c).run s).state =
      { s with graph := ((Graph.disconnect c).run s.graph).state, status := .stale } := by
  by_cases hmem : s.graph.connections.contains c = true
  · right
    simp only [disconnect, Action.run, bind, Action.bind, onGraph, Action.mapError, Action.within,
      Graph.disconnect, Action.state, hmem]
    rfl
  · left
    simp only [disconnect, Action.run, bind, Action.bind, onGraph, Action.mapError, Action.within,
      Graph.disconnect, Action.state, hmem]
    rfl

theorem run_loadImage (s : Session δ π β) (id : Nat) (name path : String) :
    ((loadImage id name path).run s).state = s ∨ ∃ image,
      ((loadImage id name path).run s).state =
        ((setImage id name (some image) (some path)).run s).state := by
  cases himage : s.files.readImage? path with
  | none =>
    left
    simp only [loadImage, Action.run, bind, Action.bind, Action.state, himage]
    rfl
  | some image =>
    refine .inr ⟨image, ?_⟩
    simp only [loadImage, Action.run, bind, Action.bind, Action.state, himage]
    rfl

section Solve

variable [Operable β]

/-- The text of a program is to be written to a file, and cannot be. -/
structure Unwritten (s : Session δ π β) (p : Program) (path : String) (e : FileError) : Prop where
  dumpSource : s.config.dumpSource = some path
  write : s.files.write path (.text p.source) = .error e

/-- A program is stored if there is one and its text could be written. -/
theorem run_generate (s : Session δ π β) :
    (∃ failure, ((Program.generate.run s.graph).result = .error failure ∨
        ∃ p path e, (Program.generate.run s.graph).result = .ok p ∧ s.Unwritten p path e ∧
          failure = .unwrittenSource path e) ∧
      (generate.run s).result = .error failure ∧
      (generate.run s).state = { s with graph := (Program.generate.run s.graph).state }) ∨
    ∃ p files, (Program.generate.run s.graph).result = .ok p ∧ (∀ path e, ¬ s.Unwritten p path e) ∧
      (generate.run s).result = .ok p ∧ (generate.run s).state =
        { s with graph := (Program.generate.run s.graph).state, files, generated := some p } := by
  cases hrun : Program.generate s.graph with
  | mk result graph events =>
    have hgenerate : Program.generate.run s.graph = ⟨result, graph, events⟩ := hrun
    rw [hgenerate]
    cases result with
    | error e =>
      have hstate : generate.run s = ⟨.error e, { s with graph }, events⟩ := by
        simp only [generate, Action.run, bind, Action.bind, Action.within, hrun]
      rw [hstate]
      exact .inl ⟨e, .inl rfl, rfl, rfl⟩
    | ok p =>
      cases hdump : s.config.dumpSource with
      | none =>
        have hstate : generate.run s =
            ⟨.ok p, { s with graph, generated := some p }, (generate.run s).events⟩ := by
          simp only [generate, Action.run, bind, Action.bind, Action.within, Action.state, hrun,
            hdump]
          rfl
        rw [hstate]
        refine .inr ⟨p, s.files, rfl, fun path e h => ?_, rfl, rfl⟩
        cases hdump.symm.trans h.dumpSource
      | some path =>
        cases hwrite : s.files.write path (.text p.source) with
        | error e =>
          have hstate : generate.run s =
              ⟨.error (.unwrittenSource path e), { s with graph }, (generate.run s).events⟩ := by
            simp only [generate, Action.run, bind, Action.bind, Action.within, Action.state, hrun,
              hdump, Action.ofExcept, hwrite]
            rfl
          rw [hstate]
          exact .inl ⟨_, .inr ⟨p, path, e, rfl, ⟨hdump, hwrite⟩, rfl⟩, rfl, rfl⟩
        | ok files =>
          have hstate : generate.run s =
              ⟨.ok p, { s with graph, files, generated := some p }, (generate.run s).events⟩ := by
            simp only [generate, Action.run, bind, Action.bind, Action.within, Action.state, hrun,
              hdump, Action.ofExcept, hwrite]
            rfl
          rw [hstate]
          refine .inr ⟨p, files, rfl, fun path' e h => ?_, rfl, rfl⟩
          obtain rfl : path = path' := Option.some.inj (hdump.symm.trans h.dumpSource)
          cases hwrite.symm.trans h.write

variable [Device δ π]

theorem run_solve (s : Session δ π β) :
    (∃ failure, (trySolve.run s).result = .error failure ∧
      (solve.run s).result = .error failure ∧
      (solve.run s).state = { (trySolve.run s).state with status := .failed failure.describe }) ∨
    ∃ report, (trySolve.run s).result = .ok report ∧
      (solve.run s).result = .ok report ∧
      (solve.run s).state =
        { (trySolve.run s).state with
          status := .ready
          notices := (trySolve.run s).state.notices ++
            (trySolve.run s).state.listeners.map (·, report) } := by
  cases hrun : trySolve s with
  | mk result state events =>
    have htry : trySolve.run s = ⟨result, state, events⟩ := hrun
    rw [htry]
    cases result with
    | error failure =>
      refine .inl ⟨failure, rfl, ?_, ?_⟩
      · simp only [solve, Action.run, bind, Action.bind, Action.attempt, hrun]
        rfl
      · simp only [solve, Action.run, bind, Action.bind, Action.attempt, hrun]
        rfl
    | ok report =>
      refine .inr ⟨report, rfl, ?_, ?_⟩
      · simp only [solve, Action.run, bind, Action.bind, Action.attempt, hrun]
        rfl
      · simp only [solve, Action.run, bind, Action.bind, Action.attempt, hrun]
        rfl

end Solve

/-! ## What the steps do to the graph

The device and the files never touch it, so what a predicate of graphs has to survive are edits, the
evaluation order and the value pass. -/

section Device

variable {P : Session δ π β → Prop}

theorem keeps_onDevice (hP : ∀ s d, P s → P { s with device := d }) {α : Type}
    (x : Action δ Fault α) : Action.Keeps P (onDevice x : Action (Session δ π β) Failure α) :=
  fun s h => hP s _ h

theorem keeps_paramOf (node : Nat) (name : String) :
    Action.Keeps P (paramOf node name : Action (Session δ π β) Failure Param) :=
  .bind .state fun _ => .ofOption _ _

variable [Device δ π]

theorem keeps_compile (hP : ∀ s d, P s → P { s with device := d }) (source : String) :
    Action.Keeps P (compile source : Action (Session δ π β) Failure π) := by
  refine .bind (.attempt (keeps_onDevice hP _)) fun result => ?_
  cases result with
  | ok program => exact .pure program
  | error failure => exact .bind (.report _) fun _ => .fail _

theorem keeps_upload (hP : ∀ s d, P s → P { s with device := d }) (program : π) (u : Upload) :
    Action.Keeps P (upload program u : Action (Session δ π β) Failure π) := by
  cases u with
  | value uniform node name kind =>
    refine .bind (keeps_paramOf _ _) fun param => ?_
    cases UniformValue.ofValue? kind param.value with
    | none => exact .pure program
    | some value => exact keeps_onDevice hP _
  | image uniform flag slot node name =>
    exact .bind (keeps_paramOf _ _) fun _ => .bind (keeps_onDevice hP _) fun _ =>
      keeps_onDevice hP _

theorem keeps_uploadAll (hP : ∀ s d, P s → P { s with device := d }) (us : List Upload) :
    ∀ program : π, Action.Keeps P (uploadAll program us : Action (Session δ π β) Failure π) := by
  induction us with
  | nil => exact fun program => .pure program
  | cons u us ih => exact fun program => .bind (keeps_upload hP program u) fun _ => ih _

theorem keeps_execute (hP : ∀ s d, P s → P { s with device := d })
    (hprogram : ∀ s q, P s → P { s with program := q }) (p : Program) :
    Action.Keeps P (execute p : Action (Session δ π β) Failure Report) :=
  .bind .state fun _ => .bind (keeps_compile hP _) fun _ => .bind (keeps_onDevice hP _) fun _ =>
    .bind (keeps_uploadAll hP _ _) fun _ => .bind (keeps_onDevice hP _) fun _ =>
    .bind (keeps_onDevice hP _) fun _ => .bind (.update fun s h => hprogram s _ h) fun _ =>
    .bind (.report _) fun _ => .pure _

end Device

variable [Operable β] {Q : Graph β → Prop}

theorem keeps_generate (horder : ∀ g, Q g → Q (Graph.evaluationOrder.run g).state) :
    Action.Keeps (fun s => Q s.graph) (generate : Action (Session δ π β) Failure Program) := by
  intro s hs
  have hgraph : Q (Program.generate.run s.graph).state :=
    Program.state_generate s.graph ▸ horder s.graph hs
  rcases run_generate s with ⟨failure, _, _, hstate⟩ | ⟨p, files, _, _, _, hstate⟩
  · rw [hstate]
    exact hgraph
  · rw [hstate]
    exact hgraph

/-- **Steps and graphs.** -/
theorem Step.keeps_graph [Device δ π] (hedit : ∀ g (e : Graph.Edit β), Q g → Q (e.apply g))
    (hclear : ∀ g, Q g → Q g.clearChanges)
    (horder : ∀ g, Q g → Q (Graph.evaluationOrder.run g).state)
    (hsolve : ∀ g, Q g → Q (Graph.solve.run g).state) (step : Step β) {s : Session δ π β}
    (hs : Q s.graph) : Q (step.apply s).graph := by
  cases step with
  | create behavior => exact hedit _ (.create behavior) hs
  | connect c =>
    show Q ((Session.connect c).run s).state.graph
    rcases run_connect s c with hstate | hstate
    · rwa [hstate]
    · rw [hstate]
      exact hedit _ (.connect c) hs
  | disconnect c =>
    show Q ((Session.disconnect c).run s).state.graph
    rcases run_disconnect s c with hstate | hstate
    · rwa [hstate]
    · rw [hstate]
      exact hedit _ (.disconnect c) hs
  | setParam id name value => exact hedit _ (.setParam id name value) hs
  | setImage id name image path => exact hedit _ (.setImage id name image path) hs
  | loadImage id name path =>
    show Q ((Session.loadImage id name path).run s).state.graph
    rcases run_loadImage s id name path with hstate | ⟨image, hstate⟩
    · rwa [hstate]
    · rw [hstate]
      exact hedit _ (.setImage id name (some image) (some path)) hs
  | clearChanges => exact hclear _ hs
  | setOutputSize extent => exact hs
  | listen name => exact hs
  | generate => exact keeps_generate horder s hs
  | solve =>
    have htry :
        Action.Keeps (fun s => Q s.graph) (trySolve : Action (Session δ π β) Failure Report) :=
      .bind (fun s h => hsolve s.graph h) fun _ => .bind (keeps_generate horder) fun p =>
        keeps_execute (fun _ _ h => h) (fun _ _ h => h) p
    show Q (Session.solve.run s).state.graph
    rcases run_solve s with ⟨failure, _, _, hstate⟩ | ⟨report, _, _, hstate⟩
    · rw [hstate]
      exact htry s hs
    · rw [hstate]
      exact htry s hs

end Texel.Session
