import Texel.Proofs.Session.History

/-!
# Texel — how a solve ends

A solve goes through the value pass, generation, the file for the source, compilation, the resized
destination, the uploads, the dispatch and the barrier, and may stop at each of them. Whatever stops
it, the session keeps the program of its last good solve; only a solve that gets to the end installs
a new one and tells the listeners.

* **`Recorded`** — a device together with the list of what it has been asked for. The list is never
  read (`solve_recorded`), so it can be attached to any device to say what a solve has asked of it.
* **`FailsEarly`** — one of the steps up to compilation fails.
* **`device_of_failsEarly`** — then the device has been asked to compile, or nothing at all.
* **`solve_ends`** — what a solve leaves behind, on any device and from any session.
-/

namespace Texel

/-! ## Devices that record what they are asked for -/

inductive Request
  | compile (source : String)
  | resize (extent : Extent)
  | bindImage (slot : Nat) (image : Option Image)
  | setUniform (name : String) (value : UniformValue)
  | dispatch (groups : Groups)
  | barrier
  | readOutput
deriving DecidableEq, Repr

structure Recorded (δ : Type) where
  device : δ
  requests : List Request := []

namespace Recorded

variable {δ π α : Type}

def note (request : Request) : Action (Recorded δ) Fault Unit :=
  .update fun r => { r with requests := r.requests ++ [request] }

/-- A request is noted before it is passed on, so a failed one is in the list as well. -/
def ask (request : Request) (x : Action δ Fault α) : Action (Recorded δ) Fault α := do
  note request
  x.within device fun r device => { r with device }

/-- A request that is about a program. -/
def askOf (request : Request) (x : Action (Rig δ π) Fault Unit) :
    Action (Rig (Recorded δ) π) Fault Unit := do
  Rig.onDevice (note request)
  x.within (fun r => ⟨r.device.device, r.program⟩) fun r rig =>
    ⟨{ r.device with device := rig.device }, rig.program⟩

instance [Device δ π] : Device (Recorded δ) π where
  compile source := ask (.compile source) (Device.compile source)
  resize extent := ask (.resize extent) (Device.resize extent)
  bindImage slot image := askOf (.bindImage slot image) (Device.bindImage slot image)
  setUniform name value := askOf (.setUniform name value) (Device.setUniform name value)
  dispatch groups := askOf (.dispatch groups) (Device.dispatch groups)
  barrier := ask .barrier Device.barrier
  readOutput := ask .readOutput Device.readOutput

end Recorded

/-! ## Actions that do the same on a richer state -/

def Outcome.mapState {σ τ ε α : Type} (f : τ → σ) (o : Outcome τ ε α) : Outcome σ ε α :=
  ⟨o.result, f o.state, o.events⟩

namespace Action

variable {σ τ ε ε' α β : Type} {f : τ → σ}

/-- `x'` does on the richer states `τ` what `x` does on their images. -/
def Mirrors (f : τ → σ) (x' : Action τ ε α) (x : Action σ ε α) : Prop :=
  ∀ t, x.run (f t) = (x'.run t).mapState f

theorem Mirrors.pure (a : α) : Mirrors f (pure a : Action τ ε α) (pure a) := fun _ => rfl

theorem Mirrors.fail (e : ε) : Mirrors f (fail e : Action τ ε α) (fail e) := fun _ => rfl

theorem Mirrors.report (e : Event) : Mirrors f (report e : Action τ ε Unit) (report e) :=
  fun _ => rfl

theorem Mirrors.ofOption (e : ε) (o : Option α) :
    Mirrors f (ofOption e o : Action τ ε α) (ofOption e o) := by
  cases o with
  | none => exact fun _ => rfl
  | some a => exact fun _ => rfl

theorem Mirrors.update {g' : τ → τ} {g : σ → σ} (h : ∀ t, g (f t) = f (g' t)) :
    Mirrors f (update g' : Action τ ε Unit) (update g) := by
  intro t
  show (⟨.ok (), g (f t), []⟩ : Outcome σ ε Unit) = ⟨.ok (), f (g' t), []⟩
  rw [h t]

theorem Mirrors.bind {x' : Action τ ε α} {x : Action σ ε α} {k' : α → Action τ ε β}
    {k : α → Action σ ε β} (hx : Mirrors f x' x) (hk : ∀ a, Mirrors f (k' a) (k a)) :
    Mirrors f (x' >>= k') (x >>= k) := by
  intro t
  have hxt : x (f t) = (x' t).mapState f := hx t
  show Action.bind x k (f t) = (Action.bind x' k' t).mapState f
  unfold Action.bind
  rw [hxt]
  cases x' t with
  | mk result state events =>
    cases result with
    | error e => rfl
    | ok a =>
      have hka : k a (f state) = (k' a state).mapState f := hk a state
      simp only [Outcome.mapState, hka]

/-- What is read from the state is read from its image. -/
theorem Mirrors.read {k' : τ → Action τ ε β} {k : σ → Action σ ε β}
    (h : ∀ t, Mirrors f (k' t) (k (f t))) : Mirrors f (state >>= k') (state >>= k) :=
  fun t => h t t

theorem Mirrors.attempt {x' : Action τ ε α} {x : Action σ ε α} (h : Mirrors f x' x) :
    Mirrors f (x'.attempt : Action τ ε' (Except ε α)) x.attempt := by
  intro t
  have ht : x (f t) = (x' t).mapState f := h t
  show (⟨.ok (x (f t)).result, (x (f t)).state, (x (f t)).events⟩ : Outcome σ ε' (Except ε α)) = _
  rw [ht]
  rfl

/-- What holds of the state still holds when the action stops. -/
def KeepsOnError (P : σ → Prop) (x : Action σ ε α) : Prop :=
  ∀ s e, P s → (x.run s).result = .error e → P (x.run s).state

theorem KeepsOnError.bind {P : σ → Prop} {x : Action σ ε α} {k : α → Action σ ε β} (hx : Keeps P x)
    (hk : ∀ a, KeepsOnError P (k a)) : KeepsOnError P (x >>= k) := by
  intro s e hs herror
  cases hresult : (x.run s).result with
  | error e' =>
    rw [state_bind_of_error hresult]
    exact hx s hs
  | ok a =>
    have hreturns : x.Returns s a (x.run s).state := ⟨hresult, rfl⟩
    rw [hreturns.result_bind] at herror
    rw [hreturns.state_bind]
    exact hk a _ e (hx s hs) herror

end Action

namespace Session

variable {δ π β : Type}

/-! ## Sessions on recording devices -/

def recorded (s : Session δ π β) : Session (Recorded δ) π β :=
  { s with device := { device := s.device } }

def plain (s : Session (Recorded δ) π β) : Session δ π β := { s with device := s.device.device }

theorem mirrors_onGraph {α : Type} (x : Action (Graph β) GraphError α) :
    Action.Mirrors plain (onGraph x : Action (Session (Recorded δ) π β) Failure α) (onGraph x) :=
  fun _ => rfl

/-- A request is passed on as it is. -/
theorem mirrors_ask {α : Type} (request : Request) (x : Action δ Fault α) :
    Action.Mirrors plain
      (onDevice (Recorded.ask request x) : Action (Session (Recorded δ) π β) Failure α)
        (onDevice x) :=
  fun _ => rfl

theorem mirrors_lend (request : Request) (program : π) (x : Action (Rig δ π) Fault Unit) :
    Action.Mirrors plain
      (onDevice (Rig.lend program (Recorded.askOf request x)) :
        Action (Session (Recorded δ) π β) Failure π)
      (onDevice (Rig.lend program x)) :=
  fun _ => rfl

theorem mirrors_paramOf (node : Nat) (name : String) :
    Action.Mirrors plain (paramOf node name : Action (Session (Recorded δ) π β) Failure Param)
      (paramOf node name) :=
  .read fun _ => .ofOption _ _

section Generate

variable [Operable β]

theorem mirrors_generate :
    Action.Mirrors plain
      (generate : Action (Session (Recorded δ) π β) Failure Program) generate := by
  refine .bind (fun _ => rfl) fun p => .read fun s => ?_
  -- the settings of both sessions name the same file, or none
  have hdump : s.plain.config.dumpSource = s.config.dumpSource := rfl
  simp only [hdump]
  cases s.config.dumpSource with
  | none => exact .bind (.update fun _ => rfl) fun _ => .pure p
  | some path =>
    exact .read fun _ => .bind (fun _ => rfl) fun files => .bind (.update fun _ => rfl) fun _ =>
      .bind (.update fun _ => rfl) fun _ => .pure p

theorem keeps_generate_of {P : Session δ π β → Prop}
    (hP : ∀ s graph files generated, P s → P { s with graph, files, generated }) :
    Action.Keeps P (generate : Action (Session δ π β) Failure Program) := by
  intro s hs
  rcases run_generate s with ⟨failure, _, _, hstate⟩ | ⟨p, files, _, _, _, hstate⟩
  · rw [hstate]
    exact hP s _ s.files s.generated hs
  · rw [hstate]
    exact hP s _ files (some p) hs

end Generate

variable [Device δ π]

theorem mirrors_compile (source : String) :
    Action.Mirrors plain (compile source : Action (Session (Recorded δ) π β) Failure π)
      (compile source) := by
  refine .bind (.attempt (mirrors_ask _ _)) fun result => ?_
  cases result with
  | ok program => exact .pure program
  | error failure => exact .bind (.report _) fun _ => .fail _

theorem mirrors_upload (program : π) (u : Upload) :
    Action.Mirrors plain (upload program u : Action (Session (Recorded δ) π β) Failure π)
      (upload program u) := by
  cases u with
  | value uniform node name kind =>
    refine .bind (mirrors_paramOf _ _) fun param => ?_
    cases UniformValue.ofValue? kind param.value with
    | none => exact .pure program
    | some value => exact mirrors_lend _ _ _
  | image uniform flag slot node name =>
    exact .bind (mirrors_paramOf _ _) fun _ => .bind (mirrors_lend _ _ _) fun _ =>
      mirrors_lend _ _ _

theorem mirrors_uploadAll (us : List Upload) : ∀ program : π,
    Action.Mirrors plain (uploadAll program us : Action (Session (Recorded δ) π β) Failure π)
      (uploadAll program us) := by
  induction us with
  | nil => exact fun program => .pure program
  | cons u us ih => exact fun program => .bind (mirrors_upload program u) fun _ => ih _

theorem mirrors_execute (p : Program) :
    Action.Mirrors plain (execute p : Action (Session (Recorded δ) π β) Failure Report)
      (execute p) :=
  .read fun _ => .bind (mirrors_compile _) fun _ => .bind (mirrors_ask _ _) fun _ =>
    .bind (mirrors_uploadAll _ _) fun _ => .bind (mirrors_lend _ _ _) fun _ =>
    .bind (mirrors_ask _ _) fun _ => .bind (.update fun _ => rfl) fun _ =>
    .bind (.report _) fun _ => .pure _

/-- A refused program is the end of its execution. -/
theorem device_of_refused {s : Session δ π β} {p : Program} {fault : Fault}
    (h : ((Device.compile p.source).run s.device).result = .error fault) :
    ((execute p).run s).state.device = ((Device.compile p.source).run s.device).state := by
  have hcompile : (compile p.source).run s =
      ⟨.error (.rejected (Failure.device fault).describe),
        { s with device := ((Device.compile p.source).run s.device).state },
        ((compile p.source).run s).events⟩ := by
    have hresult : (Device.compile p.source s.device).result = .error fault := h
    simp only [compile, Action.run, bind, Action.bind, Action.attempt, onDevice, Action.mapError,
      Action.within, hresult]
    rfl
  rw [execute, (Action.Returns.state s).state_bind, Action.state_bind_of_error (by rw [hcompile]),
    hcompile]

variable [Operable β]

theorem mirrors_solve :
    Action.Mirrors plain (solve : Action (Session (Recorded δ) π β) Failure Report) solve := by
  refine .bind (.attempt ?_) fun result => ?_
  · exact .bind (mirrors_onGraph _) fun _ => .bind mirrors_generate mirrors_execute
  · cases result with
    | ok report => exact .bind (.update fun _ => rfl) fun _ => .pure report
    | error failure => exact .bind (.update fun _ => rfl) fun _ => .fail failure

/-- What a solve asks of the device, in order. -/
def requests (s : Session δ π β) : List Request := (solve.run s.recorded).state.device.requests

/-- **Recording.** A solve on the recording device is the solve itself, with the list beside it. -/
theorem solve_recorded (s : Session δ π β) :
    solve.run s = (solve.run s.recorded).mapState plain :=
  mirrors_solve s.recorded

/-! ## Solves that fail before the device has accepted the program -/

/-- The value pass, the generation of the program, the file for its text or its compilation
fails. -/
inductive FailsEarly (s : Session δ π β) : Prop
  | values {e : GraphError} (h : (Graph.solve.run s.graph).result = .error e)
  | generation {failure : Failure} (hvalues : (Graph.solve.run s.graph).result = .ok ())
    (h : (Program.generate.run (Graph.solve.run s.graph).state).result = .error failure)
  | dump {p : Program} {path : String} {e : FileError}
    (hvalues : (Graph.solve.run s.graph).result = .ok ())
    (hp : (Program.generate.run (Graph.solve.run s.graph).state).result = .ok p)
    (h : s.Unwritten p path e)
  | compilation {p : Program} {fault : Fault}
    (hvalues : (Graph.solve.run s.graph).result = .ok ())
    (hp : (Program.generate.run (Graph.solve.run s.graph).state).result = .ok p)
    (h : ((Device.compile p.source).run s.device).result = .error fault)

theorem FailsEarly.recorded {s : Session δ π β} (h : FailsEarly s) : FailsEarly s.recorded := by
  cases h with
  | values h => exact .values h
  | generation hvalues h => exact .generation hvalues h
  | dump hvalues hp h => exact .dump hvalues hp ⟨h.dumpSource, h.write⟩
  | compilation hvalues hp h => exact .compilation hvalues hp h

theorem device_of_failsEarly {s : Session δ π β} (h : FailsEarly s) :
    (solve.run s).state.device = s.device ∨
      ∃ source, (solve.run s).state.device = ((Device.compile source).run s.device).state := by
  have hsolve : (solve.run s).state.device = (trySolve.run s).state.device := by
    rcases run_solve s with ⟨_, _, _, hstate⟩ | ⟨_, _, _, hstate⟩
    · rw [hstate]
    · rw [hstate]
  rw [hsolve]
  cases hvalues : (Graph.solve.run s.graph).result with
  | error e =>
    have herror : ((onGraph Graph.solve : Action (Session δ π β) Failure Unit).run s).result =
        .error (.graph e) := by
      show (Graph.solve.run s.graph).result.mapError Failure.graph = _
      rw [hvalues]
      rfl
    rw [trySolve, Action.state_bind_of_error herror]
    exact .inl rfl
  | ok u =>
    have hreturns : (onGraph Graph.solve : Action (Session δ π β) Failure Unit).Returns s u
        { s with graph := (Graph.solve.run s.graph).state } := by
      refine ⟨?_, rfl⟩
      show (Graph.solve.run s.graph).result.mapError Failure.graph = _
      rw [hvalues]
      rfl
    rw [trySolve, hreturns.state_bind]
    rcases run_generate { s with graph := (Graph.solve.run s.graph).state } with
      ⟨failure, _, hresult, hstate⟩ | ⟨p, files, hp, hwritten, hresult, hstate⟩
    · -- generation and the file for the source are behind us before the device is asked anything
      rw [Action.state_bind_of_error hresult, hstate]
      exact .inl rfl
    · rw [Action.Returns.state_bind ⟨hresult, hstate⟩]
      cases h with
      | values h => cases hvalues.symm.trans h
      | generation _ h => cases hp.symm.trans h
      | dump _ hq h =>
        obtain rfl : p = _ := Except.ok.inj (hp.symm.trans hq)
        exact absurd ⟨h.dumpSource, h.write⟩ (hwritten _ _)
      | compilation _ hq h =>
        obtain rfl : p = _ := Except.ok.inj (hp.symm.trans hq)
        exact .inr ⟨p.source, device_of_refused h⟩

/-! ## What a solve leaves behind -/

/-- Installing the program is the last thing that happens, and it cannot fail. -/
theorem program_of_error {s : Session δ π β} {failure : Failure}
    (h : (trySolve.run s).result = .error failure) :
    (trySolve.run s).state.program = s.program := by
  have hdevice : ∀ (s' : Session δ π β) d, s'.program = s.program →
      ({ s' with device := d } : Session δ π β).program = s.program := fun _ _ h => h
  have hinstall : ∀ (q : π) (report : Report) (event : Event),
      Action.KeepsOnError (fun s' : Session δ π β => s'.program = s.program)
        (do
          Action.update fun s' : Session δ π β => { s' with program := some q }
          Action.report event
          return report : Action (Session δ π β) Failure Report) := by
    intro q report event s' e _ herror
    cases herror
  have hexecute : ∀ p : Program, Action.KeepsOnError
      (fun s' : Session δ π β => s'.program = s.program) (execute p) := fun p =>
    .bind .state fun _ => .bind (keeps_compile hdevice _) fun _ =>
      .bind (keeps_onDevice hdevice _) fun _ => .bind (keeps_uploadAll hdevice _ _) fun _ =>
      .bind (keeps_onDevice hdevice _) fun _ => .bind (keeps_onDevice hdevice _) fun _ =>
      hinstall _ _ _
  have htry : Action.KeepsOnError (fun s' : Session δ π β => s'.program = s.program) trySolve :=
    .bind (fun _ h => h) fun _ => .bind (keeps_generate_of fun _ _ _ _ h => h) hexecute
  exact htry s failure rfl h

/-- Listeners are told by the solve itself, after everything else. -/
theorem notices_trySolve (s : Session δ π β) :
    (trySolve.run s).state.notices = s.notices ∧
    (trySolve.run s).state.listeners = s.listeners := by
  have htry : Action.Keeps (fun s' : Session δ π β => s'.notices = s.notices ∧
      s'.listeners = s.listeners) trySolve :=
    .bind (fun _ h => h) fun _ => .bind (keeps_generate_of fun _ _ _ _ h => h) fun p =>
      keeps_execute (fun _ _ h => h) (fun _ _ h => h) p
  exact htry s ⟨rfl, rfl⟩

/-- **The end of a solve.** A solve that fails keeps the program, records the whole chain of
messages and tells nobody; if it fails by the time the program is compiled, nothing but that has
been asked of the device, so whatever a compilation does not change has not changed, such as the
extent of the destination. A solve that succeeds makes the session ready and tells every listener
once, in order. -/
theorem solve_ends (s : Session δ π β) :
    solve.run s = (solve.run s.recorded).mapState plain ∧
    match (solve.run s).result with
    | .error failure =>
      (solve.run s).state.program = s.program ∧
      (solve.run s).state.status = .failed (": ".intercalate failure.chain) ∧
      (solve.run s).state.notices = s.notices ∧
      (FailsEarly s →
        (requests s = [] ∨ ∃ source, requests s = [.compile source]) ∧
        ∀ extent : δ → Extent,
          (∀ source d, extent ((Device.compile source).run d).state = extent d) →
            extent (solve.run s).state.device = extent s.device)
    | .ok report =>
      (solve.run s).state.status = .ready ∧
      (solve.run s).state.notices = s.notices ++ s.listeners.map (·, report) := by
  refine ⟨solve_recorded s, ?_⟩
  obtain ⟨hnotices, hlisteners⟩ := notices_trySolve s
  rcases run_solve s with ⟨failure, htry, hresult, hstate⟩ | ⟨report, _, hresult, hstate⟩
  · rw [hresult]
    refine ⟨?_, ?_, ?_, fun hearly => ⟨?_, fun extent hextent => ?_⟩⟩
    · rw [hstate]
      exact program_of_error htry
    · rw [hstate]
      rfl
    · rw [hstate]
      exact hnotices
    · -- the list of the recording device starts empty, and a compilation adds one request to it
      rcases device_of_failsEarly hearly.recorded with hdevice | ⟨source, hdevice⟩
      · exact .inl (congrArg Recorded.requests hdevice)
      · exact .inr ⟨source, congrArg Recorded.requests hdevice⟩
    · rcases device_of_failsEarly hearly with hdevice | ⟨source, hdevice⟩
      · rw [hdevice]
      · rw [hdevice, hextent]
  · rw [hresult]
    refine ⟨?_, ?_⟩
    · rw [hstate]
    · rw [hstate]
      show (trySolve.run s).state.notices ++ (trySolve.run s).state.listeners.map (·, report) = _
      rw [hnotices, hlisteners]

end Session
end Texel
