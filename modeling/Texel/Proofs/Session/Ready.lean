import Texel.Device.Scripted
import Texel.Builtin
import Texel.Proofs.Session.History

/-!
# Texel — what it means to be ready

A session that is ready holds a program that its device has compiled, and the text that it was
compiled from is the text that the graph would be turned into now. Values and images may have
changed since: they are not in the text. Everything else makes the session stale, whatever is done
through the graph itself included, and a solve that stops halfway makes it a failed one.

* **`Compiled`** — what a program is that a device has compiled from a text, and what has become of
  it since.
* **`Installed`** — the invariant, for sessions that are ready.
* **`trySolve_returns`** — a solve establishes it, on any device.
* **`compiled_of_ready`** — it holds in every session that is ready.
-/

namespace Texel.Session

variable {δ π β : Type}

/-- A program that was compiled from a text on a device, which has been worked with since. -/
inductive Compiled [Device δ π] (source : String) : (device : δ) → (program : π) → Prop
  | compile {d d' : δ} {program : π} (h : (Device.compile source).Returns d program d') :
    Compiled source d' program
  | resize {d d' : δ} {program : π} {extent : Extent} (h : Compiled source d program)
    (hd : (Device.resize extent).Returns d () d') : Compiled source d' program
  | bindImage {d d' : δ} {program program' : π} {slot : Nat} {image : Option Image}
    (h : Compiled source d program)
    (hd : (Device.bindImage slot image).Returns ⟨d, program⟩ () ⟨d', program'⟩) :
    Compiled source d' program'
  | setUniform {d d' : δ} {program program' : π} {name : String} {value : UniformValue}
    (h : Compiled source d program)
    (hd : (Device.setUniform name value).Returns ⟨d, program⟩ () ⟨d', program'⟩) :
    Compiled source d' program'
  | dispatch {d d' : δ} {program program' : π} {groups : Groups} (h : Compiled source d program)
    (hd : (Device.dispatch groups).Returns ⟨d, program⟩ () ⟨d', program'⟩) :
    Compiled source d' program'
  | barrier {d d' : δ} {program : π} (h : Compiled source d program)
    (hd : (Device.barrier : Action δ Fault Unit).Returns d () d') : Compiled source d' program

/-! ## Work on the device -/

theorem onDevice_returns {α : Type} {x : Action δ Fault α} {s s' : Session δ π β} {a : α}
    (h : (onDevice x).Returns s a s') :
    ∃ d, x.Returns s.device a d ∧ s' = { s with device := d } := by
  obtain ⟨hresult, hstate⟩ := h
  change (x.run s.device).result.mapError Failure.device = _ at hresult
  cases hx : (x.run s.device).result with
  | error e => rw [hx] at hresult; cases hresult
  | ok b =>
    rw [hx] at hresult
    cases hresult
    exact ⟨_, ⟨hx, rfl⟩, hstate.symm⟩

theorem lend_returns {x : Action (Rig δ π) Fault Unit} {d d' : δ} {program program' : π}
    (h : (Rig.lend program x).Returns d program' d') :
    x.Returns ⟨d, program⟩ () ⟨d', program'⟩ := by
  obtain ⟨hresult, rfl⟩ := h
  change (x.run ⟨d, program⟩).result.map _ = _ at hresult
  cases hx : (x.run ⟨d, program⟩).result with
  | error e => rw [hx] at hresult; cases hresult
  | ok =>
    rw [hx] at hresult
    cases hresult
    exact ⟨hx, rfl⟩

variable [Device δ π]

theorem compile_returns {source : String} {s s' : Session δ π β} {program : π}
    (h : (compile source).Returns s program s') :
    ∃ d, Compiled source d program ∧ s' = { s with device := d } := by
  obtain ⟨result, s₁, hattempt, hrest⟩ := h.of_bind
  cases result with
  | error e =>
    -- a refused program is reported, and that is the end
    obtain ⟨_, _, _, hfail⟩ := hrest.of_bind
    cases hfail.1
  | ok q =>
    obtain ⟨hq, rfl⟩ := hrest
    obtain rfl : q = program := Except.ok.inj hq
    have hdevice :
        (onDevice (Device.compile source) : Action (Session δ π β) Failure π).Returns s q s₁ :=
      ⟨Except.ok.inj hattempt.1, hattempt.2⟩
    obtain ⟨d, hd, hs⟩ := onDevice_returns hdevice
    exact ⟨d, .compile hd, hs⟩

theorem upload_returns {source : String} {u : Upload} {s s' : Session δ π β} {program program' : π}
    (hcompiled : Compiled source s.device program) (h : (upload program u).Returns s program' s') :
    ∃ d, Compiled source d program' ∧ s' = { s with device := d } := by
  have hparam : ∀ {node name param s₁}, (paramOf node name).Returns s param s₁ → s₁ = s :=
    fun hp => hp.2.symm.trans (keeps_paramOf (P := (· = s)) _ _ s rfl)
  cases u with
  | value uniform node name kind =>
    obtain ⟨param, s₁, hread, hrest⟩ := h.of_bind
    obtain rfl := hparam hread
    cases hvalue : UniformValue.ofValue? kind param.value with
    | none =>
      rw [hvalue] at hrest
      obtain ⟨hprogram, rfl⟩ := hrest
      cases hprogram
      exact ⟨_, hcompiled, rfl⟩
    | some value =>
      rw [hvalue] at hrest
      obtain ⟨d, hd, hs⟩ := onDevice_returns hrest
      exact ⟨d, hcompiled.setUniform (lend_returns hd), hs⟩
  | image uniform flag slot node name =>
    obtain ⟨param, s₁, hread, hrest⟩ := h.of_bind
    obtain rfl := hparam hread
    obtain ⟨bound, s₂, hbind, hset⟩ := hrest.of_bind
    obtain ⟨d, hd, rfl⟩ := onDevice_returns hbind
    obtain ⟨d', hd', rfl⟩ := onDevice_returns hset
    exact ⟨d', (hcompiled.bindImage (lend_returns hd)).setUniform (lend_returns hd'), rfl⟩

theorem uploadAll_returns {source : String} {us : List Upload} {s s' : Session δ π β}
    {program program' : π} (hcompiled : Compiled source s.device program)
    (h : (uploadAll program us).Returns s program' s') :
    ∃ d, Compiled source d program' ∧ s' = { s with device := d } := by
  induction us generalizing s program with
  | nil =>
    obtain ⟨hprogram, rfl⟩ := h
    cases hprogram
    exact ⟨_, hcompiled, rfl⟩
  | cons u us ih =>
    obtain ⟨next, s₁, hu, hus⟩ := h.of_bind
    obtain ⟨d, hd, rfl⟩ := upload_returns hcompiled hu
    obtain ⟨d', hd', hs⟩ := ih (s := { s with device := d }) hd hus
    exact ⟨d', hd', hs⟩

theorem execute_returns {p : Program} {s s' : Session δ π β} {report : Report}
    (h : (execute p).Returns s report s') :
    ∃ d program, Compiled p.source d program ∧
      s' = { s with device := d, program := some program } := by
  obtain ⟨_, s₀, hstate, h₀⟩ := h.of_bind
  obtain rfl : s₀ = s := hstate.2.symm
  obtain ⟨compiled, s₁, hcompile, h₁⟩ := h₀.of_bind
  obtain ⟨d₁, hd₁, rfl⟩ := compile_returns hcompile
  obtain ⟨_, s₂, hresize, h₂⟩ := h₁.of_bind
  obtain ⟨d₂, hd₂, rfl⟩ := onDevice_returns hresize
  obtain ⟨filled, s₃, hupload, h₃⟩ := h₂.of_bind
  obtain ⟨d₃, hd₃, rfl⟩ := uploadAll_returns (hd₁.resize hd₂) hupload
  obtain ⟨dispatched, s₄, hdispatch, h₄⟩ := h₃.of_bind
  obtain ⟨d₄, hd₄, rfl⟩ := onDevice_returns hdispatch
  obtain ⟨_, s₅, hbarrier, h₅⟩ := h₄.of_bind
  obtain ⟨d₅, hd₅, rfl⟩ := onDevice_returns hbarrier
  exact ⟨d₅, dispatched, (hd₃.dispatch (lend_returns hd₄)).barrier hd₅, h₅.2.symm⟩

/-! ## The invariant -/

variable [Operable β]

/-- The program of a session is compiled from what its graph would be turned into now. -/
structure Installed (s : Session δ π β) (q : π) (p : Program) : Prop where
  program : s.program = some q
  generated : s.generated = some p
  compiled : Compiled p.source s.device q
  generate : (Program.generate.run s.graph).result = .ok p

/-- Being ready promises a program. -/
def Kept (s : Session δ π β) : Prop := s.status = .ready → ∃ program p, Installed s program p

theorem Installed.alike {s : Session δ π β} {program : π} {p : Program} (h : Installed s program p)
    {g : Graph β} (hg : g.Alike s.graph) : Installed { s with graph := g } program p :=
  { h with generate := (Program.generate_congr hg).trans h.generate }

/-- **A solve that returns** leaves a program for the graph that it leaves. -/
theorem trySolve_returns {s s' : Session δ π β} {report : Report}
    (h : trySolve.Returns s report s') : ∃ program p, Installed s' program p := by
  obtain ⟨_, s₁, _, h⟩ := h.of_bind
  obtain ⟨p, s₂, hgenerate, hexecute⟩ := h.of_bind
  obtain ⟨d, program, hcompiled, rfl⟩ := execute_returns hexecute
  rcases run_generate s₁ with ⟨failure, _, hresult, _⟩ | ⟨q, files, hprogram, _, hresult, hstate⟩
  · rw [hgenerate.1] at hresult
    cases hresult
  · obtain rfl : p = q := Except.ok.inj (hgenerate.1.symm.trans hresult)
    obtain rfl := hgenerate.2.symm.trans hstate
    refine ⟨program, p, rfl, rfl, hcompiled, ?_⟩
    exact (Program.generate_congr (Program.alike_generate s₁.graph)).trans hprogram

theorem Kept.edit {s : Session δ π β} (h : Kept s) {id : Nat}
    {f : Node β → Except GraphError (Node β)}
    (hf : ∀ n n', f n = .ok n' → n'.id = n.id ∧ n'.behavior = n.behavior ∧
      n'.toPorts.outline = n.toPorts.outline) :
    Kept ((onGraph (Graph.edit id f) : Action (Session δ π β) Failure Unit).run s).state := by
  intro hready
  obtain ⟨program, p, hs⟩ := h hready
  exact ⟨program, p, hs.alike (Graph.alike_edit hf)⟩

theorem Kept.of_ne {s : Session δ π β} (h : s.status ≠ .ready) : Kept s :=
  fun hready => absurd hready h

/-- Every step keeps the promise. -/
theorem Kept.apply {s : Session δ π β} (h : Kept s) (step : Step β) : Kept (step.apply s) := by
  cases step with
  | create behavior => exact .of_ne Status.noConfusion
  | connect c =>
    show Kept ((Session.connect c).run s).state
    rcases run_connect s c with hstate | hstate
    · rwa [hstate]
    · rw [hstate]
      exact .of_ne Status.noConfusion
  | disconnect c =>
    show Kept ((Session.disconnect c).run s).state
    rcases run_disconnect s c with hstate | hstate
    · rwa [hstate]
    · rw [hstate]
      exact .of_ne Status.noConfusion
  | setParam id name value => exact h.edit fun _ _ => Graph.setParam_keeps
  | setImage id name image path => exact h.edit fun _ _ => Graph.setImage_keeps
  | loadImage id name path =>
    show Kept ((Session.loadImage id name path).run s).state
    rcases run_loadImage s id name path with hstate | ⟨image, hstate⟩
    · rwa [hstate]
    · rw [hstate]
      exact h.edit fun _ _ => Graph.setImage_keeps
  | clearChanges =>
    intro hready
    obtain ⟨q, p, hs⟩ := h hready
    exact ⟨q, p, hs.alike (Graph.alike_clearChanges s.graph)⟩
  | setOutputSize extent => exact .of_ne Status.noConfusion
  | listen name =>
    intro hready
    obtain ⟨q, p, hs⟩ := h hready
    exact ⟨q, p, { hs with }⟩
  | generate =>
    show Kept (Session.generate.run s).state
    have hgraph := Program.alike_generate s.graph
    rcases run_generate s with ⟨failure, _, _, hstate⟩ | ⟨p, files, hprogram, _, _, hstate⟩
    · rw [hstate]
      intro hready
      obtain ⟨q, p, hs⟩ := h hready
      exact ⟨q, p, hs.alike hgraph⟩
    · rw [hstate]
      intro hready
      obtain ⟨q, p', hs⟩ := h hready
      -- the program is generated anew, and it is the same one
      obtain rfl : p = p' := Except.ok.inj (hprogram.symm.trans hs.generate)
      exact ⟨q, p, { hs.alike hgraph with generated := rfl }⟩
  | solve =>
    show Kept (Session.solve.run s).state
    rcases run_solve s with ⟨failure, _, _, hstate⟩ | ⟨report, hreport, _, hstate⟩
    · rw [hstate]
      exact .of_ne Status.noConfusion
    · rw [hstate]
      intro _
      obtain ⟨q, p, hs⟩ := trySolve_returns ⟨hreport, rfl⟩
      exact ⟨q, p, { hs with }⟩

/-- A step of a session, or any work on its graph. -/
inductive Work (β : Type)
  | own (step : Step β)
  | editGraph (x : Action (Graph β) GraphError Unit)

def Work.apply (s : Session δ π β) : Work β → Session δ π β
  | .own st => st.apply s
  | .editGraph x => ((Session.editGraph x).run s).state

/-- What a history of operations makes of a session. -/
def after (s : Session δ π β) (operations : List (Work β)) : Session δ π β :=
  operations.foldl Work.apply s

/-- **Ready** means that the program is there, that it is compiled from the text that the session
shows, and that the graph would still be turned into that text. -/
theorem compiled_of_ready (start : Session δ π β) (hstart : start.status = .stale)
    (operations : List (Work β)) (hready : (start.after operations).status = .ready) :
    ∃ program p, (start.after operations).program = some program ∧
      (start.after operations).source? = some p.source ∧
      Compiled p.source (start.after operations).device program ∧
      (Program.generate.run (start.after operations).graph).result = .ok p := by
  have hkept : Kept (start.after operations) := by
    refine List.foldlRecOn (motive := Kept) operations _ ?_ fun s hs op _ => ?_
    · exact .of_ne (hstart ▸ Status.noConfusion)
    · cases op with
      | own step => exact hs.apply step
      | editGraph x => exact .of_ne Status.noConfusion
  obtain ⟨q, p, hs⟩ := hkept hready
  have hsource : (start.after operations).source? = some p.source := by
    rw [source?, hs.generated, Option.map_some]
  exact ⟨q, p, hs.program, hsource, hs.compiled, hs.generate⟩

/-- A color is put into the graph behind the back of the session and solved. Then it changes, a
connection is refused, and the program is generated again. -/
def recolored : Session Scripted ScriptedProgram Builtin :=
  after { device := {} }
    [.editGraph (.update (Graph.create .color)), .own .solve, .own (.setParam 0 "Color" .zero),
      .own (.connect ⟨0, 0, 1, 0⟩), .own .generate]

theorem recolored_ready : recolored.status = .ready := by decide +kernel

theorem compiled_recolored :
    recolored.status = .ready ∧ ∃ program p, recolored.program = some program ∧
      recolored.source? = some p.source ∧ Compiled p.source recolored.device program ∧
      (Program.generate.run recolored.graph).result = .ok p :=
  ⟨recolored_ready, compiled_of_ready _ rfl _ recolored_ready⟩

end Texel.Session
