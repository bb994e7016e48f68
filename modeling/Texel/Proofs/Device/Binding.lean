import Texel.Proofs.Device.Validator

/-!
# Texel — what has to be bound before a program runs

The validating device lets a program run when as many slots have been bound as the program has
images to read. It compares nothing but the two numbers. They tell the truth because only slots of
such images are ever bound, and because a slot that is bound again is not counted twice.

* **`Query`** — calls of the device on one program.
* **`perform_cases`** — a call that fails changes nothing at all; one that succeeds does what
  `Query.effect` says. Everything else follows from this.
* **`Tracks`** — what the program knows of its slots after some calls; `Tracks.perform` is the step.
* **`dispatch_succeeds_iff_bound`** — all calls together.
-/

namespace Texel

open Texel.Action

/-! ## Bound slots -/

namespace ValidProgram

variable {slot : Nat} {present : Bool} {images : List (Nat × Bool)}

/-- The slots that have been bound. -/
def slots (p : ValidProgram) : List Nat := p.images.map Prod.fst

theorem mem_insertSlot {s : Nat} :
    s ∈ (insertSlot slot present images).map Prod.fst ↔ s = slot ∨ s ∈ images.map Prod.fst := by
  induction images with
  | nil => simp [insertSlot]
  | cons entry images ih =>
    obtain ⟨k, v⟩ := entry
    rw [insertSlot]
    split_ifs with hsame hless
    · subst hsame
      simp
    · simp
    · rw [List.map_cons, List.mem_cons, ih, List.map_cons, List.mem_cons]
      tauto

/-- Slots are kept in their order, so none is there twice. -/
theorem pairwise_insertSlot (h : (images.map Prod.fst).Pairwise (· < ·)) :
    ((insertSlot slot present images).map Prod.fst).Pairwise (· < ·) := by
  induction images with
  | nil => simp [insertSlot]
  | cons entry images ih =>
    obtain ⟨k, v⟩ := entry
    rw [List.map_cons, List.pairwise_cons] at h
    obtain ⟨hfirst, hrest⟩ := h
    rw [insertSlot]
    split_ifs with hsame hless
    · subst hsame
      exact List.pairwise_cons.mpr ⟨hfirst, hrest⟩
    · refine List.pairwise_cons.mpr ⟨?_, List.pairwise_cons.mpr ⟨hfirst, hrest⟩⟩
      rintro s hs
      rcases List.mem_cons.mp hs with rfl | hs
      · exact hless
      · exact hless.trans (hfirst s hs)
    · refine List.pairwise_cons.mpr ⟨?_, ih hrest⟩
      intro s hs
      rcases mem_insertSlot.mp hs with rfl | hs
      · show k < s
        omega
      · exact hfirst s hs

end ValidProgram

/-- The bindings of the images that a program reads. -/
def Layout.inputBindings (l : Layout) : List Nat := l.inputs.map (·.binding)

/-- The layout has an image to read at this binding of group 0. -/
def Layout.Readable (l : Layout) (slot : Nat) : Prop :=
  ∃ i, l.image? 0 slot = some i ∧ i.writable = false

theorem Layout.Readable.mem_inputBindings {l : Layout} {slot : Nat} (h : l.Readable slot) :
    slot ∈ l.inputBindings := by
  obtain ⟨i, hi, hreadable⟩ := h
  obtain ⟨-, hbinding⟩ : i.group = 0 ∧ i.binding = slot := by simpa using List.find?_some hi
  rw [← hbinding]
  refine List.mem_map_of_mem (List.mem_filter.mpr ⟨List.mem_of_find?_eq_some hi, ?_⟩)
  rw [hreadable]
  rfl

namespace Validator

/-! ## Calls -/

/-- A call of the device, other than to compile a program. -/
inductive Query
  | resize (extent : Extent)
  | bindImage (slot : Nat) (image : Option Image)
  | setUniform (name : String) (value : UniformValue)
  | dispatch (groups : Groups)
  | barrier
  | readOutput
deriving DecidableEq, Repr

namespace Query

def perform : Query → Action Rig Fault Unit
  | .resize extent => Rig.onDevice (Validator.resize extent)
  | .bindImage slot image => Validator.bindImage slot image
  | .setUniform name value => Validator.setUniform name value
  | .dispatch groups => Validator.dispatch groups
  | .barrier => Rig.onDevice (log .barrier)
  | .readOutput => do
    let _ ← Rig.onDevice Validator.readOutput

/-- What has to hold for a call to succeed. -/
def Allowed (r : Rig) : Query → Prop
  | .resize extent => extent.Within r.device.limit
  | .bindImage slot image =>
    r.program.layout.Readable slot ∧ ∀ m, image = some m → m.extent.Within r.device.limit
  | .setUniform name _ => (r.program.layout.member? name).isSome
  | .dispatch _ => r.program.images.length = r.program.layout.inputs.length
  | .barrier => True
  | .readOutput => True

/-- What a call does when it succeeds. -/
def effect (r : Rig) : Query → Rig
  | .resize extent => { r with device := { r.device.logged [.resize extent] with extent } }
  | .bindImage slot image =>
    { device := r.device.logged [.bind slot image.isSome]
      program := { r.program with
        images := ValidProgram.insertSlot slot image.isSome r.program.images } }
  | .setUniform name value =>
    { device := r.device.logged [.set name value]
      program := { r.program with
        uniforms := Dictionary.insert name value r.program.uniforms } }
  | .dispatch groups => { r with device := r.device.logged [.dispatch groups] }
  | .barrier => { r with device := r.device.logged [.barrier] }
  | .readOutput => r

end Query

/-! ## What a call does -/

theorem checkExtent_stops {v : Validator} {e : Extent} (h : ¬ e.Within v.limit) (what : String) :
    (checkExtent what e).Stops v v := by
  refine (Returns.state v).stops ?_
  cases hcheck : e.check what v.limit with
  | error error => exact Stops.fail _ v
  | ok =>
    refine absurd ?_ h
    rw [Extent.check] at hcheck
    split_ifs at hcheck
    exact ⟨by omega, by omega⟩

section Stops

variable {r : Rig}

theorem bindImage_stops {slot : Nat} {image : Option Image}
    (h : ¬ (r.program.layout.Readable slot ∧
      ∀ m, image = some m → m.extent.Within r.device.limit)) :
    (bindImage slot image).Stops r r := by
  refine (Returns.state r).stops ?_
  split
  · next hslot =>
    -- there is such an image, so what is bound must be too large
    cases image with
    | none => exact absurd ⟨⟨_, hslot, rfl⟩, fun m hm => by cases hm⟩ h
    | some image =>
      refine (checkExtent_stops (fun hwithin => h ⟨⟨_, hslot, rfl⟩, ?_⟩) _).within.bind _
      rintro m ⟨⟩
      exact hwithin
  · exact Stops.fail _ r

theorem setUniform_stops {name : String} (h : ¬ (r.program.layout.member? name).isSome)
    (value : UniformValue) : (setUniform name value).Stops r r := by
  refine (Returns.state r).stops ?_
  rw [if_neg h]
  exact Stops.fail _ r

theorem dispatch_stops (h : ¬ r.program.images.length = r.program.layout.inputs.length)
    (groups : Groups) : (dispatch groups).Stops r r := by
  refine (Returns.state r).stops ?_
  rw [if_neg h]
  exact Stops.fail _ r

end Stops

/-- **What a call does.** It has its effect, or it fails and nothing has changed. -/
theorem Query.perform_cases (r : Rig) (q : Query) :
    q.Allowed r ∧ q.perform.Returns r () (q.effect r) ∨ ¬ q.Allowed r ∧ q.perform.Stops r r := by
  by_cases h : q.Allowed r
  · refine Or.inl ⟨h, ?_⟩
    cases q with
    | resize extent => exact (resize_returns h).within
    | bindImage slot image =>
      obtain ⟨⟨i, hi, hreadable⟩, himage⟩ := h
      exact bindImage_returns hi hreadable himage
    | setUniform name value => exact setUniform_returns h value
    | dispatch groups => exact dispatch_returns h groups
    | barrier => exact (log_returns .barrier _).within
    | readOutput =>
      have hread : Validator.readOutput.Returns r.device (.blank r.device.extent) r.device :=
        (Returns.state _).bind (.pure _ _)
      exact hread.within.bind (.pure () r)
  · refine Or.inr ⟨h, ?_⟩
    cases q with
    | resize extent => exact ((checkExtent_stops h _).bind _).within
    | bindImage slot image => exact bindImage_stops h
    | setUniform name value => exact setUniform_stops h value
    | dispatch groups => exact dispatch_stops h groups
    | barrier => exact absurd trivial h
    | readOutput => exact absurd trivial h

theorem Query.result_eq_ok_iff {r : Rig} {q : Query} :
    (q.perform.run r).result = .ok () ↔ q.Allowed r := by
  rcases q.perform_cases r with ⟨hallowed, hreturns⟩ | ⟨hallowed, e, hresult, -⟩
  · exact iff_of_true hreturns.1 hallowed
  · refine iff_of_false ?_ hallowed
    rw [hresult]
    exact fun h => by cases h

theorem Query.state_of_error {r : Rig} {q : Query} {e : Fault}
    (h : (q.perform.run r).result = .error e) : (q.perform.run r).state = r := by
  rcases q.perform_cases r with ⟨-, hreturns⟩ | ⟨-, _, -, hstate⟩
  · rw [hreturns.1] at h
    cases h
  · exact hstate

/-! ## Calls one after the other -/

/-- The device and the program after some calls, of which any may have failed. -/
def Rig.after (r : Rig) (queries : List Query) : Rig :=
  queries.foldl (fun r q => (q.perform.run r).state) r

/-- Among the calls, one has bound the slot and succeeded. -/
def Rig.Bound (r : Rig) (queries : List Query) (slot : Nat) : Prop :=
  ∃ (before : List Query) (image : Option Image) (later : List Query),
    queries = before ++ Query.bindImage slot image :: later ∧
    ((Query.bindImage slot image).perform.run (r.after before)).result = .ok ()

variable {r : Rig} {queries : List Query} {q : Query}

theorem Rig.after_concat : r.after (queries ++ [q]) = (q.perform.run (r.after queries)).state := by
  rw [Rig.after, List.foldl_append]
  rfl

theorem Rig.bound_concat {slot : Nat} :
    r.Bound (queries ++ [q]) slot ↔ r.Bound queries slot ∨ ∃ image, q = .bindImage slot image ∧
      (q.perform.run (r.after queries)).result = .ok () := by
  constructor
  · rintro ⟨before, image, later, hsplit, hresult⟩
    rcases List.eq_nil_or_concat later with rfl | ⟨later, last, rfl⟩
    · obtain ⟨rfl, hlast⟩ := List.append_inj' hsplit rfl
      obtain rfl := List.singleton_inj.mp hlast
      exact Or.inr ⟨image, rfl, hresult⟩
    · rw [List.concat_eq_append, ← List.cons_append, ← List.append_assoc] at hsplit
      obtain ⟨rfl, -⟩ := List.append_inj' hsplit rfl
      exact Or.inl ⟨before, image, later, rfl, hresult⟩
  · rintro (⟨before, image, later, rfl, hresult⟩ | ⟨image, rfl, hresult⟩)
    · exact ⟨before, image, later ++ [q], by simp, hresult⟩
    · exact ⟨queries, image, [], rfl, hresult⟩

/-- What a program with this layout knows of its slots. -/
structure Tracks (l : Layout) (program : ValidProgram) (Bound : Nat → Prop) : Prop where
  layout : program.layout = l
  ordered : program.slots.Pairwise (· < ·)
  readable : ∀ slot ∈ program.slots, l.Readable slot
  mem_iff : ∀ slot, slot ∈ program.slots ↔ Bound slot

/-- **The step.** -/
theorem Tracks.perform {layout : Layout}
    (h : Tracks layout (r.after queries).program (r.Bound queries)) (q : Query) :
    Tracks layout (r.after (queries ++ [q])).program (r.Bound (queries ++ [q])) := by
  -- a call that binds nothing leaves everything as it is
  have hother : (r.after (queries ++ [q])).program.layout = (r.after queries).program.layout →
      (r.after (queries ++ [q])).program.slots = (r.after queries).program.slots →
      (∀ slot, ¬ ∃ image, q = .bindImage slot image ∧
        (q.perform.run (r.after queries)).result = .ok ()) →
      Tracks layout (r.after (queries ++ [q])).program (r.Bound (queries ++ [q])) := by
    intro hlayout hslots hnone
    refine ⟨hlayout.trans h.layout, hslots ▸ h.ordered, hslots ▸ h.readable, fun slot => ?_⟩
    rw [hslots, h.mem_iff, Rig.bound_concat, or_iff_left (hnone slot)]
  rcases q.perform_cases (r.after queries) with ⟨hallowed, hreturns⟩ | ⟨-, e, hresult, hstate⟩
  · rw [Rig.after_concat, hreturns.2] at hother ⊢
    cases q with
    | bindImage slot image =>
      refine ⟨h.layout, ValidProgram.pairwise_insertSlot h.ordered, fun s hs => ?_, fun s => ?_⟩
      · rcases ValidProgram.mem_insertSlot.mp hs with rfl | hs
        · exact h.layout ▸ hallowed.1
        · exact h.readable s hs
      · refine ValidProgram.mem_insertSlot.trans ?_
        rw [Rig.bound_concat, ← h.mem_iff s, or_comm]
        refine or_congr_right ⟨?_, ?_⟩
        · rintro rfl
          exact ⟨image, rfl, hreturns.1⟩
        · rintro ⟨_, heq, -⟩
          cases heq
          rfl
    | _ =>
      refine hother rfl rfl fun slot => ?_
      rintro ⟨_, heq, -⟩
      cases heq
  · refine hother ?_ ?_ fun slot => ?_
    · rw [Rig.after_concat, hstate]
    · rw [Rig.after_concat, hstate]
    · rintro ⟨_, -, hok⟩
      rw [hresult] at hok
      cases hok

/-- **The run.** The slots of a program are those that have been bound since it was compiled. -/
theorem tracks_after (device : Validator) (layout : Layout) (queries : List Query) :
    let start : Rig := { device, program := { layout } }
    Tracks layout (start.after queries).program (start.Bound queries) := by
  intro start
  induction queries using List.reverseRecOn with
  | nil =>
    refine ⟨rfl, .nil, fun _ hs => absurd hs List.not_mem_nil, fun slot => ?_⟩
    refine iff_of_false List.not_mem_nil ?_
    rintro ⟨before, image, later, hsplit, -⟩
    simp at hsplit
  | append_singleton queries q ih => exact ih.perform q

/-- Where no two images to read have the same binding, the numbers agree if all of them are
bound. -/
theorem Tracks.length_eq_iff {layout : Layout} {program : ValidProgram} {Bound : Nat → Prop}
    (h : Tracks layout program Bound) (hdistinct : layout.inputBindings.Nodup) :
    program.images.length = layout.inputs.length ↔ ∀ i ∈ layout.inputs, Bound i.binding := by
  have hslots : program.slots.length = program.images.length := List.length_map ..
  have hbindings : layout.inputBindings.length = layout.inputs.length := List.length_map ..
  have hsubset : program.slots ⊆ layout.inputBindings := fun slot hslot =>
    (h.readable slot hslot).mem_inputBindings
  have hnodup : program.slots.Nodup := h.ordered.imp fun hlt => Nat.ne_of_lt hlt
  have hsubperm : program.slots.Subperm layout.inputBindings := hnodup.subperm hsubset
  have hall : (∀ i ∈ layout.inputs, Bound i.binding) ↔ layout.inputBindings ⊆ program.slots := by
    simp only [← h.mem_iff, Layout.inputBindings, List.subset_def, List.forall_mem_map]
  rw [← hslots, ← hbindings, hall]
  constructor
  · exact fun hlength => (hsubperm.perm_of_length_le hlength.ge).symm.subset
  · exact fun hback => le_antisymm hsubperm.length_le (hdistinct.subperm hback).length_le

/-- **Dispatch.** Whatever has been asked of the device since a program was compiled, the program
runs exactly if each image that it reads has been bound at least once. A call that fails, at any
time, leaves the program and the device as they were. -/
theorem dispatch_succeeds_iff_bound (layout : Layout) (hdistinct : layout.inputBindings.Nodup)
    (device : Validator) (queries : List Query) (groups : Groups) :
    let start : Rig := { device, program := { layout } }
    (((Query.dispatch groups).perform.run (start.after queries)).result = .ok () ↔
        ∀ i ∈ layout.inputs, start.Bound queries i.binding) ∧
      ∀ (r : Rig) (q : Query) (e : Fault), (q.perform.run r).result = .error e →
        (q.perform.run r).state = r := by
  intro start
  have htracks := tracks_after device layout queries
  have hallowed : (Query.dispatch groups).Allowed (start.after queries) ↔
      (start.after queries).program.images.length = layout.inputs.length := by
    rw [Query.Allowed, htracks.layout]
  refine ⟨?_, fun r q e => Query.state_of_error⟩
  rw [Query.result_eq_ok_iff, hallowed, htracks.length_eq_iff hdistinct]

/-- Two images to read, and the destination. -/
def twoInputs : Layout where
  images :=
    [⟨"uOutput", 0, 0, true⟩, ⟨"param_0_image", 0, 1, false⟩, ⟨"param_3_image", 0, 2, false⟩]

/-- The destination cannot be bound, an image may be too large, and one slot bound twice is not two
slots. -/
def halfBound : List Query :=
  [.bindImage 0 none, .bindImage 1 none, .setUniform "missing" (.int 1),
    .bindImage 2 (some (.blank ⟨9000, 1⟩)), .resize ⟨0, 4⟩, .bindImage 1 (some (.blank ⟨2, 2⟩))]

theorem twoInputs_dispatch :
    let start : Rig := { device := {}, program := { layout := twoInputs } }
    twoInputs.inputBindings.Nodup ∧
      ((Query.dispatch ⟨1, 1, 1⟩).perform.run (start.after halfBound)).result ≠ .ok () ∧
      ((Query.dispatch ⟨1, 1, 1⟩).perform.run
        (start.after (halfBound ++ [Query.bindImage 2 none]))).result = .ok () := by
  intro start
  have hnodup : twoInputs.inputBindings.Nodup := by decide
  have hhalf : (start.after halfBound).program.slots = [1] := by decide +kernel
  have hfull : (start.after (halfBound ++ [Query.bindImage 2 none])).program.slots = [1, 2] := by
    decide +kernel
  refine ⟨hnodup, fun hok => ?_, ?_⟩
  · have hbound := (dispatch_succeeds_iff_bound twoInputs hnodup {} halfBound ⟨1, 1, 1⟩).1.mp hok
      ⟨"param_3_image", 0, 2, false⟩ (by decide)
    have hmem := ((tracks_after {} twoInputs halfBound).mem_iff 2).mpr hbound
    rw [hhalf] at hmem
    simp at hmem
  · refine (dispatch_succeeds_iff_bound twoInputs hnodup {} _ ⟨1, 1, 1⟩).1.mpr fun i hi => ?_
    rw [← (tracks_after {} twoInputs _).mem_iff, hfull]
    revert i
    decide

end Validator
end Texel
