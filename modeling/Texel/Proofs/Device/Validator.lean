import Texel.Device.Validator
import Texel.Proofs.Action

/-!
# Texel — what the validating device accepts

Each call of the device, with what has to hold for it to succeed and what it leaves behind: one
entry of the log, and at most one entry of a program. Checking is said once more for texts that are
given by their characters, so that it can be carried out by computation.
-/

namespace Texel

namespace Shader

/-- Hands a list on when all of it is known. -/
def whole {α β : Type} : List α → (List α → β) → β
  | [], k => k []
  | a :: as, k => whole as fun as => k (a :: as)

theorem whole_eq {α β : Type} (as : List α) : ∀ k : List α → β, whole as k = k as := by
  induction as with
  | nil => exact fun _ => rfl
  | cons a as ih => exact fun k => ih _

/-- The program of a text given by its characters. -/
def Program.ofChars? (cs : List Char) : Option Program :=
  whole cs fun cs => do
    let ends := cs.foldl LineEnds.step {}
    let joined := ends.found.reverse.foldl Joiner.step {}
    let stripped ← (joined.found.reverse.foldl Stripper.step {}).finish?
    let s ← (stripped.splitOnP (· == '\n')).foldlM Selector.line? {}
    guard s.branches.isEmpty
    let s ← s.flush?
    whole s.found.reverse fun tokens => do
      let items ← Item.ofSource? ⟨s.version, tokens⟩
      let (_, a) ← (Analyze.items items).run {}
      ofAnalysis? a

theorem Program.ofText?_eq_ofChars? (text : String) : ofText? text = ofChars? text.toList := by
  unfold ofText? ofChars? Source.ofText? lines?
  simp only [whole_eq, Option.bind_eq_bind, Option.bind_map, Option.bind_assoc, Option.pure_def,
    Option.bind_some, Function.comp_def]

end Shader

theorem Dictionary.insert_perm {α : Type} {key : String} (value : α) {d : Dictionary α}
    (h : key ∉ d.map Prod.fst) : (insert key value d).Perm ((key, value) :: d) := by
  induction d with
  | nil => exact .refl _
  | cons entry d ih =>
    obtain ⟨k, v⟩ := entry
    have hne : key ≠ k := fun heq => h (heq ▸ List.mem_cons_self)
    rw [insert, if_neg hne]
    split
    · exact .refl _
    · exact ((ih fun hmem => h (List.mem_cons_of_mem _ hmem)).cons _).trans (.swap ..)

/-- Both sides of an image are there, and neither is above the limit. -/
def Extent.Within (e : Extent) (limit : Nat) : Prop :=
  (1 ≤ e.width ∧ e.width ≤ limit) ∧ 1 ≤ e.height ∧ e.height ≤ limit

instance (e : Extent) (limit : Nat) : Decidable (e.Within limit) :=
  inferInstanceAs (Decidable (_ ∧ _))

theorem Extent.Within.check {e : Extent} {limit : Nat} (h : e.Within limit) (what : String) :
    e.check what limit = .ok () := by
  obtain ⟨⟨hw, hw'⟩, hh, hh'⟩ := h
  rw [Extent.check, if_neg (by omega), if_neg (by omega)]

namespace ValidProgram

theorem insertSlot_perm {slot : Nat} (present : Bool) {images : List (Nat × Bool)}
    (h : slot ∉ images.map Prod.fst) :
    (insertSlot slot present images).Perm ((slot, present) :: images) := by
  induction images with
  | nil => exact .refl _
  | cons entry images ih =>
    obtain ⟨k, v⟩ := entry
    have hne : slot ≠ k := fun heq => h (heq ▸ List.mem_cons_self)
    rw [insertSlot, if_neg hne]
    split
    · exact .refl _
    · exact ((ih fun hmem => h (List.mem_cons_of_mem _ hmem)).cons _).trans (.swap ..)

/-- A program that has just been checked holds nothing. -/
theorem eq_of_check {source : String} {valid : ValidProgram} (h : check source = .ok valid) :
    valid = { layout := valid.layout } := by
  unfold check at h
  split at h
  · cases h
  · split_ifs at h
    cases h
    rfl

end ValidProgram

namespace Validator

/-- The device after some more calls. -/
def logged (v : Validator) (calls : List Call) : Validator := { v with calls := v.calls ++ calls }

theorem logged_nil (v : Validator) : v.logged [] = v := by rw [logged, List.append_nil]

theorem logged_logged (v : Validator) (as bs : List Call) :
    (v.logged as).logged bs = v.logged (as ++ bs) := by
  rw [logged, logged, logged, List.append_assoc]

theorem log_returns (call : Call) (v : Validator) : (log call).Returns v () (v.logged [call]) :=
  .update _ v

theorem checkExtent_returns {v : Validator} {e : Extent} (h : e.Within v.limit) (what : String) :
    (checkExtent what e).Returns v () v := by
  refine (Action.Returns.state v).bind ?_
  rw [h.check what]
  exact .pure () v

theorem compile_returns {source : String} {valid : ValidProgram}
    (h : ValidProgram.check source = .ok valid) (v : Validator) :
    (compile source).Returns v valid (v.logged [.compile]) := by
  refine (log_returns .compile v).bind ?_
  rw [h]
  exact (Action.Returns.report _ _).bind (.pure _ _)

theorem resize_returns {v : Validator} {e : Extent} (h : e.Within v.limit) :
    (resize e).Returns v () { v.logged [.resize e] with extent := e } :=
  (checkExtent_returns h _).bind ((log_returns _ v).bind (.update _ _))

section Program

variable {r : Rig}

theorem setUniform_returns {name : String} (h : (r.program.layout.member? name).isSome)
    (value : UniformValue) :
    (setUniform name value).Returns r ()
      { device := r.device.logged [.set name value]
        program := { r.program with
          uniforms := Dictionary.insert name value r.program.uniforms } } := by
  refine (Action.Returns.state r).bind ?_
  rw [if_pos h]
  exact (log_returns _ r.device).within.bind (.update _ _)

theorem bindImage_returns {slot : Nat} {i : ImageSlot}
    (h : r.program.layout.image? 0 slot = some i) (hreadable : i.writable = false)
    {image : Option Image} (himage : ∀ m, image = some m → m.extent.Within r.device.limit) :
    (bindImage slot image).Returns r ()
      { device := r.device.logged [.bind slot image.isSome]
        program := { r.program with
          images := ValidProgram.insertSlot slot image.isSome r.program.images } } := by
  obtain ⟨name, group, binding, writable⟩ := i
  subst hreadable
  refine (Action.Returns.state r).bind ?_
  rw [h]
  cases image with
  | none => exact (log_returns _ r.device).within.bind (.update _ _)
  | some m =>
    exact (checkExtent_returns (himage m rfl) _).within.bind
      ((log_returns _ r.device).within.bind (.update _ _))

theorem dispatch_returns (h : r.program.images.length = r.program.layout.inputs.length)
    (groups : Groups) :
    (dispatch groups).Returns r () { r with device := r.device.logged [.dispatch groups] } := by
  refine (Action.Returns.state r).bind ?_
  rw [if_pos h]
  exact (log_returns _ r.device).within

end Program

end Validator
end Texel
