import Texel.Proofs.Program.Denotation
import Texel.Proofs.Program.Outcome
import Texel.Proofs.Program.Scope

/-!
# Texel — what a program finds in its uniforms

Every parameter of every node has a uniform, and images have a flag and a slot too. Their names are
distinct, so what a program finds under the name made for a parameter is the value of this
parameter.

* **`Blueprint.uniform_eq`**, **`Blueprint.flag_eq`**, **`Blueprint.image_eq`**.
-/

namespace Texel

namespace UniformValue

theorem ofValue?_eq {kind : Kind} (h : kind.isNumeric = true) (v : Value) :
    ofValue? kind v = some (held kind v) := by
  cases kind <;> first | rfl | cases h

theorem kind_held {kind : Kind} (h : kind.isNumeric = true) (v : Value) :
    (held kind v).kind = kind := by
  cases kind <;> first | rfl | cases h

theorem typeName_held {kind : Kind} (h : kind.isNumeric = true) (v : Value) :
    (held kind v).typeName = kind.typeName := by
  cases kind <;> first | rfl | cases h

end UniformValue

theorem Kind.isNumeric_of_ne {kind : Kind} (hnone : kind ≠ .none) (himage : kind ≠ .image) :
    kind.isNumeric = true := by
  cases kind <;> first | rfl | exact absurd rfl hnone | exact absurd rfl himage

/-- The names of the parameters of an operator stay apart in uniforms. -/
theorem Builtin.nodup_camelCase (b : Builtin) :
    (b.operator.ports.outline.params.map fun p => Identifier.camelCase p.1).Nodup := by
  have hall : ∀ b ∈ all, (b.operator.ports.outline.params.map fun p =>
      Identifier.camelCase p.1).Nodup := by decide +kernel
  exact hall b b.mem_all

/-! ## Looking things up -/

section Lists

variable {α γ : Type}

/-- A search whose hits all agree finds what they agree on. -/
theorem findSome?_eq_some_of_agree {f : α → Option γ} {as : List α} {y : γ}
    (hexists : ∃ a ∈ as, f a = some y) (hagree : ∀ a ∈ as, ∀ z, f a = some z → z = y) :
    as.findSome? f = some y := by
  cases hfound : as.findSome? f with
  | none =>
    obtain ⟨a, ha, hy⟩ := hexists
    rw [List.findSome?_eq_none_iff.mp hfound a ha] at hy
    cases hy
  | some z =>
    obtain ⟨a, ha, hz⟩ := List.exists_of_findSome?_eq_some hfound
    rw [hagree a ha z hz]

end Lists

namespace Program

open Glsl Builtin UniformValue

variable {g : Graph Builtin} {order : List Nat} {id : Nat} {n : Node Builtin} {p : Program}
    {q : Param}

/-! ## Parameters -/

theorem Regular.param_eq (h : Regular g order) (hn : g.node? id = some n) {r : Param}
    (hq : q ∈ n.params) (hr : r ∈ n.params)
    (hname : Identifier.camelCase r.name = Identifier.camelCase q.name) : r = q := by
  have houtline :
      n.params.map (fun q => (q.name, q.kind)) = n.behavior.operator.ports.outline.params :=
    congrArg PortsOutline.params (h.standard.node? hn)
  have hnodup := n.behavior.nodup_camelCase
  rw [← houtline, List.map_map] at hnodup
  exact List.inj_on_of_nodup_map hnodup hr hq hname

theorem Regular.param?_eq (h : Regular g order) (hn : g.node? id = some n) (hq : q ∈ n.params) :
    Upload.param? g id q.name = some q := by
  rw [Upload.param?, hn]
  show n.params.find? (·.name = q.name) = some q
  cases hfound : n.params.find? (·.name = q.name) with
  | none => exact absurd (decide_eq_true rfl) (List.find?_eq_none.mp hfound q hq)
  | some r =>
    have hname : r.name = q.name := by simpa using List.find?_some hfound
    rw [h.param_eq hn hq (List.mem_of_find?_eq_some hfound) (congrArg _ hname)]

theorem mem_parameters {ids : List Nat} {entry : Nat × Param} (h : entry ∈ parameters g ids) :
    ∃ n, g.node? entry.1 = some n ∧ entry.2 ∈ n.params := by
  obtain ⟨id, _, h⟩ := List.mem_flatMap.mp h
  cases hn : g.node? id with
  | none => simp [hn] at h
  | some n =>
    rw [hn] at h
    obtain ⟨r, hr, rfl⟩ := List.mem_map.mp h
    exact ⟨n, hn, hr⟩

/-- The upload of a parameter. -/
theorem Blueprint.exists_upload (hp : Blueprint g order p) (h : Regular g order)
    (hn : g.node? id = some n) (hq : q ∈ n.params) : ∃ u ∈ p.uploads, IsUpload (id, q) u := by
  refine exists_of_mem_left hp.uploads (List.mem_flatMap.mpr ⟨id, h.mem_order hn, ?_⟩)
  rw [hn]
  exact List.mem_map_of_mem hq

/-- What an upload is about. -/
theorem Blueprint.upload_spec (hp : Blueprint g order p) {u : Upload} (hu : u ∈ p.uploads) :
    ∃ id n r, g.node? id = some n ∧ r ∈ n.params ∧ IsUpload (id, r) u := by
  obtain ⟨⟨id, r⟩, hentry, hupload⟩ := exists_of_mem_right hp.uploads hu
  obtain ⟨n, hn, hr⟩ := mem_parameters hentry
  exact ⟨id, n, r, hn, hr, hupload⟩

/-- A name made for a parameter belongs to this parameter. -/
theorem Regular.eq_of_uniformName (h : Regular g order) (hn : g.node? id = some n)
    (hq : q ∈ n.params) {m : Nat} {k : Node Builtin} (hk : g.node? m = some k) {r : Param}
    (hr : r ∈ k.params) (hname : uniformName m r.name = uniformName id q.name) :
    m = id ∧ r = q := by
  obtain ⟨rfl, hcamel⟩ := uniformName_inj.mp hname
  rw [hn, Option.some.injEq] at hk
  subst hk
  exact ⟨rfl, h.param_eq hn hq hr hcamel⟩

/-! ## Uniforms -/

theorem Blueprint.mem_uniforms (hp : Blueprint g order p) {u : Upload} (hu : u ∈ p.uploads)
    {decl : UniformDecl} (hdecl : decl ∈ Upload.uniforms u) : decl ∈ p.uniforms := by
  rw [hp.uniforms]
  exact List.mem_flatMap.mpr ⟨u, hu, hdecl⟩

/-- A uniform holds what the uploads agree on, if it is declared for that. -/
theorem uniform_eq_of_agree {name : String} {v : UniformValue} {u : Upload} (hu : u ∈ p.uploads)
    (hv : Upload.value? g name u = some v)
    (hagree : ∀ u ∈ p.uploads, ∀ w, Upload.value? g name u = some w → w = v)
    (hdeclared : .member name v.typeName ∈ p.uniforms) : (p.inputs g).uniform name = some v := by
  have hfound : p.uploads.findSome? (Upload.value? g name) = some v :=
    findSome?_eq_some_of_agree ⟨u, hu, hv⟩ hagree
  show (p.uploads.findSome? _).filter _ = _
  rw [hfound, Option.filter_some, if_pos (decide_eq_true hdeclared)]

theorem Blueprint.uniform_eq (hp : Blueprint g order p) (h : Regular g order)
    (hn : g.node? id = some n) (hq : q ∈ n.params) (himage : q.kind ≠ .image) :
    (p.inputs g).uniform (uniformName id q.name) = some (held q.kind q.value) := by
  have hnumeric := Kind.isNumeric_of_ne (h.param_kind hn hq) himage
  obtain ⟨u, hu, hupload⟩ := hp.exists_upload h hn hq
  cases hupload with
  | image hkind => exact absurd hkind himage
  | value _ =>
    refine uniform_eq_of_agree hu ?_ (fun u' hu' v hv => ?_) (hp.mem_uniforms hu ?_)
    · rw [Upload.value?, if_pos rfl, h.param?_eq hn hq, Option.bind_some, ofValue?_eq hnumeric]
    · -- another upload under this name is about the same parameter, and flags have other names
      obtain ⟨m, k, r, hk, hr, hupload'⟩ := hp.upload_spec hu'
      cases hupload' with
      | image _ =>
        rw [Upload.value?, if_neg (flagName_ne_uniformName _ _ _ _)] at hv
        cases hv
      | value _ =>
        rw [Upload.value?] at hv
        split_ifs at hv with hname
        obtain ⟨rfl, rfl⟩ := h.eq_of_uniformName hn hq hk hr hname
        rw [h.param?_eq hn hq, Option.bind_some, ofValue?_eq hnumeric] at hv
        exact (Option.some.inj hv).symm
    · rw [typeName_held hnumeric]
      exact List.mem_singleton_self _

/-- An image is no uniform with a value. -/
theorem Blueprint.uniform_eq_none (hp : Blueprint g order p) (h : Regular g order)
    (hn : g.node? id = some n) (hq : q ∈ n.params) (himage : q.kind = .image) :
    (p.inputs g).uniform (uniformName id q.name) = none := by
  have hnone : p.uploads.findSome? (Upload.value? g (uniformName id q.name)) = none := by
    refine List.findSome?_eq_none_iff.mpr fun u hu => ?_
    obtain ⟨m, k, r, hk, hr, hupload⟩ := hp.upload_spec hu
    cases hupload with
    | image _ => exact if_neg (flagName_ne_uniformName _ _ _ _)
    | value hkind =>
      refine if_neg fun hname => ?_
      obtain ⟨rfl, rfl⟩ := h.eq_of_uniformName hn hq hk hr hname
      exact hkind himage
  show (p.uploads.findSome? _).filter _ = none
  rw [hnone]
  rfl

theorem Blueprint.flag_eq (hp : Blueprint g order p) (h : Regular g order)
    (hn : g.node? id = some n) (hq : q ∈ n.params) (himage : q.kind = .image) :
    (p.inputs g).uniform (flagName (uniformName id q.name)) =
      some (.int (if q.image.isSome then 1 else 0)) := by
  obtain ⟨u, hu, hupload⟩ := hp.exists_upload h hn hq
  cases hupload with
  | value hkind => exact absurd himage hkind
  | image _ =>
    refine uniform_eq_of_agree hu ?_ (fun u' hu' v hv => ?_) (hp.mem_uniforms hu ?_)
    · rw [Upload.value?, if_pos rfl, h.param?_eq hn hq, Option.map_some]
    · obtain ⟨m, k, r, hk, hr, hupload'⟩ := hp.upload_spec hu'
      cases hupload' with
      | value _ =>
        rw [Upload.value?, if_neg (flagName_ne_uniformName _ _ _ _).symm] at hv
        cases hv
      | image _ =>
        rw [Upload.value?] at hv
        split_ifs at hv with hname
        obtain ⟨rfl, rfl⟩ := h.eq_of_uniformName hn hq hk hr (flagName_inj.mp hname)
        rw [h.param?_eq hn hq, Option.map_some] at hv
        exact (Option.some.inj hv).symm
    · exact List.mem_cons_of_mem _ (List.mem_singleton_self _)

/-! ## Images -/

/-- A slot belongs to one upload. -/
theorem Blueprint.eq_of_slot (hp : Blueprint g order p) {u u' : Upload} (hu : u ∈ p.uploads)
    (hu' : u' ∈ p.uploads) {slot : Nat} (hslot : Upload.slot? u = some slot)
    (hslot' : Upload.slot? u' = some slot) : u = u' := by
  obtain ⟨count, hslots⟩ := hp.slots
  have hnodup : (p.uploads.filterMap Upload.slot?).Nodup := by
    rw [hslots]
    exact List.nodup_range'
  -- two different uploads would show the slot twice
  rw [List.Nodup, List.pairwise_filterMap] at hnodup
  have : Std.Symm fun a b : Upload =>
      ∀ x, Upload.slot? a = some x → ∀ y, Upload.slot? b = some y → x ≠ y :=
    ⟨fun _ _ hab x hx y hy hxy => hab y hy x hx hxy.symm⟩
  by_contra hne
  exact hnodup.forall hu hu' hne slot hslot slot hslot' rfl

/-- The slot that is declared for an image is that of its upload. -/
theorem Blueprint.exists_slot (hp : Blueprint g order p) (h : Regular g order)
    (hn : g.node? id = some n) (hq : q ∈ n.params) (himage : q.kind = .image) :
    ∃ slot, slotOf? p.uniforms (uniformName id q.name) = some slot ∧
      .image (uniformName id q.name)
        (flagName (uniformName id q.name)) slot id q.name ∈ p.uploads := by
  obtain ⟨u, hu, hupload⟩ := hp.exists_upload h hn hq
  obtain ⟨slot, hslot⟩ : ∃ slot, slotOf? p.uniforms (uniformName id q.name) = some slot := by
    cases hupload with
    | value hkind => exact absurd himage hkind
    | image _ slot =>
      have hdecl := hp.mem_uniforms hu List.mem_cons_self
      exact Option.isSome_iff_exists.mp (List.findSome?_isSome_iff.mpr ⟨_, hdecl, by simp⟩)
  refine ⟨slot, hslot, ?_⟩
  obtain ⟨decl, hdecl, hfound⟩ := List.exists_of_findSome?_eq_some hslot
  rw [hp.uniforms] at hdecl
  obtain ⟨u', hu', hdecl⟩ := List.mem_flatMap.mp hdecl
  obtain ⟨m, k, r, hk, hr, hupload'⟩ := hp.upload_spec hu'
  cases hupload' with
  | value _ =>
    rw [List.mem_singleton.mp hdecl] at hfound
    cases hfound
  | image _ slot' =>
    rcases List.mem_cons.mp hdecl with rfl | hdecl
    · change (if uniformName m r.name = uniformName id q.name then some slot' else none) =
        _ at hfound
      split_ifs at hfound with hname
      obtain ⟨rfl, rfl⟩ := h.eq_of_uniformName hn hq hk hr hname
      exact Option.some.inj hfound ▸ hu'
    · rw [List.mem_singleton.mp hdecl] at hfound
      cases hfound

theorem Blueprint.image_eq (hp : Blueprint g order p) (h : Regular g order)
    (hn : g.node? id = some n) (hq : q ∈ n.params) (himage : q.kind = .image) :
    (p.inputs g).image (uniformName id q.name) = some q.image := by
  obtain ⟨slot, hslot, hu⟩ := hp.exists_slot h hn hq himage
  show (slotOf? p.uniforms _).bind _ = _
  rw [hslot, Option.bind_some]
  refine findSome?_eq_some_of_agree ⟨_, hu, ?_⟩ fun u' hu' image hbound => ?_
  · rw [Upload.bound?, if_pos rfl, h.param?_eq hn hq, Option.map_some]
  · cases u' with
    | value => cases hbound
    | image _ _ taken node param =>
      rw [Upload.bound?] at hbound
      split_ifs at hbound with htaken
      subst htaken
      have hsame := hp.eq_of_slot hu' hu rfl rfl
      injection hsame with _ _ _ hnode hparam
      rw [hnode, hparam, h.param?_eq hn hq, Option.map_some] at hbound
      exact (Option.some.inj hbound).symm

end Program
end Texel
