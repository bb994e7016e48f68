import Mathlib.Data.List.Forall2
import Texel.Glsl.Template
import Texel.Proofs.Builtin.Library
import Texel.Shader.Analysis.Value

/-!
# Texel — types of generated expressions

The analysis of programs finds types as far as calls depend on them, and compares none. Here is the
strict judgment, for the expressions that generated code is made of: every argument has the very
type of its parameter, nothing is converted on the way, and the parts of a vector add up. The
functions that can be called are those of the program template and those on images.

* **`HasType`** — the judgment.
* **`templateSignatures_eq`** — the functions of the template, as they are read from its text.
* **`HasType.unique`** — an expression has at most one type.
-/

namespace Texel.Shader

open Glsl (functionsIn functionsOf template)

/-! ## The judgment -/

/-- The types of the parameters and of the result of each function of the template, by name. -/
def templateSignatures : List (String × List String × String) :=
  (functionsIn template).map fun f => (f.name, f.parameters.map (·.2.typeName), f.returnType)

def helper? (name : String) : Option (List ValueType × ValueType) :=
  (templateSignatures.lookup name).bind fun signature =>
    (signature.1.mapM ValueType.ofName?).bind fun parameters =>
      (ValueType.ofName? signature.2).map (parameters, ·)

/-- A function that is there without being defined: one of the template or of the language. -/
def isPredefined (name : String) : Bool :=
  (helper? name).isSome || !(Intrinsic.overloads name).isEmpty || (Intrinsic.imageUse?
    name).isSome ||
    Intrinsic.untyped.contains name

/-- How many numbers a value is made of. -/
def ValueType.width : ValueType → Nat
  | .scalar _ => 1
  | .vector _ size => size
  | _ => 0

/-- Can a value of the type be made of such values? One number may fill a whole vector. -/
def ValueType.makes (type : ValueType) (parts : List ValueType) : Bool :=
  match type, parts with
  | .scalar _, [.scalar _] => true
  | .vector _ _, [.scalar _] => true
  | .vector s size, parts =>
    parts.all (fun part => decide (0 < part.width) && part.component? == some s) &&
      (parts.map width).foldr (· + ·) 0 == size
  | _, _ => false

/-- The expression has the type, where variables have the types of the scope. -/
inductive HasType (scope : List (String × ValueType)) : (e : Expression) → (type : ValueType) → Prop
  | literal (kind : Scalar) (value : Quantity) : HasType scope (.literal kind value) (.scalar kind)
  | named {name : String} {type : ValueType} (h : scope.lookup name = some type) :
    HasType scope (.variable name) type
  | field {e : Expression} {s : Scalar} {size : Nat} {name : String} {type : ValueType}
    (he : HasType scope e (.vector s size)) (h : swizzle? s size name = some type) :
    HasType scope (.field e name) type
  | helper {name : String} {es : List Expression} {parameters : List ValueType} {type : ValueType}
    (h : helper? name = some (parameters, type))
    (hes : List.Forall₂ (HasType scope) es parameters) :
    HasType scope (.call name es) type
  /-- A function on images. Only what can be read may be loaded. -/
  | image {name : String} {use : Intrinsic.ImageUse} {texel : Scalar} {coordinates : Nat}
    {readable writable : Bool} {es : List Expression} {parameters : List ParameterType}
    {type : ValueType} (huse : Intrinsic.imageUse? name = some use)
    (hreadable : use = .load → readable = true)
    (h : use.overload (.image texel coordinates readable writable) texel coordinates =
      ⟨parameters, some type⟩)
    (hes : List.Forall₂ (HasType scope) es (parameters.map (·.type))) :
    HasType scope (.call name es) type
  | construct {name : String} {es : List Expression} {parts : List ValueType} {type : ValueType}
    (h : ValueType.ofName? name = some type) (hes : List.Forall₂ (HasType scope) es parts)
    (hmakes : type.makes parts = true) : HasType scope (.construct name [] es) type
  | scale {e f : Expression} {s : Scalar} {size : Nat} (he : HasType scope e (.vector s size))
    (hf : HasType scope f (.scalar s)) : HasType scope (.binary "*" e f) (.vector s size)

theorem templateSignatures_eq : templateSignatures =
    [("rgb_to_float", ["vec3"], "float"), ("rgba_to_float", ["vec4"], "float"),
      ("uv_to_texel", ["vec2", "ivec2"], "ivec2"), ("main", [], "void")] := by
  have hread (text : String) : functionsIn text = functionsOf text.toList := rfl
  rw [templateSignatures, hread, template, Glsl.toList_ofLines]
  simp only [List.flatMap_cons, List.flatMap_nil]
  -- each line becomes its characters before anything is computed
  repeat rw [String.toList_ofList]
  decide +kernel

/-- The functions on images are no functions of the template. -/
theorem helper?_image {name : String} {use : Intrinsic.ImageUse}
    (h : Intrinsic.imageUse? name = some use) : helper? name = none := by
  have hname : templateSignatures.lookup name = none := by
    rw [templateSignatures_eq]
    unfold Intrinsic.imageUse? at h
    simp only [List.lookup_cons, List.lookup_nil] at h
    split at h
    · next hsize =>
      rw [beq_iff_eq.mp hsize]
      decide
    · split at h
      · next hload =>
        rw [beq_iff_eq.mp hload]
        decide
      · split at h
        · next hstore =>
          rw [beq_iff_eq.mp hstore]
          decide
        · cases h
  rw [helper?, hname]
  rfl

/-- The image tells what the function on it gives. -/
theorem overload_unique {use : Intrinsic.ImageUse} {s s' : Scalar} {size size' : Nat}
    {readable readable' writable writable' : Bool} {ps ps' : List ParameterType}
    {type type' : ValueType}
    (h : use.overload (.image s size readable writable) s size = ⟨ps, some type⟩)
    (h' : use.overload (.image s' size' readable' writable') s' size' = ⟨ps', some type'⟩)
    (hsame : ps'.map (·.type) = ps.map (·.type)) : type' = type := by
  cases use with
  | size =>
    cases h
    cases h'
    cases hsame
    rfl
  | load =>
    cases h
    cases h'
    simp only [List.map_cons, List.cons.injEq, ValueType.image.injEq] at hsame
    rw [hsame.1.1]
  | store => cases h

/-- **An expression has one type.** -/
theorem HasType.unique {scope : List (String × ValueType)} {e : Expression} {type type' : ValueType}
    (h : HasType scope e type) (h' : HasType scope e type') : type' = type := by
  -- the types of arguments are compared along with that of the call
  refine @HasType.rec scope (fun e type _ => ∀ type', HasType scope e type' → type' = type)
    (fun es types _ => ∀ types', List.Forall₂ (HasType scope) es types' → types' = types)
    ?literal ?named ?field ?helper ?image ?construct ?scale ?nil ?cons e type h type' h'
  case literal =>
    intro kind value type' h'
    cases h'
    rfl
  case named =>
    intro name type hlookup type' h'
    cases h' with
    | named hlookup' => exact Option.some.inj (hlookup'.symm.trans hlookup)
  case field =>
    intro e s size name type _ hpart ih type' h'
    cases h' with
    | field he' hpart' =>
      cases ih _ he'
      exact Option.some.inj (hpart'.symm.trans hpart)
  case helper =>
    intro name es parameters type hhelper _ _ type' h'
    cases h' with
    | helper hhelper' _ =>
      rw [hhelper] at hhelper'
      cases hhelper'
      rfl
    | image huse _ _ _ =>
      rw [helper?_image huse] at hhelper
      cases hhelper
  case image =>
    intro name use texel coordinates readable writable es parameters type huse _ hoverload _ ih
      type' h'
    cases h' with
    | helper hhelper _ =>
      rw [helper?_image huse] at hhelper
      cases hhelper
    | image huse' _ hoverload' hes' =>
      cases Option.some.inj (huse'.symm.trans huse)
      exact overload_unique hoverload hoverload' (ih _ hes')
  case construct =>
    intro name es parts type hname _ _ _ type' h'
    cases h' with
    | construct hname' _ _ => exact Option.some.inj (hname'.symm.trans hname)
  case scale =>
    intro e f s size _ _ ih _ type' h'
    cases h' with
    | scale he' _ => exact ih _ he'
  case nil =>
    intro types' h'
    cases h'
    rfl
  case cons =>
    intro e type es types _ _ ih ihs types' h'
    cases h' with
    | cons hhead htail => rw [ih _ hhead, ihs _ htail]

end Texel.Shader
