import Texel.Shader.Analysis.Value

/-!
# Analysis of declarations

What a declaration adds: variables, constants, resources with their places, and functions. The
qualifiers of a declaration must all have a meaning there.
-/

namespace Texel.Shader

/-- Where the data of a variable is. -/
inductive Storage
  | ordinary
  | constant
  /-- Shared by the runs of a group. -/
  | shared
  | uniform
  | buffer
  /-- Between the stages of a program. -/
  | stage
deriving DecidableEq, Repr

namespace Qualifiers

def storages : List (String × Storage) :=
  [("const", .constant), ("shared", .shared), ("uniform", .uniform), ("buffer", .buffer),
    ("in", .stage), ("out", .stage)]

/-- The storage that the words tell. They can tell one only. -/
def storage? (q : Qualifiers) : Option Storage :=
  match q.words.filterMap (fun word => storages.lookup word) with
  | [] => some .ordinary
  | [storage] => some storage
  | _ => none

def readable (q : Qualifiers) : Bool := !q.words.contains "writeonly"

def writable (q : Qualifiers) : Bool := !q.words.contains "readonly"

/-- The names of the packings. -/
def packings : List (String × Packing) := [("std140", .wide), ("std430", .tight)]

def packing? (q : Qualifiers) : Option Packing :=
  q.layout.reverse.findSome? fun (key, _) => packings.lookup key

/-- The kind of the texels of an image. -/
def texel? (q : Qualifiers) : Option Scalar :=
  q.layout.reverse.findSome? fun (key, _) => texelFormats.lookup key

end Qualifiers

namespace Analyze

/-- The value of an entry of a layout. The last one of a name counts. -/
def layoutValue (q : Qualifiers) (key : String) : Analyze (Option Nat) := do
  match q.layout.reverse.lookup key with
  | some (some e) =>
    let n ← constant e
    require (0 ≤ n)
    return some n.toNat
  | some none => failed
  | none => return none

/-- Only these entries may be in a layout. -/
def requireKeys (q : Qualifiers) (keys : List String) : Analyze Unit :=
  require (q.layout.all fun (key, _) => keys.contains key)

/-- Only what can be shared with the outside can be said to be read or written only. -/
def requireNoAccess (q : Qualifiers) : Analyze Unit := require (q.readable && q.writable)

/-- Adds a resource at the place that its layout tells. -/
def addResource (q : Qualifiers) : Analyze (Nat × Nat × Nat) := do
  let binding ← ofOption (← layoutValue q "binding")
  let group := (← layoutValue q "set").getD 0
  let index := (← get).resources.length
  modify fun a => { a with resources := a.resources ++ [(group, binding)] }
  return (index, group, binding)

def placeKeys : List String := ["set", "binding"]

/-- Declares an image. -/
def declareImage (q : Qualifiers) (coordinates : Nat) (name : String) : Analyze Entry := do
  requireKeys q (placeKeys ++ texelFormats.map (·.1))
  let texel ← ofOption q.texel?
  let (index, group, binding) ← addResource q
  modify fun a => { a with layout := a.layout.withImage ⟨name, group, binding, q.writable⟩ }
  return { type := .image texel coordinates q.readable q.writable, resource := some index }

/-- Declares data that comes from the outside. -/
def declareUniform (q : Qualifiers) (type : ValueType) (shape : Shape) (members : List Member) :
    Analyze Entry := do
  requireNoAccess q
  if q.layout.any (·.1 = "push_constant") then
    requireKeys q ["push_constant"]
    return { type }
  requireKeys q placeKeys
  let (index, group, binding) ← addResource q
  if shape.isStructure then
    modify fun a => { a with layout := a.layout.withBlock group binding members shape.size }
  if shape.uniform.isNone then
    spoil
  return { type, resource := some index }

/-- The members of a structure, where they stand. -/
def recordMembers (type : ValueType) : Analyze (List Member) := do
  match type with
  | .record index =>
    let record ← ofOption (← get).records[index]?
    let shapes ← record.fields.mapM fun (_, type) => shape .wide type
    return members (record.fields.map (·.1)) shapes
  | _ => return []

/-- Declares a variable of a storage, outside of functions. -/
def declareStored (q : Qualifiers) (storage : Storage) (type : ValueType) (name : String) :
    Analyze Entry := do
  match storage, type with
  | .uniform, .image _ coordinates .. => declareImage q coordinates name
  | .uniform, .texture .. | .uniform, .sampler =>
    requireKeys q placeKeys
    requireNoAccess q
    let (index, _, _) ← addResource q
    return { type, resource := some index }
  | .uniform, type => declareUniform q type (← shape .wide type) (← recordMembers type)
  | .buffer, type =>
    requireKeys q placeKeys
    let (index, _, _) ← addResource q
    return { type, resource := some index }
  | .stage, type => return { type }
  | _, type =>
    requireKeys q []
    requireNoAccess q
    return { type }

/-- Analyses the value of a constant, which can depend on nothing that runs. -/
def constantValue (e : Expression) : Analyze (Option Quantity) := do
  let before ← get
  let _ ← value true e
  let after ← get
  require (after.uses.length = before.uses.length && after.calls.length = before.calls.length)
  return Constant.value? (fun name => (after.globals.lookup name).bind (·.constant)) e

/-- Adds a variable outside of functions. -/
def declareVariable (q : Qualifiers) (storage : Storage) (base : ValueType) (d : Declarator) :
    Analyze Unit := do
  let type ← d.lengths.reverse.foldlM arrayOf base
  match storage, d.value with
  | .constant, none => failed
  | .constant, some e =>
    requireKeys q []
    requireNoAccess q
    let value ← constantValue e
    let constant := if type = .float then value.bind (·.convert? "float") else value
    declareGlobal d.name { type, constant }
  | storage, initial =>
    if let some e := initial then
      let _ ← value true e
    declareGlobal d.name (← declareStored q storage type d.name)

/-- Adds a variable of a function. -/
def declareInner (q : Qualifiers) (storage : Storage) (base : ValueType) (d : Declarator) :
    Analyze Unit := do
  require (storage = .ordinary || storage = .constant)
  requireNoAccess q
  let type ← d.lengths.reverse.foldlM arrayOf base
  if let some e := d.value then
    let _ ← value true e
  declareLocal d.name { type }

/-- Adds a block. Its members are variables, whether it has a name as a whole or not. -/
def declareBlock (q : Qualifiers) (fields : List Field)
    (whole : Option (String × List Expression)) : Analyze Unit := do
  let storage ← ofOption q.storage?
  let packing := q.packing?.getD (if storage = .buffer then .tight else .wide)
  let layout := q.layout.filter fun (key, _) => (Qualifiers.packings.lookup key).isNone
  let q := { q with layout }
  let types ← memberTypes fields
  let shapes ← types.mapM fun (_, type) => shape packing type
  let record : Record := ⟨types, .ofMembers shapes, .ofMembers shapes⟩
  let base := ValueType.record (← get).records.length
  modify fun a => { a with records := a.records ++ [record] }
  let lengths := (whole.map (·.2)).getD []
  let type ← lengths.reverse.foldlM arrayOf base
  let entry ← match storage with
    | .uniform =>
      declareUniform q type (← shape packing type) (members (types.map (·.1)) shapes)
    | storage => declareStored q storage type ""
  if let some (name, _) := whole then
    declareGlobal name entry
  for (name, type) in types do
    declareGlobal name { type, resource := entry.resource }

/-- What is said about the whole program. -/
def declareGeneral (q : Qualifiers) : Analyze Unit := do
  let sizes := ["local_size_x", "local_size_y", "local_size_z"]
  requireKeys q ("early_fragment_tests" :: sizes)
  for key in sizes do
    let _ ← layoutValue q key

/-! ### Functions -/

/-- The way through a parameter that its words tell. -/
def direction (words : List String) : Direction :=
  if words.contains "inout" then .both
  else if words.contains "out" then .output
  else .input

def parameterType (p : Parameter) : Analyze ParameterType := do
  return ⟨← typeOfUse p.type, direction p.words⟩

/-- A function without its body. -/
def routineOf (s : Signature) : Analyze Routine := do
  let result ← s.type.mapM typeOfUse
  let parameters ← s.parameters.mapM parameterType
  return { name := s.name, parameters, result, defined := false }

/-- The place of the function with the name and the parameter types of another. -/
def sameRoutine? (r : Routine) : Analyze (Option Nat) := do
  return (← get).routines.findIdx? fun other =>
    other.name = r.name ∧ other.parameters.map (·.type) = r.parameters.map (·.type)

/-- Announces a function that has not been declared. -/
def declarePrototype (s : Signature) : Analyze Unit := do
  let r ← routineOf s
  require (← sameRoutine? r).isNone
  modify fun a => { a with routines := a.routines ++ [r] }

/-- Adds a function with its body, which it can have once. -/
def defineRoutine (r : Routine) : Analyze Unit := do
  match ← sameRoutine? r with
  | none => modify fun a => { a with routines := a.routines ++ [r] }
  | some index =>
    require !((← get).routines[index]?.any (·.defined))
    modify fun a => { a with routines := a.routines.set index r }

/-- Analyses a declaration outside of functions. A place is for one variable only. -/
def declareOuter : Declaration → Analyze Unit
  | .variableList q type declarators => do
    let storage ← ofOption q.storage?
    require (declarators.length ≤ 1 || (storage ≠ .uniform && storage ≠ .buffer))
    let base ← typeOfUse type
    for d in declarators do
      declareVariable q storage base d
  | .block q fields whole => declareBlock q fields whole
  | .general q => declareGeneral q
  | .prototype s => declarePrototype s
  | .precision => return

/-- Analyses a declaration in a function. -/
def declareWithin : Declaration → Analyze Unit
  | .variableList q type declarators => do
    let storage ← ofOption q.storage?
    let base ← typeOfUse type
    for d in declarators do
      declareInner q storage base d
  | .prototype s => declarePrototype s
  | .precision => return
  | _ => failed

end Analyze
end Texel.Shader
