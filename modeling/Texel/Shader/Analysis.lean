import Texel.Shader.Constant
import Texel.Shader.Intrinsic
import Texel.Shader.Placement

/-!
# Analysis of programs

What has been found out about a program from its beginning up to some point: its types, variables
and functions, the resources it declares, and which of them are used. A program that cannot be
understood has no analysis. Some programs can be understood and are still not valid.
-/

namespace Texel.Shader

/-- A structure that a program declares, with its shapes in both packings. -/
structure Record where
  fields : List (String × ValueType)
  wide : Shape
  tight : Shape
deriving Repr

/-- What a variable is. -/
structure Entry where
  type : ValueType
  /-- The resource that it is or that it is a part of. -/
  resource : Option Nat := none
  /-- The value of a constant, if it is a number. -/
  constant : Option Quantity := none
deriving Repr

/-- A function that a program declares. -/
structure Routine where
  name : String
  parameters : List ParameterType
  result : Option ValueType
  /-- Has it a body? -/
  defined : Bool
  /-- The resources that its body uses. -/
  uses : List Nat := []
  /-- The functions that its body calls. -/
  calls : List Nat := []
deriving Repr

structure Analysis where
  records : List Record := []
  /-- The names of structures, last one first. -/
  recordNames : List (String × Nat) := []
  /-- Variables outside of functions, last one first. -/
  globals : List (String × Entry) := []
  /-- Variables of the function that is read, for every block, innermost first. -/
  scopes : List (List (String × Entry)) := []
  routines : List Routine := []
  /-- Group and binding of every resource. -/
  resources : List (Nat × Nat) := []
  layout : Layout := {}
  valid : Bool := true
  /-- The resources that are used by what is read. -/
  uses : List Nat := []
  /-- The functions that are called by what is read. -/
  calls : List Nat := []
  /-- Can what is read be reached, with no end of the block before it? -/
  reachable : Bool := true
deriving Repr

abbrev Analyze := StateT Analysis Option

namespace Analyze

variable {α : Type}

def failed : Analyze α := fun _ => none

/-- Goes on only if a condition holds. -/
def require (condition : Bool) : Analyze Unit := fun a => if condition then some ((), a) else none

def ofOption : Option α → Analyze α
  | some x => return x
  | none => failed

/-- Notes that a resource is used. -/
def use (resource : Nat) : Analyze Unit := modify fun a => { a with uses := resource :: a.uses }

/-- Notes that a resource is used by something that is left out if it cannot be reached. -/
def useReached (resource : Nat) : Analyze Unit := do
  if (← get).reachable then
    use resource

/-- Notes that a function is called. -/
def callReached (routine : Nat) : Analyze Unit := do
  if (← get).reachable then
    modify fun a => { a with calls := routine :: a.calls }

/-- What a name stands for: the innermost variable, or one that is built in. -/
def lookup (name : String) : Analyze Entry := do
  let a ← get
  match a.scopes.findSome? (·.lookup name) with
  | some entry => return entry
  | none =>
    match a.globals.lookup name with
    | some entry => return entry
    | none => return { type := ← ofOption (Intrinsic.variableTypes.lookup name) }

/-- Runs an analysis in a block of its own. -/
def enclosed (x : Analyze α) : Analyze α := do
  modify fun a => { a with scopes := [] :: a.scopes }
  let result ← x
  modify fun a => { a with scopes := a.scopes.tail }
  return result

/-- Adds a variable to the innermost block, in which it must be the first of its name. -/
def declareLocal (name : String) (entry : Entry) : Analyze Unit := do
  match (← get).scopes with
  | [] => failed
  | inner :: outer =>
    require (inner.lookup name).isNone
    modify fun a => { a with scopes := ((name, entry) :: inner) :: outer }

def declareGlobal (name : String) (entry : Entry) : Analyze Unit :=
  modify fun a => { a with globals := (name, entry) :: a.globals }

/-- Notes that the program is not valid. -/
def spoil : Analyze Unit := modify fun a => { a with valid := false }

/-- The value of a constant expression, which must be a whole number. -/
def constant (e : Expression) : Analyze Int := do
  let globals := (← get).globals
  match Constant.value? (fun name => (globals.lookup name).bind (·.constant)) e with
  | some (.whole value) => return value
  | _ => failed

/-! ### Types -/

/-- An array of elements, of which no length stands for any. -/
def arrayOf (element : ValueType) (length : Expression) : Analyze ValueType := do
  match length with
  | .missing => return .array element none
  | length =>
    let n ← constant length
    require (0 < n)
    return .array element (some n.toNat)

/-- The type of a name, with the lengths of arrays behind it, outermost first. -/
def typeOf (name : String) (lengths : List Expression) : Analyze ValueType := do
  let base ← match ValueType.ofName? name with
    | some type => pure type
    | none => ValueType.record <$> ofOption ((← get).recordNames.lookup name)
  lengths.reverse.foldlM arrayOf base

/-- The shape of a type. -/
def shape (p : Packing) (type : ValueType) : Analyze Shape := do
  let structures := (← get).records.map fun r => if p = .wide then r.wide else r.tight
  ofOption (Shape.ofType? p structures type)

/-- The members that some declarations make. -/
def memberTypes (fields : List Field) : Analyze (List (String × ValueType)) :=
  fields.mapM fun f => do return (f.name, ← typeOf f.type f.lengths)

/-- Adds a structure. -/
def declareRecord (name : String) (fields : List Field) : Analyze Unit := do
  let types ← memberTypes fields
  let wide ← types.mapM fun (_, type) => shape .wide type
  let tight ← types.mapM fun (_, type) => shape .tight type
  modify fun a =>
    { a with
      records := a.records ++ [⟨types, .ofMembers wide, .ofMembers tight⟩]
      recordNames := (name, a.records.length) :: a.recordNames }

/-- The type in a declaration. -/
def typeOfUse (t : TypeUse) : Analyze ValueType := do
  if let some fields := t.fields then
    declareRecord t.name fields
  typeOf t.name t.lengths

end Analyze
end Texel.Shader
