import Texel.Shader.Type

/-!
# Overloads

Several functions may have one name. A call means the one whose parameters fit its arguments best:
an exact fit wins, and otherwise numbers may be converted to kinds that hold more. `Choice.select`
goes through the candidates in order and compares each with the best one so far.
-/

namespace Texel.Shader

/-- Which way a value goes through a parameter. -/
inductive Direction
  | input
  | output
  | both
deriving DecidableEq, Repr

structure ParameterType where
  type : ValueType
  direction : Direction := .input
deriving DecidableEq, Repr

/-- What a function takes and gives. -/
structure Overload where
  parameters : List ParameterType
  result : Option ValueType
deriving DecidableEq, Repr

/-- What has to be done to an argument. -/
inductive Conversion
  | exact
  | floatToDouble
  | intToFloat
  | intToDouble
  | other
deriving DecidableEq, Repr

namespace Conversion

/-- Numbers of a kind can be converted to those of a kind of at least the same rank. -/
def rank? : Scalar → Option Nat
  | .bool => none
  | .int => some 0
  | .uint => some 1
  | .float => some 2
  | .double => some 3

/-- Have the types the same shape, so that only their numbers may differ? -/
def sameShape (target source : ValueType) : Bool :=
  match target.component?, source.component? with
  | some s, some _ => source.withComponent s == target
  | _, _ => false

/-- The conversion of numbers from one kind to another. -/
def ofScalars (target source : Scalar) : Conversion :=
  let fromInt := source == .int || source == .uint
  if target = .double ∧ source = .float then .floatToDouble
  else if target = .float ∧ fromInt then .intToFloat
  else if target = .double ∧ fromInt then .intToDouble
  else .other

/-- The conversion of a value to another type. -/
def implicit? (target source : ValueType) : Option Conversion := do
  guard (sameShape target source)
  let t ← target.component?
  let s ← source.component?
  guard ((← rank? s) ≤ (← rank? t))
  return ofScalars t s

/-- Images fit if places and texels are of the same kind, whatever they may be used for. -/
def sameImage : ValueType → ValueType → Bool
  | .image texel coordinates .., .image texel' coordinates' .. =>
    texel == texel' && coordinates == coordinates'
  | _, _ => false

/-- What has to be done to an argument for a parameter. Nothing is asked of an argument whose type
is not known. -/
def ofArgument? (parameter : ParameterType) : Option ValueType → Option Conversion
  | none => some .exact
  | some type =>
    if parameter.type = type ∨ sameImage parameter.type type then some .exact
    else match parameter.direction with
      | .input => implicit? parameter.type type
      | .output => implicit? type parameter.type
      | .both => none

/-- Is the conversion better than another one? Some cannot be compared. -/
def isBetter? : Conversion → Option Conversion → Option Bool
  | .exact, _ => none
  | _, none => some true
  | _, some .exact => some false
  | .floatToDouble, _ => some true
  | _, some .floatToDouble => some false
  | .intToFloat, some .intToDouble => some true
  | .intToDouble, some .intToFloat => some false
  | _, _ => none

end Conversion

/-- A choice between candidates. -/
structure Choice (α : Type) where
  /-- The best candidate so far, with the conversions by which it has been chosen. -/
  best : Option α := none
  conversions : List (Option Conversion)
  /-- Has a candidate been seen that is neither better nor worse? -/
  ambiguous : Bool := false
  /-- Has a candidate been found that fits exactly? -/
  settled : Bool := false

namespace Choice

variable {α : Type}

/-- How a candidate compares with the best one so far. -/
structure Comparison where
  /-- Is it better, as far as is known? -/
  superior : Option Bool := none
  ambiguous : Bool := false
  /-- The conversions by which it is better, last first. -/
  conversions : List (Option Conversion) := []

/-- Compares the conversions of one argument. -/
def Comparison.step (c : Comparison) (conversion : Conversion) (old : Option Conversion) :
    Comparison :=
  match conversion.isBetter? old with
  | none =>
    let kept := if conversion = .exact then some conversion else none
    { c with conversions := kept :: c.conversions }
  | some better =>
    if c.superior = some (!better) then
      { c with ambiguous := true, conversions := none :: c.conversions }
    else
      { c with
        superior := some better
        conversions := (if better then some conversion else none) :: c.conversions }

/-- Takes a candidate whose arguments need some conversions. -/
def consider (c : Choice α) (candidate : α) (conversions : List Conversion) : Choice α :=
  if conversions.all (· == .exact) then
    { c with best := some candidate, ambiguous := false, settled := true }
  else
    let comparison : Comparison :=
      (conversions.zip c.conversions).foldl (fun k pair => k.step pair.1 pair.2) {}
    let ambiguous := c.ambiguous || comparison.ambiguous
    match comparison.superior with
    | some true =>
      { c with best := some candidate, conversions := comparison.conversions.reverse, ambiguous }
    | some false => { c with ambiguous }
    | none => { c with best := some candidate, ambiguous := true }

/-- Takes a candidate, if its parameters fit the arguments. -/
def step (arguments : List (Option ValueType)) (c : Choice α)
    (candidate : α × List ParameterType) : Choice α :=
  let (a, parameters) := candidate
  if c.settled || parameters.length ≠ arguments.length then c
  else
    let pairs := parameters.zip arguments
    match pairs.mapM fun (p, argument) => Conversion.ofArgument? p argument with
    | some conversions => c.consider a conversions
    | none => c

/-- The choice between candidates for some arguments. -/
def select (arguments : List (Option ValueType)) (candidates : List (α × List ParameterType)) :
    Choice α :=
  candidates.foldl (step arguments) { conversions := arguments.map fun _ => none }

end Choice
end Texel.Shader
