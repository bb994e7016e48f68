import Texel.Shader.Analysis

/-!
# Analysis of expressions

Finds the types of expressions as far as calls depend on them, the functions that are called, and
the resources that are used. A resource is used where its data is read or written, or where it is
given to a function; to name it is not enough. Types are not compared otherwise.
-/

namespace Texel.Shader

/-- What is known of a value. -/
structure Value where
  type : Option ValueType := none
  /-- The resource that the value is or is found in. -/
  resource : Option Nat := none
deriving Repr

namespace Value

/-- Is the value a reference to data, not the data itself? -/
def isReference (v : Value) : Bool :=
  match v.type with
  | some (.image ..) | some (.texture ..) | some .sampler => true
  | _ => false

def ofType (type : ValueType) : Value := { type := some type }

end Value

/-- The names of the parts of a vector. -/
def componentNames : List (List Char) :=
  [['x', 'y', 'z', 'w'], ['r', 'g', 'b', 'a'], ['s', 't', 'p', 'q']]

/-- The type of some parts of a vector. -/
def swizzle? (s : Scalar) (size : Nat) (name : String) : Option ValueType := do
  let letters := name.toList
  guard (letters.length ≤ 4 && componentNames.any fun names =>
    letters.all (names.take size).contains)
  return .several s letters.length

/-- The kind of the numbers that come from numbers of two kinds. -/
def joinScalars (a b : Scalar) : Scalar :=
  match Conversion.rank? a, Conversion.rank? b with
  | some m, some n => if m < n then b else a
  | _, _ => a

/-- Operators whose result is a truth value. -/
def truthSymbols : List String := ["==", "!=", "<", ">", "<=", ">=", "&&", "||", "^^"]

/-- The type of the product of values that are not single numbers. -/
def productType (s : Scalar) : ValueType → ValueType → ValueType
  | .matrix _ _ rows, .vector .. => .vector s rows
  | .vector .., .matrix _ columns _ => .vector s columns
  | .matrix _ _ rows, .matrix _ columns _ => .matrix s columns rows
  | left, _ => left.withComponent s

/-- The type of an operation. -/
def operationType? (symbol : String) (left right : Option ValueType) : Option ValueType :=
  if truthSymbols.contains symbol then some .bool
  else do
    let l ← left
    let r ← right
    if ["<<", ">>"].contains symbol then
      return l
    let s := joinScalars (← l.component?) (← r.component?)
    match l, r with
    | .scalar _, r => return r.withComponent s
    | l, .scalar _ => return l.withComponent s
    | l, r => return if symbol = "*" then productType s l r else l.withComponent s

/-- The type of an element. -/
def elementType? : ValueType → Option ValueType
  | .array element _ => some element
  | .vector s _ => some (.scalar s)
  | .matrix s _ rows => some (.vector s rows)
  | _ => none

/-- What a call may mean. -/
inductive Callee
  | intrinsic (result : Option ValueType)
  | routine (index : Nat) (result : Option ValueType)

namespace Analyze

/-- The data of a value is read. -/
def read (v : Value) : Analyze Unit := do
  if let some resource := v.resource then
    if !v.isReference then
      use resource

/-- The type of a part of a value, if that of the value is known. -/
def fieldType (name : String) : Option ValueType → Analyze (Option ValueType)
  | some (.vector s size) => some <$> ofOption (swizzle? s size name)
  | some (.record index) => do
    let record ← ofOption (← get).records[index]?
    some <$> ofOption (record.fields.lookup name)
  | some _ => failed
  | none => return none

/-- The functions that a program declares with a name, and their places. -/
def routinesOf (name : String) : Analyze (List (Nat × Routine)) := do
  let routines := (← get).routines
  return ((List.range routines.length).zip routines).filter (·.2.name = name)

/-- A call of a function on images. -/
def callImage (use : Intrinsic.ImageUse) (arguments : List Value) : Analyze Value := do
  match arguments with
  | [] => failed
  | image :: _ =>
    match image.type with
    | some (.image texel coordinates readable writable) =>
      let overload := use.overload (.image texel coordinates readable writable) texel coordinates
      let choice := Choice.select (arguments.map (·.type)) [((), overload.parameters)]
      require choice.best.isSome
      match use with
      | .size => image.resource.forM Analyze.use
      | .load =>
        require readable
        image.resource.forM Analyze.use
      | .store =>
        require writable
        image.resource.forM useReached
      return { type := overload.result }
    | some _ => failed
    | none => return {}

/-- A call of a function whose rule is known. It must not fit two of a program's own functions
equally well. -/
def callOverload (name : String) (own : List (Nat × Routine)) (arguments : List Value) :
    Analyze Value := do
  let builtin := (Intrinsic.overloads name).filter fun overload =>
    !own.any fun (_, r) => r.parameters.map (·.type) = overload.parameters.map (·.type)
  let candidates :=
    (builtin.map fun overload => (Callee.intrinsic overload.result, overload.parameters)) ++
      own.map fun (index, r) => (Callee.routine index r.result, r.parameters)
  let choice := Choice.select (arguments.map (·.type)) candidates
  require (!choice.ambiguous || !builtin.isEmpty)
  match ← ofOption choice.best with
  | .intrinsic result => return { type := result }
  | .routine index result =>
    callReached index
    for argument in arguments do
      argument.resource.forM useReached
    return { type := result }

def call (name : String) (arguments : List Value) : Analyze Value := do
  let own ← routinesOf name
  match Intrinsic.imageUse? name with
  | some use => if own.isEmpty then callImage use arguments else callOverload name own arguments
  | none =>
    if own.isEmpty && Intrinsic.untyped.contains name then
      for argument in arguments do
        argument.resource.forM use
      return {}
    callOverload name own arguments

/-- The type of a value made of others. An array without a length is as long as there are others. -/
def constructed (type : String) (lengths : List Expression) (count : Nat) : Analyze Value := do
  match ← typeOf type lengths with
  | .array element none => return .ofType (.array element (some count))
  | type => return .ofType type

mutual

/-- Analyses an expression, whose data is read unless it only stands for a place. -/
def value (reading : Bool) : Expression → Analyze Value
  | .missing => failed
  | .literal kind _ => return .ofType (.scalar kind)
  | .variable name => do
    let entry ← lookup name
    let v : Value := ⟨some entry.type, entry.resource⟩
    if reading then
      read v
    return v
  | .call name arguments => do call name (← values arguments)
  | .construct type lengths arguments => do
    let _ ← values arguments
    constructed type lengths arguments.length
  | .list items => do
    let _ ← values items
    return {}
  | .element base index => do
    let v ← value false base
    let _ ← value true index
    let part : Value := ⟨v.type.bind elementType?, v.resource⟩
    if reading then
      read part
    return part
  | .field base name => do
    let v ← value false base
    let part : Value := ⟨← fieldType name v.type, v.resource⟩
    if reading then
      read part
    return part
  | .method base name arguments => do
    let v ← value false base
    require (name = "length" && arguments.isEmpty)
    read v
    return .ofType .int
  | .unary _ operand => do
    let v ← value true operand
    return { type := v.type }
  | .count operand => do
    let v ← value true operand
    v.resource.forM useReached
    return { type := v.type }
  | .binary symbol left right => do
    let l ← value true left
    let r ← value true right
    return { type := operationType? symbol l.type r.type }
  | .assign symbol target source => do
    let t ← value symbol.isSome target
    let _ ← value true source
    t.resource.forM useReached
    return { type := t.type }
  | .choose condition accept reject => do
    let _ ← value true condition
    let a ← value true accept
    let r ← value true reject
    return { type := operationType? "+" a.type r.type <|> a.type }
  | .both first second => do
    let _ ← value true first
    let v ← value true second
    return { type := v.type }

def values : List Expression → Analyze (List Value)
  | [] => return []
  | e :: rest => do
    let v ← value true e
    return v :: (← values rest)

end

end Analyze
end Texel.Shader
