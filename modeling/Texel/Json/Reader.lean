import Texel.Json.Basic
import Texel.Json.Numeral
import Texel.Json.Token

/-!
# Reading JSON

A stack of unfinished containers takes the tokens one by one, so values may be nested to any depth.
-/

namespace Texel.Json

/-- An unfinished container; what it holds so far is kept last first. -/
inductive Frame
  | array (items : List Json)
  | object (members : List (Option String × Json)) (key : Option String)
deriving Repr

/-- What may come next. -/
inductive Expect
  /-- A value; or the end of the array, if it is still empty. -/
  | value (mayClose : Bool)
  /-- A key; or the end of the object, if it is still empty. -/
  | key (members : List (Option String × Json)) (mayClose : Bool)
  | colon (members : List (Option String × Json)) (key : Option String)
  /-- A comma or the end of the container. -/
  | more
  | nothing (result : Json)
deriving Repr

structure Reader where
  expect : Expect := .value false
  stack : List Frame := []
deriving Repr

namespace Reader

/-- Hands a finished value to the innermost container. -/
def complete (v : Json) : List Frame → Reader
  | [] => ⟨.nothing v, []⟩
  | .array items :: rest => ⟨.more, .array (v :: items) :: rest⟩
  | .object members key :: rest => ⟨.more, .object ((key, v) :: members) none :: rest⟩

def wordValue? (letters : List Char) : Option Json :=
  if letters = ['n', 'u', 'l', 'l'] then some .null
  else if letters = ['t', 'r', 'u', 'e'] then some (.bool true)
  else if letters = ['f', 'a', 'l', 's', 'e'] then some (.bool false)
  else none

/-- Takes a token where a value may stand. -/
def valueStep (stack : List Frame) (mayClose : Bool) : Token → Option Reader
  | .string text => some (complete (.string text) stack)
  | .number literal =>
    (Numeral.parse? literal).map fun _ => complete (.number literal) stack
  | .word letters => (wordValue? letters).map (complete · stack)
  | .symbol c =>
    if c == '[' then some ⟨.value true, .array [] :: stack⟩
    else if c == '\x7b' then some ⟨.key [] true, stack⟩
    else if c == ']' && mayClose then
      match stack with
      | .array items :: rest => some (complete (.array items.reverse) rest)
      | _ => none
    else none

/-- Takes a token after a value. -/
def moreStep (stack : List Frame) : Token → Option Reader
  | .symbol c =>
    match stack with
    | .array items :: rest =>
      if c == ',' then some ⟨.value false, stack⟩
      else if c == ']' then some (complete (.array items.reverse) rest)
      else none
    | .object members _ :: rest =>
      if c == ',' then some ⟨.key members false, rest⟩
      else if c == '\x7d' then some (complete (.object members.reverse) rest)
      else none
    | [] => none
  | _ => none

def step (r : Reader) (t : Token) : Option Reader :=
  match r.expect with
  | .value mayClose => valueStep r.stack mayClose t
  | .key members mayClose =>
    match t with
    | .string key => some { r with expect := .colon members key }
    | .symbol c =>
      if c == '\x7d' && mayClose then some (complete (.object members.reverse) r.stack) else none
    | _ => none
  | .colon members key =>
    if t = .symbol ':' then some ⟨.value false, .object members key :: r.stack⟩ else none
  | .more => moreStep r.stack t
  | .nothing _ => none

end Reader

/-- The value that a text spells, and nothing else. -/
def parse? (text : String) : Option Json := do
  match (← (← tokens? text).foldlM Reader.step {}).expect with
  | .nothing v => some v
  | _ => none

/-! ### Typed views -/

def toSingle? : Json → Option Single
  | .number literal => do some (← (← Numeral.parse? literal).amount?).toSingle
  | _ => none

/-- A natural number below a bound, written as an integer. -/
def toNat? (bound : Nat) : Json → Option Nat
  | .number literal => do (← (← Numeral.parse? literal).amount?).toNat? bound
  | _ => none

def toText? : Json → Option String
  | .string text => text
  | _ => none

def toList? {α : Type} (f : Json → Option α) : Json → Option (List α)
  | .array items => items.mapM f
  | _ => none

/-- The members of an object, each key with a text. -/
def toMembers? {α : Type} (f : Json → Option α) : Json → Option (List (String × α))
  | .object members => members.mapM fun (key, v) => do return (← key, ← f v)
  | _ => none

/-- The fields of a record by name, each at most once, other members being ignored; or by position,
as an array that may leave out fields at the end. -/
def toFields? (names : List String) : Json → Option (List (Option Json))
  | .array items => if items.length ≤ names.length then
      some (items.map some ++ List.replicate (names.length - items.length) none)
    else none
  | .object members => do
    let keyed ← members.mapM fun (key, v) => do return (← key, v)
    names.mapM fun name =>
      match keyed.filter (·.1 = name) with
      | [] => some none
      | [(_, v)] => some (some v)
      | _ => none
  | _ => none

/-- A field that must be there. -/
def required {α : Type} (f : Json → Option α) (field : Option Json) : Option α := field.bind f

/-- A field that may be missing. -/
def optional {α : Type} (default : α) (f : Json → Option α) : Option Json → Option α
  | none => some default
  | some v => f v

end Texel.Json
