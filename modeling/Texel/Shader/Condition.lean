import Texel.Shader.Abbreviation

/-!
# Conditions of directives

Whole numbers of 64 bits with the operators of the shading language, and `defined`, which asks for
an abbreviation. A condition holds if its value is not zero. A name that is no abbreviation has no
value, which does no harm where the value is not asked for.
-/

namespace Texel.Shader.Condition

def truth (b : Bool) : Int64 := if b then 1 else 0

/-- An operator between two operands. Those of a higher level bind more tightly. -/
structure Operator where
  symbol : String
  level : Nat
  apply : Int64 → Int64 → Option Int64

/-- The operators that need both of their operands. -/
def operators : List Operator :=
  [⟨"|", 3, fun a b => some (a ||| b)⟩,
    ⟨"^", 4, fun a b => some (a ^^^ b)⟩,
    ⟨"&", 5, fun a b => some (a &&& b)⟩,
    ⟨"==", 6, fun a b => some (truth (a == b))⟩,
    ⟨"!=", 6, fun a b => some (truth (a != b))⟩,
    ⟨"<", 7, fun a b => some (truth (a < b))⟩,
    ⟨">", 7, fun a b => some (truth (b < a))⟩,
    ⟨"<=", 7, fun a b => some (truth (a ≤ b))⟩,
    ⟨">=", 7, fun a b => some (truth (b ≤ a))⟩,
    ⟨"<<", 8, fun a b => some (a <<< b)⟩,
    ⟨">>", 8, fun a b => some (a >>> b)⟩,
    ⟨"+", 9, fun a b => some (a + b)⟩,
    ⟨"-", 9, fun a b => some (a - b)⟩,
    ⟨"*", 10, fun a b => some (a * b)⟩,
    ⟨"/", 10, fun a b => if b == 0 then none else some (a / b)⟩,
    ⟨"%", 10, fun a b => if b == 0 then none else some (a % b)⟩]

/-- How tightly a token binds as an operator. -/
def level? : Token → Option Nat
  | .symbol "||" => some 1
  | .symbol "&&" => some 2
  | .symbol s => (operators.find? (·.symbol = s)).map (·.level)
  | _ => none

/-- The value of two operands. The second one is not asked for if the first one decides. -/
def apply (symbol : String) (a b : Option Int64) : Option Int64 := do
  let v ← a
  if symbol = "||" then
    if v != 0 then return 1
    return truth ((← b) != 0)
  if symbol = "&&" then
    if v == 0 then return 0
    return truth ((← b) != 0)
  (← operators.find? (·.symbol = symbol)).apply v (← b)

mutual

/-- The value of an operand and what follows it, read in at most `n` steps. -/
def operand? : Nat → List Token → Option (Option Int64 × List Token)
  | 0, _ => none
  | _ + 1, [] => none
  | n + 1, t :: rest =>
    match t with
    | .integer value _ => some (some (Int64.ofNat value), rest)
    | .name _ => some (none, rest)
    | .real .. => none
    | .symbol "(" =>
      match expression? n 1 rest with
      | some (v, close :: rest) => if close.isSymbol ")" then some (v, rest) else none
      | _ => none
    | .symbol "!" => (operand? n rest).map fun (v, rest) => (v.map fun v => truth (v == 0), rest)
    | .symbol "~" => (operand? n rest).map fun (v, rest) => (v.map fun v => ~~~v, rest)
    | .symbol "-" => (operand? n rest).map fun (v, rest) => (v.map fun v => -v, rest)
    | .symbol "+" => operand? n rest
    | .symbol _ => none

/-- Operands joined by operators of at least some level. -/
def expression? : Nat → Nat → List Token → Option (Option Int64 × List Token)
  | 0, _, _ => none
  | n + 1, level, ts => do
    let (v, rest) ← operand? n ts
    joined? n level v rest

/-- Goes on with a value after which operators of at least some level may follow. -/
def joined? : Nat → Nat → Option Int64 → List Token → Option (Option Int64 × List Token)
  | 0, _, _, _ => none
  | _ + 1, _, v, [] => some (v, [])
  | n + 1, level, v, t :: rest =>
    match level? t, t with
    | some binding, .symbol symbol =>
      if binding < level then some (v, t :: rest)
      else do
        let (w, rest) ← expression? n (binding + 1) rest
        joined? n level (apply symbol v w) rest
    | _, _ => some (v, t :: rest)

end

/-- The answer to the question for an abbreviation. -/
def flag (table : List Abbreviation) (name : String) : Token :=
  .integer (if (Abbreviation.find? table name).isSome then 1 else 0) true

/-- Answers the questions for abbreviations. -/
def resolve (table : List Abbreviation) : List Token → List Token
  | .name "defined" :: .symbol "(" :: .name name :: .symbol ")" :: rest =>
    flag table name :: resolve table rest
  | .name "defined" :: .name name :: rest => flag table name :: resolve table rest
  | t :: rest => t :: resolve table rest
  | [] => []

/-- Does the condition hold, if it is one? -/
def holds? (table : List Abbreviation) (ts : List Token) : Option Bool := do
  let ts ← Abbreviation.expand? table (resolve table ts)
  match expression? (4 * ts.length + 4) 1 ts with
  | some (some v, []) => some (v != 0)
  | _ => none

end Texel.Shader.Condition
