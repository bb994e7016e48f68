import Texel.Shader.Tree

/-!
# Constant expressions

The value of an expression that is known before a program runs: numbers, the constants that have
been declared, and what can be computed from them.
-/

namespace Texel.Shader.Constant

mutual

/-- The value of an expression, given those of the constants. -/
def value? (constants : String → Option Quantity) : Expression → Option Quantity
  | .literal _ value => some value
  | .variable name => constants name
  | .unary symbol operand => do (← value? constants operand).alter? symbol
  | .binary symbol left right => do
    Quantity.operate? symbol (← value? constants left) (← value? constants right)
  | .choose condition accept reject => do
    if (← value? constants condition).numerator ≠ 0 then value? constants accept
    else value? constants reject
  | .construct type [] arguments => do
    match ← values? constants arguments with
    | [q] => q.convert? type
    | _ => none
  | .call name arguments => do Quantity.function? name (← values? constants arguments)
  | _ => none

def values? (constants : String → Option Quantity) : List Expression → Option (List Quantity)
  | [] => some []
  | e :: rest => do return (← value? constants e) :: (← values? constants rest)

end

end Texel.Shader.Constant
