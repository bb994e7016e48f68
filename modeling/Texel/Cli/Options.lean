import Texel.Failure
import Texel.Text.Blank

/-!
# Command line options
-/

namespace Texel

structure Options where
  graph : Option String := none
  output : Option String := none
  config : Option String := none
  size : Option Extent := none
  dumpSource : Option String := none
  validateOnly : Bool := false
deriving DecidableEq, Repr

namespace Options

/-- Digits read on from `n`, as a number of 32 bits. -/
def digitsFrom : Nat → List Char → Except NumberError Nat
  | n, [] => .ok n
  | n, c :: rest =>
    if !c.isDigit then .error .badDigit
    else
      let next := n * 10 + (c.toNat - '0'.toNat)
      if next < UInt32.size then digitsFrom next rest else .error .tooLarge

/-- A number of 32 bits, which may have a plus sign. -/
def number : List Char → Except NumberError Nat
  | [] => .error .empty
  | ['+'] => .error .badDigit
  | '+' :: digits => digitsFrom 0 digits
  | digits => digitsFrom 0 digits

/-- Width and height with an `x` between them; blanks around either do not count. -/
def parseSize (text : String) : Except Failure Extent :=
  let (before, after) := text.toList.span fun c => c != 'x' && c != 'X'
  match after with
  | [] => .error (.sizeShape text)
  | _ :: after => do
    let width ← (number (Text.trimBlanks before)).mapError (.sizeWidth text)
    let height ← (number (Text.trimBlanks after)).mapError (.sizeHeight text)
    if width = 0 ∨ height = 0 then .error (.sizeZero text) else .ok ⟨width, height⟩

/-- Takes an option that has a value. -/
def take (o : Options) (flag value : String) : Except Failure Options :=
  if flag = "--graph" then .ok { o with graph := some value }
  else if flag = "--output" ∨ flag = "-o" then .ok { o with output := some value }
  else if flag = "--config" then .ok { o with config := some value }
  else if flag = "--size" then do
    let size ← parseSize value
    return { o with size := some size }
  else if flag = "--dump-source" then .ok { o with dumpSource := some value }
  else .error (.unknownArgument flag)

def parseFrom (o : Options) : List String → Except Failure Options
  | [] => .ok o
  | [flag] =>
    if flag = "--validate-only" then .ok { o with validateOnly := true }
    else .error (.missingValue flag)
  | flag :: value :: rest =>
    if flag = "--validate-only" then parseFrom { o with validateOnly := true } (value :: rest)
    else do parseFrom (← o.take flag value) rest

/-- Reads the arguments from left to right. -/
def parse (args : List String) : Except Failure Options := parseFrom {} args

end Options
end Texel
