import Texel.Shader.Token

/-!
# Abbreviations

Names that stand for other tokens, with or without arguments. What an abbreviation stands for may
use others, but not itself: every token remembers from which abbreviations it comes.
-/

namespace Texel.Shader

/-- A name that stands for other tokens. -/
structure Abbreviation where
  name : String
  /-- The names of the arguments, if it is used with a list of them. -/
  parameters : Option (List String) := none
  body : List Token
deriving DecidableEq, Repr

namespace Abbreviation

def find? (table : List Abbreviation) (name : String) : Option Abbreviation :=
  table.find? (·.name = name)

/-- A token and the abbreviations it comes from. -/
structure Origin where
  token : Token
  sources : List String := []
deriving DecidableEq, Repr

/-- The abbreviation that a token is a use of. -/
def used? (table : List Abbreviation) (o : Origin) : Option Abbreviation := do
  let name ← o.token.name?
  guard (!o.sources.contains name)
  find? table name

/-- The tokens that a use stands for, with arguments that have been replaced themselves. -/
def replacement (a : Abbreviation) (sources : List String) (arguments : List (List Origin)) :
    List Origin :=
  let values := (a.parameters.getD []).zip arguments
  a.body.flatMap fun t =>
    match t.name?.bind fun name => values.lookup name with
    | some tokens => tokens
    | none => [{ token := t, sources := a.name :: sources }]

/-- The arguments of a use, read from behind its opening parenthesis, and what follows the use.
`depth` parentheses are open in the current argument, whose tokens stand last first. -/
def arguments? : Nat → List Origin → List (List Origin) → List Origin →
    Option (List (List Origin) × List Origin)
  | _, _, _, [] => none
  | depth, current, closed, o :: rest =>
    if o.token.isSymbol "(" then arguments? (depth + 1) (o :: current) closed rest
    else if o.token.isSymbol ")" then
      match depth with
      | 0 => some ((current.reverse :: closed).reverse, rest)
      | depth + 1 => arguments? depth (o :: current) closed rest
    else if o.token.isSymbol "," ∧ depth = 0 then
      arguments? depth [] (current.reverse :: closed) rest
    else arguments? depth (o :: current) closed rest

/-- Do the arguments fit the parameters? No parameter can be given an empty argument. -/
def fits (parameters : List String) (arguments : List (List Origin)) : Bool :=
  arguments.length == parameters.length || (parameters.isEmpty && arguments == [[]])

/-- Replaces uses in at most `n` steps. The tokens before stand last first. -/
def expandFrom? (table : List Abbreviation) : Nat → List Origin → List Origin →
    Option (List Origin)
  | 0, _, _ => none
  | _ + 1, found, [] => some found.reverse
  | n + 1, found, o :: rest =>
    match used? table o with
    | none => expandFrom? table n (o :: found) rest
    | some a =>
      match a.parameters, rest with
      | none, _ => expandFrom? table n found (a.replacement o.sources [] ++ rest)
      | some parameters, opening :: inside =>
        if opening.token.isSymbol "(" then do
          let (arguments, rest) ← arguments? 0 [] [] inside
          guard (fits parameters arguments)
          let arguments ← arguments.mapM fun argument => expandFrom? table n [] argument
          expandFrom? table n found (a.replacement o.sources arguments ++ rest)
        else expandFrom? table n (o :: found) rest
      | some _, [] => expandFrom? table n (o :: found) rest

/-- How many steps a replacement may take. -/
def stepLimit : Nat := 1000000

/-- Replaces the uses of abbreviations, if every use has the arguments it needs. -/
def expand? (table : List Abbreviation) (ts : List Token) : Option (List Token) :=
  (expandFrom? table stepLimit [] (ts.map fun token => { token })).map (·.map (·.token))

/-- The names in a list of parameters. -/
def parameterNames? : List Token → Option (List String)
  | [] => some []
  | [.name text] => some [text]
  | .name text :: .symbol "," :: t :: rest => (parameterNames? (t :: rest)).map (text :: ·)
  | _ => none

/-- The abbreviation that a definition makes. Its parameters follow the name without a blank. -/
def ofDefinition? (line : List Char) : Option Abbreviation := do
  let (name, rest) := (line.dropWhile Token.isBlank).span Token.isNamePart
  guard (name.head?.any Token.isNameStart)
  let name := String.ofList name
  match rest with
  | '(' :: rest =>
    let (parameters, body) := rest.span (· != ')')
    guard (!body.isEmpty)
    let parameters ← parameterNames? (← Token.read? parameters)
    guard (parameters.eraseDups.length == parameters.length)
    return ⟨name, some parameters, ← Token.read? body.tail⟩
  | rest => return ⟨name, none, ← Token.read? rest⟩

end Abbreviation
end Texel.Shader
