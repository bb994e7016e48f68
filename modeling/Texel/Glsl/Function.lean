import Texel.Event
import Texel.Glsl.Call
import Texel.Kind

/-!
# Function definitions in a library

A definition is a type, a name, a parenthesised list of parameters and a braced body, found anywhere
outside of braces. `Reader.step` takes the tokens one by one; what turns out to be no definition is
passed over, and the token that gave it away is read afresh.
-/

namespace Texel.Glsl

inductive Qualifier
  | none
  | input
  | output
deriving DecidableEq, Repr, Inhabited

structure Parameter where
  kind : Kind
  qualifier : Qualifier
  /-- The type as written. -/
  typeName : String
deriving DecidableEq, Repr

/-- A function definition of a library. -/
structure Function where
  name : String
  returnType : String
  /-- The words of each parameter, as written between the commas. -/
  groups : List (List String)
  /-- From the return type to the closing brace. -/
  definition : Span
  /-- From the opening to the closing brace. -/
  body : Span
  /-- The functions the body calls, in order of first use. -/
  calls : List String
deriving DecidableEq, Repr

namespace Parameter

/-- The name and the parameter that a group of words declares: qualifiers, a type and a name. -/
def ofWords? (words : List String) : Option (String × Parameter) :=
  match words.reverse with
  | name :: typeName :: qualifiers =>
    let qualifier :=
      if qualifiers.contains "out" then .output
      else if qualifiers.contains "in" then .input
      else .none
    some (name, ⟨(Kind.ofTypeName? typeName).getD .none, qualifier, typeName⟩)
  | _ => none

/-- What is worth a warning about a group of words. -/
def warnings (function : String) (words : List String) : List Event :=
  match ofWords? words with
  | none => [.malformedParameter function words]
  | some (name, parameter) =>
    if (Kind.ofTypeName? parameter.typeName).isSome then []
    else [.unknownType function name parameter.typeName]

end Parameter

namespace Function

/-- The groups that declare parameters: a lone `void` declares none. -/
def declared (f : Function) : List (List String) :=
  if f.groups = [["void"]] then [] else f.groups

/-- The well-formed parameters, as written. -/
def parameters (f : Function) : List (String × Parameter) :=
  f.declared.filterMap Parameter.ofWords?

/-- The parameter of a name; of several with one name, the last. -/
def parameter? (f : Function) (name : String) : Option Parameter :=
  (f.parameters.reverse.find? (·.1 = name)).map (·.2)

/-- The parameters of a call, in order. Equal names share the parameter declared last. -/
def callParameters (f : Function) : List (String × Parameter) :=
  f.parameters.filterMap fun (name, _) => (f.parameter? name).map (name, ·)

def warnings (f : Function) : List Event :=
  f.declared.flatMap (Parameter.warnings f.name)

/-- The text of the definition in a library. -/
def definitionText? (f : Function) (library : String) : Option String :=
  Text.slice? library f.definition

def bodyText? (f : Function) (library : String) : Option String :=
  Text.slice? library f.body

end Function

/-- What precedes a body. -/
structure Head where
  returnType : String
  name : String
  start : Nat
deriving DecidableEq, Repr

inductive Stage
  | outside
  /-- After one word, which may be a return type. -/
  | type (word : String) (start : Nat)
  /-- After two words. -/
  | name (head : Head) (second : Nat)
  /-- In a parameter list: the groups closed by commas, and the words of the current one. -/
  | parameters (head : Head) (groups : List (List String)) (words : List String)
  /-- After a parameter list. -/
  | closed (head : Head) (groups : List (List String))
  /-- In a body with `depth` open braces; its tokens so far, last first. -/
  | body (head : Head) (groups : List (List String)) (start depth : Nat) (tokens : List Token)
  /-- In braces that are no function body. -/
  | block (depth : Nat)
deriving DecidableEq, Repr

structure Reader where
  stage : Stage := .outside
  /-- The functions found so far, last first. -/
  found : List Function := []
deriving DecidableEq, Repr

namespace Reader

/-- The stage after a token outside of any definition. -/
def outsideStep (t : Token) : Stage :=
  match t.lexeme with
  | .word chars => .type (String.ofList chars) t.span.start
  | .symbol '\x7b' => .block 1
  | .symbol _ => .outside

/-- The stage after a token that may go on with a definition whose return type has been read. -/
def typeStep (word : String) (start : Nat) (t : Token) : Stage :=
  match t.lexeme with
  | .word chars => .name ⟨word, String.ofList chars, start⟩ t.span.start
  | .symbol _ => outsideStep t

def parametersStep (head : Head) (groups : List (List String)) (words : List String) (t : Token) :
    Stage :=
  match t.lexeme with
  | .word chars => .parameters head groups (words ++ [String.ofList chars])
  | .symbol ',' => .parameters head (groups ++ [words]) []
  | .symbol ')' => .closed head (if words.isEmpty then groups else groups ++ [words])
  | .symbol _ => outsideStep t

def closedStep (head : Head) (groups : List (List String)) (t : Token) : Stage :=
  match t.lexeme with
  | .symbol '\x7b' => .body head groups t.span.start 1 [t]
  | .symbol ';' => .outside
  | _ => outsideStep t

/-- The number of open braces after a token. -/
def depthAfter (depth : Nat) (t : Token) : Nat :=
  match t.lexeme with
  | .symbol '\x7b' => depth + 1
  | .symbol '\x7d' => depth - 1
  | _ => depth

/-- The function whose body ends with the last of `tokens`, at byte `stop`. -/
def function (head : Head) (groups : List (List String)) (start stop : Nat)
    (tokens : List Token) : Function where
  name := head.name
  returnType := head.returnType
  groups := groups
  definition := ⟨head.start, stop⟩
  body := ⟨start, stop⟩
  calls := callsIn head.name tokens

def step (r : Reader) (t : Token) : Reader :=
  match r.stage with
  | .outside => { r with stage := outsideStep t }
  | .type word start => { r with stage := typeStep word start t }
  | .name head second =>
    if t.isSymbol '(' then { r with stage := .parameters head [] [] }
    else { r with stage := typeStep head.name second t }
  | .parameters head groups words => { r with stage := parametersStep head groups words t }
  | .closed head groups => { r with stage := closedStep head groups t }
  | .body head groups start depth tokens =>
    if depthAfter depth t = 0 then
      ⟨.outside, function head groups start t.span.stop (t :: tokens).reverse :: r.found⟩
    else
      { r with stage := .body head groups start (depthAfter depth t) (t :: tokens) }
  | .block depth =>
    { r with stage := if depthAfter depth t = 0 then .outside else .block (depthAfter depth t) }

end Reader

/-- The function definitions of a library, in source order. -/
def functionsIn (library : String) : List Function :=
  ((tokens library).foldl Reader.step {}).found.reverse

/-- The definition that a name stands for: the last one with that name. -/
def find? (functions : List Function) (name : String) : Option Function :=
  functions.reverse.find? (·.name = name)

end Texel.Glsl
