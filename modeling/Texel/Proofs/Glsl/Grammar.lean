import Texel.Proofs.Glsl.Respelling

/-!
# Texel — the grammar of libraries

A library is written as definitions with gaps between them. Everything up to the body of a
definition is made of words and marks, and has a gap between any two of them; two words in a row
need one that is not empty. The body is any text whose braces match. A text of the grammar is given
by how it is written: `Definition.chars` and `Library.chars` are the characters, and the values are
built so that these can be told apart again.

* **`Comment`**, **`Filler`** — what gaps are made of.
* **`Balanced`** — the text between the braces of a body.
* **`Library.placed`** — each definition with the text in front of it.
* **`Definition.Found`** — what is to be found of a definition at its place.
-/

namespace Texel.Glsl.Grammar

open Text

/-! ## Gaps -/

/-- A comment, without what opens and closes it. -/
inductive Comment
  | line (text : List Char) (h : '\n' ∉ text)
  | block (text : List Char) (h : ¬ ['*', '/'] <:+: text)

/-- A line comment takes the end of its line along. -/
def Comment.chars : Comment → List Char
  | .line text _ => '/' :: '/' :: (text ++ ['\n'])
  | .block text _ => '/' :: '*' :: (text ++ ['*', '/'])

inductive Filler
  | blank (c : Char) (h : isBlank c = true)
  | comment (c : Comment)

def Filler.chars : Filler → List Char
  | .blank c _ => [c]
  | .comment c => c.chars

abbrev Gap := List Filler

def Gap.chars (gap : Gap) : List Char := gap.flatMap Filler.chars

/-- A gap that keeps two words apart. -/
structure Separator where
  gap : Gap
  nonempty : gap ≠ []

/-! ## Heads of definitions -/

structure Word where
  chars : List Char
  identifier : isIdentifier chars = true

def Word.text (w : Word) : String := String.ofList w.chars

inductive Mark
  | opening
  | closing
  | comma

def Mark.char : Mark → Char
  | .opening => '('
  | .closing => ')'
  | .comma => ','

/-- What a head is made of. -/
inductive Element
  | filler (f : Filler)
  | word (w : Word)
  | mark (m : Mark)

def Element.chars : Element → List Char
  | .filler f => f.chars
  | .word w => w.chars
  | .mark m => [m.char]

def charsOf (es : List Element) : List Char := es.flatMap Element.chars

def Gap.elements (gap : Gap) : List Element := gap.map .filler

def Separator.elements (s : Separator) : List Element := s.gap.elements

/-- A parameter: any number of qualifiers, a type and a name. -/
structure Group where
  qualifiers : List (Word × Separator)
  type : Word
  between : Separator
  name : Word

namespace Group

def elements (g : Group) : List Element :=
  g.qualifiers.flatMap (fun q => .word q.1 :: q.2.elements) ++
    .word g.type :: (g.between.elements ++ [.word g.name])

def qualifier (g : Group) : Qualifier :=
  if "out" ∈ g.qualifiers.map (·.1.text) then .output
  else if "in" ∈ g.qualifiers.map (·.1.text) then .input
  else .none

/-- The parameter that is declared; a type that is not known has no kind. -/
def parameter (g : Group) : Parameter :=
  ⟨(Kind.ofTypeName? g.type.text).getD .none, g.qualifier, g.type.text⟩

end Group

/-- A group with the gaps around it. -/
structure Padded where
  before : Gap
  group : Group
  after : Gap

def Padded.elements (p : Padded) : List Element :=
  p.before.elements ++ (p.group.elements ++ p.after.elements)

def void : Word := ⟨"void".toList, by decide⟩

/-- What stands between the parentheses. -/
inductive Parameters
  | none (gap : Gap)
  | void (before after : Gap)
  | groups (first : Padded) (rest : List Padded)
    (distinct : ((first :: rest).map (·.group.name)).Nodup)

namespace Parameters

def elements : Parameters → List Element
  | .none gap => gap.elements
  | .void before after => before.elements ++ .word Grammar.void :: after.elements
  | .groups first rest _ => first.elements ++ rest.flatMap (fun p => .mark .comma :: p.elements)

def declared : Parameters → List Group
  | .none _ | .void _ _ => []
  | .groups first rest _ => (first :: rest).map (·.group)

end Parameters

/-! ## Definitions -/

/-- A text whose braces match. Braces in comments do not count, and nothing but comments may contain
the sign of a directive. -/
inductive Balanced : List Char → Prop
  | nil : Balanced []
  | plain {c : Char} {cs : List Char} (hc : c ∉ ['\x7b', '\x7d', '#'])
    (hslash : c = '/' → ∀ d ∈ cs.head?, d ≠ '/' ∧ d ≠ '*') (hcs : Balanced cs) : Balanced (c :: cs)
  | comment (c : Comment) {cs : List Char} (hcs : Balanced cs) : Balanced (c.chars ++ cs)
  | braces {inner cs : List Char} (hinner : Balanced inner) (hcs : Balanced cs) :
    Balanced ('\x7b' :: (inner ++ '\x7d' :: cs))

structure Definition where
  returnType : Word
  afterType : Separator
  name : Word
  afterName : Gap
  parameters : Parameters
  afterParameters : Gap
  /-- What stands between the braces. -/
  inner : List Char
  balanced : Balanced inner

namespace Definition

/-- All that precedes the body. -/
def head (d : Definition) : List Element :=
  .word d.returnType :: (d.afterType.elements ++ .word d.name :: (d.afterName.elements ++
    .mark .opening :: (d.parameters.elements ++ .mark .closing :: d.afterParameters.elements)))

def body (d : Definition) : List Char := '\x7b' :: (d.inner ++ ['\x7d'])

def chars (d : Definition) : List Char := charsOf d.head ++ d.body

/-- What is found of a definition that stands behind the text `before`. -/
structure Found (before : List Char) (d : Definition) (f : Function) : Prop where
  returnType : f.returnType = d.returnType.text
  name : f.name = d.name.text
  /-- The parameters, as written. -/
  parameters : f.parameters = d.parameters.declared.map fun g => (g.name.text, g.parameter)
  /-- The parameters, by name. -/
  parameter? : ∀ name, f.parameter? name =
    (d.parameters.declared.find? (·.name.text = name)).map Group.parameter
  definition : f.definition = ⟨byteSize before, byteSize (before ++ d.chars)⟩
  body : f.body = ⟨byteSize (before ++ charsOf d.head), byteSize (before ++ d.chars)⟩

end Definition

/-! ## Libraries -/

structure Library where
  lead : Gap
  /-- The definitions, each with the gap behind it. -/
  definitions : List (Definition × Gap)
  /-- A line comment whose line the end of the text ends. -/
  last : Option { text : List Char // '\n' ∉ text }

/-- Each definition with the text in front of it, of which `before` is a part. -/
def placedBehind (before : List Char) : List (Definition × Gap) → List (List Char × Definition)
  | [] => []
  | (d, gap) :: rest => (before, d) :: placedBehind (before ++ (d.chars ++ gap.chars)) rest

namespace Library

def chars (t : Library) : List Char :=
  t.lead.chars ++ (t.definitions.flatMap (fun d => d.1.chars ++ d.2.chars) ++
    (t.last.map fun text => '/' :: '/' :: text.1).getD [])

def text (t : Library) : String := String.ofList t.chars

def placed (t : Library) : List (List Char × Definition) := placedBehind t.lead.chars t.definitions

end Library

end Texel.Glsl.Grammar
