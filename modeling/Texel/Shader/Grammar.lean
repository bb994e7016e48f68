import Texel.Shader.Directive
import Texel.Shader.Tree

/-!
# Grammar

Reads the tokens of a program as a tree. The names of structures are kept while reading, since a
statement that starts with one is a declaration. Every rule takes a bound on the depth of the
reading, for which the number of tokens gives enough.
-/

namespace Texel.Shader

/-- Where the reading stands. -/
structure Reading where
  tokens : List Token
  /-- The structures that have been declared. -/
  structures : List String := []

abbrev Parse := StateT Reading Option

namespace Parse

variable {α : Type}

def failed : Parse α := fun _ => none

def peek? : Parse (Option Token) := do return (← get).tokens.head?

def advance : Parse Unit := modify fun r => { r with tokens := r.tokens.tail }

def next : Parse Token := do
  match ← peek? with
  | some t =>
    advance
    return t
  | none => failed

def isNext (text : String) : Parse Bool := do return (← peek?).any (·.isSymbol text)

/-- Takes a symbol if it comes next. -/
def accept (text : String) : Parse Bool := do
  if ← isNext text then
    advance
    return true
  return false

/-- Takes one of some symbols if it comes next. -/
def acceptOne (texts : List String) : Parse Bool := do
  match ← peek? with
  | some (.symbol text) =>
    if texts.contains text then
      advance
      return true
    return false
  | _ => return false

def expect (text : String) : Parse Unit := do
  if !(← accept text) then
    failed

/-- The word that comes next. -/
def word? : Parse (Option String) := do return (← peek?).bind Token.name?

/-- Takes one of some words if it comes next. -/
def acceptWords (texts : List String) : Parse Bool := do
  if (← word?).any texts.contains then
    advance
    return true
  return false

/-- Takes a word if it comes next. -/
def acceptWord (text : String) : Parse Bool := acceptWords [text]

/-! ### Words -/

/-- Words that say how values are stored and passed. -/
def qualifierWords : List String :=
  ["const", "in", "out", "inout", "uniform", "buffer", "shared", "readonly", "writeonly",
    "restrict", "coherent", "volatile", "highp", "mediump", "lowp", "invariant", "flat", "smooth",
    "noperspective", "centroid", "sample"]

/-- Words that can name nothing. -/
def reservedWords : List String :=
  qualifierWords ++ ["layout", "precision", "true", "false", "continue", "break", "return",
    "discard", "if", "else", "switch", "case", "default", "while", "do", "for", "void", "struct"]

/-- A name that a program can give. -/
def name : Parse String := do
  match ← next with
  | .name text =>
    if reservedWords.contains text || (ValueType.ofName? text).isSome then failed else return text
  | _ => failed

/-- Does a type come next? -/
def isType : Parse Bool := do
  match ← word? with
  | some text =>
    return text = "struct" || (ValueType.ofName? text).isSome ||
      (← get).structures.contains text
  | none => return false

def isQualifier : Parse Bool := do
  return (← word?).any fun text => text = "layout" || qualifierWords.contains text

/-! ### Expressions -/

/-- How tightly a token binds as an operator between two operands. -/
def level? : Token → Option Nat
  | .symbol text =>
    [("||", 1), ("^^", 2), ("&&", 3), ("|", 4), ("^", 5), ("&", 6), ("==", 7), ("!=", 7), ("<", 8),
      (">", 8), ("<=", 8), (">=", 8), ("<<", 9), (">>", 9), ("+", 10), ("-", 10), ("*", 11),
      ("/", 11), ("%", 11)].lookup text
  | _ => none

/-- The operator that an assignment joins the old value with. -/
def assignment? : Token → Option (Option String)
  | .symbol text =>
    [("=", none), ("+=", some "+"), ("-=", some "-"), ("*=", some "*"), ("/=", some "/"),
      ("%=", some "%"), ("&=", some "&"), ("|=", some "|"), ("^=", some "^"), ("<<=", some "<<"),
      (">>=", some ">>")].lookup text
  | _ => none

def literal? : Token → Option Expression
  | .integer value signed => some (.literal (if signed then .int else .uint) (.whole value))
  | .real digits power => some (.literal .float (.decimal digits power))
  | .name "true" => some (.literal .bool (.truth true))
  | .name "false" => some (.literal .bool (.truth false))
  | _ => none

mutual

def expression : Nat → Parse Expression
  | 0 => failed
  | n + 1 => do
    let e ← assignment n
    commas n e

/-- Goes on with an expression that others may follow after commas. -/
def commas : Nat → Expression → Parse Expression
  | 0, _ => failed
  | n + 1, e => do
    if ← accept "," then
      let second ← assignment n
      commas n (.both e second)
    else return e

def assignment : Nat → Parse Expression
  | 0 => failed
  | n + 1 => do
    let target ← conditional n
    match (← peek?).bind assignment? with
    | some symbol =>
      advance
      return .assign symbol target (← assignment n)
    | none => return target

def conditional : Nat → Parse Expression
  | 0 => failed
  | n + 1 => do
    let condition ← binary n 1
    if ← accept "?" then
      let yes ← expression n
      expect ":"
      return .choose condition yes (← assignment n)
    return condition

/-- Operands joined by operators of at least some level. -/
def binary : Nat → Nat → Parse Expression
  | 0, _ => failed
  | n + 1, level => do
    let left ← unary n
    joined n level left

/-- Goes on with an operand after which operators of at least some level may follow. -/
def joined : Nat → Nat → Expression → Parse Expression
  | 0, _, _ => failed
  | n + 1, level, left => do
    match ← peek? with
    | some (.symbol symbol) =>
      match level? (.symbol symbol) with
      | some binding =>
        if binding < level then return left
        advance
        let right ← binary n (binding + 1)
        joined n level (.binary symbol left right)
      | none => return left
    | _ => return left

def unary : Nat → Parse Expression
  | 0 => failed
  | n + 1 => do
    match ← peek? with
    | some (.symbol symbol) =>
      if ["+", "-", "!", "~"].contains symbol then
        advance
        return .unary symbol (← unary n)
      else if ["++", "--"].contains symbol then
        advance
        return .count (← unary n)
      else primary n
    | _ => primary n

def primary : Nat → Parse Expression
  | 0 => failed
  | n + 1 => do
    if ← isType then
      let type ← next
      let lengths ← arrayLengths n
      expect "("
      let arguments ← arguments n
      match type.name? with
      | some type => suffixes n (.construct type lengths arguments)
      | none => failed
    else
      match (← peek?).bind literal? with
      | some e =>
        advance
        suffixes n e
      | none =>
        if ← accept "(" then
          let e ← expression n
          expect ")"
          suffixes n e
        else
          let name ← name
          if ← accept "(" then
            let arguments ← arguments n
            suffixes n (.call name arguments)
          else suffixes n (.variable name)

/-- Goes on with a value of which a part may be taken. -/
def suffixes : Nat → Expression → Parse Expression
  | 0, _ => failed
  | n + 1, e => do
    if ← accept "[" then
      let index ← expression n
      expect "]"
      suffixes n (.element e index)
    else if ← accept "." then
      let name ← name
      if ← accept "(" then
        let arguments ← arguments n
        suffixes n (.method e name arguments)
      else suffixes n (.field e name)
    else if ← acceptOne ["++", "--"] then suffixes n (.count e)
    else return e

/-- Arguments up to the closing parenthesis. -/
def arguments : Nat → Parse (List Expression)
  | 0 => failed
  | n + 1 => do
    if ← accept ")" then return []
    if ← acceptWord "void" then
      expect ")"
      return []
    let first ← assignment n
    moreArguments n [first]

/-- Goes on with arguments, which stand last first. -/
def moreArguments : Nat → List Expression → Parse (List Expression)
  | 0, _ => failed
  | n + 1, found => do
    if ← accept ")" then return found.reverse
    expect ","
    let e ← assignment n
    moreArguments n (e :: found)

/-- The lengths of an array of arrays, outermost first. -/
def arrayLengths : Nat → Parse (List Expression)
  | 0 => failed
  | n + 1 => do
    if ← accept "[" then
      if ← accept "]" then return .missing :: (← arrayLengths n)
      let length ← conditional n
      expect "]"
      return length :: (← arrayLengths n)
    return []

end

mutual

/-- A value in a declaration, which may be a list in braces. -/
def initial : Nat → Parse Expression
  | 0 => failed
  | n + 1 => do
    if ← accept "\x7b" then
      let first ← initial n
      moreInitials n [first]
    else assignment n

/-- Goes on with a list, whose items stand last first. A comma may end it. -/
def moreInitials : Nat → List Expression → Parse Expression
  | 0, _ => failed
  | n + 1, found => do
    let more ← accept ","
    if ← accept "\x7d" then return .list found.reverse
    if !more then
      failed
    let e ← initial n
    moreInitials n (e :: found)

end

/-! ### Declarations -/

/-- Runs a rule as long as a condition holds, at most so many times. -/
def whileHolds (condition : Parse Bool) (rule : Parse α) : Nat → Parse (List α)
  | 0 => failed
  | n + 1 => do
    if ← condition then
      let a ← rule
      return a :: (← whileHolds condition rule n)
    return []

/-- Runs a rule and again after every comma, at most so many times. -/
def separated (rule : Parse α) : Nat → Parse (List α)
  | 0 => failed
  | n + 1 => do
    let a ← rule
    if ← accept "," then return a :: (← separated rule n)
    return [a]

/-- An entry of a layout. -/
def layoutEntry (n : Nat) : Parse (String × Option Expression) := do
  match (← next).name? with
  | some key =>
    if ← accept "=" then return (key, some (← conditional n))
    return (key, none)
  | none => failed

/-- A word or a layout. -/
def qualifier (n : Nat) : Parse Qualifiers := do
  if ← acceptWord "layout" then
    expect "("
    let layout ← separated (layoutEntry n) n
    expect ")"
    return { layout }
  return { words := (← next).name?.toList }

def qualifiers (n : Nat) : Parse Qualifiers := do
  let parts ← whileHolds isQualifier (qualifier n) n
  return ⟨parts.flatMap (·.words), parts.flatMap (·.layout)⟩

/-- A member of a type, which may be an array already. -/
def field (type : String) (inner : List Expression) (n : Nat) : Parse Field := do
  let name ← name
  let outer ← arrayLengths n
  return { type, lengths := outer ++ inner, name }

/-- The members that are declared with one type. -/
def fieldGroup (n : Nat) : Parse (List Field) := do
  if !(← isType) then
    failed
  match (← next).name? with
  | some type =>
    let inner ← arrayLengths n
    let fields ← separated (field type inner n) n
    expect ";"
    return fields
  | none => failed

/-- The members between two braces, of which the first one has been read. -/
def fields (n : Nat) : Parse (List Field) := do
  let first ← fieldGroup n
  let more ← whileHolds (return !(← isNext "\x7d")) (fieldGroup n) n
  expect "\x7d"
  return first ++ more.flatten

/-- A type, or the declaration of a structure. -/
def typeUse (n : Nat) : Parse TypeUse := do
  if !(← isType) then
    failed
  if ← acceptWord "struct" then
    let name ← name
    expect "\x7b"
    let fields ← fields n
    modify fun r => { r with structures := name :: r.structures }
    return ⟨name, some fields, ← arrayLengths n⟩
  match (← next).name? with
  | some name => return ⟨name, none, ← arrayLengths n⟩
  | none => failed

def parameter (n : Nat) : Parse Parameter := do
  let words ← qualifiers n
  let type ← typeUse n
  if (← isNext ",") || (← isNext ")") then return ⟨words.words, type, none⟩
  let name ← name
  let outer ← arrayLengths n
  return ⟨words.words, { type with lengths := outer ++ type.lengths }, some name⟩

/-- The parameters of a function, behind the opening parenthesis. -/
def parameters (n : Nat) : Parse (List Parameter) := do
  if ← accept ")" then return []
  if ← acceptWord "void" then
    expect ")"
    return []
  let found ← separated (parameter n) n
  expect ")"
  return found

def declarator (n : Nat) : Parse Declarator := do
  let name ← name
  let lengths ← arrayLengths n
  if ← accept "=" then return ⟨name, lengths, some (← initial n)⟩
  return ⟨name, lengths, none⟩

/-- The variables behind a type, up to the semicolon. -/
def declarators (n : Nat) : Parse (List Declarator) := do
  let _ ← accept ","
  if ← accept ";" then return []
  let found ← separated (declarator n) n
  expect ";"
  return found

/-- Takes the name of a function and the opening parenthesis, if they come next. -/
def head? : Parse (Option String) := do
  match (← get).tokens with
  | .name _ :: .symbol "(" :: _ =>
    let name ← name
    expect "("
    return some name
  | _ => return none

/-- A declaration, or the head of a function whose body comes next. -/
def declaration (n : Nat) : Parse (Declaration ⊕ Signature) := do
  if ← acceptWord "precision" then
    let _ ← qualifiers n
    let _ ← typeUse n
    expect ";"
    return .inl .precision
  let qualifiers ← qualifiers n
  let empty ← acceptWord "void"
  if empty || (← isType) then
    let type ← if empty then pure none else some <$> typeUse n
    match ← head? with
    | some name =>
      let signature : Signature := ⟨type, name, ← parameters n⟩
      if ← accept ";" then return .inl (.prototype signature)
      return .inr signature
    | none =>
      match type with
      | some type => return .inl (.variableList qualifiers type (← declarators n))
      | none => failed
  else if ← accept ";" then return .inl (.general qualifiers)
  else
    let _ ← name
    expect "\x7b"
    let fields ← fields n
    if ← accept ";" then return .inl (.block qualifiers fields none)
    let whole ← name
    let lengths ← arrayLengths n
    expect ";"
    return .inl (.block qualifiers fields (some (whole, lengths)))

/-! ### Statements -/

/-- Does a declaration come next? A type before a parenthesis makes a value. -/
def isDeclaration : Parse Bool := do
  if (← isQualifier) || (← word?) = some "precision" || (← word?) = some "void" then return true
  if ← isType then
    return !((← get).tokens.tail.head?.any (·.isSymbol "("))
  return false

def localDeclaration (n : Nat) : Parse Statement := do
  match ← declaration n with
  | .inl d => return .declare d
  | .inr _ => failed

/-- An expression in parentheses. -/
def enclosed (n : Nat) : Parse Expression := do
  expect "("
  let e ← expression n
  expect ")"
  return e

/-- An expression, unless a symbol comes next. -/
def optional (n : Nat) (text : String) : Parse (Option Expression) := do
  if ← isNext text then return none
  return some (← expression n)

mutual

def statement : Nat → Parse Statement
  | 0 => failed
  | n + 1 => do
    if ← isDeclaration then localDeclaration n
    else if ← accept "\x7b" then return .block (← body n)
    else if ← accept ";" then return .block []
    else if ← acceptWord "if" then
      let condition ← enclosed n
      let yes ← statement n
      if ← acceptWord "else" then return .branch condition yes (← statement n)
      return .branch condition yes (.block [])
    else if ← acceptWord "for" then
      expect "("
      let first ← loopStart n
      let condition ← optional n ";"
      expect ";"
      let step ← optional n ")"
      expect ")"
      return .loop first condition step (← statement n)
    else if ← acceptWord "while" then
      let condition ← enclosed n
      return .loop (.block []) (some condition) none (← statement n)
    else if ← acceptWord "do" then
      let inner ← statement n
      if !(← acceptWord "while") then
        failed
      let condition ← enclosed n
      expect ";"
      return .loop (.block []) none (some condition) inner
    else if ← acceptWord "switch" then
      let value ← enclosed n
      expect "\x7b"
      return .select value (← body n)
    else if ← acceptWord "case" then
      let value ← expression n
      expect ":"
      return .label (some value)
    else if ← acceptWord "default" then
      expect ":"
      return .label none
    else if ← acceptWord "return" then
      let value ← optional n ";"
      expect ";"
      return .leave value
    else if ← acceptWords ["break", "continue", "discard"] then
      expect ";"
      return .jump
    else
      let e ← expression n
      expect ";"
      return .evaluate e

/-- What a loop begins with. -/
def loopStart : Nat → Parse Statement
  | 0 => failed
  | n + 1 => do
    if ← isDeclaration then localDeclaration n
    else if ← accept ";" then return .block []
    else
      let e ← expression n
      expect ";"
      return .evaluate e

/-- Statements up to the closing brace. -/
def body : Nat → Parse (List Statement)
  | 0 => failed
  | n + 1 => do
    if ← accept "\x7d" then return []
    let first ← statement n
    return first :: (← body n)

end

/-! ### Programs -/

/-- The parts of a program. In newer versions of the language, semicolons may stand alone. -/
def items (version depth : Nat) : Nat → Parse (List Item)
  | 0 => failed
  | n + 1 => do
    match ← peek? with
    | none => return []
    | some t =>
      if t.isSymbol ";" then
        if version < 460 then
          failed
        advance
        items version depth n
      else
        match ← declaration depth with
        | .inl d => return .declaration d :: (← items version depth n)
        | .inr signature =>
          expect "\x7b"
          let inner ← body depth
          return .function signature inner :: (← items version depth n)

end Parse

/-- The parts of a program. -/
def Item.ofSource? (source : Source) : Option (List Item) :=
  let size := source.tokens.length
  ((Parse.items source.version (16 * size + 16) (size + 1)).run ⟨source.tokens, []⟩).map (·.1)

end Texel.Shader
