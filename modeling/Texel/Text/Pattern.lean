import Texel.Text.Alphanumeric
import Texel.Text.Blank

/-!
# Search patterns

When a text is a well-formed search pattern: a regular expression with groups, alternatives,
repetitions and bracketed sets. Nothing is searched for here. `check` reads the pattern from left to
right with the open groups on a stack.

Patterns are over characters unless the flag `u` is switched off; then they are over bytes, and may
not match what is no text. Sets that need tables of letters (`\d`, `\w`, `\pL`, or matching without
regard to case) are for bytes only, and so are word boundaries. A brace can only be part of a
counted repetition, for which the patterns here have no closing brace.
-/

namespace Texel.Pattern

/-- The flags that decide what is well-formed. -/
structure Flags where
  /-- Over characters, not over bytes. -/
  unicode : Bool := true
  /-- Without regard to case. -/
  folded : Bool := false
  /-- Blanks and comments between the parts do not count. -/
  spaced : Bool := false
deriving DecidableEq, Repr

/-- Passes over blanks and comments if they do not count. -/
def skip (flags : Flags) : Bool → List Char → List Char
  | _, [] => []
  | comment, c :: rest =>
    if !flags.spaced then c :: rest
    else if comment then skip flags (c != '\n') rest
    else if Text.isBlank c then skip flags false rest
    else if c == '#' then skip flags true rest
    else c :: rest

/-- What an escape stands for. -/
inductive Item
  /-- A character, which may be written as the number of a byte. -/
  | char (c : Char) (byte : Bool)
  /-- A set with a letter for its name, or its complement. -/
  | set (complement : Bool)
  /-- A place in the text. -/
  | place (word : Bool)
deriving DecidableEq, Repr

/-- A character given by `n` hexadecimal digits. -/
def hexChar? (n : Nat) (cs : List Char) : Option (Char × List Char) :=
  let digit? (c : Char) : Option Nat :=
    if c.isDigit then some (c.toNat - '0'.toNat)
    else if 'a' ≤ c ∧ c ≤ 'f' then some (c.toNat - 'a'.toNat + 10)
    else if 'A' ≤ c ∧ c ≤ 'F' then some (c.toNat - 'A'.toNat + 10)
    else none
  match (cs.take n).mapM digit? with
  | none => none
  | some digits =>
    let code := digits.foldl (fun code d => code * 16 + d) 0
    if h : digits.length = n ∧ code.isValidChar then some (Char.ofNatAux code h.2, cs.drop n)
    else none

/-- Punctuation can be escaped, except for what may get a meaning of its own. -/
def isEscapable (c : Char) : Bool := c.toNat < 0x80 && !c.isAlphanum && c != '<' && c != '>'

/-- The control characters that have a letter. -/
def control? (c : Char) : Option Char :=
  [('a', '\x07'), ('f', '\x0c'), ('t', '\t'), ('n', '\n'), ('r', '\r'), ('v', '\x0b')].lookup c

/-- What follows a backslash. -/
def escape? : List Char → Option (Item × List Char)
  | [] => none
  | c :: rest =>
    if c == 'x' then (hexChar? 2 rest).map fun (c, rest) => (.char c true, rest)
    else if c == 'u' then (hexChar? 4 rest).map fun (c, rest) => (.char c false, rest)
    else if c == 'U' then (hexChar? 8 rest).map fun (c, rest) => (.char c false, rest)
    else if ['d', 's', 'w'].contains c then some (.set false, rest)
    else if ['D', 'S', 'W'].contains c then some (.set true, rest)
    else if ['A', 'z'].contains c then some (.place false, rest)
    else if ['b', 'B', '<', '>'].contains c then some (.place true, rest)
    else if isEscapable c then some (.char c false, rest)
    else (control? c).map fun c => (.char c false, rest)

/-- Can the item stand outside of brackets? -/
def Item.allowed (flags : Flags) : Item → Bool
  | .char c byte =>
    if flags.unicode then !flags.folded else !byte || c.toNat < 0x80
  | .set complement => !flags.unicode && !complement
  | .place word => !word || !flags.unicode

/-- Can the item stand in brackets? -/
def Item.allowedInBrackets (flags : Flags) : Item → Bool
  | .char c _ => flags.unicode || c.toNat < 0x80
  | .set complement => !flags.unicode && !complement
  | .place _ => false

/-! ### Bracketed sets -/

/-- One item of a bracketed set. -/
def bracketItem? : List Char → Option (Item × List Char)
  | [] => none
  | '\\' :: rest => escape? rest
  | c :: rest => some (.char c false, rest)

/-- One item of a bracketed set, or a range of characters. -/
def bracketRange? (flags : Flags) (cs : List Char) : Option (List Char) := do
  let (first, rest) ← bracketItem? cs
  guard (first.allowedInBrackets flags)
  match skip flags false rest with
  | [] => none
  | '-' :: rest =>
    match skip flags false rest with
    | [] => none
    | c :: after =>
      if c == ']' || c == '-' then some ('-' :: rest)
      else
        let (second, rest) ← bracketItem? (c :: after)
        guard (second.allowedInBrackets flags)
        match first, second with
        | .char low _, .char high _ => if low ≤ high then some rest else none
        | _, _ => none
  | rest => some rest

/-- The names of sets between `[:` and `:]`. -/
def namedSets : List String :=
  ["alnum", "alpha", "ascii", "blank", "cntrl", "digit", "graph", "lower", "print", "punct",
    "space", "upper", "word", "xdigit"]

/-- What follows a set like `[:alpha:]`, of which the opening bracket has been read, and whether it
is a complement. -/
def namedSet? : List Char → Option (Bool × List Char)
  | ':' :: rest =>
    let (complement, rest) := match rest with
      | '^' :: rest => (true, rest)
      | rest => (false, rest)
    let (name, rest) := rest.span (· != ':')
    match rest with
    | ':' :: ']' :: rest =>
      if namedSets.contains (String.ofList name) then some (complement, rest) else none
    | _ => none
  | _ => none

/-- The beginning of a bracketed set after its bracket: a complement sign, and hyphens or a closing
bracket that stand for themselves. -/
def bracketOpening? (flags : Flags) (cs : List Char) : Option (List Char) := do
  let cs := skip flags false cs
  let (complement, cs) := match cs with
    | '^' :: rest => (true, skip flags false rest)
    | cs => (false, cs)
  guard (!complement || flags.unicode)
  let after := cs.dropWhile fun c => c == '-' || (flags.spaced && Text.isBlank c)
  match cs with
  | ']' :: rest => if rest.isEmpty then none else some rest
  | _ => if after.isEmpty then none else some after

/-- What follows a bracketed set with `depth` brackets open, read in at most `n` steps. -/
def bracketRest? (flags : Flags) : Nat → Nat → List Char → Option (List Char)
  | 0, _, _ => none
  | n + 1, depth, cs =>
    match skip flags false cs with
    | [] => none
    | '[' :: rest =>
      match namedSet? rest with
      | some (complement, rest) =>
        if complement && !flags.unicode then none else bracketRest? flags n depth rest
      | none => (bracketOpening? flags rest).bind (bracketRest? flags n (depth + 1))
    | ']' :: rest => if depth ≤ 1 then some rest else bracketRest? flags n (depth - 1) rest
    | '&' :: '&' :: rest => bracketRest? flags n depth rest
    | '-' :: '-' :: rest => bracketRest? flags n depth rest
    | '~' :: '~' :: rest => bracketRest? flags n depth rest
    | cs => (bracketRange? flags cs).bind (bracketRest? flags n depth)

/-- What follows a bracketed set whose bracket has been read. -/
def bracket? (flags : Flags) (cs : List Char) : Option (List Char) := do
  guard (!flags.folded || !flags.unicode)
  bracketRest? flags (cs.length + 1) 1 (← bracketOpening? flags cs)

/-! ### Groups -/

/-- Flags as they are written, with a hyphen before those that are switched off. -/
def flagged? (flags : Flags) (text : List Char) : Option Flags := do
  guard (text.all (['i', 'm', 's', 'U', 'u', 'R', 'x', '-'].contains ·))
  guard (text.eraseDups.length = text.length && text.getLast? != some '-')
  let (on, off) := text.span (· != '-')
  return {
    unicode := (flags.unicode || on.contains 'u') && !off.contains 'u'
    folded := (flags.folded || on.contains 'i') && !off.contains 'i'
    spaced := (flags.spaced || on.contains 'x') && !off.contains 'x' }

/-- Can a group have this name? -/
def isGroupName : List Char → Bool
  | [] => false
  | c :: rest =>
    (c == '_' || (Text.isAlphanumeric c && !c.isDigit)) &&
      rest.all fun c => ['_', '.', '[', ']'].contains c || Text.isAlphanumeric c

/-- How a group begins. -/
inductive Opening
  /-- A group, in which these flags are in force. -/
  | group (flags : Flags)
  /-- A group with a name. -/
  | named (name : String)
  /-- No group: flags for what follows. -/
  | switch (flags : Flags)

/-- The beginning of a group after its parenthesis, and what follows. -/
def opening? (flags : Flags) (cs : List Char) : Option (Opening × List Char) :=
  let named (cs : List Char) : Option (Opening × List Char) :=
    match cs.span (· != '>') with
    | (name, _ :: rest) =>
      if isGroupName name then some (.named (String.ofList name), rest) else none
    | _ => none
  match skip flags false cs with
  | '?' :: 'P' :: '<' :: rest => named rest
  | '?' :: '<' :: rest => named rest
  | '?' :: rest =>
    match rest.span fun c => c != ':' && c != ')' with
    | (text, ':' :: rest) => (flagged? flags text).map (.group ·, rest)
    | (text, ')' :: rest) =>
      if text.isEmpty then none else (flagged? flags text).map (.switch ·, rest)
    | _ => none
  | rest => some (.group flags, rest)

/-! ### Patterns -/

/-- Where the reading of a pattern stands. -/
structure Reader where
  flags : Flags := {}
  /-- The flags outside of each open group, innermost first. -/
  groups : List Flags := []
  /-- The names of the groups so far. -/
  names : List String := []
  /-- Does something stand before that can be repeated? -/
  repeatable : Bool := false

/-- Is the rest of a pattern well-formed? It is read in at most `n` steps. -/
def checkFrom : Nat → Reader → List Char → Bool
  | 0, _, _ => false
  | n + 1, r, cs =>
    match skip r.flags false cs with
    | [] => r.groups.isEmpty
    | '(' :: rest =>
      match opening? r.flags rest with
      | none => false
      | some (.switch flags, rest) => checkFrom n { r with flags, repeatable := false } rest
      | some (.group flags, rest) =>
        checkFrom n { r with flags, groups := r.flags :: r.groups, repeatable := false } rest
      | some (.named name, rest) =>
        !r.names.contains name &&
          checkFrom n
            { r with groups := r.flags :: r.groups, names := name :: r.names, repeatable := false }
            rest
    | ')' :: rest =>
      match r.groups with
      | [] => false
      | flags :: groups => checkFrom n { r with flags, groups, repeatable := true } rest
    | '|' :: rest => checkFrom n { r with repeatable := false } rest
    | '[' :: rest =>
      match bracket? r.flags rest with
      | some rest => checkFrom n { r with repeatable := true } rest
      | none => false
    | '\x7b' :: _ => false
    | '\\' :: rest =>
      match escape? rest with
      | some (item, rest) =>
        item.allowed r.flags && checkFrom n { r with repeatable := true } rest
      | none => false
    | c :: rest =>
      if c == '?' || c == '*' || c == '+' then
        r.repeatable && checkFrom n r (if rest.head? = some '?' then rest.tail else rest)
      else
        let allowed :=
          if c == '.' then r.flags.unicode
          else c == '^' || c == '$' || (Item.char c false).allowed r.flags
        allowed && checkFrom n { r with repeatable := true } rest

/-- Is the text a well-formed pattern? -/
def check (text : String) : Bool := checkFrom (text.length + 1) {} text.toList

end Texel.Pattern
