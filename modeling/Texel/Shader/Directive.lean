import Texel.Shader.Condition
import Texel.Shader.Line

/-!
# Directive lines

A line that starts with `#` says which other lines count and which names stand for other tokens.
`Source.ofText?` carries the directives out and gives the tokens that remain.
-/

namespace Texel.Shader

/-- A choice between lines that has been opened. -/
structure Branch where
  /-- Do the lines count that are being read? -/
  active : Bool
  /-- Has the choice been made, so that no later alternative counts? -/
  decided : Bool
  /-- Has the last alternative been reached? -/
  last : Bool := false
deriving DecidableEq, Repr

/-- What directives leave of a program. -/
structure Source where
  version : Nat
  tokens : List Token
deriving DecidableEq, Repr

/-- Carries out directives. -/
structure Selector where
  version : Nat := 450
  /-- Has there been no directive yet? -/
  fresh : Bool := true
  table : List Abbreviation := [⟨"__VERSION__", none, [.integer 450 true]⟩]
  /-- The open choices, innermost first. -/
  branches : List Branch := []
  /-- Tokens whose abbreviations have not been replaced, last first. -/
  pending : List Token := []
  /-- The tokens before them, last first. -/
  found : List Token := []
deriving Repr

namespace Selector

def active (s : Selector) : Bool := s.branches.all (·.active)

/-- Replaces the abbreviations in what has been read. -/
def flush? (s : Selector) : Option Selector := do
  let tokens ← Abbreviation.expand? s.table s.pending.reverse
  return { s with pending := [], found := tokens.reverse ++ s.found }

/-- Opens a choice, whose condition matters only where lines count. -/
def opened? (s : Selector) (holds : Option Bool) : Option Selector :=
  if s.active then holds.map fun b => { s with branches := ⟨b, b, false⟩ :: s.branches }
  else some { s with branches := ⟨false, true, false⟩ :: s.branches }

/-- Goes to the next alternative of the innermost choice. None follows the last one. -/
def turned? (s : Selector) (holds : Option Bool) (last : Bool) : Option Selector :=
  match s.branches with
  | [] => none
  | branch :: outer =>
    if branch.last then none
    else if branch.decided then some { s with branches := ⟨false, true, last⟩ :: outer }
    else holds.map fun b => { s with branches := ⟨b, b, last⟩ :: outer }

def closed? (s : Selector) : Option Selector :=
  match s.branches with
  | [] => none
  | _ :: outer => some { s with branches := outer }

/-- Is the name in a line an abbreviation? -/
def isKnown? (s : Selector) (line : List Char) : Option Bool := do
  let name ← (← Token.first? (line.dropWhile Token.isBlank)).1.name?
  return (Abbreviation.find? s.table name).isSome

def holds? (s : Selector) (line : List Char) : Option Bool := do
  Condition.holds? s.table (← Token.read? line)

/-- Adds an abbreviation, which may be made again only in the same way. -/
def define? (s : Selector) (a : Abbreviation) : Option Selector :=
  match Abbreviation.find? s.table a.name with
  | some known => if known = a then some s else none
  | none => s.flush?.map fun s => { s with table := a :: s.table }

/-- The versions of the language that are understood. -/
def versions : List Nat := [440, 450, 460]

/-- Carries out a directive other than a choice. -/
def execute? (s : Selector) (name : String) (line : List Char) : Option Selector := do
  if name = "define" then
    s.define? (← Abbreviation.ofDefinition? line)
  else if name = "undef" then
    let (token, _) ← Token.first? (line.dropWhile Token.isBlank)
    let name ← token.name?
    return { ← s.flush? with table := s.table.filter (·.name ≠ name) }
  else if name = "version" then
    guard s.fresh
    match ← Token.read? line with
    | .integer version _ :: profile =>
      guard (versions.contains version && (profile.isEmpty || profile == [.name "core"]))
      return { s with version, table := [⟨"__VERSION__", none, [.integer version true]⟩] }
    | _ => none
  else if name = "extension" then
    match ← Token.read? line with
    | [.name _, .symbol ":", .name behaviour] =>
      guard (["require", "enable", "warn", "disable"].contains behaviour)
      return s
    | _ => none
  else if name = "pragma" ∨ name = "line" then some s
  else none

def directive? (s : Selector) (name : String) (line : List Char) : Option Selector :=
  if name = "ifdef" then s.opened? (s.isKnown? line)
  else if name = "ifndef" then s.opened? ((s.isKnown? line).map (!·))
  else if name = "if" then s.opened? (s.holds? line)
  else if name = "elif" then s.turned? (s.holds? line) false
  else if name = "else" then s.turned? (some true) true
  else if name = "endif" then s.closed?
  else if s.active then s.execute? name line
  else some s

/-- Takes a line. A directive without a name does nothing. -/
def line? (s : Selector) (line : List Char) : Option Selector :=
  match line.dropWhile Token.isBlank with
  | '#' :: rest =>
    let (name, rest) := (rest.dropWhile Token.isBlank).span Token.isNamePart
    if name.isEmpty then
      if rest.isEmpty || !s.active then some s else none
    else (s.directive? (String.ofList name) rest).map fun s => { s with fresh := false }
  | line =>
    if s.active then
      (Token.read? line).map fun tokens => { s with pending := tokens.reverse ++ s.pending }
    else some s

end Selector

/-- The tokens of a program after its directives have been carried out. There are none if a
directive cannot be carried out or a choice is left open. -/
def Source.ofText? (text : String) : Option Source := do
  let s ← (← lines? text).foldlM Selector.line? {}
  guard s.branches.isEmpty
  let s ← s.flush?
  return ⟨s.version, s.found.reverse⟩

end Texel.Shader
