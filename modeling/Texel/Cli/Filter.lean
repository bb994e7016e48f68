import Texel.Event
import Texel.Text.Alphanumeric
import Texel.Text.Blank
import Texel.Text.Pattern

/-!
# Log filters

Which events are shown. A filter is a list of directives separated by commas. A directive is a
verbosity, a target, or `target[span{field=value}]=verbosity`, of which the target, the part in
brackets and the verbosity can each be left out. Of the directives that apply to an event, the most
particular one decides.

`Draft.step` reads a directive character by character, and `Draft.finish` closes what is still open
at its end.
-/

namespace Texel

/-- One rule of a filter. -/
structure Directive where
  /-- How the targets begin that it is for; all of them if there is none. -/
  target : Option String := none
  /-- A field that an event must have. -/
  field : Option String := none
  /-- Is it for what happens inside of certain spans only? -/
  spanned : Bool := false
  /-- From 0 for nothing to 5 for everything. -/
  verbosity : Nat := 5
deriving DecidableEq, Repr

abbrev Filter : Type := List Directive

/-- The least verbosity that shows a level. -/
def Level.rank : Level → Nat
  | .warn => 2
  | .info => 3
  | .debug => 4

namespace Directive

/-- The verbosity that a text names, by a word in any case or by a number. -/
def verbosity? (text : String) : Option Nat :=
  let names := ["off", "error", "warn", "info", "debug", "trace"]
  let digits := match text.toList with
    | '+' :: rest => rest
    | cs => cs
  if !digits.isEmpty && digits.all Char.isDigit then
    let n := digits.foldl (fun n c => n * 10 + (c.toNat - '0'.toNat)) 0
    if n ≤ 5 then some n else none
  else
    names.findIdx? (· = text.toLower)

/-- Can a target start with this character? -/
def opensTarget (c : Char) : Bool := Text.isAlphanumeric c || c == '-' || c == ':' || c == '_'

/-- Is the text a decimal number, or the name of one that is not finite? -/
def isNumber (text : List Char) : Bool :=
  let unsigned (cs : List Char) : List Char := match cs with
    | '+' :: rest => rest
    | '-' :: rest => rest
    | rest => rest
  let (whole, rest) := (unsigned text).span Char.isDigit
  let (fraction, rest) := match rest with
    | '.' :: rest => rest.span Char.isDigit
    | rest => ([], rest)
  let ends := match rest with
    | [] => true
    | c :: rest =>
      let digits := unsigned rest
      (c == 'e' || c == 'E') && !digits.isEmpty && digits.all Char.isDigit
  (ends && !(whole ++ fraction).isEmpty) ||
    ["inf", "infinity", "nan"].contains (String.ofList (unsigned text)).toLower

/-- Where the reading of a directive stands. -/
inductive Stage
  | start
  /-- In a word that is a target or a verbosity. -/
  | word
  /-- In a span name that began at `start`. -/
  | span (start : Nat)
  /-- In a field that began at `start`. -/
  | field (start : Nat)
  /-- After the brace that closes a field. -/
  | closedField
  /-- After the bracket that closes a span. -/
  | closedSpan
  /-- In a verbosity that began at `start`. -/
  | verbosity (start : Nat)
deriving DecidableEq, Repr

structure Draft where
  stage : Stage := .start
  /-- Characters read so far. -/
  position : Nat := 0
  /-- What has been understood so far. -/
  directive : Directive := {}
deriving DecidableEq, Repr

namespace Draft

/-- Adds a field. With a value, which is a number or a pattern, it can only be one of a span. -/
def withField? (d : Directive) (text : String) : Option Directive :=
  match text.splitOn "=" with
  | name :: value :: _ =>
    if isNumber value.toList || Pattern.check value then
      some { d with field := some name, spanned := true }
    else none
  | _ => some { d with field := some text }

/-- Takes a character. The parts are cut out of `text`. -/
def step (text : List Char) (d : Draft) (c : Char) : Option Draft :=
  let position := d.position + 1
  let part (start : Nat) : String := String.ofList ((text.take d.position).drop start)
  match d.stage with
  | .start =>
    if c == '[' then some { d with stage := .span position, position }
    else if opensTarget c then some { d with stage := .word, position }
    else none
  | .word =>
    let named := { d.directive with target := some (part 0) }
    if c == '=' then some ⟨.verbosity position, position, named⟩
    else if c == '[' then some ⟨.span position, position, named⟩
    else some { d with position }
  | .span start =>
    if c == ']' then some ⟨.closedSpan, position, { d.directive with spanned := true }⟩
    else if c == '\x7b' then
      some ⟨.field position, position, { d.directive with spanned := start < d.position }⟩
    else some { d with position }
  | .field start =>
    if c != '\x7d' then some { d with position }
    else if start = d.position then none
    else (withField? d.directive (part start)).map (⟨.closedField, position, ·⟩)
  | .closedField => if c == ']' then some { d with stage := .closedSpan, position } else none
  | .closedSpan =>
    if c == '=' then some { d with stage := .verbosity position, position } else none
  | .verbosity _ => some { d with position }

/-- The directive, once the text has ended. A verbosity that is left out, or empty, is the
greatest one. -/
def finish (text : List Char) (d : Draft) : Option Directive :=
  match d.stage with
  | .word =>
    match verbosity? (String.ofList text) with
    | some verbosity => some { verbosity }
    | none => some { target := some (String.ofList text) }
  | .verbosity start =>
    match text.drop start with
    | [] => some d.directive
    | rest => (verbosity? (String.ofList rest)).map ({ d.directive with verbosity := · })
  | .closedSpan => some d.directive
  | _ => none

end Draft

/-- The directive of a text. Blanks around it do not count when its parts are told apart, but the
parts are cut out of the whole text: blanks behind belong to the last part, and blanks in front
shift every part. -/
def ofText? (text : String) : Option Directive := do
  let chars := text.toList
  let draft ← (Text.trimBlanks chars).foldlM (Draft.step chars) {}
  draft.finish chars

def applies (d : Directive) (e : Event) : Bool :=
  let targeted := match d.target with
    | some target => e.target.startsWith target
    | none => true
  let fielded := match d.field with
    | some name => name == "message" || e.fields.any fun (field, _) => field == name
    | none => true
  !d.spanned && targeted && fielded

/-- Is a directive at least as particular as another one that applies to the same event? A longer
target counts first, then a field; of two fields the later one in order. -/
def outranks (d other : Directive) : Bool :=
  let size (d : Directive) : Nat := (d.target.map String.utf8ByteSize).getD 0
  if size d ≠ size other then size other < size d
  else match d.field, other.field with
    | some a, some b => b ≤ a
    | none, some _ => false
    | _, none => true

end Directive

namespace Filter

/-- Directives separated by commas. -/
def parse? (text : String) : Option Filter :=
  ((text.splitOn ",").filter (!·.isEmpty)).mapM Directive.ofText?

/-- The filter in force when none is given. -/
def standard : Filter := [{ verbosity := 3 }]

/-- The filter of a text; the standard one if the text is empty or no filter. -/
def ofText (text : String) : Filter :=
  if text.isEmpty then standard else (parse? text).getD standard

/-- The directive that decides about an event. Of equally particular ones it is the last. -/
def decisive? (filter : Filter) (e : Event) : Option Directive :=
  (filter.filter (·.applies e)).foldl
    (fun best d => if best.all d.outranks then some d else best) none

def shows (filter : Filter) (e : Event) : Bool :=
  (filter.decisive? e).any fun d => e.level.rank ≤ d.verbosity

end Filter
end Texel
