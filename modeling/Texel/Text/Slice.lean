/-!
# Slices by byte offset

Positions in a text count UTF-8 bytes. A cut succeeds only when both ends lie on character
boundaries inside the text.
-/

namespace Texel

/-- A half-open range of byte offsets. -/
structure Span where
  start : Nat
  stop : Nat
deriving DecidableEq, Repr

namespace Text

/-- Bytes of the UTF-8 encoding. -/
def byteSize (cs : List Char) : Nat := cs.foldr (fun c n => c.utf8Size + n) 0

/-- Drops exactly `n` bytes, if a character boundary lies there. -/
def dropBytes? : Nat → List Char → Option (List Char)
  | 0, cs => some cs
  | _ + 1, [] => none
  | n + 1, c :: cs => if c.utf8Size ≤ n + 1 then dropBytes? (n + 1 - c.utf8Size) cs else none

/-- Keeps exactly `n` bytes, if a character boundary lies there. -/
def takeBytes? : Nat → List Char → Option (List Char)
  | 0, _ => some []
  | _ + 1, [] => none
  | n + 1, c :: cs =>
    if c.utf8Size ≤ n + 1 then (takeBytes? (n + 1 - c.utf8Size) cs).map (c :: ·) else none

/-- The text between two byte offsets. -/
def slice? (s : String) (span : Span) : Option String :=
  if span.start ≤ span.stop then do
    let rest ← dropBytes? span.start s.toList
    let kept ← takeBytes? (span.stop - span.start) rest
    some (String.ofList kept)
  else
    none

end Text
end Texel
