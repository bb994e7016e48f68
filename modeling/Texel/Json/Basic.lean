/-!
# JSON values

Values as a text spells them: numbers keep their literal, objects keep every member in order. A
string whose escapes are no characters, such as a lone surrogate, has no text; what such a string
may stand for is left to the reader of the value.
-/

namespace Texel

inductive Json
  | null
  | bool (b : Bool)
  | number (literal : List Char)
  | string (text : Option String)
  | array (items : List Json)
  | object (members : List (Option String × Json))
deriving Repr, Inhabited

end Texel
