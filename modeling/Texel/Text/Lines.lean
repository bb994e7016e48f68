/-!
# Lines of text
-/

namespace Texel.Text

/-- The lines one after the other, each with its end of line. -/
def ofLines (lines : List String) : String :=
  String.join (lines.map (· ++ "\n"))

end Texel.Text
