import Texel.Failure
import Texel.Json.Reader

/-!
# Settings

The settings of a session and their text.
-/

namespace Texel

structure Config where
  /-- The size of the destination image. -/
  outputSize : Extent := ⟨512, 512⟩
  /-- Where every generated program is written. -/
  dumpSource : Option String := none
deriving DecidableEq, Repr, Inhabited

namespace Config

def extentOf? (v : Json) : Option Extent := do
  match ← v.toList? (Json.toNat? UInt32.size) with
  | [width, height] => some ⟨width, height⟩
  | _ => none

/-- A path, or null for none. -/
def pathOf? : Json → Option (Option String)
  | .null => some none
  | v => v.toText?.map some

def ofJson? (v : Json) : Option Config := do
  match ← v.toFields? ["output_size", "dump_source"] with
  | [size, dump] =>
    some
      { outputSize := ← Json.optional ⟨512, 512⟩ extentOf? size
        dumpSource := ← Json.optional none pathOf? dump }
  | _ => none

/-- Reads settings; what is missing keeps its default. -/
def parse (text : String) : Except Failure Config :=
  match (Json.parse? text).bind ofJson? with
  | some config => .ok config
  | none => .error .malformedConfig

def load (store : Store) (path : String) : Except Failure Config := do
  parse (← (store.readText path).mapError (.unreadableConfig path))

end Config
end Texel
