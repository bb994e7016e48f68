import Texel.Document.Basic
import Texel.Json.Printer
import Texel.Json.Reader

/-!
# The text of documents

Documents are JSON texts. Reading ignores what it does not know, except that the version must be 1;
writing spells out every field.
-/

namespace Texel

namespace NodeRecord

def singles? (v : Json) : Option (List Single) := v.toList? Json.toSingle?

def positionOf? (v : Json) : Option (Single × Single) := do
  match ← singles? v with
  | [x, y] => some (x, y)
  | _ => none

def valueOf? (v : Json) : Option Value := do
  match ← singles? v with
  | [x, y, z, w] => some ⟨x, y, z, w⟩
  | _ => none

/-- The name of an operator, or an object with that name as its one key and null. -/
def builtinOf? : Json → Option Builtin
  | .string text => text.bind Builtin.ofSlug?
  | .object [(key, .null)] => key.bind Builtin.ofSlug?
  | _ => none

def dictionaryOf? {α : Type} (f : Json → Option α) (v : Json) : Option (Dictionary α) :=
  (v.toMembers? f).map .ofList

def ofJson? (v : Json) : Option NodeRecord := do
  match ← v.toFields? ["id", "type", "position", "params", "images"] with
  | [id, builtin, position, params, images] =>
    some
      { id := ← Json.required (Json.toNat? UInt32.size) id
        builtin := ← Json.required builtinOf? builtin
        position := ← Json.optional (0, 0) positionOf? position
        params := ← Json.optional [] (dictionaryOf? valueOf?) params
        images := ← Json.optional [] (dictionaryOf? Json.toText?) images }
  | _ => none

def singlesJson (xs : List Single) : Json := .array (xs.map Json.ofSingle)

def toJson (r : NodeRecord) : Json :=
  .object
    [(some "id", Json.ofNat r.id),
      (some "type", Json.ofText r.builtin.slug),
      (some "position", singlesJson [r.position.1, r.position.2]),
      (some "params", .object (r.params.map fun (name, v) => (some name, singlesJson v.toList))),
      (some "images", .object (r.images.map fun (name, path) => (some name, Json.ofText path)))]

end NodeRecord

namespace Connection

def ofJson? (v : Json) : Option Connection := do
  match ← v.toFields? ["source", "source_output", "destination", "destination_input"] with
  | [source, output, destination, input] =>
    some
      { source := ← Json.required (Json.toNat? UInt32.size) source
        output := ← Json.required (Json.toNat? UInt64.size) output
        destination := ← Json.required (Json.toNat? UInt32.size) destination
        input := ← Json.required (Json.toNat? UInt64.size) input }
  | _ => none

def toJson (c : Connection) : Json :=
  .object
    [(some "source", Json.ofNat c.source),
      (some "source_output", Json.ofNat c.output),
      (some "destination", Json.ofNat c.destination),
      (some "destination_input", Json.ofNat c.input)]

end Connection

namespace Document

def ofJson? (v : Json) : Option Document := do
  match ← v.toFields? ["version", "nodes", "connections"] with
  | [version, nodes, connections] =>
    some
      { version := ← Json.required (Json.toNat? UInt32.size) version
        nodes := ← Json.required (Json.toList? NodeRecord.ofJson?) nodes
        connections := ← Json.optional [] (Json.toList? Connection.ofJson?) connections }
  | _ => none

def toJson (d : Document) : Json :=
  .object
    [(some "version", Json.ofNat d.version),
      (some "nodes", .array (d.nodes.map NodeRecord.toJson)),
      (some "connections", .array (d.connections.map Connection.toJson))]

/-- Reads a document. -/
def parse (text : String) : Except Failure Document :=
  match (Json.parse? text).bind ofJson? with
  | none => .error .malformedDocument
  | some d => if d.version = 1 then .ok d else .error (.documentVersion d.version)

/-- Writes a document. -/
def render (d : Document) : String := d.toJson.render

def load (store : Store) (path : String) : Except Failure Document := do
  let text ← (store.readText path).mapError (.unreadableDocument path)
  (parse text).mapError (.whileLoading path)

def save (d : Document) (store : Store) (path : String) : Except Failure Store :=
  (store.write path (.text d.render)).mapError (.unwrittenDocument path)

end Document
end Texel
