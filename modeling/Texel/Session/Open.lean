import Texel.Document.Basic
import Texel.Session.Solve

/-!
# Opening documents

A session for the graph of a document, with the recorded images read from their files.
-/

namespace Texel.Session

variable {δ π : Type}

/-- Loads the images of a record. -/
def loadImages (base : String) (ids : Document.Ids) (r : NodeRecord) :
    Action (Session δ π Builtin) Failure Unit :=
  match ids.get? r.id with
  | none => pure ()
  | some id => Action.each (fun (name, path) => loadImage id name (Path.join base path)) r.images

/-- Fills a session with the graph of a document. Paths are relative to `base`. -/
def openDocument (d : Document) (base : String) : Action (Session δ π Builtin) Failure Unit := do
  let (graph, ids) ← .ofExcept d.build
  .update fun s => { s with graph }
  Action.each (loadImages base ids) d.nodes
  clearChanges

end Texel.Session
