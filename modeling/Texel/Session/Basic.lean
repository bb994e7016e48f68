import Texel.Config
import Texel.Device.Basic
import Texel.Graph.Propagate
import Texel.Program.Generate

/-!
# Sessions

A graph together with the device that runs its program. A session knows whether the program on the
device still belongs to the graph: edits of its structure make the program stale, values do not.
-/

namespace Texel

/-- Does the compiled program reflect the graph? -/
inductive Status
  /-- Nothing has been compiled since the last edit. -/
  | stale
  | ready
  /-- The last solve failed, and why. -/
  | failed (reason : String)
deriving DecidableEq, Repr

/-- What a successful solve has done. -/
structure Report where
  extent : Extent
  groups : Groups
  nodes : Nat
  uploads : Nat
  sourceSize : Nat
deriving DecidableEq, Repr

structure Session (δ π β : Type) where
  graph : Graph β := {}
  device : δ
  config : Config := {}
  /-- The program of the last successful solve. -/
  program : Option π := none
  /-- The program generated last, compiled or not. -/
  generated : Option Program := none
  status : Status := .stale
  /-- Who is told about successful solves, in the order of registration. -/
  listeners : List String := []
  /-- Who has been told what. -/
  notices : List (String × Report) := []
  files : Store := {}

namespace Session

variable {δ π β : Type}

/-- Works on the graph; the program stays what it is. -/
def onGraph {α : Type} (x : Action (Graph β) GraphError α) : Action (Session δ π β) Failure α :=
  (x.within Session.graph fun s graph => { s with graph }).mapError .graph

/-- Works on the device. -/
def onDevice {α : Type} (x : Action δ Fault α) : Action (Session δ π β) Failure α :=
  (x.within Session.device fun s device => { s with device }).mapError .device

def markStale : Action (Session δ π β) Failure Unit := .update fun s => { s with status := .stale }

/-- Any work on the graph, after which the program counts as stale. -/
def editGraph {α : Type} (x : Action (Graph β) GraphError α) :
    Action (Session δ π β) Failure α := do
  markStale
  onGraph x

/-- Adds a node and answers with its id. -/
def create [Operable β] (behavior : β) : Action (Session δ π β) Failure Nat := do
  let id := (← .state).graph.size
  editGraph (.update (Graph.create behavior))
  return id

/-- Adds a connection between two different nodes. -/
def connect (c : Connection) : Action (Session δ π β) Failure Unit := do
  if c.source = c.destination then
    .fail (.graph (.selfConnection c.source))
  else
    onGraph (Graph.connect c)
    markStale

def disconnect (c : Connection) : Action (Session δ π β) Failure Bool := do
  let removed ← onGraph (Graph.disconnect c)
  if removed then
    markStale
  return removed

def setParam (id : Nat) (name : String) (value : Value) : Action (Session δ π β) Failure Unit :=
  onGraph (Graph.setParam id name value)

def setImage (id : Nat) (name : String) (image : Option Image) (path : Option String) :
    Action (Session δ π β) Failure Unit :=
  onGraph (Graph.setImage id name image path)

/-- Puts the image of a file into a parameter. -/
def loadImage (id : Nat) (name path : String) : Action (Session δ π β) Failure Unit := do
  let image ← .ofOption (.unreadableImage path) ((← .state).files.readImage? path)
  .report (.imageLoaded id name path)
  setImage id name (some image) (some path)

def setOutputSize (extent : Extent) : Action (Session δ π β) Failure Unit :=
  .update fun s => { s with config := { s.config with outputSize := extent }, status := .stale }

def clearChanges : Action (Session δ π β) Failure Unit :=
  .update fun s => { s with graph := s.graph.clearChanges }

/-- Registers a listener under a name. -/
def listen (name : String) : Action (Session δ π β) Failure Unit :=
  .update fun s => { s with listeners := s.listeners ++ [name] }

/-- Generates the program and writes its text to the file for it, if there is one. -/
def generate [Operable β] : Action (Session δ π β) Failure Program := do
  let program ← Program.generate.within Session.graph fun s graph => { s with graph }
  if let some path := (← .state).config.dumpSource then
    let files ← .ofExcept
      (((← .state).files.write path (.text program.source)).mapError (.unwrittenSource path))
    .update fun s => { s with files }
  .update fun s => { s with generated := some program }
  return program

/-- The text of the program generated last. -/
def source? (s : Session δ π β) : Option String := s.generated.map Program.source

end Session
end Texel
