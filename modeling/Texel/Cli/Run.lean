import Texel.Cli.Filter
import Texel.Cli.Options
import Texel.Device.Validator
import Texel.Document.Text
import Texel.Session.Open

/-!
# Running the command line

From arguments and files to the text that is printed, the files that are left and a failure, if
there is one.
-/

namespace Texel.Cli

variable {δ π : Type} [Device δ π]

/-- Saves an image to a file. -/
def saveImage (path : String) (image : Image) : Action Store Failure Unit := do
  let (store, saved) := (← .state).writeImage path image
  .update fun _ => store
  if !saved then
    .fail (.unsavedImage path)

/-- Solves the graph of a document, saves its image if there is a path for it, and answers with what
is printed. -/
def render (d : Document) (device : δ) (config : Config) (output : Option String) (base : String) :
    Action Store Failure String := fun files =>
  let work : Action (Session δ π Builtin) Failure String := do
    Session.openDocument d base
    let report ← Session.solve
    .report (.graphSolved report.nodes report.extent.width report.extent.height)
    match output with
    | none => return ""
    | some path =>
      let image ← Session.readOutput
      (saveImage path image).within Session.files fun s files => { s with files }
      return "[headless] saved: " ++ path ++ "\n"
  let outcome := work.run { device, config, files }
  ⟨outcome.result, outcome.state.files, outcome.events⟩

/-- The settings in force: those of the settings file, with those of the command line put in. -/
def settings (o : Options) : Action Store Failure Config := do
  let config ←
    match o.config with
    | some path => .ofExcept (Config.load (← .state) path)
    | none => pure {}
  return {
    outputSize := o.size.getD config.outputSize
    dumpSource := o.dumpSource.or config.dumpSource }

/-- Does what the arguments say. There is no device here that draws. -/
def execute (args : List String) : Action Store Failure String := do
  let o ← .ofExcept (Options.parse args)
  let path ← .ofOption .graphRequired o.graph
  let config ← settings o
  let d ← .ofExcept (Document.load (← .state) path)
  let base := (Path.parent? path).getD "."
  if o.validateOnly then
    let printed ← render d ({} : Validator) config none base
    return printed ++ "[validate] " ++ path ++ " is valid\n"
  else
    .fail .noDevice

/-- What a run leaves behind. -/
structure Result where
  stdout : String
  failure : Option Failure
  files : Store

def run (filter : Filter) (args : List String) (files : Store) : Result :=
  let outcome := (execute args).run files
  let lines := (outcome.events.filter filter.shows).map fun e => e.line ++ "\n"
  match outcome.result with
  | .ok printed => ⟨String.join lines ++ printed, none, outcome.state⟩
  | .error failure => ⟨String.join lines, some failure, outcome.state⟩

end Texel.Cli
