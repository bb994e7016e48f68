import Texel.Files.Store
import Texel.Graph.Basic

/-!
# Failures

Everything that can end an operation, with the messages that explain it, outermost first.
-/

namespace Texel

/-- What a device answers when it cannot do something: messages, outermost first. -/
structure Fault where
  messages : List String
deriving DecidableEq, Repr

/-- Why a text is no number. -/
inductive NumberError
  | empty
  | badDigit
  | tooLarge
deriving DecidableEq, Repr

def NumberError.message : NumberError → String
  | .empty => "cannot parse integer from empty string"
  | .badDigit => "invalid digit found in string"
  | .tooLarge => "number too large to fit in target type"

inductive Failure
  | graph (error : GraphError)
  | code (error : CodeError)
  /-- The device does not accept the program. -/
  | rejected (diagnostic : String)
  | device (fault : Fault)
  | noDevice
  | unreadableImage (path : String)
  | unsavedImage (path : String)
  | unwrittenSource (path : String) (error : FileError)
  | malformedDocument
  | documentVersion (version : Nat)
  | repeatedId (id : Nat)
  | danglingConnection (connection : Connection)
  | unreadableDocument (path : String) (error : FileError)
  | unwrittenDocument (path : String) (error : FileError)
  | whileLoading (path : String) (cause : Failure)
  | malformedConfig
  | unreadableConfig (path : String) (error : FileError)
  | missingValue (flag : String)
  | unknownArgument (argument : String)
  | graphRequired
  | sizeShape (text : String)
  | sizeWidth (text : String) (error : NumberError)
  | sizeHeight (text : String) (error : NumberError)
  | sizeZero (text : String)
deriving DecidableEq, Repr

namespace Failure

/-- What the command line understands. -/
def usage : String :=
  "supported: --graph <graph.json>, --output <file.png|file.exr>, --config <config.json>, " ++
    "--size <WxH>, --dump-source <file.comp>, --validate-only"

/-- The messages, outermost first. -/
def chain : Failure → List String
  | .graph error => [error.message]
  | .code error => [error.message]
  | .rejected diagnostic => ["program failed to compile:\n" ++ diagnostic]
  | .device fault => fault.messages
  | .noDevice => ["no GPU adapter available"]
  | .unreadableImage path => ["failed to open image " ++ path]
  | .unsavedImage path => ["failed to save " ++ path]
  | .unwrittenSource path error => ["failed to write program source to " ++ path, error.message]
  | .malformedDocument => ["invalid graph document"]
  | .documentVersion version => [s!"unsupported graph document version {version} (expected 1)"]
  | .repeatedId id => [s!"node id {id} appears twice in the document"]
  | .danglingConnection c =>
    [s!"connection {c.source}:{c.output} -> {c.destination}:{c.input} references an unknown node"]
  | .unreadableDocument path error => ["failed to read graph document " ++ path, error.message]
  | .unwrittenDocument path error => ["failed to write graph document " ++ path, error.message]
  | .whileLoading path cause => ("while loading " ++ path) :: cause.chain
  | .malformedConfig => ["invalid texture graph config"]
  | .unreadableConfig path error => ["failed to read config " ++ path, error.message]
  | .missingValue flag => ["missing value for " ++ flag]
  | .unknownArgument argument => ["unknown argument: " ++ argument ++ " (" ++ usage ++ ")"]
  | .graphRequired => ["--graph is required (" ++ usage ++ ")"]
  | .sizeShape text => ["invalid --size " ++ Text.quoted text ++ ", expected WxH"]
  | .sizeWidth text error => ["invalid width in --size " ++ Text.quoted text, error.message]
  | .sizeHeight text error => ["invalid height in --size " ++ Text.quoted text, error.message]
  | .sizeZero text => ["--size must be non-zero, got " ++ Text.quoted text]

/-- All messages in one line. -/
def describe (f : Failure) : String := ": ".intercalate f.chain

/-- The messages as a command line ends with them: the causes on lines of their own, numbered if
there are several. -/
def report (f : Failure) : String :=
  match f.chain with
  | [] => "Error: "
  | [message] => "Error: " ++ message
  | [message, cause] => "Error: " ++ message ++ "\n\nCaused by:\n    " ++ cause
  | message :: causes =>
    "Error: " ++ message ++ "\n\nCaused by:" ++
      String.join (causes.mapIdx fun i cause => s!"\n    {i}: {cause}")

end Failure
end Texel
