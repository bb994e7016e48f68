import Texel.Text.Quoted

/-!
# Events

What the program reports about its work. Events carry data; their wording is in `Event.message`
and `Event.fields`.
-/

namespace Texel

inductive Level
  | debug
  | info
  | warn
deriving DecidableEq, Repr

namespace Level

def label : Level → String
  | .debug => "DEBUG"
  | .info => "INFO"
  | .warn => "WARN"

end Level

inductive Event
  | malformedParameter (function : String) (words : List String)
  | unknownType (function parameter typeName : String)
  | orderRebuilt (nodes : Nat)
  | nodeSpecialised (node ancestors : Nat)
  | programGenerated (nodes bindings bytes : Nat)
  | programValidated (params images : Nat)
  | programRejected (diagnostic : String)
  | imageLoaded (node : Nat) (param path : String)
  | programDispatched (width height groupsX groupsY : Nat)
  | graphSolved (nodes width height : Nat)
deriving DecidableEq, Repr

/-- A reported detail: a number, a text that a log line quotes, or a text shown as it is. -/
inductive Detail
  | number (n : Nat)
  | text (s : String)
  | shown (s : String)
deriving DecidableEq, Repr

namespace Event

def level : Event → Level
  | .malformedParameter .. | .unknownType .. | .programRejected .. => .warn
  | .graphSolved .. => .info
  | _ => .debug

def message : Event → String
  | .malformedParameter .. => "ignoring malformed parameter"
  | .unknownType .. => "unrecognised parameter type"
  | .orderRebuilt .. => "rebuilt evaluation order"
  | .nodeSpecialised .. => "specialised multi-pass node"
  | .programGenerated .. => "generated texture program"
  | .programValidated .. => "validated program"
  | .programRejected .. => "texture program failed to compile"
  | .imageLoaded .. => "loaded image"
  | .programDispatched .. => "dispatched texture program"
  | .graphSolved .. => "solved texture graph"

/-- The part of the program that log lines and filters name. -/
def target : Event → String
  | .malformedParameter .. | .unknownType .. => "texture_node_graph::shader::scanner"
  | .orderRebuilt .. => "texture_node_graph::graph"
  | .nodeSpecialised .. | .programGenerated .. => "texture_node_graph::texture::program"
  | .programValidated .. => "texture_node_graph::backend::validating"
  | .programRejected .. | .imageLoaded .. | .programDispatched .. =>
    "texture_node_graph::texture::graph"
  | .graphSolved .. => "texture_node_graph"

def fields : Event → List (String × Detail)
  | .malformedParameter function words =>
    [("function", .text function), ("group", .shown (Text.quotedList words))]
  | .unknownType function parameter typeName =>
    [("function", .text function), ("param", .text parameter), ("type_name", .text typeName)]
  | .orderRebuilt nodes => [("nodes", .number nodes)]
  | .nodeSpecialised node ancestors =>
    [("node", .shown (toString node)), ("upstream", .number ancestors)]
  | .programGenerated nodes bindings bytes =>
    [("nodes", .number nodes), ("bindings", .number bindings), ("bytes", .number bytes)]
  | .programValidated params images => [("params", .number params), ("images", .number images)]
  | .programRejected diagnostic => [("diagnostic", .shown diagnostic)]
  | .imageLoaded node param path =>
    [("node", .shown (toString node)), ("param", .text param), ("path", .shown path)]
  | .programDispatched width height groupsX groupsY =>
    [("width", .number width), ("height", .number height), ("groups_x", .number groupsX),
      ("groups_y", .number groupsY)]
  | .graphSolved nodes width height =>
    [("nodes", .number nodes), ("width", .number width), ("height", .number height)]

/-- The log line of an event, without its time. -/
def line (e : Event) : String :=
  let shown := e.fields.map fun (name, detail) =>
    " " ++ name ++ "=" ++ match detail with
      | .number n => toString n
      | .text s => Text.quoted s
      | .shown s => s
  e.level.label ++ " " ++ e.target ++ ": " ++ e.message ++ String.join shown

end Event
end Texel
