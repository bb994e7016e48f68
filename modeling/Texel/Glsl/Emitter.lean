import Texel.Action
import Texel.Glsl.Code
import Texel.Glsl.Function
import Texel.Glsl.Template

/-!
# The emitter

Collects the sections of a program: uniforms, definitions and body. Code goes to the innermost open
block, or to the body when none is open; a closed block goes to the definitions or to the body.
Functions of a library are copied into the definitions, each at most once and after the functions it
calls.
-/

namespace Texel.Glsl

/-- Where a closed block goes. -/
inductive Section
  | definitions
  | body
deriving DecidableEq, Repr

structure Block where
  /-- Everything before the opening brace, for a function body. -/
  signature : Option String
  lines : List Line := []
deriving DecidableEq, Repr

structure Emitter where
  uniforms : List UniformDecl := []
  definitions : List Piece := []
  body : List Piece := []
  /-- The open blocks, innermost first. -/
  blocks : List Block := []
  /-- The functions of the library at hand. -/
  functions : List Function := []
  /-- The functions that have been copied, or are being copied. -/
  pasted : List String := []
deriving DecidableEq, Repr

namespace Emitter

/-- How many blocks are open. -/
def depth (e : Emitter) : Nat := e.blocks.length

def function? (e : Emitter) (name : String) : Option Function := find? e.functions name

def isPasted (e : Emitter) (name : String) : Bool := e.pasted.contains name

def declareUniform (kind : Kind) (name : String) (slot : Nat) : Action Emitter CodeError Unit :=
  match kind with
  | .image => .update fun e => { e with uniforms := e.uniforms ++ [.image name slot] }
  | .none => .fail (.undeclarable kind)
  | _ => .update fun e => { e with uniforms := e.uniforms ++ [.member name kind.typeName] }

/-- A member that holds 0 or 1. -/
def declareFlag (name : String) : Action Emitter CodeError Unit :=
  .update fun e => { e with uniforms := e.uniforms ++ [.member name "int"] }

def appendLine (line : Line) (e : Emitter) : Emitter :=
  match e.blocks with
  | block :: outer => { e with blocks := { block with lines := block.lines ++ [line] } :: outer }
  | [] => { e with body := e.body ++ [.line line] }

def append (line : Line) : Action Emitter CodeError Unit := .update (appendLine line)

/-- Declares a local variable; an image is held as a color. -/
def declareVariable (kind : Kind) (name : String) : Action Emitter CodeError Unit :=
  if kind.held.isNumeric then append (.declare kind.held name)
  else .fail (.undeclarable kind.held)

/-- Appends the text of a converted expression. -/
def appendConverted (source target : Kind) (text : String) : Action Emitter CodeError Unit := do
  let conversion ← .ofExcept (Conversion.between source target)
  append (.text (conversion.text text))

/-- Opens a block. -/
def openBlock (signature : Option String) : Action Emitter CodeError Unit :=
  .update fun e => { e with blocks := ⟨signature, []⟩ :: e.blocks }

/-- Closes the innermost block. -/
def closeBlock (target : Section) : Action Emitter CodeError Unit := do
  match (← .state).blocks with
  | [] => .fail .noOpenBlock
  | block :: outer =>
    let piece := Piece.block block.signature block.lines
    .update fun e =>
      match target with
      | .definitions => { e with blocks := outer, definitions := e.definitions ++ [piece] }
      | .body => { e with blocks := outer, body := e.body ++ [piece] }

/-- Replaces the library at hand, with a warning for every parameter that makes no sense. -/
def load (library : String) : Action Emitter CodeError Unit := do
  let found := functionsIn library
  .reportAll (found.flatMap Function.warnings)
  .update fun e => { e with functions := found }

/-- Copies the text of a function. -/
def copy (library : String) (f : Function) : Action Emitter CodeError Unit :=
  match f.definitionText? library with
  | some text =>
    .update fun e => { e with definitions := e.definitions ++ [.definition f.name text] }
  | none =>
    .fail (.spanOutOfRange f.name f.definition.start f.definition.stop library.utf8ByteSize)

/-- `paste` for functions nested at most `depth` deep in one another's calls. A function counts as
pasted from the moment its turn comes, so calls in a circle end. -/
def pasteWithin (library : String) : Nat → String → Action Emitter CodeError Unit
  | 0, name => do
    let e ← .state
    if e.isPasted name || (e.function? name).isSome then
      return
    .fail (.unknownFunction name)
  | depth + 1, name => do
    let e ← .state
    if e.isPasted name then
      return
    let f ← .ofOption (.unknownFunction name) (e.function? name)
    .update fun e => { e with pasted := name :: e.pasted }
    Action.each (pasteWithin library depth)
      (f.calls.filter fun callee => (e.function? callee).isSome)
    copy library f

/-- Copies the definition of a function out of `library`, after the known functions it calls. There
are never more functions in one another's turn than the library has. -/
def paste (name library : String) : Action Emitter CodeError Unit := do
  pasteWithin library (← .state).functions.length name

def uniformsText (e : Emitter) : String := UniformDecl.render e.uniforms

def definitionsText (e : Emitter) : String := renderPieces e.definitions

def bodyText (e : Emitter) : String := renderPieces e.body

/-- The whole program text. -/
def programText (e : Emitter) : String :=
  assemble e.uniformsText e.definitionsText e.bodyText

end Emitter
end Texel.Glsl
