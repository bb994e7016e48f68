import Texel.Glsl.Expr

/-!
# Generated code

Generated code is data first: lines made of expressions, and pieces made of lines. `render` gives
the text.
-/

namespace Texel.Glsl

inductive Line
  /-- Text as it is. -/
  | text (s : String)
  /-- A local variable of a numeric kind. -/
  | declare (kind : Kind) (name : String)
  | call (function : String) (arguments : List Expr)
  | ret (value : Expr)
  /-- Writes a color to the destination image. -/
  | store (value : Expr)
deriving DecidableEq, Repr

def Line.render : Line → String
  | .text s => s
  | .declare kind name => "\t" ++ kind.typeName ++ " " ++ name ++ ";\n"
  | .call function arguments =>
    "\t" ++ function ++ "(" ++ ", ".intercalate (arguments.map Expr.render) ++ ");\n"
  | .ret value => "\treturn " ++ value.render ++ ";\n"
  | .store value => "\timageStore(uOutput, cCoords, " ++ value.render ++ ");\n"

def renderLines (lines : List Line) : String := String.join (lines.map Line.render)

/-- A part of a program section. -/
inductive Piece
  | line (code : Line)
  /-- A function definition copied from a library. -/
  | definition (name text : String)
  /-- A closed block, as a function body if it has a signature. -/
  | block (signature : Option String) (lines : List Line)
deriving DecidableEq, Repr

def Piece.render : Piece → String
  | .line code => code.render
  | .definition _ text => text ++ "\n\n"
  | .block (some signature) lines => signature ++ " \x7b\n" ++ renderLines lines ++ "\x7d\n\n"
  | .block none lines => renderLines lines

def renderPieces (pieces : List Piece) : String := String.join (pieces.map Piece.render)

/-- A declared uniform. -/
inductive UniformDecl
  /-- A readable image at a binding of set 0. -/
  | image (name : String) (binding : Nat)
  /-- A member of the parameter block. -/
  | member (name typeName : String)
deriving DecidableEq, Repr

namespace UniformDecl

def renderImage? : UniformDecl → Option String
  | .image name binding =>
    some s!"layout(set = 0, binding = {binding}, rgba32f) readonly uniform image2D {name};\n"
  | .member .. => none

def renderMember? : UniformDecl → Option String
  | .image .. => none
  | .member name typeName => some ("\t" ++ typeName ++ " " ++ name ++ ";\n")

/-- The declarations: images first, then one block with all members. -/
def render (uniforms : List UniformDecl) : String :=
  let members := uniforms.filterMap renderMember?
  String.join (uniforms.filterMap renderImage?)
    ++ if members.isEmpty then ""
      else "layout(std140, set = 1, binding = 0) uniform Params \x7b\n" ++ String.join members
        ++ "\x7d;\n"

end UniformDecl
end Texel.Glsl
