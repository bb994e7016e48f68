import Texel.Shader.Quantity
import Texel.Shader.Type

/-!
# Program trees

The structure of a program: expressions, statements and declarations, with names as they stand.
-/

namespace Texel.Shader

inductive Expression
  /-- Nothing, between the brackets of an array without a length. -/
  | missing
  /-- A number, or a truth value as one. -/
  | literal (kind : Scalar) (value : Quantity)
  | variable (name : String)
  | call (name : String) (arguments : List Expression)
  /-- A value of a type, which may be an array, made of others. -/
  | construct (type : String) (lengths arguments : List Expression)
  /-- A value made of others, whose type is known from where it stands. -/
  | list (items : List Expression)
  | element (base index : Expression)
  | field (base : Expression) (name : String)
  /-- A question to a value. -/
  | method (base : Expression) (name : String) (arguments : List Expression)
  | unary (symbol : String) (operand : Expression)
  /-- One more or one less, in the place of a variable. -/
  | count (operand : Expression)
  | binary (symbol : String) (left right : Expression)
  /-- An assignment, which may join the old value with the new one first. -/
  | assign (symbol : Option String) (target value : Expression)
  | choose (condition accept reject : Expression)
  /-- One expression after the other. -/
  | both (first second : Expression)

/-- A member of a structure or of a block. -/
structure Field where
  type : String
  lengths : List Expression
  name : String

/-- A type in a declaration. A structure may be declared where it is used first. -/
structure TypeUse where
  name : String
  fields : Option (List Field) := none
  lengths : List Expression := []

/-- What stands before the type of a declaration. -/
structure Qualifiers where
  words : List String := []
  /-- The entries of a layout, some with values. -/
  layout : List (String × Option Expression) := []

/-- A variable in a declaration. -/
structure Declarator where
  name : String
  lengths : List Expression
  value : Option Expression

/-- A parameter of a function. -/
structure Parameter where
  words : List String
  type : TypeUse
  name : Option String

/-- What is known of a function without its body. Without a type, it returns nothing. -/
structure Signature where
  type : Option TypeUse
  name : String
  parameters : List Parameter

inductive Declaration
  | variableList (qualifiers : Qualifiers) (type : TypeUse) (declarators : List Declarator)
  /-- A block of members, which may have a name as a whole and be an array of blocks. -/
  | block (qualifiers : Qualifiers) (fields : List Field)
      (whole : Option (String × List Expression))
  /-- Qualifiers alone, which are about the whole program. -/
  | general (qualifiers : Qualifiers)
  | prototype (signature : Signature)
  /-- A statement on how exact numbers of a type are. -/
  | precision

inductive Statement
  | declare (declaration : Declaration)
  | evaluate (e : Expression)
  | block (body : List Statement)
  | branch (condition : Expression) (accept reject : Statement)
  /-- A choice between the labels in its body. -/
  | select (value : Expression) (body : List Statement)
  | label (value : Option Expression)
  /-- A loop: what comes first, what is asked and done in every round, and its body. -/
  | loop (first : Statement) (condition step : Option Expression) (body : Statement)
  | leave (value : Option Expression)
  /-- The end of a loop or of one of its rounds. -/
  | jump

/-- A part of a program. -/
inductive Item
  | declaration (d : Declaration)
  | function (signature : Signature) (body : List Statement)

end Texel.Shader
