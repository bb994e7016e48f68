/-!
# Program layouts

What a program declares for the outside: the images and the block of parameters, with the place of
every member.
-/

namespace Texel

/-- A member of the parameter block. -/
structure Member where
  name : String
  offset : Nat
deriving DecidableEq, Repr

structure ImageSlot where
  name : String
  group : Nat
  binding : Nat
  /-- Images are for reading or for writing. -/
  writable : Bool
deriving DecidableEq, Repr

structure Layout where
  members : List Member := []
  /-- Bytes of the block. -/
  size : Nat := 0
  /-- Group and binding of the block. -/
  binding : Option (Nat × Nat) := none
  /-- By group and binding. -/
  images : List ImageSlot := []
deriving DecidableEq, Repr

namespace Layout

def member? (l : Layout) (name : String) : Option Member := l.members.find? (·.name = name)

def image? (l : Layout) (group binding : Nat) : Option ImageSlot :=
  l.images.find? fun i => i.group = group ∧ i.binding = binding

/-- The images a program reads. -/
def inputs (l : Layout) : List ImageSlot := l.images.filter (!·.writable)

/-- Before or at the same place. -/
def slotLe (a b : ImageSlot) : Bool :=
  a.group < b.group || (a.group == b.group && a.binding ≤ b.binding)

/-- Puts an image behind those that stand before it or at its place. -/
def insertImage (i : ImageSlot) : List ImageSlot → List ImageSlot
  | [] => [i]
  | j :: rest => if slotLe j i then j :: insertImage i rest else i :: j :: rest

/-- Adds an image. -/
def withImage (l : Layout) (i : ImageSlot) : Layout :=
  { l with images := insertImage i l.images }

/-- Sets the block of parameters, in the place of an earlier one. -/
def withBlock (l : Layout) (group binding : Nat) (members : List Member) (size : Nat) : Layout :=
  { l with members, size, binding := some (group, binding) }

end Layout
end Texel
