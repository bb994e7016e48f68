/-!
# Dictionaries

Entries in the order of their keys, each key once.
-/

namespace Texel

abbrev Dictionary (α : Type) : Type := List (String × α)

namespace Dictionary

variable {α : Type}

/-- Sets the entry of a key. -/
def insert (key : String) (value : α) : Dictionary α → Dictionary α
  | [] => [(key, value)]
  | (k, v) :: rest =>
    if key = k then (key, value) :: rest
    else if key < k then (key, value) :: (k, v) :: rest
    else (k, v) :: insert key value rest

/-- The dictionary of some entries; of several with one key, the last counts. -/
def ofList (entries : List (String × α)) : Dictionary α :=
  entries.foldl (fun d (key, value) => insert key value d) []

end Dictionary
end Texel
