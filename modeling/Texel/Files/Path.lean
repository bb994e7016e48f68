/-!
# Paths

Paths as text: parts separated by slashes. A part that is empty or a single dot names nothing new,
unless it is the first one.
-/

namespace Texel.Path

/-- `path` seen from the directory `base`. -/
def join (base path : String) : String :=
  if path.startsWith "/" || base.isEmpty then path
  else if base.endsWith "/" then base ++ path
  else base ++ "/" ++ path

def parts (path : String) : List String := (path.toList.splitOnP (· == '/')).map String.ofList

/-- A part that names nothing new. -/
def isIdle (part : String) : Bool := part.isEmpty || part == "."

/-- The location that is above all others. -/
def root : List String := ["/"]

/-- Where a part of a path leads from a location. Above the working directory, steps up are kept;
above the root there is nothing. -/
def enter (location : List String) (part : String) : List String :=
  if isIdle part then location
  else if part ≠ ".." ∨ location.isEmpty ∨ location.getLast? = some ".." then location ++ [part]
  else if location = root then root
  else location.dropLast

/-- The working directory, or the root for an absolute path. -/
def origin (path : String) : List String := if path.startsWith "/" then root else []

/-- The location that a path names, whatever is there. -/
def location (path : String) : List String := (parts path).foldl enter (origin path)

/-- The locations that the parts of a path lead to, from a location on. -/
def locations : List String → List String → List (List String)
  | _, [] => []
  | location, part :: rest =>
    let next := enter location part
    next :: locations next rest

/-- The locations that a path goes through before its last part. -/
def passed (path : String) : List (List String) := locations (origin path) (parts path).dropLast

/-- The parts without idle ones at the end; the first part stays. -/
def trimmed (path : List String) : List String :=
  match path with
  | [] => []
  | first :: rest => first :: (rest.reverse.dropWhile isIdle).reverse

def ofParts : List String → String
  | [""] => "/"
  | parts => "/".intercalate parts

/-- The directory that holds a file: empty for a bare name. The empty path and the root have
none. -/
def parent? (path : String) : Option String :=
  match trimmed (parts path) with
  | [] => none
  | [""] => none
  | [_] => some ""
  | several => some (ofParts (trimmed several.dropLast))

/-- The last part, if it is the name of something. -/
def fileName? (path : String) : Option String :=
  match (trimmed (parts path)).getLast? with
  | some name => if isIdle name || name == ".." then none else some name
  | none => none

/-- What follows the last dot of the file name, if something stands before that dot. -/
def extension? (path : String) : Option String := do
  let name ← fileName? path
  let chars := name.toList.reverse
  let extension := chars.takeWhile (· != '.')
  match chars.drop extension.length with
  | _ :: _ :: _ => some (String.ofList extension.reverse)
  | _ => none

/-- The extension in lower-case letters. -/
def lowerExtension? (path : String) : Option String := (extension? path).map String.toLower

end Texel.Path
