import Texel.Files.Path
import Texel.Image

/-!
# Files

The files of a working directory, as a value.
-/

namespace Texel

/-- Why a file cannot be read or written. -/
inductive FileError
  | notFound
  | notDirectory
  | isDirectory
  | nameTooLong
  /-- The path has a null character in it. -/
  | nullInPath
  | notText
deriving DecidableEq, Repr

def FileError.message : FileError → String
  | .notFound => "No such file or directory (os error 2)"
  | .notDirectory => "Not a directory (os error 20)"
  | .isDirectory => "Is a directory (os error 21)"
  | .nameTooLong => "File name too long (os error 36)"
  | .nullInPath => "file name contained an unexpected NUL byte"
  | .notText => "stream did not contain valid UTF-8"

/-- Formats of image files. -/
inductive PictureFormat
  | png
  | exr
  /-- A format that is known by its extensions only. -/
  | foreign
deriving DecidableEq, Repr

namespace PictureFormat

/-- The extensions of formats in which nothing is read or written. -/
def foreignExtensions : List String :=
  ["avif", "jpg", "jpeg", "jfif", "gif", "webp", "tif", "tiff", "tga", "dds", "bmp", "ico", "hdr",
    "pbm", "pam", "ppm", "pgm", "pnm", "ff", "qoi"]

/-- The format that the extension of a path tells. -/
def ofPath? (path : String) : Option PictureFormat := do
  let extension ← Path.lowerExtension? path
  if extension = "png" ∨ extension = "apng" then some .png
  else if extension = "exr" then some .exr
  else if foreignExtensions.contains extension then some .foreign
  else none

end PictureFormat

/-- What an image file holds. -/
inductive Picture
  /-- Samples as bytes; those that are missing at the end are zero. -/
  | png (extent : Extent) (bytes : List Nat)
  /-- Samples as they are. -/
  | exr (image : Image)
deriving DecidableEq, Repr

namespace Picture

def format : Picture → PictureFormat
  | .png .. => .png
  | .exr .. => .exr

/-- An image as a file of some format holds it. No file holds an image without texels. -/
def ofImage? (image : Image) (format : PictureFormat) : Option Picture :=
  if image.size = 0 then none
  else match format with
    | .png => some (.png image.extent image.toBytes)
    | .exr => some (.exr image)
    | .foreign => none

def image : Picture → Image
  | .png extent bytes => .ofBytes extent bytes
  | .exr image => image

end Picture

inductive File
  | text (content : String)
  | picture (content : Picture)
deriving DecidableEq, Repr

/-- Files by the parts of their path. The directories are those that hold files, others that have
been made, and all that lie above the working directory. -/
structure Store where
  files : List (List String × File) := []
  directories : List (List String) := []
deriving DecidableEq, Repr

namespace Store

def file? (s : Store) (location : List String) : Option File :=
  (s.files.find? (·.1 = location)).map (·.2)

def isDirectory (s : Store) (location : List String) : Bool :=
  location = Path.root || location.all (· == "..") || s.directories.contains location ||
    s.files.any fun (other, _) => location.isPrefixOf other && location.length < other.length

/-- Follows the parts of a path from a location. Every part but the last leads into a directory. -/
def follow (s : Store) : List String → List String → Except FileError (List String)
  | location, [] => .ok location
  | location, part :: rest =>
    if (s.file? location).isSome then .error .notDirectory
    else if !s.isDirectory location then .error .notFound
    else if 255 < part.utf8ByteSize then .error .nameTooLong
    else s.follow (Path.enter location part) rest

/-- The bytes of a path, with one for its end, that fit. -/
def pathLimit : Nat := 4096

/-- Where some parts of a path lead, from the working directory or from the root. -/
def walk (s : Store) (path : String) (parts : List String) : Except FileError (List String) :=
  if path.toList.any (·.toNat == 0) then .error .nullInPath
  else if path.isEmpty then .error .notFound
  else if pathLimit ≤ path.utf8ByteSize then .error .nameTooLong
  else s.follow (Path.origin path) parts

/-- Where a path leads. -/
def locate (s : Store) (path : String) : Except FileError (List String) :=
  s.walk path (Path.parts path)

/-- The directory that a path with a slash at its end is looked for in. -/
def holder (path : String) : List String :=
  ((Path.parts path).reverse.dropWhile String.isEmpty).tail.reverse ++ [""]

def read (s : Store) (path : String) : Except FileError File := do
  let location ← s.locate path
  match s.file? location with
  | some file => .ok file
  | none => .error (if s.isDirectory location then .isDirectory else .notFound)

def readText (s : Store) (path : String) : Except FileError String := do
  match ← s.read path with
  | .text content => .ok content
  | .picture _ => .error .notText

/-- Makes a file or replaces it. A path with a slash at its end can only name a directory. -/
def write (s : Store) (path : String) (file : File) : Except FileError Store := do
  if path.endsWith "/" then
    let _ ← s.walk path (holder path)
    throw .isDirectory
  let location ← s.locate path
  if s.isDirectory location then
    throw .isDirectory
  return { s with files := (location, file) :: s.files.filter (·.1 ≠ location) }

/-- Puts a file where a path leads, and makes the directories that the path goes through. -/
def place (s : Store) (path : String) (file : File) : Store :=
  let location := Path.location path
  { files := (location, file) :: s.files.filter (·.1 ≠ location)
    directories := Path.passed path ++ s.directories }

/-- The image in a file, if its extension tells its format. -/
def readImage? (s : Store) (path : String) : Option Image :=
  match s.read path with
  | .ok (.picture picture) =>
    if PictureFormat.ofPath? path = some picture.format then some picture.image else none
  | _ => none

/-- Saves an image in the format that the extension of the path tells, and answers whether that has
been done. The file is made before the image is put into the format, so an image that cannot be
leaves an empty file. -/
def writeImage (s : Store) (path : String) (image : Image) : Store × Bool :=
  match PictureFormat.ofPath? path with
  | none => (s, false)
  | some format =>
    let picture := Picture.ofImage? image format
    match s.write path ((picture.map File.picture).getD (.text "")) with
    | .ok s => (s, picture.isSome)
    | .error _ => (s, false)

end Store
end Texel
