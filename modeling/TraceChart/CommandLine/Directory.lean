import TraceChart.Roster

/-!
Directories as values: files under paths, with contents. A folder is there where a file is below
it. What reading and writing answer is what a file system would, save that outside the directory
only the folders above it are known to be there.
-/

namespace TraceChart.CommandLine

/-- Why a file cannot be read or written, with the number by which the system knows it. -/
structure FileError where
  reason : String
  number : Nat
deriving DecidableEq, Repr

namespace FileError

def notFound : FileError := ⟨"No such file or directory", 2⟩
def noDevice : FileError := ⟨"No such device or address", 6⟩
def notFolder : FileError := ⟨"Not a directory", 20⟩
def isFolder : FileError := ⟨"Is a directory", 21⟩
def nameTooLong : FileError := ⟨"File name too long", 36⟩

def message (error : FileError) : String :=
  s!"{error.reason} (os error {error.number})"

end FileError

/-- The names from the directory down to a file; none for the directory itself. A path out of the
directory begins with two dots for each step up, or with the slash of the root. -/
abbrev Path := List String

namespace Path

def up : String := ".."
def root : String := "/"

/-- Whether a path leads to the directory, to a folder above it or to the root. -/
def isAbove (path : Path) : Bool :=
  path == [root] || path.all fun name => name == up

/-- The folder above a place. The root is above itself. -/
def parent (path : Path) : Path :=
  if path = [root] then [root]
  else if path.isAbove then up :: path
  else path.dropLast

end Path

structure Directory where
  files : Roster Path (List UInt8)
deriving DecidableEq

namespace Directory

def content? (directory : Directory) (path : Path) : Option (List UInt8) :=
  directory.files.lookup path

def isFolder (directory : Directory) (path : Path) : Bool :=
  path.isAbove || directory.files.any fun file => path.isPrefixOf file.1 && path != file.1

/-- The most bytes of a name, and of a whole path. -/
def longestName : Nat := 255
def longestPath : Nat := 4095

def follow (directory : Directory) (place : Path) (name : String) : Except FileError Path :=
  if directory.isFolder place then
    if name = "" ∨ name = "." then .ok place
    else if name = ".." then .ok place.parent
    else if longestName < name.utf8ByteSize then .error .nameTooLong
    else .ok (place ++ [name])
  else if (directory.content? place).isSome then .error .notFolder
  else .error .notFound

/-- Where a list of names leads. Only the last one may be missing. -/
def resolve (directory : Directory) (path : String) (names : List String) :
    Except FileError Path :=
  if path = "" then .error .notFound
  else if longestPath < path.utf8ByteSize then .error .nameTooLong
  else names.foldlM directory.follow (if path.startsWith "/" then [Path.root] else [])

def read (directory : Directory) (path : String) : Except FileError (List UInt8) := do
  let place ← directory.resolve path (path.splitOn "/")
  match directory.content? place with
  | some content => pure content
  | none => throw (if directory.isFolder place then .isFolder else .notFound)

/-- The names of a path without its last one, where slashes at the end count for nothing. -/
def namesBeforeLast (path : String) : List String :=
  ((path.splitOn "/").reverse.dropWhile fun name => name == "").tail.reverse

/-- Replace a file or add one. A slash at the end of a path asks for a folder, and then nothing is
asked of the last name. -/
def write (directory : Directory) (path : String) (content : List UInt8) :
    Except FileError Directory := do
  if path.endsWith "/" then
    let place ← directory.resolve path (namesBeforeLast path)
    let _ ← directory.follow place "."
    throw .isFolder
  let place ← directory.resolve path (path.splitOn "/")
  if directory.isFolder place then throw .isFolder
  pure ⟨directory.files.put place content⟩

end Directory

end TraceChart.CommandLine
