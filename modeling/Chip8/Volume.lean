import Chip8.Text.Lines

/-!
# Volumes

A working directory with files and directories in it, as a session sees it
when it looks for a program or an input trace. A name may be a path. Of what
is outside of the working directory only a few places are known that every
system has.

Text files are strict UTF-8. A mark at the start of a text is kept as a
character of its first line.
-/

set_option autoImplicit false

namespace Chip8

inductive ReadError where
  | notFound
  | isDirectory
  | notADirectory
  | nameTooLong
  | notOpen
  /-- What is given is no name of a file at all. -/
  | improper
  deriving DecidableEq, Repr

def ReadError.message? : ReadError → Option String
  | .notFound => some "No such file or directory"
  | .isDirectory => some "Is a directory"
  | .notADirectory => some "Not a directory"
  | .nameTooLong => some "File name too long"
  | .notOpen => some "Bad file descriptor"
  | .improper => none

/-- The paths of a working directory. A path without bytes is a directory, and
so is every path that leads on to another. -/
structure Volume where
  entries : List (String × Option ByteArray)

namespace Volume

def parts : List Char → List (List Char)
  | [] => [[]]
  | c :: rest =>
      match c, parts rest with
      | '/', others => [] :: others
      | c, first :: others => (c :: first) :: others
      | c, [] => [[c]]

def isIdle (part : List Char) : Bool := part == [] || part == ['.']

def properParts (path : String) : List (List Char) :=
  (parts path.toList).filter fun part => !isIdle part

def byteLength (part : List Char) : Nat :=
  part.foldl (fun length c => length + c.utf8Size) 0

def longestName : Nat := 255

def longestPath : Nat := 4095

/-- A few places below the root that every system has. -/
def system : Volume where
  entries := [("dev/null", some .empty), ("bin", none), ("etc", none), ("home", none),
    ("proc", none), ("sys", none), ("tmp", none), ("usr/bin", none), ("var/tmp", none)]

def find? (volume : Volume) (path : List (List Char)) : Option (Option ByteArray) :=
  match volume.entries.find? fun entry => properParts entry.1 == path with
  | some entry => some entry.2
  | none =>
      if volume.entries.any fun entry => path.isPrefixOf (properParts entry.1) then some none
      else none

inductive Place where
  /-- A directory in the working directory. -/
  | working (path : List (List Char))
  /-- A directory below the root. -/
  | root (path : List (List Char))
  /-- A directory above the working directory. -/
  | above
  | file (bytes : ByteArray)

def enter (volume : Volume) (path : List (List Char))
    (directory : List (List Char) → Place) : Except ReadError Place :=
  match volume.find? path with
  | some (some bytes) => .ok (.file bytes)
  | some none => .ok (directory path)
  | none => .error .notFound

/-- The directory that a directory is in. The root is in itself. -/
def Place.outer : Place → Place
  | .working [] | .above => .above
  | .working path => .working path.dropLast
  | .root path => .root path.dropLast
  | .file bytes => .file bytes

/-- One step along a path. A file has to be the end of it. -/
def step (volume : Volume) (place : Place) (part : List Char) : Except ReadError Place :=
  match place with
  | .file _ => .error .notADirectory
  | directory =>
      if isIdle part then .ok directory
      else if part = ['.', '.'] then .ok directory.outer
      else if longestName < byteLength part then .error .nameTooLong
      else
        match directory with
        | .working path => volume.enter (path ++ [part]) .working
        | .root path => system.enter (path ++ [part]) .root
        | .above | .file _ => .error .notFound

def start (path : List Char) : Place :=
  if path.head? = some '/' then .root [] else .working []

/-- The bytes of a file. The empty name is the name of nothing. -/
def read (volume : Volume) (name : String) : Except ReadError ByteArray :=
  let path := name.toList
  if path.contains '\x00' then .error .improper
  else if path.isEmpty then .error .notFound
  else if longestPath < byteLength path then .error .nameTooLong
  else do
    match ← (parts path).foldlM (step volume) (start path) with
    | .file bytes => return bytes
    | .working _ | .root _ | .above => throw .isDirectory

def textLines? (bytes : ByteArray) : Option (List (List Char)) :=
  (String.fromUTF8? bytes).map fun text => Text.lines text.toList

end Volume

end Chip8
