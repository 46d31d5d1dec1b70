import MipsBackend.Device.Fault

/-! # Directories

The files a command works on. A path is followed step by step from the working directory, or from
the root if it is absolute: every step but the last must lead to a directory, and what the last one
leads to is read or written. Reading and writing fail the way a file system does.

The directories above the working directory exist and can be written to; nothing else is known to
be in them.
-/

namespace MipsBackend.Cli

/-- Directories that are known without a file in them. -/
inductive Anchor
  /-- The directory so many levels above the working directory, itself at level zero. -/
  | above (levels : Nat)
  /-- The directory that everything is in. -/
  | root
deriving DecidableEq

/-- A place in the file system: an anchor and the names that lead down from it, innermost first. -/
structure Location where
  anchor : Anchor
  names : List String := []
deriving DecidableEq

namespace Location

def working : Location := ⟨.above 0, []⟩

def child (location : Location) (name : String) : Location :=
  { location with names := name :: location.names }

/-- The directory around a place. The root has none but itself. -/
def parent : Location → Location
  | ⟨anchor, _ :: names⟩ => ⟨anchor, names⟩
  | ⟨.above levels, []⟩ => ⟨.above (levels + 1), []⟩
  | ⟨.root, []⟩ => ⟨.root, []⟩

def isInside (location outer : Location) : Bool :=
  location.anchor = outer.anchor && outer.names.isSuffixOf location.names && location != outer

end Location

structure Path where
  /-- Whether the path starts at the root. -/
  isAbsolute : Bool
  /-- The parts between slashes, outermost first. -/
  steps : List String
  /-- Whether a slash follows the last step. -/
  endsInSlash : Bool
  /-- Bytes that the whole path takes. -/
  size : Nat
deriving DecidableEq

namespace Path

def ofText (text : String) : Path where
  isAbsolute := text.toList.head? == some '/'
  steps := (text.splitToList (· == '/')).filter fun step => step != ""
  endsInSlash := text.toList.getLast? == some '/'
  size := text.utf8ByteSize

def maxSize : Nat := 4095

def maxNameSize : Nat := 255

/-- The name that a path ends in. A path may end in a step that names nothing, or have no steps. -/
def name? (path : Path) : Option String :=
  match path.steps.getLast? with
  | none | some "." | some ".." => none
  | some name => some name

def start (path : Path) : Location := if path.isAbsolute then ⟨.root, []⟩ else .working

end Path

inductive Entry
  | file (content : ByteArray)
  | directory
  | missing

/-- Files by place. -/
structure Directory where
  files : List (Location × ByteArray) := []

namespace Directory

/-- A working directory with the given files, by path. -/
def ofFiles (files : List (String × ByteArray)) : Directory :=
  ⟨files.map fun file => (⟨.above 0, (Path.ofText file.1).steps.reverse⟩, file.2)⟩

def file? (directory : Directory) (location : Location) : Option ByteArray :=
  directory.files.lookup location

/-- What there is at a place. Anchors are directories, and so is what has a file inside. -/
def entry (directory : Directory) (location : Location) : Entry :=
  match directory.file? location with
  | some content => .file content
  | none =>
    if location.names.isEmpty || directory.files.any fun file => file.1.isInside location then .directory
    else .missing

def find (location : Location) (name : String) : Except Fault Location :=
  if name.utf8ByteSize ≤ Path.maxNameSize then .ok (location.child name) else .error .nameTooLong

/-- Takes a step that must lead to a directory. -/
def enter (directory : Directory) (location : Location) : (step : String) → Except Fault Location
  | "." => .ok location
  | ".." => .ok location.parent
  | name => do
    let inside ← find location name
    match directory.entry inside with
    | .directory => .ok inside
    | .file _ => .error .notDirectory
    | .missing => .error .notFound

/-- The directory that the last step of a path is taken from. -/
def folder (directory : Directory) (path : Path) : Except Fault Location :=
  if path.size ≤ Path.maxSize then path.steps.dropLast.foldlM directory.enter path.start
  else .error .nameTooLong

def read (directory : Directory) (path : Path) : Except Fault ByteArray := do
  let folder ← directory.folder path
  match path.name? with
  | none => .error .isDirectory
  | some name =>
    let location ← find folder name
    match directory.entry location with
    | .file content => if path.endsInSlash then .error .notDirectory else .ok content
    | .directory => .error .isDirectory
    | .missing => .error .notFound

/-- The directory with a file written whole. -/
def insert (directory : Directory) (location : Location) (content : ByteArray) : Directory :=
  ⟨(location, content) :: directory.files.filter fun file => file.1 != location⟩

/-- Writes a file whole. A path that ends in a slash asks for a directory, whatever is there. -/
def write (directory : Directory) (path : Path) (content : ByteArray) : Except Fault Directory := do
  let folder ← directory.folder path
  match path.name?, path.endsInSlash with
  | some name, false =>
    let location ← find folder name
    match directory.entry location with
    | .directory => .error .isDirectory
    | .file _ | .missing => .ok (directory.insert location content)
  | _, _ => .error .isDirectory

end Directory

end MipsBackend.Cli
