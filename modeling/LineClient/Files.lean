/-!
# A tree of files

Files are kept by their path from the root; a directory exists if a file lies below it, or if it is
the working directory or lies above that one. Paths are read from left to right, from the root or
from the working directory, so every directory on the way must exist. A file may refuse to be
created, and a file that was created may have room for only a part of what is written to it.

* `Path`, `Path.ofText`, `Path.withSuffix?`;
* `FileTree`, `FileTree.follow`, `FileTree.read?`, `FileTree.relativeText`;
* `FileTree.create?`, `FileTree.fill`, **`FileTree.write`**, `FileTree.withDirectory`;
* `FileError`, `WriteError`, why a file cannot be created or written.
-/

namespace LineClient

/-! ## Failures -/

/-- What the system says about a file. -/
inductive FileError where
  | unnameable
  | nameTooLong
  | notFound
  | notADirectory
  | isADirectory
  /-- Anything else, in words. -/
  | worded (text : String)
  deriving DecidableEq, Repr

/-- The wording of the operating system. -/
def FileError.message : FileError → String
  | .unnameable => "file name contained an unexpected NUL byte"
  | .nameTooLong => "File name too long (os error 36)"
  | .notFound => "No such file or directory (os error 2)"
  | .notADirectory => "Not a directory (os error 20)"
  | .isADirectory => "Is a directory (os error 21)"
  | .worded text => text

/-- What goes wrong with a file that is in its place. -/
inductive FileFault where
  | uncreatable (cause : FileError)
  /-- There is room for so many bytes only. -/
  | bounded (room : Nat) (cause : FileError)
  deriving DecidableEq, Repr

/-! ## Paths -/

/-- A path: its components, whether it begins at the root of all files, and whether it must name
a directory. -/
structure Path where
  components : List String
  absolute : Bool
  directory : Bool
  deriving DecidableEq, Repr

/-- Reads a path. Empty components and single dots stand for nothing. -/
def Path.ofText (text : String) : Path :=
  let parts := text.splitOn "/"
  ⟨parts.filter fun part => part ≠ "" ∧ part ≠ ".", text.startsWith "/",
    parts.getLast? == some "" || parts.getLast? == some "."⟩

/-- The path of a file whose name is longer by a suffix. Two dots are no name of a file. -/
def Path.withSuffix? (p : Path) (suffix : String) : Option Path :=
  match p.components.getLast? with
  | some name =>
    if name = ".." then none
    else some { p with components := p.components.dropLast ++ [name ++ suffix], directory := false }
  | none => none

/-- The part of a list that follows what it has in common with another one, and the number of
elements that the other one has beyond that. -/
def dropCommon : List String → List String → List String × Nat
  | x :: xs, y :: ys => if x = y then dropCommon xs ys else (x :: xs, ys.length + 1)
  | xs, ys => (xs, ys.length)

/-! ## Trees -/

/-- Files by the components of their path from the root. -/
structure FileTree where
  files : List (List String × ByteArray) := []
  /-- The working directory. -/
  home : List String := []
  faults : List (List String × FileFault) := []

/-- Why a file cannot be written. -/
inductive WriteError where
  | uncreated (cause : FileError)
  /-- The file is there, with a part of the content. -/
  | unfinished (left : FileTree) (cause : FileError)

namespace FileTree

/-- Whether the place is a directory. -/
def isDirectory (t : FileTree) (place : List String) : Bool :=
  place.isPrefixOf t.home ||
    t.files.any fun (p, _) => place.isPrefixOf p && place.length < p.length

/-- The content of the file at a place. -/
def contentAt? (t : FileTree) (place : List String) : Option ByteArray :=
  (t.files.find? (·.1 == place)).map (·.2)

/-- What goes wrong with the file at a place. -/
def faultAt? (t : FileTree) (place : List String) : Option FileFault :=
  (t.faults.find? (·.1 == place)).map (·.2)

/-- Where a path begins. -/
def start (t : FileTree) (p : Path) : List String := if p.absolute then [] else t.home

/-- The greatest number of bytes in the name of a file. -/
def longestName : Nat := 255

/-- Follows components from a directory. Two dots lead to the directory above; above the root there
is only the root. -/
def follow (t : FileTree) (place : List String) : List String → Except FileError (List String)
  | [] => .ok place
  | c :: rest =>
    if t.isDirectory place then
      if longestName < c.utf8ByteSize then .error .nameTooLong
      else if c = ".." then t.follow place.dropLast rest
      else t.follow (place ++ [c]) rest
    else if (t.contentAt? place).isSome then .error .notADirectory
    else .error .notFound

/-- The content of the file that a path names, if it names one. -/
def read? (t : FileTree) (p : Path) : Option ByteArray :=
  if p.directory then none
  else match t.follow (t.start p) p.components with
    | .ok place => t.contentAt? place
    | .error _ => none

/-- A path as it is seen from the working directory. -/
def relativeText (t : FileTree) (p : Path) : String :=
  let (down, up) := dropCommon (t.start p ++ p.components) t.home
  "/".intercalate (List.replicate up ".." ++ down)

/-! ## Writing -/

/-- Puts a file at a place, over one that is there. -/
def put (t : FileTree) (place : List String) (content : ByteArray) : FileTree :=
  { t with files := (place, content) :: t.files.filter (·.1 ≠ place) }

/-- The place of the file that a path names, if it can be created there or is there already. -/
def create? (t : FileTree) (path : String) : Except FileError (List String) :=
  let p := Path.ofText path
  if path.contains '\x00' then .error .unnameable
  else if path = "" then .error .notFound
  else match t.follow (t.start p) p.components with
    | .error e => .error e
    | .ok place =>
      if t.isDirectory place then .error .isADirectory
      else if p.directory then
        .error (if (t.contentAt? place).isSome then .notADirectory else .isADirectory)
      else match t.faultAt? place with
        | some (.uncreatable cause) => .error cause
        | _ => .ok place

/-- Fills the file at a place, as far as there is room. -/
def fill (t : FileTree) (place : List String) (content : ByteArray) :
    Except WriteError FileTree :=
  match t.faultAt? place with
  | some (.bounded room cause) =>
    if room < content.size then .error (.unfinished (t.put place (content.extract 0 room)) cause)
    else .ok (t.put place content)
  | _ => .ok (t.put place content)

/-- Creates the file that a path names, or empties it, and writes a content to it. -/
def write (t : FileTree) (path : String) (content : ByteArray) : Except WriteError FileTree :=
  match t.create? path with
  | .error cause => .error (.uncreated cause)
  | .ok place => t.fill place content

/-! ## Making trees -/

/-- The tree in which a directory exists even if no file lies below it. It is kept by an entry
without a name, which no path reaches. -/
def withDirectory (t : FileTree) (place : List String) : FileTree := t.put (place ++ [""]) .empty

/-- The place of a path, whatever is on the way. -/
def placeOf (t : FileTree) (p : Path) : List String :=
  p.components.foldl (fun place c => if c = ".." then place.dropLast else place ++ [c]) (t.start p)

/-- The tree of the given files, by their paths from a working directory. -/
def ofList (files : List (String × ByteArray)) : FileTree :=
  files.foldl (fun t (name, content) => t.put (t.placeOf (.ofText name)) content)
    { home := ["home"] }

end FileTree

end LineClient
