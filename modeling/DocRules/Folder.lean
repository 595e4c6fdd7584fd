import DocRules.Path
import DocRules.Stream

/-! # Folders

Files that are held in memory, and what opening a path among them brings. A path is followed segment
by segment from the folder: only what exists can be entered, and nothing lies inside of a file, so
`x/../a` leads to `a` only if there is a folder `x`. -/

namespace DocRules

/-- Files by the names that lead to them, outermost first. The folders on the way to a file exist as
well. -/
structure Folder where
  files : List (List String × List UInt8)
deriving Repr

namespace Folder

/-- Why a path cannot be opened, or cannot be read. -/
inductive Fault where
  | missing
  | notFolder
  | isFolder
  | tooLong
  | nul
deriving DecidableEq, Repr

def Fault.message : Fault → String
  | .missing => "No such file or directory (os error 2)"
  | .notFolder => "Not a directory (os error 20)"
  | .isFolder => "Is a directory (os error 21)"
  | .tooLong => "File name too long (os error 36)"
  | .nul => "file name contained an unexpected NUL byte"

/-- What a path has led to: a folder inside of this one, or this one itself, by its names; a folder
around it, of which nothing else is known; or a file. -/
inductive Place where
  | inside (names : List String)
  | outside
  | file (contents : List UInt8)
deriving DecidableEq, Repr

/-- The most bytes that a name may have. -/
def nameLimit : Nat := 255

/-- The number of bytes that a path has to stay below. -/
def pathLimit : Nat := 4096

def find? (folder : Folder) (names : List String) : Option Place :=
  match folder.files.lookup names with
  | some contents => some (.file contents)
  | none => if folder.files.any (names.isPrefixOf ·.1) then some (.inside names) else none

/-- Follows one segment of a path. An empty one stays where it is, as a single dot does, and two
dots lead to the folder around. -/
def step (folder : Folder) (place : Place) (segment : String) : Except Fault Place :=
  match place with
  | .file _ => .error .notFolder
  | .outside =>
    if segment == "" || segment == "." || segment == ".." then .ok .outside
    else if nameLimit < segment.utf8ByteSize then .error .tooLong
    else .error .missing
  | .inside names =>
    if segment == "" || segment == "." then .ok place
    else if segment == ".." then .ok (if names.isEmpty then .outside else .inside names.dropLast)
    else if nameLimit < segment.utf8ByteSize then .error .tooLong
    else (folder.find? (names ++ [segment])).elim (.error .missing) .ok

/-- Follows a path. One that begins with a slash begins outside. -/
def follow (folder : Folder) (path : String) : Except Fault Place :=
  if path.toList.contains '\x00' then .error .nul
  else if path.isEmpty then .error .missing
  else if pathLimit ≤ path.utf8ByteSize then .error .tooLong
  else
    let (first, others) := Path.pieces path.toList
    let start := if first.isEmpty then Place.outside else .inside []
    ((first :: others).map String.ofList).foldlM folder.step start

/-- The stream that a path brings, or the reason why it cannot be opened. A folder can be opened but
not read. -/
def openFile (folder : Folder) (path : String) : Except String Stream :=
  match folder.follow path with
  | .ok (.file contents) => .ok [.bytes contents]
  | .ok _ => .ok [.failure Fault.isFolder.message]
  | .error fault => .error fault.message

end Folder

end DocRules
