import RapidInbox.Lib.FileTree
import RapidInbox.Lib.PyJson

/-!
# Files below the storage root

The runtime reaches every file of the store through its relative path, directory by directory and
without following a link.
-/

namespace RapidInbox.Files

/-- `_stat_signature` -/
structure StatSignature where
  device : Nat
  inode : Nat
  mode : Nat
  size : Nat
  mtimeNs : Int
  ctimeNs : Int
  deriving DecidableEq

/-- A regular file: what `stat` says of it, and the JSON value in it, unless it cannot be opened,
    decoded or parsed. -/
structure FileData where
  signature : StatSignature
  content : Option PyJson

abbrev StorageTree := FileTree PyStr FileData

/-! ## Paths -/

def slash : CodePoint := CodePoint.ofChar '/'

def dot : PyStr := PyStr.ofChars ['.']

def dotDot : PyStr := PyStr.ofChars ['.', '.']

/-- `Path(path).is_absolute()` -/
def isAbsolute (path : PyStr) : Bool := path.head? = some slash

/-- `Path(path).parts`, of a relative path. -/
def pathParts (path : PyStr) : List PyStr :=
  (path.splitOn slash).filter fun part => !part.isEmpty && part ≠ dot

/-- The length of a name in UTF-8. -/
def utf8Length (name : PyStr) : Nat :=
  (name.map fun c => if c.val < 0x80 then 1 else if c.val < 0x800 then 2
    else if c.val < 0x10000 then 3 else 4).sum

/-- The names that a file can have. -/
def isFileName (name : PyStr) : Bool := !name.contains 0 && decide (utf8Length name ≤ 255)

/-! ## Access -/

/-- What access to a file of the store raises. -/
inductive StorageError where
  /-- `ValueError` of a path -/
  | invalidPath
  | cannotOpen (error : FileTree.OpenError)
  /-- the entry is no regular file -/
  | notRegular
  /-- the content is too large, or cannot be read -/
  | unreadable
  /-- `unlink` fails, for lack of permission for example -/
  | cannotUnlink
  deriving DecidableEq

abbrev Accessed := Except StorageError

/-- The parts of a path that lies below the storage root. -/
def storageParts (storagePath : PyStr) : Accessed (List PyStr) :=
  if isAbsolute storagePath then .error .invalidPath
  else if (pathParts storagePath).length < 2 || (pathParts storagePath).contains dotDot then
    .error .invalidPath
  else .ok (pathParts storagePath)

/-- `_open_storage_parent_no_follow`: it returns the parts of the path, once the directories in front
    of the last one are open. -/
def openStorageParentNoFollow (t : StorageTree) (storagePath : PyStr) : Accessed (List PyStr) := do
  let parts ← storageParts storagePath
  (t.openDir isFileName parts.dropLast).mapError .cannotOpen
  return parts

/-- `os.stat(file_name, dir_fd=parent_fd, follow_symlinks=False)` -/
def statEntry (t : StorageTree) (parts : List PyStr) : Accessed (Option (FileTree PyStr FileData)) :=
  if isFileName (parts.getLastD []) then .ok (t.get? parts) else .error (.cannotOpen .badName)

end RapidInbox.Files
