import WireProxy.Fault

/-!
# Disks

The operations on files that a run needs.  A file is staged first, under a name of the disk's own
choice beside its destination, and then committed to that destination or discarded.
-/

namespace WireProxy

/-- File operations in `m`; `σ` stands for a staged file. -/
structure Disk (m : Type → Type) (σ : Type) where
  read : String → m (Except DiskFault ByteArray)
  isFile : String → m Bool
  /-- Makes an empty file beside the destination. -/
  create : String → m (Except DiskFault σ)
  /-- Writes the content of a staged file; if it fails, a part may have been written. -/
  fill : σ → ByteArray → m (Except DiskFault Unit)
  /-- Waits until the device has the content of a staged file. -/
  sync : σ → m (Except DiskFault Unit)
  /-- Moves a staged file onto the destination; if it fails, the staged file stays. -/
  commit : σ → String → m (Except DiskFault Unit)
  discard : σ → m Unit
  remove : String → m (Except DiskFault Unit)

def pathParts (path : String) : List String :=
  (path.toList.splitOn '/').map String.ofList

def isAbsolute (path : String) : Bool :=
  path.toList.head? == some '/'

def isIdlePart (part : String) : Bool :=
  part == "" || part == "."

/-- The directory that a destination is in, where its file is staged.  It is written as in the path,
up to the last part that leads anywhere. -/
def stagingDirectory (path : String) : String :=
  match (pathParts path).reverse.dropWhile isIdlePart with
  | [] => "."
  | _ :: before =>
      match before.dropWhile isIdlePart with
      | [] => if isAbsolute path then "/" else "."
      | directory => "/".intercalate directory.reverse

def joinPath (directory path : String) : String :=
  if isAbsolute path then path
  else
    match directory.toList.getLast? with
    | none | some '/' => directory ++ path
    | some _ => directory ++ "/" ++ path

end WireProxy
