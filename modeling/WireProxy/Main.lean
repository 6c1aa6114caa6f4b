import WireProxy.CommandLine

/-!
# The program

File operations on the machine's own disk, and the terminal.
-/

namespace WireProxy

def DiskFault.ofError : IO.Error → DiskFault
  | .noFileOrDirectory .. => .notFound
  | .inappropriateType _ 21 _ => .isDirectory
  | .inappropriateType _ 20 _ => .notDirectory
  | .alreadyExists .. => .alreadyExists
  | .resourceBusy .. => .busy
  | error => .other (toString error)

def attempt {α : Type} (action : IO α) : IO (Except DiskFault α) := do
  match ← action.toBaseIO with
  | .ok value => return .ok value
  | .error error => return .error (.ofError error)

def stagingAttempts : Nat := 1000

structure StagedFile where
  path : String
  handle : IO.FS.Handle

/-- Creates a file under the first of the numbered names that is free. -/
def createStaged (directory : String) : List Nat → IO (Except DiskFault StagedFile)
  | [] => return .error .alreadyExists
  | n :: rest => do
      let path := joinPath directory s!".staged{n}"
      match ← attempt (IO.FS.Handle.mk path .writeNew) with
      | .error .alreadyExists => createStaged directory rest
      | .error fault => return .error fault
      | .ok handle => return .ok ⟨path, handle⟩

/-- The machine's disk.  To sync a file empties its buffer; there is no call that also waits for the
device. -/
def machineDisk : Disk IO StagedFile where
  read path := attempt (IO.FS.readBinFile path)
  isFile path := do
    match ← attempt (do (← IO.FS.realPath path).metadata) with
    | .ok found => return found.type == .file
    | .error _ => return false
  create path := createStaged (stagingDirectory path) (List.range stagingAttempts)
  fill staged content := attempt (staged.handle.write content)
  sync staged := attempt staged.handle.flush
  commit staged path := attempt (IO.FS.rename staged.path path)
  discard staged := do
    let _ ← attempt (IO.FS.removeFile staged.path)
  remove path := attempt (IO.FS.removeFile path)

end WireProxy

open WireProxy in
def main (words : List String) : IO UInt32 := do
  let outcome ← machineDisk.perform (Command.parse words)
  IO.print outcome.output
  for line in outcome.journal.lines do
    IO.eprintln line
  if outcome.usage then
    IO.eprintln usageLine
  if let some fault := outcome.fault then
    IO.eprintln s!"Error: {fault.report}"
  return outcome.exitCode.toUInt32
