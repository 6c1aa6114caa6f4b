import WireProxy.Code.Printing
import WireProxy.Disk.Basic
import WireProxy.Loading.Journal
import WireProxy.Proxy.Journal

/-!
# Generation

A run reads a protocol and writes its declarations and definitions.  Both files are staged first
and only then put in place; if the second cannot be, the first is put back as it was.
-/

namespace WireProxy

structure Rendered where
  declarations : String
  definitions : String
  deriving DecidableEq, Repr, Inhabited

def Protocol.render (p : Protocol) (settings : Settings) : Rendered :=
  let binding := p.binding settings
  ⟨Code.text (binding.declarationLines settings.output),
    Code.text (binding.definitionLines settings.output)⟩

/-- Renders into sinks with limits in bytes; the declarations come first. -/
def Protocol.renderWithin (p : Protocol) (settings : Settings)
    (declarationsLimit definitionsLimit : Option Nat) : Except Fault Rendered :=
  let binding := p.binding settings
  match Code.textWithin? declarationsLimit (binding.printDeclarations settings.output) with
  | none => .error (.unrendered "declarations")
  | some declarations =>
      match Code.textWithin? definitionsLimit (binding.printDefinitions settings.output) with
      | none => .error (.unrendered "definitions")
      | some definitions => .ok ⟨declarations, definitions⟩

structure Paths where
  input : String
  declarations : String
  definitions : String
  deriving DecidableEq, Repr, Inhabited

structure Summary where
  interfaces : Nat
  emitted : Nat
  skipped : Nat
  deriving DecidableEq, Repr, Inhabited

def Protocol.summary (p : Protocol) (settings : Settings) : Summary :=
  let skipped := (p.interfaces.filter (settings.isHandMaintained ·.name)).length
  ⟨p.size, p.size - skipped, skipped⟩

structure Reported (α : Type) where
  result : Except Fault α
  journal : Journal := []

def stagedEntry (path : String) (content : ByteArray) : Entry where
  level := .debug
  part := .generation
  message := s!"Staged {content.size} bytes for {path}"

def rolledBackEntry (path : String) : Entry where
  level := .debug
  part := .generation
  message := s!"Rolled back {path}"

def notRolledBackEntry (path : String) (fault : DiskFault) : Entry where
  level := .warn
  part := .generation
  message := s!"Could not roll back {path}: {fault.message}"

def wroteEntry (paths : Paths) (summary : Summary) : Entry where
  level := .info
  part := .generation
  message := s!"Wrote {paths.declarations} and {paths.definitions}"
  fields := [("emitted", .number summary.emitted), ("skipped", .number summary.skipped)]

namespace Disk

variable {m : Type → Type} {σ : Type} [Monad m]

def readText (disk : Disk m σ) (path : String) : m (Except DiskFault String) := do
  match ← disk.read path with
  | .error fault => return .error fault
  | .ok content =>
      match String.fromUTF8? content with
      | some text => return .ok text
      | none => return .error .notText

def load (disk : Disk m σ) (settings : Settings) (path : String) : m (Reported Protocol) := do
  match ← disk.readText path with
  | .error fault => return { result := .error (.unreadable path fault) }
  | .ok text =>
      let origin : Origin := ⟨path, settings.stem⟩
      return ⟨Protocol.load origin text, Protocol.loadJournal origin text⟩

def discardAll (disk : Disk m σ) : List σ → m Unit
  | [] => return ()
  | staged :: rest => do
      disk.discard staged
      disk.discardAll rest

/-- Writes a new file beside the destination; one that cannot be finished is discarded. -/
def stage (disk : Disk m σ) (path : String) (content : ByteArray) : m (Except DiskFault σ) := do
  match ← disk.create path with
  | .error fault => return .error fault
  | .ok staged =>
      match ← disk.fill staged content with
      | .error fault =>
          disk.discard staged
          return .error fault
      | .ok () =>
          match ← disk.sync staged with
          | .error fault =>
              disk.discard staged
              return .error fault
          | .ok () => return .ok staged

def backup (disk : Disk m σ) (path : String) :
    m (Except DiskFault (Option (σ × ByteArray))) := do
  if ← disk.isFile path then
    match ← disk.read path with
    | .error fault => return .error fault
    | .ok content =>
        match ← disk.stage path content with
        | .error fault => return .error fault
        | .ok staged => return .ok (some (staged, content))
  else return .ok none

def rollback (disk : Disk m σ) (previous : Option (σ × ByteArray)) (path : String) :
    m Journal := do
  match previous with
  | some (staged, _) =>
      match ← disk.commit staged path with
      | .ok () => return [rolledBackEntry path]
      | .error fault =>
          disk.discard staged
          return [notRolledBackEntry path fault]
  | none =>
      match ← disk.remove path with
      | .ok () => return [rolledBackEntry path]
      | .error fault => return [notRolledBackEntry path fault]

/-- Puts both staged files in place, or neither. -/
def commitBoth (disk : Disk m σ) (paths : Paths) (declarations definitions : σ)
    (previous : Option (σ × ByteArray)) : m (Reported Unit) := do
  let copies := previous.toList.map Prod.fst
  match ← disk.commit declarations paths.declarations with
  | .error fault =>
      disk.discardAll (declarations :: definitions :: copies)
      return { result := .error (.unwritable paths.declarations fault) }
  | .ok () =>
      match ← disk.commit definitions paths.definitions with
      | .error fault =>
          disk.discard definitions
          let journal ← disk.rollback previous paths.declarations
          return ⟨.error (.unwritable paths.definitions fault), journal⟩
      | .ok () =>
          disk.discardAll copies
          return { result := .ok () }

/-- Writes both texts, or changes nothing. -/
def write (disk : Disk m σ) (paths : Paths) (rendered : Rendered) : m (Reported Unit) := do
  let declarations := rendered.declarations.toUTF8
  let definitions := rendered.definitions.toUTF8
  match ← disk.stage paths.declarations declarations with
  | .error fault => return { result := .error (.unwritable paths.declarations fault) }
  | .ok stagedDeclarations =>
      let journal := [stagedEntry paths.declarations declarations]
      match ← disk.stage paths.definitions definitions with
      | .error fault =>
          disk.discard stagedDeclarations
          return ⟨.error (.unwritable paths.definitions fault), journal⟩
      | .ok stagedDefinitions =>
          let journal := journal ++ [stagedEntry paths.definitions definitions]
          match ← disk.backup paths.declarations with
          | .error fault =>
              disk.discardAll [stagedDeclarations, stagedDefinitions]
              return ⟨.error (.unwritable paths.declarations fault), journal⟩
          | .ok previous =>
              let copied := previous.toList.map fun (_, content) =>
                stagedEntry paths.declarations content
              let committed ← disk.commitBoth paths stagedDeclarations stagedDefinitions previous
              return ⟨committed.result, journal ++ copied ++ committed.journal⟩

def generate (disk : Disk m σ) (settings : Settings) (paths : Paths) : m (Reported Summary) := do
  let loaded ← disk.load settings paths.input
  match loaded.result with
  | .error fault => return ⟨.error fault, loaded.journal⟩
  | .ok protocol =>
      let written ← disk.write paths (protocol.render settings)
      let journal := loaded.journal ++ protocol.bindingJournal settings ++ written.journal
      match written.result with
      | .error fault => return ⟨.error fault, journal⟩
      | .ok () =>
          let summary := protocol.summary settings
          return ⟨.ok summary, journal ++ [wroteEntry paths summary]⟩

end Disk

end WireProxy
