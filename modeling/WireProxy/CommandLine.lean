import WireProxy.Generation

/-!
# The command line

Three paths, or a request for help or for the version.  Words are taken from left to right, and the
first one that settles the matter does so.
-/

namespace WireProxy

inductive Command where
  | generate (paths : Paths)
  | help
  | version
  /-- Words that make no command; with or without a reminder of the usage. -/
  | refused (remind : Bool)
  deriving DecidableEq, Repr, Inhabited

namespace Command

inductive Word where
  /-- All words behind it are paths. -/
  | separator
  | option (command : Command)
  | unknown
  | path (text : String)

def word (text : String) : Word :=
  match text.toList with
  | ['-', '-'] => .separator
  | '-' :: '-' :: name =>
      if name = "help".toList then .option help
      else if name = "version".toList then .option version
      else .unknown
  | '-' :: 'h' :: _ => .option help
  | '-' :: 'V' :: _ => .option version
  | '-' :: _ :: _ => .unknown
  | _ => .path text

/-- The last path so far is empty; it is refused as soon as a path or an option follows. -/
def endsEmpty (paths : List String) : Bool :=
  paths.getLast? == some ""

def finish (paths : List String) : Command :=
  if endsEmpty paths then refused false
  else
    match paths with
    | [input, declarations, definitions] => generate ⟨input, declarations, definitions⟩
    | _ => refused true

/-- Reads words; `taken` holds the paths so far, and `literal` says that only paths follow. -/
def parseFrom (taken : List String) (literal : Bool) : List String → Command
  | [] => finish taken
  | text :: rest =>
      match if literal then .path text else word text with
      | .separator => parseFrom taken true rest
      | .option command => if endsEmpty taken then refused false else command
      | .unknown => refused true
      | .path path =>
          if taken.length = 3 then refused true
          else if endsEmpty taken then refused false
          else parseFrom (taken ++ [path]) literal rest

def parse (words : List String) : Command :=
  parseFrom [] false words

end Command

def usageLine : String := "Usage: waygen <INPUT> <DECLARATIONS> <DEFINITIONS>"

def helpText : String :=
  Code.text ["Generate typed client proxies from a protocol description",
    "",
    usageLine,
    "",
    "Arguments:",
    "  <INPUT>         Protocol description (e.g. wayland.xml)",
    "  <DECLARATIONS>  Declarations output (e.g. wayland.hpp)",
    "  <DEFINITIONS>   Definitions output (e.g. wayland.cpp)",
    "",
    "Options:",
    "  -h, --help     Print help",
    "  -V, --version  Print version"]

def versionText : String :=
  Code.text ["waygen 0.1.0"]

structure Outcome where
  exitCode : UInt8
  output : String := ""
  usage : Bool := false
  journal : Journal := []
  fault : Option Fault := none

def generatedEntry (summary : Summary) : Entry where
  level := .info
  part := .commandLine
  message :=
    s!"Generated {summary.emitted} of {summary.interfaces} interfaces " ++
      s!"({summary.skipped} hand-maintained)"

def Disk.perform {m : Type → Type} {σ : Type} [Monad m] (disk : Disk m σ) :
    Command → m Outcome
  | .help => return { exitCode := 0, output := helpText }
  | .version => return { exitCode := 0, output := versionText }
  | .refused remind => return { exitCode := 1, usage := remind }
  | .generate paths => do
      let ⟨result, journal⟩ ← disk.generate {} paths
      match result with
      | .ok summary => return { exitCode := 0, journal := journal ++ [generatedEntry summary] }
      | .error fault => return { exitCode := 1, journal, fault := some fault }

end WireProxy
