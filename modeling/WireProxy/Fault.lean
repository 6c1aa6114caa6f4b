/-!
# Faults

Everything that can stop a run, each with the text that reports it.
-/

namespace WireProxy

inductive DiskFault where
  | notFound
  | isDirectory
  | notDirectory
  | alreadyExists
  | busy
  | nameTooLong
  | notPath
  | notText
  | other (text : String)
  deriving DecidableEq, Repr, Inhabited

def DiskFault.message : DiskFault → String
  | notFound => "No such file or directory (os error 2)"
  | isDirectory => "Is a directory (os error 21)"
  | notDirectory => "Not a directory (os error 20)"
  | alreadyExists => "File exists (os error 17)"
  | busy => "Device or resource busy (os error 16)"
  | nameTooLong => "File name too long (os error 36)"
  | notPath => "file name contained an unexpected NUL byte"
  | notText => "stream did not contain valid UTF-8"
  | other text => text

inductive ElementKind where
  | interface
  | request
  | event
  | arg
  | enumeration
  | entry
  deriving DecidableEq, Repr, Inhabited

def ElementKind.tag : ElementKind → String
  | interface => "interface"
  | request => "request"
  | event => "event"
  | arg => "arg"
  | enumeration => "enum"
  | entry => "entry"

/-- Where an element sits: the interface around it and the path to it inside that interface. -/
structure Location where
  interface : Option String := none
  element : Option String := none
  deriving DecidableEq, Repr, Inhabited

namespace Location

def root : Location := {}

def inInterface (interface : String) : Location :=
  { interface := some interface }

def within (interface element : String) : Location :=
  { interface := some interface, element := some element }

def message (l : Location) : String :=
  match l.interface, l.element with
  | some interface, some element => s!"interface '{interface}', in '{element}'"
  | some interface, none => s!"interface '{interface}'"
  | none, _ => "protocol root"

end Location

inductive Fault where
  | unreadable (path : String) (cause : DiskFault)
  | malformed (path detail : String)
  | missingRoot (path : String)
  | missingAttribute (path : String) (kind : ElementKind) (missing : String)
      (location : Location)
  | invalidVersion (path interface value : String)
  | duplicateInterface (path interface : String)
  | duplicateDestroy (path interface : String)
  | multipleNewObjects (path interface request : String)
  | unrendered (output : String)
  | unwritable (path : String) (cause : DiskFault)
  deriving DecidableEq, Repr, Inhabited

namespace Fault

/-- What went wrong, without the detail that an outside component gives. -/
def headline : Fault → String
  | unreadable path _ => s!"failed to read protocol '{path}'"
  | malformed path _ => s!"malformed protocol '{path}'"
  | missingRoot path => s!"'{path}' has no <protocol> root element"
  | missingAttribute path kind missing location =>
      s!"'{path}': <{kind.tag}> is missing required attribute '{missing}' ({location.message})"
  | invalidVersion path interface value =>
      s!"'{path}': interface '{interface}' has invalid version '{value}'"
  | duplicateInterface path interface =>
      s!"'{path}': interface '{interface}' is declared more than once"
  | duplicateDestroy path interface =>
      s!"'{path}': interface '{interface}' declares more than one destroy request"
  | multipleNewObjects path interface request =>
      s!"'{path}': request '{request}' of interface '{interface}' has more than one new_id argument"
  | unrendered output => s!"printer failed while rendering {output}"
  | unwritable path _ => s!"failed to write '{path}'"

def cause? : Fault → Option DiskFault
  | unreadable _ cause | unwritable _ cause => some cause
  | _ => none

def message (fault : Fault) : String :=
  match fault with
  | unreadable _ cause | unwritable _ cause => s!"{fault.headline}: {cause.message}"
  | malformed _ detail => s!"{fault.headline}: {detail}"
  | _ => fault.headline

/-- The message followed by that of its cause, as the command line reports it. -/
def report (fault : Fault) : String :=
  match fault.cause? with
  | some cause => s!"{fault.message}: {cause.message}"
  | none => fault.message

end Fault

end WireProxy
