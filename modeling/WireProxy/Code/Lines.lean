/-!
# Lines of code

A text is a list of lines.  A sink takes pieces of text as long as they fit.
-/

namespace WireProxy.Code

abbrev Lines := List String

def ended (line : String) : String :=
  line ++ "\n"

def text (lines : Lines) : String :=
  String.join (lines.map ended)

/-- Receives text up to a number of bytes, if one is set. -/
structure Sink where
  limit : Option Nat := none
  accepted : String := ""
  deriving DecidableEq, Repr, Inhabited

namespace Sink

def fits (s : Sink) (piece : String) : Bool :=
  match s.limit with
  | some limit => s.accepted.utf8ByteSize + piece.utf8ByteSize ≤ limit
  | none => true

def write? (s : Sink) (piece : String) : Option Sink :=
  if s.fits piece then some { s with accepted := s.accepted ++ piece } else none

end Sink

end WireProxy.Code
