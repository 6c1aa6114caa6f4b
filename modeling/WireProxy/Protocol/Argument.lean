/-!
# Arguments

The kinds of value that a message carries, and the arguments that have them.
-/

namespace WireProxy

/-- What an argument is on the wire.  A token that names no known kind is kept as it is. -/
inductive ArgumentKind where
  | int
  | uint
  | fixed
  | string
  | object
  | newId
  | fd
  | array
  | other (token : String)
  deriving DecidableEq, Repr, Inhabited

namespace ArgumentKind

def token : ArgumentKind → String
  | int => "int"
  | uint => "uint"
  | fixed => "fixed"
  | string => "string"
  | object => "object"
  | newId => "new_id"
  | fd => "fd"
  | array => "array"
  | other token => token

def ofToken (token : String) : ArgumentKind :=
  if token = "int" then int
  else if token = "uint" then uint
  else if token = "fixed" then fixed
  else if token = "string" then string
  else if token = "object" then object
  else if token = "new_id" then newId
  else if token = "fd" then fd
  else if token = "array" then array
  else other token

def code : ArgumentKind → Char
  | int => 'i'
  | uint => 'u'
  | fixed => 'f'
  | string => 's'
  | object => 'o'
  | newId => 'n'
  | fd => 'h'
  | array => 'a'
  | other _ => 'x'

def isObject : ArgumentKind → Bool
  | object | newId => true
  | _ => false

@[simp] theorem token_ofToken (t : String) : (ofToken t).token = t := by
  unfold ofToken
  repeat' split
  all_goals simp_all [token]

end ArgumentKind

structure Argument where
  name : String
  kind : ArgumentKind
  /-- The interface that the argument refers to, without the namespace stem. -/
  interface : Option String := none
  allowNull : Bool := false
  deriving DecidableEq, Repr, Inhabited

namespace Argument

def isNewObject (arg : Argument) : Bool :=
  arg.kind == .newId

/-- A new object whose interface the caller chooses. -/
def isUntypedNewObject (arg : Argument) : Bool :=
  arg.isNewObject && arg.interface.isNone

end Argument

end WireProxy
