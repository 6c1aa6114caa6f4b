import WireProxy.Protocol.Argument

/-!
# Types of values

`ValueType` is the type that an argument has in a generated signature; `WireForm` is the form in
which its value is taken out of a received message.
-/

namespace WireProxy

inductive ValueType where
  | int32
  | uint32
  | fixed
  | text
  /-- The proxy of a known interface. -/
  | proxy (interface : String)
  /-- A proxy of any interface. -/
  | anyProxy
  | fd
  | bytes
  /-- A type whose token is passed through. -/
  | raw (token : String)
  deriving DecidableEq, Repr, Inhabited

inductive WireForm where
  | int32
  | uint32
  | fixed
  | text
  | proxy
  | fd
  | bytes
  | raw (token : String)
  deriving DecidableEq, Repr, Inhabited

/-- The type of an argument: a proxy wherever an interface is referred to, else by its kind. -/
def Argument.valueType (arg : Argument) : ValueType :=
  match arg.interface with
  | some interface => .proxy interface
  | none =>
      match arg.kind with
      | .int => .int32
      | .uint => .uint32
      | .fixed => .fixed
      | .string => .text
      | .object | .newId => .anyProxy
      | .fd => .fd
      | .array => .bytes
      | .other token => .raw token

def ArgumentKind.wireForm : ArgumentKind → WireForm
  | int => .int32
  | uint => .uint32
  | fixed => .fixed
  | string => .text
  | object | newId => .proxy
  | fd => .fd
  | array => .bytes
  | other token => .raw token

end WireProxy
