import WireProxy.Protocol.Argument

/-!
# Interfaces

An interface has requests, which a client sends, events, which it receives, and enumerations of
named values.  Requests and events are numbered by opcodes.
-/

namespace WireProxy

/-- A named list of arguments; an event is just this. -/
structure Message where
  name : String
  args : List Argument := []
  deriving DecidableEq, Repr, Inhabited

def Message.signature (message : Message) : String :=
  String.ofList (message.args.map (·.kind.code))

/-- A message with the opcode that it is sent under, and the argument that becomes its result. -/
structure Request extends Message where
  opcode : UInt32
  result : Option Argument := none
  deriving DecidableEq, Repr, Inhabited

def Request.isConstructor (request : Request) : Bool :=
  request.result.isSome

/-- A named value; the value is kept as it is written. -/
structure EnumEntry where
  name : String
  value : String
  deriving DecidableEq, Repr, Inhabited

structure Enumeration where
  name : String
  entries : List EnumEntry := []
  deriving DecidableEq, Repr, Inhabited

structure Interface where
  name : String
  version : UInt32 := 1
  /-- The opcode of the request that ends an object's life. -/
  destroyOpcode : Option UInt32 := none
  requests : List Request := []
  events : List Message := []
  enums : List Enumeration := []
  deriving DecidableEq, Repr, Inhabited

namespace Interface

def arguments (interface : Interface) : List Argument :=
  interface.requests.flatMap (·.args) ++ interface.events.flatMap (·.args)

def request? (interface : Interface) (name : String) : Option Request :=
  interface.requests.find? (·.name == name)

def numberedEvents (interface : Interface) : List (UInt32 × Message) :=
  interface.events.zipIdx.map fun (event, index) => (UInt32.ofNat index, event)

end Interface

end WireProxy
