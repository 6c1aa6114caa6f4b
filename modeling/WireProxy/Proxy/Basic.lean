import WireProxy.ValueType

/-!
# Proxies

Everything that the output says about one interface, with all decisions made: opcodes, parameters,
grants, the order of dispatch.
-/

namespace WireProxy

structure Slot where
  name : String
  params : List ValueType
  deriving DecidableEq, Repr, Inhabited

inductive Construction where
  /-- Wraps an existing handle and sets up its callbacks. -/
  | wrap (destroyOpcode : Option UInt32)
  | default
  deriving DecidableEq, Repr, Inhabited

inductive Passing where
  | value
  /-- Written back by the call. -/
  | outRef
  deriving DecidableEq, Repr, Inhabited

structure Parameter where
  name : String
  type : ValueType
  passing : Passing := .value
  deriving DecidableEq, Repr, Inhabited

inductive Operand where
  | arg (param : String)
  /-- The interface name that a handle parameter carries. -/
  | handleName (param : String)
  | version (param : String)
  /-- The place of the object that is made. -/
  | newObject
  deriving DecidableEq, Repr, Inhabited

def Operand.param? : Operand → Option String
  | arg param | handleName param | version param => some param
  | newObject => none

inductive Target where
  | descriptor (symbol : String)
  | fromHandle (param : String)
  deriving DecidableEq, Repr, Inhabited

inductive Call where
  | send (opcode : UInt32) (operands : List Operand)
  /-- Makes an object; `backfill` is the parameter that also receives it. -/
  | construct (opcode : UInt32) (target : Target) (operands : List Operand)
      (backfill : Option String)
  deriving DecidableEq, Repr, Inhabited

def Call.opcode : Call → UInt32
  | send opcode _ => opcode
  | construct opcode _ _ _ => opcode

def Call.operands : Call → List Operand
  | send _ operands => operands
  | construct _ _ operands _ => operands

structure Method where
  name : String
  opcode : UInt32
  params : List Parameter
  returns : Option ValueType
  call : Call
  deriving DecidableEq, Repr, Inhabited

structure Accessor where
  name : String
  slot : Nat
  deriving DecidableEq, Repr, Inhabited

/-- What is done on an event: the slot to call and how its arguments are taken out. -/
structure Branch where
  opcode : UInt32
  slot : Nat
  decoders : List WireForm
  deriving DecidableEq, Repr, Inhabited

structure Constant where
  name : String
  value : String
  deriving DecidableEq, Repr, Inhabited

structure ConstantGroup where
  name : String
  constants : List Constant
  deriving DecidableEq, Repr, Inhabited

structure Proxy where
  name : String
  /-- The symbol of the interface's descriptor. -/
  descriptor : String
  slots : List Slot
  constructions : List Construction
  /-- The proxies with access to this one, sorted. -/
  grants : List String
  methods : List Method
  accessors : List Accessor
  branches : List Branch
  groups : List ConstantGroup
  deriving DecidableEq, Repr, Inhabited

/-- All proxies of one run, and the classes that are announced before them. -/
structure Binding where
  forwards : List String
  proxies : List Proxy
  deriving DecidableEq, Repr, Inhabited

namespace Binding

def ofProxies (proxies : List Proxy) : Binding :=
  ⟨proxies.map (·.name), proxies⟩

def proxy? (b : Binding) (name : String) : Option Proxy :=
  b.proxies.find? (·.name == name)

end Binding

end WireProxy
