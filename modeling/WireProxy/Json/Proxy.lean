import WireProxy.Json.Value
import WireProxy.Proxy.Basic

/-!
# JSON of proxies

A type that comes with a name is a record with the fields `type` and `of`; other choices are objects
and told apart by the field `kind`.
-/

namespace WireProxy

open Json

/-- A choice without a name: the field `of` is absent or null. -/
def bare? {α : Type} (j : Json) (value : α) : Option α :=
  match j.field? "of" with
  | none | some .null => some value
  | some _ => none

def typeJson (type : String) : Json :=
  .object [("type", .string type)]

def typeOfJson (type name : String) : Json :=
  .object [("type", .string type), ("of", .string name)]

def ValueType.toJson : ValueType → Json
  | int32 => typeJson "int32"
  | uint32 => typeJson "uint32"
  | fixed => typeJson "fixed"
  | text => typeJson "text"
  | proxy interface => typeOfJson "proxy" interface
  | anyProxy => typeJson "any_proxy"
  | fd => typeJson "fd"
  | bytes => typeJson "bytes"
  | raw token => typeOfJson "raw" token

def ValueType.ofJson? : Json → Option ValueType :=
  record? ["type", "of"] [] fun j => do
    let type ← required? choice? "type" j
    match type with
    | "int32" => bare? j int32
    | "uint32" => bare? j uint32
    | "fixed" => bare? j fixed
    | "text" => bare? j text
    | "proxy" => (required? string? "of" j).map proxy
    | "any_proxy" => bare? j anyProxy
    | "fd" => bare? j fd
    | "bytes" => bare? j bytes
    | "raw" => (required? string? "of" j).map raw
    | _ => none

def WireForm.toJson : WireForm → Json
  | int32 => typeJson "int32"
  | uint32 => typeJson "uint32"
  | fixed => typeJson "fixed"
  | text => typeJson "text"
  | proxy => typeJson "proxy"
  | fd => typeJson "fd"
  | bytes => typeJson "bytes"
  | raw token => typeOfJson "raw" token

def WireForm.ofJson? : Json → Option WireForm :=
  record? ["type", "of"] [] fun j => do
    let type ← required? choice? "type" j
    match type with
    | "int32" => bare? j int32
    | "uint32" => bare? j uint32
    | "fixed" => bare? j fixed
    | "text" => bare? j text
    | "proxy" => bare? j proxy
    | "fd" => bare? j fd
    | "bytes" => bare? j bytes
    | "raw" => (required? string? "of" j).map raw
    | _ => none

def Slot.toJson (slot : Slot) : Json :=
  .object [("name", .string slot.name), ("params", .array (slot.params.map (·.toJson)))]

def Slot.ofJson? (j : Json) : Option Slot := do
  let name ← required? string? "name" j
  let params ← required? (list? ValueType.ofJson?) "params" j
  return { name, params }

def Construction.toJson : Construction → Json
  | wrap destroyOpcode =>
      .object [("kind", .string "wrap"), ("destroy_opcode", orNull .word destroyOpcode)]
  | default => .object [("kind", .string "default")]

def Construction.ofJson? (j : Json) : Option Construction := do
  let kind ← required? string? "kind" j
  match kind with
  | "wrap" => (optional? word? "destroy_opcode" j).map wrap
  | "default" => some default
  | _ => none

def Passing.toJson : Passing → Json
  | value => .string "value"
  | outRef => .string "out_ref"

def Passing.ofJson? (j : Json) : Option Passing := do
  match ← j.string? with
  | "value" => some value
  | "out_ref" => some outRef
  | _ => none

def Parameter.toJson (param : Parameter) : Json :=
  .object [("name", .string param.name), ("ty", param.type.toJson),
    ("passing", param.passing.toJson)]

def Parameter.ofJson? (j : Json) : Option Parameter := do
  let name ← required? string? "name" j
  let type ← required? ValueType.ofJson? "ty" j
  let passing ← required? Passing.ofJson? "passing" j
  return { name, type, passing }

def Operand.toJson : Operand → Json
  | arg param => .object [("kind", .string "arg"), ("param", .string param)]
  | handleName param => .object [("kind", .string "handle_name"), ("param", .string param)]
  | version param => .object [("kind", .string "version"), ("param", .string param)]
  | newObject => .object [("kind", .string "new_object")]

def Operand.ofJson? (j : Json) : Option Operand := do
  let kind ← required? string? "kind" j
  match kind with
  | "arg" => (required? string? "param" j).map arg
  | "handle_name" => (required? string? "param" j).map handleName
  | "version" => (required? string? "param" j).map version
  | "new_object" => some newObject
  | _ => none

def Target.toJson : Target → Json
  | descriptor symbol => .object [("kind", .string "descriptor"), ("name", .string symbol)]
  | fromHandle param => .object [("kind", .string "from_handle"), ("name", .string param)]

def Target.ofJson? (j : Json) : Option Target := do
  let kind ← required? string? "kind" j
  let name ← required? string? "name" j
  match kind with
  | "descriptor" => some (descriptor name)
  | "from_handle" => some (fromHandle name)
  | _ => none

def Call.toJson : Call → Json
  | send opcode operands =>
      .object [("kind", .string "send"), ("opcode", .word opcode),
        ("operands", .array (operands.map (·.toJson)))]
  | construct opcode target operands backfill =>
      .object [("kind", .string "construct"), ("opcode", .word opcode),
        ("target", target.toJson), ("operands", .array (operands.map (·.toJson))),
        ("backfill", orNull .string backfill)]

def Call.ofJson? (j : Json) : Option Call := do
  let kind ← required? string? "kind" j
  let opcode ← required? word? "opcode" j
  let operands ← required? (list? Operand.ofJson?) "operands" j
  match kind with
  | "send" => return send opcode operands
  | "construct" =>
      let target ← required? Target.ofJson? "target" j
      let backfill ← optional? string? "backfill" j
      return construct opcode target operands backfill
  | _ => none

def Method.toJson (m : Method) : Json :=
  .object [("name", .string m.name), ("opcode", .word m.opcode),
    ("params", .array (m.params.map (·.toJson))), ("returns", orNull ValueType.toJson m.returns),
    ("call", m.call.toJson)]

def Method.ofJson? (j : Json) : Option Method := do
  let name ← required? string? "name" j
  let opcode ← required? word? "opcode" j
  let params ← required? (list? Parameter.ofJson?) "params" j
  let returns ← optional? ValueType.ofJson? "returns" j
  let call ← required? Call.ofJson? "call" j
  return { name, opcode, params, returns, call }

def Accessor.toJson (accessor : Accessor) : Json :=
  .object [("name", .string accessor.name), ("slot", .nat accessor.slot)]

def Accessor.ofJson? (j : Json) : Option Accessor := do
  let name ← required? string? "name" j
  let slot ← required? nat? "slot" j
  return { name, slot }

def Branch.toJson (branch : Branch) : Json :=
  .object [("opcode", .word branch.opcode), ("slot", .nat branch.slot),
    ("decoders", .array (branch.decoders.map (·.toJson)))]

def Branch.ofJson? (j : Json) : Option Branch := do
  let opcode ← required? word? "opcode" j
  let slot ← required? nat? "slot" j
  let decoders ← required? (list? WireForm.ofJson?) "decoders" j
  return { opcode, slot, decoders }

def Constant.toJson (constant : Constant) : Json :=
  .object [("name", .string constant.name), ("value", .string constant.value)]

def Constant.ofJson? (j : Json) : Option Constant := do
  let name ← required? string? "name" j
  let value ← required? string? "value" j
  return { name, value }

def ConstantGroup.toJson (group : ConstantGroup) : Json :=
  .object [("name", .string group.name),
    ("constants", .array (group.constants.map (·.toJson)))]

def ConstantGroup.ofJson? (j : Json) : Option ConstantGroup := do
  let name ← required? string? "name" j
  let constants ← required? (list? Constant.ofJson?) "constants" j
  return { name, constants }

def Proxy.toJson (p : Proxy) : Json :=
  .object [("name", .string p.name), ("descriptor", .string p.descriptor),
    ("slots", .array (p.slots.map (·.toJson))),
    ("constructors", .array (p.constructions.map (·.toJson))),
    ("grants", strings p.grants),
    ("methods", .array (p.methods.map (·.toJson))),
    ("accessors", .array (p.accessors.map (·.toJson))),
    ("dispatcher", .object [("cases", .array (p.branches.map (·.toJson)))]),
    ("enums", .array (p.groups.map (·.toJson)))]

def Proxy.ofJson? (j : Json) : Option Proxy := do
  let name ← required? string? "name" j
  let descriptor ← required? string? "descriptor" j
  let slots ← required? (list? Slot.ofJson?) "slots" j
  let constructions ← required? (list? Construction.ofJson?) "constructors" j
  let grants ← required? (list? string?) "grants" j
  let methods ← required? (list? Method.ofJson?) "methods" j
  let accessors ← required? (list? Accessor.ofJson?) "accessors" j
  let branches ← required? (required? (list? Branch.ofJson?) "cases") "dispatcher" j
  let groups ← required? (list? ConstantGroup.ofJson?) "enums" j
  return {
    name, descriptor, slots, constructions, grants, methods, accessors, branches, groups }

def Binding.toJson (b : Binding) : Json :=
  .object [("forwards", strings b.forwards), ("classes", .array (b.proxies.map (·.toJson)))]

/-- Without a list of classes to announce, the proxies are announced. -/
def Binding.ofJson? (j : Json) : Option Binding := do
  let proxies ← required? (list? Proxy.ofJson?) "classes" j
  match ← optional? (list? string?) "forwards" j with
  | some forwards => return { forwards, proxies }
  | none => return .ofProxies proxies

end WireProxy
