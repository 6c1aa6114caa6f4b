import WireProxy.Json.Value
import WireProxy.Protocol.Basic

/-!
# JSON of protocols

Each type of a protocol is written by `toJson` and read by `ofJson?`.  A request is one flat object
with the fields of its message, and so is never read from an array.  An absent optional value has no
field.
-/

namespace WireProxy

open Json

def ArgumentKind.toJson (kind : ArgumentKind) : Json :=
  .string kind.token

def ArgumentKind.ofJson? (j : Json) : Option ArgumentKind :=
  j.string?.map ofToken

def Argument.toJson (arg : Argument) : Json :=
  .object ([("name", .string arg.name), ("kind", arg.kind.toJson)] ++
    optionalField "interface" .string arg.interface ++ [("allow_null", .bool arg.allowNull)])

def Argument.ofJson? : Json → Option Argument :=
  record? ["name", "kind", "interface"] ["allow_null"] fun j => do
    let name ← required? string? "name" j
    let kind ← required? ArgumentKind.ofJson? "kind" j
    let interface ← optional? string? "interface" j
    let allowNull ← defaulted? false bool? "allow_null" j
    return { name, kind, interface, allowNull }

def Message.jsonFields (message : Message) : List (String × Json) :=
  [("name", .string message.name), ("args", .array (message.args.map (·.toJson)))]

def Message.toJson (message : Message) : Json :=
  .object message.jsonFields

def Message.ofFields? (j : Json) : Option Message := do
  let name ← required? string? "name" j
  let args ← required? (list? Argument.ofJson?) "args" j
  return { name, args }

def Message.ofJson? : Json → Option Message :=
  record? ["name", "args"] [] ofFields?

def Request.toJson (request : Request) : Json :=
  .object (request.toMessage.jsonFields ++ [("opcode", .word request.opcode)] ++
    optionalField "return_argument" Argument.toJson request.result)

def Request.ofJson? (j : Json) : Option Request := do
  let message ← Message.ofFields? j
  let opcode ← required? word? "opcode" j
  let result ← optional? Argument.ofJson? "return_argument" j
  return { message with opcode, result }

def EnumEntry.toJson (entry : EnumEntry) : Json :=
  .object [("name", .string entry.name), ("value", .string entry.value)]

def EnumEntry.ofJson? : Json → Option EnumEntry :=
  record? ["name", "value"] [] fun j => do
    let name ← required? string? "name" j
    let value ← required? string? "value" j
    return { name, value }

def Enumeration.toJson (enumeration : Enumeration) : Json :=
  .object [("name", .string enumeration.name),
    ("entries", .array (enumeration.entries.map (·.toJson)))]

def Enumeration.ofJson? : Json → Option Enumeration :=
  record? ["name", "entries"] [] fun j => do
    let name ← required? string? "name" j
    let entries ← required? (list? EnumEntry.ofJson?) "entries" j
    return { name, entries }

def Interface.toJson (i : Interface) : Json :=
  .object ([("name", .string i.name), ("version", .word i.version)] ++
    optionalField "destroy_opcode" .word i.destroyOpcode ++
    [("requests", .array (i.requests.map (·.toJson))),
      ("events", .array (i.events.map (·.toJson))),
      ("enums", .array (i.enums.map (·.toJson)))])

def Interface.ofJson? : Json → Option Interface :=
  record? ["name", "version", "destroy_opcode", "requests", "events", "enums"] [] fun j => do
    let name ← required? string? "name" j
    let version ← required? word? "version" j
    let destroyOpcode ← optional? word? "destroy_opcode" j
    let requests ← required? (list? Request.ofJson?) "requests" j
    let events ← required? (list? Message.ofJson?) "events" j
    let enums ← required? (list? Enumeration.ofJson?) "enums" j
    return { name, version, destroyOpcode, requests, events, enums }

def Protocol.toJson (p : Protocol) : Json :=
  .object [("name", orNull .string p.name),
    ("interfaces", .object (p.entries.map fun (key, interface) => (key, interface.toJson)))]

/-- The interfaces under their keys, in the order of the object; a key may stand there once. -/
def Protocol.addFields? : Protocol → List (String × Json) → Option Protocol
  | p, [] => some p
  | p, (key, value) :: rest => do
      let interface ← Interface.ofJson? value
      let p ← p.add? key interface
      p.addFields? rest

def Protocol.ofJson? : Json → Option Protocol :=
  record? ["name", "interfaces"] [] fun j => do
    let name ← optional? string? "name" j
    match j.field? "interfaces" with
    | some (.object fields) => (Protocol.empty name).addFields? fields
    | _ => none

end WireProxy
