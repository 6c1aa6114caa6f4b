import WireProxy.Fault
import WireProxy.Protocol.Basic
import WireProxy.Settings
import WireProxy.Text.Blank
import WireProxy.Text.Numeral
import WireProxy.Xml.Document

/-!
# Loading

A protocol is scanned from a document: its interfaces in document order, and in each one its name,
its version, its requests, its events and its enumerations.  The first thing that is wrong in that
order is the fault.
-/

namespace WireProxy

open Xml (Element)

structure Origin where
  path : String
  stem : String
  deriving DecidableEq, Repr, Inhabited

namespace Loading

/-- The name of the request that ends an object's life.  It gets no opcode of its own. -/
def destroyRequest : String := "destroy"

def required (o : Origin) (kind : ElementKind) (location : Location) (e : Element)
    (name : String) : Except Fault String :=
  match e.attribute? name with
  | some value => .ok value
  | none => .error (.missingAttribute o.path kind name location)

def argument (o : Origin) (interface owner : String) (e : Element) : Except Fault Argument := do
  let name ← required o .arg (.within interface owner) e "name"
  let token ← required o .arg (.within interface s!"{owner}.{name}") e "type"
  return {
    name
    kind := .ofToken token
    interface := (e.attribute? "interface").map (stripStem o.stem)
    allowNull := e.attribute? "allow_null" == some "true" }

def arguments (o : Origin) (interface owner : String) (e : Element) :
    Except Fault (List Argument) :=
  (e.children "arg").mapM (argument o interface owner)

def newObject (o : Origin) (interface request : String) (args : List Argument) :
    Except Fault (Option Argument) :=
  match args.filter (·.isNewObject) with
  | [] => .ok none
  | [arg] => .ok (some arg)
  | _ => .error (.multipleNewObjects o.path interface request)

def request (o : Origin) (interface name : String) (opcode : UInt32) (e : Element) :
    Except Fault Request := do
  let args ← arguments o interface name e
  let result ← newObject o interface name args
  return { name, args, opcode, result }

/--
The requests among these elements, numbered from `next`, and the opcode that is recorded for the
destroy request: the number that the next request gets.
-/
def requests (o : Origin) (interface : String) :
    UInt32 → Option UInt32 → List Element → Except Fault (List Request × Option UInt32)
  | _, destroy, [] => .ok ([], destroy)
  | next, destroy, e :: rest => do
      let name ← required o .request (.inInterface interface) e "name"
      if name = destroyRequest then
        if destroy.isSome then .error (.duplicateDestroy o.path interface)
        else requests o interface next (some next) rest
      else
        let first ← request o interface name next e
        let (others, destroy) ← requests o interface (next + 1) destroy rest
        return (first :: others, destroy)

def event (o : Origin) (interface : String) (e : Element) : Except Fault Message := do
  let name ← required o .event (.inInterface interface) e "name"
  let args ← arguments o interface name e
  return { name, args }

def enumEntry (o : Origin) (interface owner : String) (e : Element) : Except Fault EnumEntry := do
  let name ← required o .entry (.within interface owner) e "name"
  let value ← required o .entry (.within interface s!"{owner}.{name}") e "value"
  return { name, value }

def enumeration (o : Origin) (interface : String) (e : Element) : Except Fault Enumeration := do
  let name ← required o .enumeration (.inInterface interface) e "name"
  let entries ← (e.children "entry").mapM (enumEntry o interface name)
  return { name, entries }

def interfaceName (o : Origin) (e : Element) : Except Fault String := do
  let name ← required o .interface .root e "name"
  return stripStem o.stem name

/-- The version of an interface: one, unless a 32-bit number is given, blanks around it aside. -/
def version (o : Origin) (interface : String) (e : Element) : Except Fault UInt32 :=
  match e.attribute? "version" with
  | none => .ok 1
  | some value =>
      match Text.readWord? (Text.trim value.toList) with
      | some n => .ok n
      | none => .error (.invalidVersion o.path interface value)

def interface (o : Origin) (e : Element) : Except Fault Interface := do
  let name ← interfaceName o e
  let version ← version o name e
  let (requests, destroyOpcode) ← requests o name 0 none (e.children "request")
  let events ← (e.children "event").mapM (event o name)
  let enums ← (e.children "enum").mapM (enumeration o name)
  return { name, version, destroyOpcode, requests, events, enums }

/-- Scans one more interface; a name that is taken is a fault once all of it has been scanned. -/
def addInterface (o : Origin) (p : Protocol) (e : Element) : Except Fault Protocol := do
  let scanned ← interface o e
  match p.insert? scanned with
  | some p => return p
  | none => .error (.duplicateInterface o.path scanned.name)

def protocol (o : Origin) (root : Element) : Except Fault Protocol :=
  if root.name.base = "protocol" then
    (root.children "interface").foldlM (addInterface o) (.empty (root.attribute? "name"))
  else .error (.missingRoot o.path)

end Loading

def Protocol.load (o : Origin) (text : String) : Except Fault Protocol :=
  match Xml.root? text with
  | some root => Loading.protocol o root
  | none => .error (.malformed o.path "the document is not well formed")

end WireProxy
