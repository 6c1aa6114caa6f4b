import WireProxy.Journal
import WireProxy.Loading

/-!
# The journal of a load

The entries that a scan makes, up to the first fault.  Each list follows the scan that has its
name and stops where that stops.
-/

namespace WireProxy

namespace Loading

open Xml (Element)

def unknownKind (interface owner : String) (arg : Argument) (token : String) : Entry where
  level := .warn
  part := .loading
  message := s!"Unknown argument type '{token}', passing it through"
  fields := [("interface", .quoted interface), ("element", .quoted owner),
    ("arg", .quoted arg.name)]

def recordedDestroy (interface : String) (opcode : UInt32) : Entry where
  level := .trace
  part := .loading
  message := "Recorded destroy request"
  fields := [("interface", .plain interface), ("opcode", .number opcode.toNat)]

def loadedRequest (interface : String) (r : Request) : Entry where
  level := .trace
  part := .loading
  message := "Loaded request"
  fields := [("interface", .plain interface), ("request", .plain r.name),
    ("opcode", .number r.opcode.toNat), ("signature", .plain r.signature)]

def loadedEvent (interface : String) (event : Message) : Entry where
  level := .trace
  part := .loading
  message := "Loaded event"
  fields := [("interface", .plain interface), ("event", .plain event.name),
    ("signature", .plain event.signature)]

def loadedInterface (i : Interface) : Entry where
  level := .debug
  part := .loading
  message := "Loaded interface"
  fields := [("interface", .plain i.name), ("version", .number i.version.toNat),
    ("requests", .number i.requests.length), ("events", .number i.events.length),
    ("enums", .number i.enums.length)]

def loadedProtocol (o : Origin) (p : Protocol) : Entry where
  level := .info
  part := .loading
  message := s!"Loaded {p.size} interfaces from {o.path}"

def argumentEntry (interface owner : String) (arg : Argument) : Journal :=
  match arg.kind with
  | .other token => [unknownKind interface owner arg token]
  | _ => []

def argumentsJournal (o : Origin) (interface owner : String) : List Element → Journal
  | [] => []
  | e :: rest =>
      match argument o interface owner e with
      | .ok arg => argumentEntry interface owner arg ++ argumentsJournal o interface owner rest
      | .error _ => []

def requestsJournal (o : Origin) (interface : String) :
    UInt32 → Option UInt32 → List Element → Journal
  | _, _, [] => []
  | next, destroy, e :: rest =>
      match required o .request (.inInterface interface) e "name" with
      | .error _ => []
      | .ok name =>
          if name = destroyRequest then
            if destroy.isSome then []
            else recordedDestroy interface next :: requestsJournal o interface next (some next) rest
          else
            argumentsJournal o interface name (e.children "arg") ++
              match request o interface name next e with
              | .ok r =>
                  loadedRequest interface r :: requestsJournal o interface (next + 1) destroy rest
              | .error _ => []

def eventsJournal (o : Origin) (interface : String) : List Element → Journal
  | [] => []
  | e :: rest =>
      match required o .event (.inInterface interface) e "name" with
      | .error _ => []
      | .ok name =>
          argumentsJournal o interface name (e.children "arg") ++
            match event o interface e with
            | .ok scanned => loadedEvent interface scanned :: eventsJournal o interface rest
            | .error _ => []

/-- The journal of an interface from its name on, once its version is known. -/
def membersJournal (o : Origin) (name : String) (e : Element) : Journal :=
  requestsJournal o name 0 none (e.children "request") ++
    match requests o name 0 none (e.children "request") with
    | .ok _ => eventsJournal o name (e.children "event")
    | .error _ => []

def interfaceJournal (o : Origin) (e : Element) : Journal :=
  match interfaceName o e with
  | .error _ => []
  | .ok name =>
      match version o name e with
      | .error _ => []
      | .ok _ =>
          membersJournal o name e ++
            match interface o e with
            | .ok i => [loadedInterface i]
            | .error _ => []

def interfacesJournal (o : Origin) : Protocol → List Element → Journal
  | p, [] => [loadedProtocol o p]
  | p, e :: rest =>
      interfaceJournal o e ++
        match addInterface o p e with
        | .ok p => interfacesJournal o p rest
        | .error _ => []

end Loading

open Loading in
/-- The journal of `Protocol.load`. -/
def Protocol.loadJournal (o : Origin) (text : String) : Journal :=
  match Xml.root? text with
  | none => []
  | some root =>
      if root.name.base = "protocol" then
        interfacesJournal o (.empty (root.attribute? "name")) (root.children "interface")
      else []

end WireProxy
