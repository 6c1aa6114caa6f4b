import WireProxy.Access
import WireProxy.Proxy.Basic
import WireProxy.Settings
import WireProxy.Text.FreeName

/-!
# From interfaces to proxies

Requests become methods, events become slots with an accessor and a branch each, enumerations
become groups of constants.
-/

namespace WireProxy

def descriptorSymbol (stem interface : String) : String :=
  stem ++ interface ++ "_interface"

def handleBase : String := "interface"

def versionBase : String := "version"

/-- The parameters for one argument.  A typed new object has none; an untyped one has a handle,
which receives the object, and a version. -/
def Argument.parameters (arg : Argument) (handle version : String) : List Parameter :=
  if arg.isUntypedNewObject then [⟨handle, .anyProxy, .outRef⟩, ⟨version, .uint32, .value⟩]
  else if arg.isNewObject then []
  else [⟨arg.name, arg.valueType, .value⟩]

def Argument.operands (arg : Argument) (handle version : String) : List Operand :=
  if arg.isUntypedNewObject then [.handleName handle, .version version, .newObject]
  else if arg.isNewObject then [.newObject]
  else [.arg arg.name]

namespace Request

def argNames (r : Request) : List String :=
  r.args.map (·.name)

def handleName (r : Request) : String :=
  freeName handleBase r.argNames

def versionName (r : Request) : String :=
  freeName versionBase r.argNames

def parameters (r : Request) : List Parameter :=
  r.args.flatMap (·.parameters r.handleName r.versionName)

def operands (r : Request) : List Operand :=
  r.args.flatMap (·.operands r.handleName r.versionName)

def call (stem : String) (r : Request) : Call :=
  match r.result with
  | none => .send r.opcode r.operands
  | some result =>
      match result.interface with
      | some interface =>
          .construct r.opcode (.descriptor (descriptorSymbol stem interface)) r.operands none
      | none => .construct r.opcode (.fromHandle r.handleName) r.operands (some r.handleName)

def method (stem : String) (r : Request) : Method where
  name := r.name
  opcode := r.opcode
  params := r.parameters
  returns := r.result.map (·.valueType)
  call := r.call stem

end Request

def Message.slot (event : Message) : Slot :=
  ⟨event.name, event.args.map (·.valueType)⟩

def Message.accessor (event : Message) (index : Nat) : Accessor :=
  ⟨"on_" ++ event.name, index⟩

def Message.branch (event : Message) (opcode : UInt32) : Branch :=
  ⟨opcode, opcode.toNat, event.args.map (·.kind.wireForm)⟩

/-- Constants are named for their interface and enumeration, since all share one scope. -/
def Enumeration.group (enumeration : Enumeration) (interface : String) : ConstantGroup :=
  let name := interface ++ "_" ++ enumeration.name
  ⟨name, enumeration.entries.map fun entry => ⟨name ++ "_" ++ entry.name, entry.value⟩⟩

def Interface.proxy (stem : String) (access : Access) (i : Interface) : Proxy where
  name := i.name
  descriptor := descriptorSymbol stem i.name
  slots := i.events.map (·.slot)
  constructions := [.wrap i.destroyOpcode, .default]
  grants := access.grantedTo i.name
  methods := i.requests.map (·.method stem)
  accessors := i.events.zipIdx.map fun (event, index) => event.accessor index
  branches := i.numberedEvents.map fun (opcode, event) => event.branch opcode
  groups := i.enums.map (·.group i.name)

def Protocol.generated (p : Protocol) (settings : Settings) : List Interface :=
  p.interfaces.filter (!settings.isHandMaintained ·.name)

/-- The proxies of a protocol; grants count the hand-maintained interfaces too. -/
def Protocol.binding (p : Protocol) (settings : Settings) : Binding :=
  let access := p.access
  .ofProxies ((p.generated settings).map (·.proxy settings.stem access))

end WireProxy
