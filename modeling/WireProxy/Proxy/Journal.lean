import WireProxy.Journal
import WireProxy.Proxy.Lowering

/-!
# The journal of a binding

One entry for the access table, then for each interface either that it is skipped or what it is
lowered to.
-/

namespace WireProxy

def Protocol.accessEntry (p : Protocol) : Entry where
  level := .debug
  part := .access
  message := "Resolved interface visibility"
  fields := [("arguments", .number p.argumentCount), ("targets", .number p.access.targets.length)]

def Method.loweredEntry (m : Method) : Entry where
  level := .trace
  part := .lowering
  message := "Lowered request"
  fields := [("request", .plain m.name), ("opcode", .number m.opcode.toNat),
    ("params", .number m.params.length)]

def Proxy.loweredEntry (p : Proxy) : Entry where
  level := .debug
  part := .lowering
  message := "Lowered interface"
  fields := [("interface", .plain p.name), ("methods", .number p.methods.length),
    ("slots", .number p.slots.length), ("grants", .number p.grants.length)]

def Interface.skippedEntry (i : Interface) : Entry where
  level := .debug
  part := .generation
  message := "Skipping hand-maintained interface"
  fields := [("interface", .plain i.name)]

def Proxy.journal (p : Proxy) : Journal :=
  p.methods.map Method.loweredEntry ++ [p.loweredEntry]

/-- The journal of `Protocol.binding`. -/
def Protocol.bindingJournal (p : Protocol) (settings : Settings) : Journal :=
  let access := p.access
  p.accessEntry :: p.interfaces.flatMap fun i =>
    if settings.isHandMaintained i.name then [i.skippedEntry]
    else (i.proxy settings.stem access).journal

end WireProxy
