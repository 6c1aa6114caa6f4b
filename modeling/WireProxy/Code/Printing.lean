import WireProxy.Code.Definitions

/-!
# Printing

The two texts written into a sink, piece by piece.  A printing is over at the first piece that the
sink does not take; what the sink took before stays in it.
-/

namespace WireProxy

namespace Code

abbrev Printing := ExceptT Unit (StateM Sink)

def Printing.runOn {α : Type} (printing : Printing α) (sink : Sink) : Except Unit α × Sink :=
  StateT.run (ExceptT.run printing) sink

def put (piece : String) : Printing Unit := do
  match (← get).write? piece with
  | some sink => set sink
  | none => throw ()

/-- Writes the fixed and the variable parts of a line in turn. -/
def write (pieces : List String) : Printing Unit :=
  pieces.forM put

/-- What is printed, if it has at most as many bytes as the limit says. -/
def textWithin? (limit : Option Nat) (printing : Printing Unit) : Option String :=
  match printing.runOn { limit } with
  | (.ok (), sink) => some sink.accepted
  | (.error (), _) => none

end Code

open Code

/-! ## Declarations -/

/-- The last constant is the one at the last index. -/
def ConstantGroup.print (g : ConstantGroup) : Printing Unit := do
  write ["enum ", g.name, "\n"]
  write ["  " ++ openBrace ++ "\n"]
  let last := g.constants.length - 1
  g.constants.zipIdx.forM fun (constant, index) => do
    let separator := if index = last then "" else ","
    write ["    ", constant.name, " = ", constant.value, separator, "\n"]
  write ["  " ++ closeBrace ++ ";\n"]

namespace Proxy

def printRecord (p : Proxy) : Printing Unit := do
  write ["private:\n"]
  write ["  struct events_t : public ", baseClass, "::events_base_t\n"]
  write ["  " ++ openBrace ++ "\n"]
  p.slots.forM fun slot => write ["    ", slot.callbackType, " ", slot.name, ";\n"]
  write ["  " ++ closeBrace ++ ";\n"]
  write ["\n"]

def printWraps (p : Proxy) : Printing Unit :=
  p.constructions.forM fun
    | .wrap _ => write ["  ", p.className, "(const ", baseClass, " &proxy);\n"]
    | .default => pure ()

def printDefaults (p : Proxy) : Printing Unit :=
  p.constructions.forM fun
    | .wrap _ => pure ()
    | .default => write ["  ", p.className, "();\n"]

def printAccessors (p : Proxy) : Printing Unit :=
  p.accessors.forM fun accessor =>
    match p.slotOf? accessor with
    | some slot => write ["  ", slot.callbackType, " &", accessor.name, "();\n"]
    | none => pure ()

def printClass (p : Proxy) : Printing Unit := do
  write ["class ", p.className, " : public ", baseClass, "\n"]
  write [openBrace ++ "\n"]
  p.printRecord
  p.printWraps
  write ["  int dispatcher(int opcode, std::vector<any> args) override;\n"]
  write ["\n"]
  p.grants.forM fun grant => write ["  friend class ", WireProxy.className grant, ";\n"]
  write ["\n"]
  write ["public:\n"]
  p.printDefaults
  p.methods.forM fun m => write ["  ", m.declaration, "\n"]
  p.printAccessors
  write [closeBrace ++ ";\n"]
  write ["\n"]

def printDeclaration (p : Proxy) : Printing Unit := do
  p.printClass
  p.groups.forM fun group => do
    group.print
    write ["\n"]

end Proxy

def OutputStyle.printPreamble (style : OutputStyle) : Printing Unit := do
  write ["#ifndef ", style.headerGuard, "\n"]
  write ["#define ", style.headerGuard, "\n"]
  write ["\n"]
  style.systemIncludes.forM fun file => write ["#include <", file, ">\n"]
  write ["\n"]
  write ["#include <", style.runtimeInclude, ">\n"]
  write ["\n"]

def Binding.printDeclarations (b : Binding) (style : OutputStyle) : Printing Unit := do
  style.printPreamble
  b.forwards.forM fun interface => write ["class ", className interface, ";\n"]
  write ["\n"]
  b.proxies.forM (·.printDeclaration)
  write ["#endif\n"]

/-! ## Definitions -/

/-- The number of the request that destroys an object; its sign is a piece of its own. -/
def destroyPieces : Option UInt32 → List String
  | some opcode => [toString opcode.toNat]
  | none => ["-", "1"]

namespace Proxy

def printConstruction (p : Proxy) : Construction → Printing Unit
  | .wrap destroyOpcode => do
      write [p.className, "::", p.className, "(const ", baseClass, " &p)\n"]
      write ["  : ", baseClass, "(p)\n"]
      write [openBrace ++ "\n"]
      write ["  set_events(std::shared_ptr<", baseClass, "::events_base_t>(new events_t));\n"]
      write (["  set_destroy_opcode("] ++ destroyPieces destroyOpcode ++ [");\n"])
      write ["  interface = &", p.descriptor, ";\n"]
      write [closeBrace ++ "\n"]
      write ["\n"]
  | .default => do
      write [p.className, "::", p.className, "()\n"]
      write [openBrace ++ "\n"]
      write ["  interface = &", p.descriptor, ";\n"]
      write [closeBrace ++ "\n"]
      write ["\n"]

end Proxy

def Call.print : Call → Printing Unit
  | send opcode operands =>
      write ["  marshal(",
        commaSeparated (toString opcode.toNat :: operands.map (·.spelling)), ");\n"]
  | construct opcode target operands backfill => do
      write ["  ", baseClass, " p = marshal_constructor(",
        commaSeparated (toString opcode.toNat :: target.spelling :: operands.map (·.spelling)),
        ");\n"]
      match backfill with
      | some handle => write ["  ", handle, " = p;\n"]
      | none => pure ()
      write ["  return p;\n"]

namespace Proxy

def printMethod (p : Proxy) (m : Method) : Printing Unit := do
  write [m.returnType, " ", p.className, "::", m.name, "(", m.parameterList, ")\n"]
  write [openBrace ++ "\n"]
  m.call.print
  write [closeBrace ++ "\n"]
  write ["\n"]

def printAccessor (p : Proxy) (accessor : Accessor) : Printing Unit :=
  match p.slotOf? accessor with
  | none => pure ()
  | some slot => do
      write [slot.callbackType, " &", p.className, "::", accessor.name, "()\n"]
      write [openBrace ++ "\n"]
      write ["  return std::static_pointer_cast<events_t>(get_events())->", slot.name, ";\n"]
      write [closeBrace ++ "\n"]
      write ["\n"]

/-- Prints nothing for a branch whose slot does not exist. -/
def printBranch (p : Proxy) (branch : Branch) : Printing Unit :=
  match p.slots[branch.slot]? with
  | none => pure ()
  | some slot => do
      let args := branch.decoders.zipIdx.map fun (form, index) => decoding form index
      write ["    case ", toString branch.opcode.toNat, ":\n"]
      write ["      if(events->", slot.name, ") events->", slot.name, "(", commaSeparated args,
        ");\n"]
      write ["      break;\n"]

def printSwitch (p : Proxy) : Printing Unit :=
  if p.branches.isEmpty then pure ()
  else do
    write
      ["  std::shared_ptr<events_t> events = std::static_pointer_cast<events_t>(get_events());\n"]
    write ["  switch(opcode)\n"]
    write ["    " ++ openBrace ++ "\n"]
    p.branches.forM p.printBranch
    write ["    " ++ closeBrace ++ "\n"]

def printDispatcher (p : Proxy) : Printing Unit := do
  write ["int ", p.className, "::dispatcher(int opcode, std::vector<any> args)\n"]
  write [openBrace ++ "\n"]
  p.printSwitch
  write ["  return 0;\n"]
  write [closeBrace ++ "\n"]
  write ["\n"]

def printDefinition (p : Proxy) : Printing Unit := do
  p.constructions.forM p.printConstruction
  p.methods.forM p.printMethod
  p.accessors.forM p.printAccessor
  p.printDispatcher

end Proxy

def Binding.printDefinitions (b : Binding) (style : OutputStyle) : Printing Unit := do
  write ["#include <", style.definitionsInclude, ">\n"]
  write ["\n"]
  b.proxies.forM (·.printDefinition)

end WireProxy
