import WireProxy.Code.Declarations

/-!
# Definitions

The source text: for each proxy the bodies of its constructors, methods, accessors and dispatcher.
-/

namespace WireProxy

open Code

/-- The number that tells the runtime which request destroys an object; -1 for none. -/
def destroyNumber : Option UInt32 → String
  | some opcode => toString opcode.toNat
  | none => "-1"

namespace Proxy

def descriptorLine (p : Proxy) : String :=
  "  interface = &" ++ p.descriptor ++ ";"

def constructionLines (p : Proxy) : Construction → Lines
  | .wrap destroyOpcode =>
      [p.className ++ "::" ++ p.className ++ "(const " ++ baseClass ++ " &p)",
        "  : " ++ baseClass ++ "(p)",
        openBrace,
        "  set_events(std::shared_ptr<" ++ baseClass ++ "::events_base_t>(new events_t));",
        "  set_destroy_opcode(" ++ destroyNumber destroyOpcode ++ ");",
        p.descriptorLine,
        closeBrace,
        ""]
  | .default =>
      [p.className ++ "::" ++ p.className ++ "()", openBrace, p.descriptorLine, closeBrace, ""]

end Proxy

def Call.lines : Call → Lines
  | send opcode operands =>
      ["  marshal(" ++
        commaSeparated (toString opcode.toNat :: operands.map (·.spelling)) ++ ");"]
  | construct opcode target operands backfill =>
      ["  " ++ baseClass ++ " p = marshal_constructor(" ++
        commaSeparated (toString opcode.toNat :: target.spelling :: operands.map (·.spelling)) ++
        ");"] ++
        (match backfill with
          | some handle => ["  " ++ handle ++ " = p;"]
          | none => []) ++
        ["  return p;"]

namespace Proxy

def methodHead (p : Proxy) (m : Method) : String :=
  m.returnType ++ " " ++ p.className ++ "::" ++ m.name ++ "(" ++ m.parameterList ++ ")"

def methodLines (p : Proxy) (m : Method) : Lines :=
  [p.methodHead m, openBrace] ++ m.call.lines ++ [closeBrace, ""]

def accessorLines (p : Proxy) (accessor : Accessor) (slot : Slot) : Lines :=
  [slot.callbackType ++ " &" ++ p.className ++ "::" ++ accessor.name ++ "()",
    openBrace,
    "  return std::static_pointer_cast<events_t>(get_events())->" ++ slot.name ++ ";",
    closeBrace,
    ""]

def decoding (form : WireForm) (index : Nat) : String :=
  "args[" ++ toString index ++ "].get<" ++ form.spelling ++ ">()"

def branchLines (branch : Branch) (slot : Slot) : Lines :=
  let args := branch.decoders.zipIdx.map fun (form, index) => decoding form index
  ["    case " ++ toString branch.opcode.toNat ++ ":",
    "      if(events->" ++ slot.name ++ ") events->" ++ slot.name ++ "(" ++
      commaSeparated args ++ ");",
    "      break;"]

/-- The choice by opcode; there is none where there are no branches at all. -/
def switchLines (p : Proxy) : Lines :=
  if p.branches.isEmpty then []
  else
    ["  std::shared_ptr<events_t> events = std::static_pointer_cast<events_t>(get_events());",
      "  switch(opcode)",
      "    " ++ openBrace] ++
      p.slotBranches.flatMap (fun (branch, slot) => branchLines branch slot) ++
      ["    " ++ closeBrace]

def dispatcherLines (p : Proxy) : Lines :=
  ["int " ++ p.className ++ "::dispatcher(int opcode, std::vector<any> args)", openBrace] ++
    p.switchLines ++ ["  return 0;", closeBrace, ""]

def definitionLines (p : Proxy) : Lines :=
  p.constructions.flatMap p.constructionLines ++ p.methods.flatMap p.methodLines ++
    p.slotAccessors.flatMap (fun (accessor, slot) => p.accessorLines accessor slot) ++
    p.dispatcherLines

end Proxy

def OutputStyle.definitionsHead (style : OutputStyle) : Lines :=
  [includeLine style.definitionsInclude, ""]

def Binding.definitionLines (b : Binding) (style : OutputStyle) : Lines :=
  style.definitionsHead ++ b.proxies.flatMap (·.definitionLines)

end WireProxy
