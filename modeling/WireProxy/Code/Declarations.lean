import WireProxy.Code.Lines
import WireProxy.Code.Names
import WireProxy.Settings

/-!
# Declarations

The header: one class per proxy, and after it the enumerations of its interface.
-/

namespace WireProxy

open Code

namespace ConstantGroup

/-- One line per constant; all but the last end in a comma. -/
def constantLines : List Constant → Lines
  | [] => []
  | [last] => ["    " ++ last.name ++ " = " ++ last.value]
  | constant :: rest =>
      ("    " ++ constant.name ++ " = " ++ constant.value ++ ",") :: constantLines rest

def lines (g : ConstantGroup) : Lines :=
  ["enum " ++ g.name, "  " ++ openBrace] ++ constantLines g.constants ++
    ["  " ++ closeBrace ++ ";"]

end ConstantGroup

namespace Proxy

def className (p : Proxy) : String :=
  WireProxy.className p.name

def recordLines (p : Proxy) : Lines :=
  ["private:", "  struct events_t : public " ++ baseClass ++ "::events_base_t",
    "  " ++ openBrace] ++
    p.slots.map (fun slot => "    " ++ slot.callbackType ++ " " ++ slot.name ++ ";") ++
    ["  " ++ closeBrace ++ ";", ""]

def wrapDeclarations (p : Proxy) : Lines :=
  p.constructions.filterMap fun
    | .wrap _ => some ("  " ++ p.className ++ "(const " ++ baseClass ++ " &proxy);")
    | .default => none

def defaultDeclarations (p : Proxy) : Lines :=
  p.constructions.filterMap fun
    | .wrap _ => none
    | .default => some ("  " ++ p.className ++ "();")

def grantLines (p : Proxy) : Lines :=
  p.grants.map fun grant => "  friend class " ++ WireProxy.className grant ++ ";"

def accessorDeclarations (p : Proxy) : Lines :=
  p.slotAccessors.map fun (accessor, slot) =>
    "  " ++ slot.callbackType ++ " &" ++ accessor.name ++ "();"

def classLines (p : Proxy) : Lines :=
  ["class " ++ p.className ++ " : public " ++ baseClass, openBrace] ++ p.recordLines ++
    p.wrapDeclarations ++
    ["  int dispatcher(int opcode, std::vector<any> args) override;", ""] ++
    p.grantLines ++ ["", "public:"] ++ p.defaultDeclarations ++
    p.methods.map (fun m => "  " ++ m.declaration) ++ p.accessorDeclarations ++
    [closeBrace ++ ";", ""]

def declarationLines (p : Proxy) : Lines :=
  p.classLines ++ p.groups.flatMap fun group => group.lines ++ [""]

end Proxy

def includeLine (file : String) : String :=
  "#include <" ++ file ++ ">"

def OutputStyle.preamble (style : OutputStyle) : Lines :=
  ["#ifndef " ++ style.headerGuard, "#define " ++ style.headerGuard, ""] ++
    style.systemIncludes.map includeLine ++ ["", includeLine style.runtimeInclude, ""]

def forwardLine (interface : String) : String :=
  "class " ++ className interface ++ ";"

def Binding.declarationLines (b : Binding) (style : OutputStyle) : Lines :=
  style.preamble ++ b.forwards.map forwardLine ++ [""] ++
    b.proxies.flatMap (·.declarationLines) ++ ["#endif"]

end WireProxy
