import WireProxy.Proxy.Basic

/-!
# Names in the generated code

How types, parameters and operands are spelled in C++.
-/

namespace WireProxy

def baseClass : String := "proxy_t"

def className (interface : String) : String :=
  interface ++ "_t"

def ValueType.spelling : ValueType → String
  | int32 | fixed => "int32_t"
  | uint32 => "uint32_t"
  | text => "std::string"
  | proxy interface => className interface
  | anyProxy => baseClass
  | fd => "int"
  | bytes => "std::vector<char>"
  | raw token => token

def WireForm.spelling : WireForm → String
  | int32 | fixed | fd => "int32_t"
  | uint32 => "uint32_t"
  | text => "std::string"
  | proxy => baseClass
  | bytes => "std::vector<char>"
  | raw token => token

namespace Code

def commaSeparated (items : List String) : String :=
  ", ".intercalate items

def openBrace : String := .ofList ['{']

def closeBrace : String := .ofList ['}']

end Code

open Code (commaSeparated)

def Slot.callbackType (slot : Slot) : String :=
  "std::function<void(" ++ commaSeparated (slot.params.map (·.spelling)) ++ ")>"

def Parameter.spelling (param : Parameter) : String :=
  match param.passing with
  | .value => param.type.spelling ++ " " ++ param.name
  | .outRef => param.type.spelling ++ " &" ++ param.name

def Operand.spelling : Operand → String
  | arg param | version param => param
  | handleName param => "std::string(" ++ param ++ ".interface->name)"
  | newObject => "NULL"

def Target.spelling : Target → String
  | descriptor symbol => "&" ++ symbol
  | fromHandle param => param ++ ".interface"

namespace Method

def returnType (m : Method) : String :=
  match m.returns with
  | some type => type.spelling
  | none => "void"

def parameterList (m : Method) : String :=
  commaSeparated (m.params.map (·.spelling))

def declaration (m : Method) : String :=
  m.returnType ++ " " ++ m.name ++ "(" ++ m.parameterList ++ ");"

end Method

def Proxy.slotOf? (p : Proxy) (accessor : Accessor) : Option Slot :=
  p.slots[accessor.slot]?

/-- The accessors whose slot exists, with that slot. -/
def Proxy.slotAccessors (p : Proxy) : List (Accessor × Slot) :=
  p.accessors.filterMap fun accessor => (p.slotOf? accessor).map fun slot => (accessor, slot)

def Proxy.slotBranches (p : Proxy) : List (Branch × Slot) :=
  p.branches.filterMap fun branch => (p.slots[branch.slot]?).map fun slot => (branch, slot)

end WireProxy
