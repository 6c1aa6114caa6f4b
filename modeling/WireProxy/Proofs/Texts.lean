import WireProxy.Generation
import WireProxy.Proofs.Numeral

/-!
# Texts

A text is made of blocks: a fixed beginning and a block for each proxy, which depends on that proxy
alone.  The lines of a block can be read off its text as long as no name in it has a line break.
-/

namespace WireProxy

namespace Code

theorem text_cons (line : String) (rest : Lines) :
    text (line :: rest) = line ++ "\n" ++ text rest := by
  rw [text, List.map_cons, String.join_cons]
  rfl

@[simp] theorem text_append (first second : Lines) :
    text (first ++ second) = text first ++ text second := by
  rw [text, List.map_append, String.join_append]
  rfl

theorem toList_text_cons {line : String} {rest : Lines} :
    (text (line :: rest)).toList = line.toList ++ '\n' :: (text rest).toList := by
  simp [text_cons]

theorem toList_text (lines : Lines) :
    (text lines).toList = lines.flatMap fun line => line.toList ++ ['\n'] := by
  induction lines with
  | nil => rfl
  | cons line lines ih =>
      rw [toList_text_cons, ih, List.flatMap_cons, List.append_assoc]
      rfl

theorem text_flatMap {α : Type} (f : α → Lines) (xs : List α) :
    text (xs.flatMap f) = String.join (xs.map fun x => text (f x)) := by
  induction xs with
  | nil => rfl
  | cons x xs ih => rw [List.flatMap_cons, text_append, ih, List.map_cons, String.join_cons]

theorem text_map {α : Type} (f : α → String) (xs : List α) :
    text (xs.map f) = String.join (xs.map fun x => f x ++ "\n") := by
  rw [text, List.map_map]
  rfl

end Code

namespace Proxy

/-- The class of a proxy and its enumerations. -/
def declarationText (p : Proxy) : String :=
  Code.text p.declarationLines

/-- The bodies of everything that the class of a proxy declares. -/
def definitionText (p : Proxy) : String :=
  Code.text p.definitionLines

end Proxy

namespace Binding

variable (b : Binding) (style : OutputStyle)

theorem text_declarationLines :
    Code.text (b.declarationLines style) =
      Code.text style.preamble ++
        String.join (b.forwards.map fun name => forwardLine name ++ "\n") ++ "\n" ++
        String.join (b.proxies.map (·.declarationText)) ++ "#endif\n" := by
  simp only [declarationLines, Code.text_append, Code.text_map, Code.text_flatMap]
  rfl

theorem text_definitionLines :
    Code.text (b.definitionLines style) =
      Code.text style.definitionsHead ++ String.join (b.proxies.map (·.definitionText)) := by
  simp only [definitionLines, Code.text_append, Code.text_flatMap]
  rfl

end Binding

namespace Protocol

variable (p : Protocol) (settings : Settings)

theorem declarations_render :
    (p.render settings).declarations =
      Code.text settings.output.preamble ++
        String.join ((p.binding settings).proxies.map fun a => forwardLine a.name ++ "\n") ++
        "\n" ++ String.join ((p.binding settings).proxies.map (·.declarationText)) ++
        "#endif\n" := by
  have forwards : (p.binding settings).forwards = (p.binding settings).proxies.map (·.name) := rfl
  have whole := Binding.text_declarationLines (p.binding settings) settings.output
  rw [forwards, List.map_map] at whole
  exact whole

theorem definitions_render :
    (p.render settings).definitions =
      Code.text settings.output.definitionsHead ++
        String.join ((p.binding settings).proxies.map (·.definitionText)) :=
  Binding.text_definitionLines _ _

end Protocol

namespace Code

/-- The lines of a text in which every line is ended. -/
def readLines (text : String) : Lines :=
  ((text.toList.splitOn '\n').dropLast).map String.ofList

def Unbroken (s : String) : Prop :=
  '\n' ∉ s.toList

instance (s : String) : Decidable (Unbroken s) :=
  inferInstanceAs (Decidable (¬ _))

@[simp] theorem unbroken_append {s t : String} : Unbroken (s ++ t) ↔ Unbroken s ∧ Unbroken t := by
  simp [Unbroken]

theorem readLines_text {lines : Lines} (unbroken : ∀ line ∈ lines, Unbroken line) :
    readLines (text lines) = lines := by
  induction lines with
  | nil => rfl
  | cons line rest ih =>
      obtain ⟨first, others⟩ := List.forall_mem_cons.mp unbroken
      have parts := List.splitOn_ne_nil '\n' (text rest).toList
      rw [readLines, toList_text_cons, List.splitOn_append_cons_self_of_not_mem first,
        List.dropLast_cons_of_ne_nil parts, List.map_cons, String.ofList_toList, ← readLines,
        ih others]

theorem unbroken_toString (n : Nat) : Unbroken (toString n) := by
  have digits : (toString n).toList = Nat.toDigits 10 n := String.toList_ofList
  rw [Unbroken, digits]
  intro member
  have lower : '0'.toNat ≤ '\n'.toNat := (Text.isDigit_of_mem_toDigits member).1
  revert lower
  decide

theorem unbroken_commaSeparated {items : List String} (unbroken : ∀ item ∈ items, Unbroken item) :
    Unbroken (commaSeparated items) := by
  induction items with
  | nil => decide
  | cons item rest ih =>
      obtain ⟨first, others⟩ := List.forall_mem_cons.mp unbroken
      cases rest with
      | nil => simpa [commaSeparated] using first
      | cons next rest =>
          have rest := ih others
          unfold commaSeparated at rest ⊢
          rw [String.intercalate_cons_cons, unbroken_append, unbroken_append]
          exact ⟨⟨first, by decide⟩, rest⟩

end Code

/-! ## The strings of a proxy -/

def ValueType.strings : ValueType → List String
  | proxy interface => [interface]
  | raw token => [token]
  | _ => []

def WireForm.strings : WireForm → List String
  | raw token => [token]
  | _ => []

def Slot.strings (slot : Slot) : List String :=
  slot.name :: slot.params.flatMap (·.strings)

def Parameter.strings (param : Parameter) : List String :=
  param.name :: param.type.strings

def Operand.strings (operand : Operand) : List String :=
  operand.param?.toList

def Target.strings : Target → List String
  | descriptor symbol => [symbol]
  | fromHandle param => [param]

def Call.strings : Call → List String
  | send _ operands => operands.flatMap (·.strings)
  | construct _ target operands backfill =>
      target.strings ++ operands.flatMap (·.strings) ++ backfill.toList

def Method.strings (m : Method) : List String :=
  m.name :: m.params.flatMap (·.strings) ++ m.returns.toList.flatMap (·.strings) ++ m.call.strings

def Branch.strings (branch : Branch) : List String :=
  branch.decoders.flatMap (·.strings)

def ConstantGroup.strings (g : ConstantGroup) : List String :=
  g.name :: g.constants.flatMap fun constant => [constant.name, constant.value]

/-- Everything in a proxy that is not fixed by how proxies are written. -/
def Proxy.strings (p : Proxy) : List String :=
  p.name :: p.descriptor :: p.slots.flatMap (·.strings) ++ p.grants ++
    p.methods.flatMap (·.strings) ++ p.accessors.map (·.name) ++ p.branches.flatMap (·.strings) ++
    p.groups.flatMap (·.strings)

theorem Proxy.forall_mem_strings {p : Proxy} {P : String → Prop} :
    (∀ s ∈ p.strings, P s) ↔
      P p.name ∧ P p.descriptor ∧ (∀ slot ∈ p.slots, ∀ s ∈ slot.strings, P s) ∧
        (∀ grant ∈ p.grants, P grant) ∧ (∀ m ∈ p.methods, ∀ s ∈ m.strings, P s) ∧
        (∀ accessor ∈ p.accessors, P accessor.name) ∧
        (∀ branch ∈ p.branches, ∀ s ∈ branch.strings, P s) ∧
        ∀ group ∈ p.groups, ∀ s ∈ group.strings, P s := by
  simp only [strings, List.cons_append, List.forall_mem_cons, List.forall_mem_append,
    List.forall_mem_flatMap, List.forall_mem_map, and_assoc]

theorem Method.forall_mem_strings {m : Method} {P : String → Prop} :
    (∀ s ∈ m.strings, P s) ↔
      P m.name ∧ (∀ param ∈ m.params, ∀ s ∈ param.strings, P s) ∧
        (∀ type ∈ m.returns, ∀ s ∈ type.strings, P s) ∧ ∀ s ∈ m.call.strings, P s := by
  simp only [strings, List.cons_append, List.forall_mem_cons, List.forall_mem_append,
    List.forall_mem_flatMap, Option.mem_toList, Option.mem_def, and_assoc]

/-! ## Spellings -/

/-- What types and parameters are spelled with, beside strings of their own. -/
def spellingTexts : List String :=
  ["_t", "int32_t", "uint32_t", "std::string", "proxy_t", "int", "std::vector<char>", "void", " ",
    " &"]

section Spellings

variable {P : String → Prop}

theorem ValueType.spelling_of (append : ∀ s t, P s → P t → P (s ++ t))
    (fixed : ∀ s ∈ spellingTexts, P s) {type : ValueType} (strings : ∀ s ∈ type.strings, P s) :
    P type.spelling := by
  cases type with
  | proxy interface =>
      exact append _ _ (strings interface (List.mem_singleton_self _)) (fixed "_t" (by decide))
  | raw token => exact strings token (List.mem_singleton_self _)
  | _ => exact fixed _ (by decide)

theorem Parameter.spelling_of (append : ∀ s t, P s → P t → P (s ++ t))
    (fixed : ∀ s ∈ spellingTexts, P s) {param : Parameter} (strings : ∀ s ∈ param.strings, P s) :
    P param.spelling := by
  obtain ⟨name, type⟩ := List.forall_mem_cons.mp strings
  have type := ValueType.spelling_of append fixed type
  unfold spelling
  split
  · exact append _ _ (append _ _ type (fixed " " (by decide))) name
  · exact append _ _ (append _ _ type (fixed " &" (by decide))) name

theorem Method.returnType_of (append : ∀ s t, P s → P t → P (s ++ t))
    (fixed : ∀ s ∈ spellingTexts, P s) {m : Method}
    (strings : ∀ type ∈ m.returns, ∀ s ∈ type.strings, P s) : P m.returnType := by
  unfold returnType
  split
  · next type found => exact ValueType.spelling_of append fixed (strings type found)
  · exact fixed "void" (by decide)

end Spellings

/-! ## Lines without breaks -/

section Unbroken

open Code

theorem unbroken_className {interface : String} (unbroken : Unbroken interface) :
    Unbroken (className interface) := by
  unfold className
  exact unbroken_append.mpr ⟨unbroken, by decide⟩

theorem unbroken_spellingTexts : ∀ s ∈ spellingTexts, Unbroken s := by
  decide +kernel

theorem ValueType.unbroken_spelling {type : ValueType}
    (unbroken : ∀ s ∈ type.strings, Unbroken s) : Unbroken type.spelling :=
  spelling_of (fun _ _ first second => unbroken_append.mpr ⟨first, second⟩) unbroken_spellingTexts
    unbroken

theorem WireForm.unbroken_spelling {form : WireForm}
    (unbroken : ∀ s ∈ form.strings, Unbroken s) : Unbroken form.spelling := by
  cases form with
  | raw token => exact unbroken token (List.mem_singleton_self _)
  | _ => decide

theorem Slot.unbroken_callbackType {slot : Slot} (unbroken : ∀ s ∈ slot.strings, Unbroken s) :
    Unbroken slot.callbackType := by
  have types : Unbroken (commaSeparated (slot.params.map (·.spelling))) := by
    apply unbroken_commaSeparated
    rw [List.forall_mem_map]
    intro type member
    apply ValueType.unbroken_spelling
    intro s inside
    exact unbroken s (List.mem_cons_of_mem _ (List.mem_flatMap.mpr ⟨type, member, inside⟩))
  unfold callbackType
  simp only [unbroken_append, types]
  decide

theorem Parameter.unbroken_spelling {param : Parameter}
    (unbroken : ∀ s ∈ param.strings, Unbroken s) : Unbroken param.spelling :=
  spelling_of (fun _ _ first second => unbroken_append.mpr ⟨first, second⟩) unbroken_spellingTexts
    unbroken

theorem Operand.unbroken_spelling {operand : Operand}
    (unbroken : ∀ s ∈ operand.strings, Unbroken s) : Unbroken operand.spelling := by
  cases operand with
  | newObject => decide
  | arg param => exact unbroken param (List.mem_singleton_self _)
  | version param => exact unbroken param (List.mem_singleton_self _)
  | handleName param =>
      have name := unbroken param (List.mem_singleton_self _)
      unfold spelling
      simp only [unbroken_append, name]
      decide

theorem Method.unbroken_returnType {m : Method} (unbroken : ∀ s ∈ m.strings, Unbroken s) :
    Unbroken m.returnType := by
  obtain ⟨-, -, returns, -⟩ := Method.forall_mem_strings.mp unbroken
  exact returnType_of (fun _ _ first second => unbroken_append.mpr ⟨first, second⟩)
    unbroken_spellingTexts returns

theorem Method.unbroken_parameterList {m : Method} (unbroken : ∀ s ∈ m.strings, Unbroken s) :
    Unbroken m.parameterList := by
  obtain ⟨-, params, -⟩ := Method.forall_mem_strings.mp unbroken
  apply unbroken_commaSeparated
  rw [List.forall_mem_map]
  intro param member
  exact Parameter.unbroken_spelling (params param member)

theorem ConstantGroup.unbroken_constantLines {constants : List Constant}
    (unbroken : ∀ constant ∈ constants, Unbroken constant.name ∧ Unbroken constant.value) :
    ∀ line ∈ constantLines constants, Unbroken line := by
  fun_induction constantLines constants with
  | case1 => simp
  | case2 last =>
      obtain ⟨name, value⟩ := unbroken last (List.mem_singleton_self _)
      simp only [List.forall_mem_singleton, unbroken_append, name, value]
      decide
  | case3 constant rest _ ih =>
      obtain ⟨⟨name, value⟩, others⟩ := List.forall_mem_cons.mp unbroken
      refine List.forall_mem_cons.mpr ⟨?_, ih others⟩
      simp only [unbroken_append, name, value]
      decide

theorem ConstantGroup.unbroken_lines {g : ConstantGroup} (unbroken : ∀ s ∈ g.strings, Unbroken s) :
    ∀ line ∈ g.lines, Unbroken line := by
  obtain ⟨name, constants⟩ := List.forall_mem_cons.mp unbroken
  have lines : ∀ line ∈ constantLines g.constants, Unbroken line := by
    apply unbroken_constantLines
    intro constant member
    have pair := List.forall_mem_flatMap.mp constants constant member
    exact ⟨pair _ (by simp), pair _ (by simp)⟩
  unfold ConstantGroup.lines
  simp only [List.forall_mem_append, List.forall_mem_cons, unbroken_append, name]
  exact ⟨⟨by decide, lines⟩, by decide⟩

namespace Proxy

variable {p : Proxy}

theorem mem_slotAccessors {accessor : Accessor} {slot : Slot} :
    (accessor, slot) ∈ p.slotAccessors ↔
      accessor ∈ p.accessors ∧ p.slots[accessor.slot]? = some slot := by
  simp [slotAccessors, slotOf?]

theorem mem_slotBranches {branch : Branch} {slot : Slot} :
    (branch, slot) ∈ p.slotBranches ↔
      branch ∈ p.branches ∧ p.slots[branch.slot]? = some slot := by
  simp [slotBranches]

theorem unbroken_recordLines (unbroken : ∀ slot ∈ p.slots, ∀ s ∈ slot.strings, Unbroken s) :
    ∀ line ∈ p.recordLines, Unbroken line := by
  unfold recordLines
  simp only [List.forall_mem_append, List.forall_mem_map]
  refine ⟨⟨by decide, fun slot member => ?_⟩, by decide⟩
  have name := unbroken slot member slot.name List.mem_cons_self
  have type := Slot.unbroken_callbackType (unbroken slot member)
  simp only [unbroken_append, name, type]
  decide

theorem unbroken_wrapDeclarations (unbroken : Unbroken p.className) :
    ∀ line ∈ p.wrapDeclarations, Unbroken line := by
  intro line member
  obtain ⟨construction, -, written⟩ := List.mem_filterMap.mp member
  cases construction with
  | wrap destroyOpcode =>
      obtain rfl := Option.some.inj written
      simp only [unbroken_append, unbroken]
      decide
  | default => cases written

theorem unbroken_defaultDeclarations (unbroken : Unbroken p.className) :
    ∀ line ∈ p.defaultDeclarations, Unbroken line := by
  intro line member
  obtain ⟨construction, -, written⟩ := List.mem_filterMap.mp member
  cases construction with
  | wrap destroyOpcode => cases written
  | default =>
      obtain rfl := Option.some.inj written
      simp only [unbroken_append, unbroken]
      decide

theorem unbroken_grantLines (unbroken : ∀ grant ∈ p.grants, Unbroken grant) :
    ∀ line ∈ p.grantLines, Unbroken line := by
  unfold grantLines
  rw [List.forall_mem_map]
  intro grant member
  simp only [unbroken_append, unbroken_className (unbroken grant member)]
  decide

theorem unbroken_declaration {m : Method} (unbroken : ∀ s ∈ m.strings, Unbroken s) :
    Unbroken m.declaration := by
  obtain ⟨name, -⟩ := Method.forall_mem_strings.mp unbroken
  unfold Method.declaration
  simp only [unbroken_append, name, Method.unbroken_returnType unbroken,
    Method.unbroken_parameterList unbroken]
  decide

theorem unbroken_accessorDeclarations
    (slots : ∀ slot ∈ p.slots, ∀ s ∈ slot.strings, Unbroken s)
    (accessors : ∀ accessor ∈ p.accessors, Unbroken accessor.name) :
    ∀ line ∈ p.accessorDeclarations, Unbroken line := by
  unfold accessorDeclarations
  rw [List.forall_mem_map]
  rintro ⟨accessor, slot⟩ member
  obtain ⟨isAccessor, found⟩ := mem_slotAccessors.mp member
  have name := accessors accessor isAccessor
  have type := Slot.unbroken_callbackType (slots slot (List.mem_of_getElem? found))
  simp only [unbroken_append, name, type]
  decide

theorem unbroken_declarationLines (unbroken : ∀ s ∈ p.strings, Unbroken s) :
    ∀ line ∈ p.declarationLines, Unbroken line := by
  obtain ⟨name, -, slots, grants, methods, accessors, -, groups⟩ :=
    Proxy.forall_mem_strings.mp unbroken
  have className : Unbroken p.className := unbroken_className name
  have head : Unbroken ("class " ++ p.className ++ " : public " ++ baseClass) := by
    simp only [unbroken_append, className]
    decide
  have declarations : ∀ m ∈ p.methods, Unbroken ("  " ++ m.declaration) := fun m member =>
    unbroken_append.mpr ⟨by decide, unbroken_declaration (methods m member)⟩
  have enumerations : ∀ group ∈ p.groups, ∀ line ∈ group.lines, Unbroken line :=
    fun group member => ConstantGroup.unbroken_lines (groups group member)
  unfold declarationLines classLines
  simp only [List.forall_mem_append, List.forall_mem_map, List.forall_mem_flatMap, and_assoc]
  refine ⟨List.forall_mem_cons.mpr ⟨head, by decide⟩, unbroken_recordLines slots,
    unbroken_wrapDeclarations className, by decide, unbroken_grantLines grants, by decide,
    unbroken_defaultDeclarations className, declarations,
    unbroken_accessorDeclarations slots accessors, by decide, fun group member => ?_⟩
  exact ⟨enumerations group member, by decide⟩

theorem unbroken_destroyNumber (opcode : Option UInt32) : Unbroken (destroyNumber opcode) := by
  cases opcode with
  | none => decide
  | some opcode => exact unbroken_toString opcode.toNat

theorem unbroken_constructionLines (className : Unbroken p.className)
    (descriptor : Unbroken p.descriptor) (construction : Construction) :
    ∀ line ∈ p.constructionLines construction, Unbroken line := by
  have symbol : Unbroken p.descriptorLine := by
    unfold descriptorLine
    simp only [unbroken_append, descriptor]
    decide
  cases construction with
  | default =>
      simp only [constructionLines, List.forall_mem_cons, unbroken_append, className, symbol]
      decide
  | wrap destroyOpcode =>
      simp only [constructionLines, List.forall_mem_cons, unbroken_append, className, symbol,
        unbroken_destroyNumber]
      decide

theorem unbroken_spellings {operands : List Operand}
    (unbroken : ∀ operand ∈ operands, ∀ s ∈ operand.strings, Unbroken s) :
    ∀ item ∈ operands.map (·.spelling), Unbroken item := by
  rw [List.forall_mem_map]
  exact fun operand member => Operand.unbroken_spelling (unbroken operand member)

theorem unbroken_targetSpelling {target : Target} (unbroken : ∀ s ∈ target.strings, Unbroken s) :
    Unbroken target.spelling := by
  cases target with
  | descriptor symbol =>
      exact unbroken_append.mpr ⟨by decide, unbroken symbol (List.mem_singleton_self _)⟩
  | fromHandle param =>
      exact unbroken_append.mpr ⟨unbroken param (List.mem_singleton_self _), by decide⟩

theorem unbroken_callLines {call : Call} (unbroken : ∀ s ∈ call.strings, Unbroken s) :
    ∀ line ∈ call.lines, Unbroken line := by
  cases call with
  | send opcode operands =>
      have items : Unbroken (commaSeparated
          (toString opcode.toNat :: operands.map (·.spelling))) := by
        apply unbroken_commaSeparated
        exact List.forall_mem_cons.mpr ⟨unbroken_toString _,
          unbroken_spellings (List.forall_mem_flatMap.mp unbroken)⟩
      simp only [Call.lines, List.forall_mem_singleton, unbroken_append, items]
      decide
  | construct opcode target operands backfill =>
      simp only [Call.strings, List.forall_mem_append, List.forall_mem_flatMap] at unbroken
      obtain ⟨⟨targeted, carried⟩, handles⟩ := unbroken
      have items : Unbroken (commaSeparated
          (toString opcode.toNat :: target.spelling :: operands.map (·.spelling))) := by
        apply unbroken_commaSeparated
        rw [List.forall_mem_cons, List.forall_mem_cons]
        exact ⟨unbroken_toString _, unbroken_targetSpelling targeted, unbroken_spellings carried⟩
      simp only [Call.lines, List.forall_mem_append, List.forall_mem_singleton, unbroken_append,
        items]
      refine ⟨⟨by decide, ?_⟩, by decide⟩
      cases backfill with
      | none => simp
      | some handle =>
          have handle := handles handle (by simp)
          simp only [List.forall_mem_singleton, unbroken_append, handle]
          decide

theorem unbroken_methodLines (className : Unbroken p.className) {m : Method}
    (unbroken : ∀ s ∈ m.strings, Unbroken s) : ∀ line ∈ p.methodLines m, Unbroken line := by
  obtain ⟨name, -, -, call⟩ := Method.forall_mem_strings.mp unbroken
  have head : Unbroken (p.methodHead m) := by
    unfold methodHead
    simp only [unbroken_append, name, className, Method.unbroken_returnType unbroken,
      Method.unbroken_parameterList unbroken]
    decide
  simp only [methodLines, List.forall_mem_append, List.forall_mem_cons]
  exact ⟨⟨⟨head, by decide⟩, unbroken_callLines call⟩, by decide⟩

theorem unbroken_accessorLines (className : Unbroken p.className) {accessor : Accessor}
    {slot : Slot} (name : Unbroken accessor.name) (unbroken : ∀ s ∈ slot.strings, Unbroken s) :
    ∀ line ∈ p.accessorLines accessor slot, Unbroken line := by
  have slotName := unbroken slot.name List.mem_cons_self
  simp only [accessorLines, List.forall_mem_cons, unbroken_append, className, name, slotName,
    Slot.unbroken_callbackType unbroken]
  decide

theorem unbroken_decoding {form : WireForm} (unbroken : ∀ s ∈ form.strings, Unbroken s)
    (index : Nat) : Unbroken (decoding form index) := by
  unfold decoding
  simp only [unbroken_append, unbroken_toString, WireForm.unbroken_spelling unbroken]
  decide

theorem unbroken_branchLines {branch : Branch} {slot : Slot} (name : Unbroken slot.name)
    (unbroken : ∀ s ∈ branch.strings, Unbroken s) :
    ∀ line ∈ branchLines branch slot, Unbroken line := by
  have items : ∀ item ∈ branch.decoders.zipIdx, Unbroken (decoding item.1 item.2) := by
    intro item member
    have isDecoder := List.fst_mem_of_mem_zipIdx member
    exact unbroken_decoding (List.forall_mem_flatMap.mp unbroken item.1 isDecoder) item.2
  have list := unbroken_commaSeparated (List.forall_mem_map.mpr items)
  simp only [branchLines, List.forall_mem_cons, unbroken_append, unbroken_toString, name, list]
  decide

theorem unbroken_switchLines (slots : ∀ slot ∈ p.slots, ∀ s ∈ slot.strings, Unbroken s)
    (branches : ∀ branch ∈ p.branches, ∀ s ∈ branch.strings, Unbroken s) :
    ∀ line ∈ p.switchLines, Unbroken line := by
  unfold switchLines
  split
  · simp
  · simp only [List.forall_mem_append, List.forall_mem_flatMap]
    refine ⟨⟨by decide, ?_⟩, by decide⟩
    rintro ⟨branch, slot⟩ member
    obtain ⟨isBranch, found⟩ := mem_slotBranches.mp member
    have name := slots slot (List.mem_of_getElem? found) slot.name List.mem_cons_self
    exact unbroken_branchLines name (branches branch isBranch)

theorem unbroken_definitionLines (unbroken : ∀ s ∈ p.strings, Unbroken s) :
    ∀ line ∈ p.definitionLines, Unbroken line := by
  obtain ⟨name, descriptor, slots, -, methods, accessors, branches, -⟩ :=
    Proxy.forall_mem_strings.mp unbroken
  have className : Unbroken p.className := unbroken_className name
  have head : Unbroken
      ("int " ++ p.className ++ "::dispatcher(int opcode, std::vector<any> args)") := by
    simp only [unbroken_append, className]
    decide
  unfold definitionLines dispatcherLines
  simp only [List.forall_mem_append, List.forall_mem_flatMap, and_assoc]
  refine ⟨fun construction _ => unbroken_constructionLines className descriptor construction,
    fun m member => unbroken_methodLines className (methods m member), ?_,
    List.forall_mem_cons.mpr ⟨head, by decide⟩, unbroken_switchLines slots branches, by decide⟩
  rintro ⟨accessor, slot⟩ member
  obtain ⟨isAccessor, found⟩ := mem_slotAccessors.mp member
  exact unbroken_accessorLines className (accessors accessor isAccessor)
    (slots slot (List.mem_of_getElem? found))

end Proxy

end Unbroken

end WireProxy
