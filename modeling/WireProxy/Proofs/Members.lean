import WireProxy.Proofs.Texts

/-!
# Members of a class

The class body and the bodies of its members are written apart.  Both are read back here, with no
more than the layout to go by, and each declares or defines the same members: constructors, the
dispatcher, methods and accessors.
-/

namespace WireProxy

/-- A member function in parts: all before its name, the name, and all after it. -/
structure Signature where
  lead : String
  name : String
  tail : String
  deriving DecidableEq, Repr, Inhabited

inductive Member where
  /-- The constructor from a handle. -/
  | wrap
  /-- The constructor from nothing. -/
  | default
  | dispatcher
  | callable (signature : Signature)
  deriving DecidableEq, Repr, Inhabited

namespace Member

def declaration (class_ : String) : Member → String
  | wrap => "  " ++ class_ ++ "(const proxy_t &proxy);"
  | default => "  " ++ class_ ++ "();"
  | dispatcher => "  int dispatcher(int opcode, std::vector<any> args) override;"
  | callable s => "  " ++ s.lead ++ s.name ++ s.tail ++ ";"

def head (class_ : String) : Member → String
  | wrap => class_ ++ "::" ++ class_ ++ "(const proxy_t &p)"
  | default => class_ ++ "::" ++ class_ ++ "()"
  | dispatcher => "int " ++ class_ ++ "::dispatcher(int opcode, std::vector<any> args)"
  | callable s => s.lead ++ class_ ++ "::" ++ s.name ++ s.tail

def signature? : Member → Option Signature
  | callable s => some s
  | _ => none

end Member

def Construction.isWrap : Construction → Bool
  | wrap _ => true
  | default => false

def Construction.member (c : Construction) : Member :=
  if c.isWrap then .wrap else .default

def Method.signature (m : Method) : Signature :=
  ⟨m.returnType ++ " ", m.name, "(" ++ m.parameterList ++ ")"⟩

def Accessor.signature (accessor : Accessor) (slot : Slot) : Signature :=
  ⟨slot.callbackType ++ " &", accessor.name, "()"⟩

namespace Proxy

variable (p : Proxy)

/-- The methods, then the accessors of slots that exist. -/
def signatures : List Signature :=
  p.methods.map (·.signature) ++
    p.accessors.filterMap fun accessor => p.slots[accessor.slot]?.map accessor.signature

def privateMembers : List Member :=
  (p.constructions.filter (·.isWrap)).map (·.member) ++ [.dispatcher]

def publicMembers : List Member :=
  (p.constructions.filter (!·.isWrap)).map (·.member) ++ p.signatures.map .callable

def declaredMembers : List Member :=
  p.privateMembers ++ p.publicMembers

def definedMembers : List Member :=
  p.constructions.map (·.member) ++ p.signatures.map .callable ++ [.dispatcher]

end Proxy

/-! ## Reading members off a text -/

namespace Code

/-- The private members of a class body, which stand between its record and the next empty line. -/
def privateLines (lines : Lines) : Lines :=
  ((lines.dropWhile (· ≠ "  " ++ closeBrace ++ ";")).drop 2).takeWhile (· ≠ "")

def publicLines (lines : Lines) : Lines :=
  ((lines.dropWhile (· ≠ "public:")).drop 1).takeWhile (· ≠ closeBrace ++ ";")

/-- The first lines of definitions, each of which lasts to a closing brace in the first column. -/
def headLines (inside : Bool) : Lines → Lines
  | [] => []
  | line :: rest =>
      if inside then headLines (line ≠ closeBrace) rest
      else if line = "" then headLines false rest
      else line :: headLines true rest

end Code

namespace Code

variable {rest : Lines}

def Indented (s : String) : Prop :=
  s.toList.head? = some ' '

instance (s : String) : Decidable (Indented s) :=
  inferInstanceAs (Decidable (_ = _))

theorem Indented.ne {s t : String} (indented : Indented s) (flush : ¬ Indented t) : s ≠ t := by
  rintro rfl
  exact flush indented

theorem dropWhile_ne_append {mark : String} {before : Lines}
    (absent : ∀ line ∈ before, line ≠ mark) :
    (before ++ rest).dropWhile (· ≠ mark) = rest.dropWhile (· ≠ mark) :=
  List.dropWhile_append_of_pos fun line member => decide_eq_true (absent line member)

theorem takeWhile_ne_append {mark : String} {before : Lines}
    (absent : ∀ line ∈ before, line ≠ mark) :
    (before ++ mark :: rest).takeWhile (· ≠ mark) = before := by
  rw [List.takeWhile_append_of_pos fun line member => decide_eq_true (absent line member)]
  simp

/-- What follows the head of one definition. -/
inductive Closes : Lines → Prop where
  | brace : Closes [closeBrace, ""]
  | line {line : String} {rest : Lines} (inner : line ≠ closeBrace) (closes : Closes rest) :
      Closes (line :: rest)

theorem Closes.append {body : Lines} (indented : ∀ line ∈ body, Indented line)
    (closes : Closes rest) : Closes (body ++ rest) := by
  induction body with
  | nil => exact closes
  | cons line body ih =>
      obtain ⟨first, others⟩ := List.forall_mem_cons.mp indented
      exact .line (first.ne (by decide)) (ih others)

theorem headLines_closes {lines : Lines} (closes : Closes lines) :
    headLines true (lines ++ rest) = headLines false rest := by
  induction closes with
  | brace => rfl
  | line inner _ ih => rw [List.cons_append, headLines, if_pos rfl, decide_eq_true inner, ih]

def IsDefinition (head : String) (lines : Lines) : Prop :=
  head ≠ "" ∧ ∃ body, Closes body ∧ lines = head :: body

theorem headLines_definition {head : String} {lines : Lines}
    (isDefinition : IsDefinition head lines) :
    headLines false (lines ++ rest) = head :: headLines false rest := by
  obtain ⟨notEmpty, body, closes, rfl⟩ := isDefinition
  rw [List.cons_append, headLines, if_neg Bool.false_ne_true, if_neg notEmpty,
    headLines_closes closes]

theorem headLines_flatMap {α : Type} {xs : List α} {head : α → String} {lines : α → Lines}
    (definitions : ∀ x ∈ xs, IsDefinition (head x) (lines x)) :
    headLines false (xs.flatMap lines ++ rest) = xs.map head ++ headLines false rest := by
  induction xs with
  | nil => rfl
  | cons x xs ih =>
      obtain ⟨first, others⟩ := List.forall_mem_cons.mp definitions
      rw [List.flatMap_cons, List.append_assoc, headLines_definition first, ih others]
      rfl

end Code

open Code

namespace Proxy

variable {p : Proxy}

/-! ## What the definitions define -/

theorem isDefinition_constructionLines (c : Construction) :
    IsDefinition (c.member.head p.className) (p.constructionLines c) := by
  have descriptor : Indented p.descriptorLine := by
    unfold descriptorLine
    simp [Indented]
  cases c with
  | default =>
      refine ⟨by simp [Construction.member, Construction.isWrap, Member.head], _, ?_, rfl⟩
      exact .line (by decide) (.line (descriptor.ne (by decide)) .brace)
  | wrap destroyOpcode =>
      have head : p.className ++ "::" ++ p.className ++ "(const " ++ baseClass ++ " &p)" =
          Member.wrap.head p.className := by
        simp only [Member.head, String.append_assoc]
        rfl
      have destroy : Indented ("  set_destroy_opcode(" ++ destroyNumber destroyOpcode ++ ");") := by
        simp [Indented]
      refine ⟨by simp [Construction.member, Construction.isWrap, Member.head], _, ?_,
        congrArg (List.cons · _) head⟩
      exact .line (by decide) (.line (by decide) (.line (by decide)
        (.line (destroy.ne (by decide)) (.line (descriptor.ne (by decide)) .brace))))

theorem indented_callLines (call : Call) : ∀ line ∈ call.lines, Indented line := by
  cases call with
  | send opcode operands => simp [Call.lines, Indented]
  | construct opcode target operands backfill =>
      cases backfill <;> simp [Call.lines, Indented]

theorem isDefinition_methodLines (m : Method) :
    IsDefinition ((Member.callable m.signature).head p.className) (p.methodLines m) := by
  have head : p.methodHead m = (Member.callable m.signature).head p.className := by
    simp [Member.head, Method.signature, methodHead, String.append_assoc]
  refine ⟨by simp [Member.head, Method.signature], _, ?_, congrArg (List.cons · _) head⟩
  exact .line (by decide) (.append (indented_callLines m.call) .brace)

theorem isDefinition_accessorLines (accessor : Accessor) (slot : Slot) :
    IsDefinition ((Member.callable (accessor.signature slot)).head p.className)
      (p.accessorLines accessor slot) := by
  have result : Indented
      ("  return std::static_pointer_cast<events_t>(get_events())->" ++ slot.name ++ ";") := by
    simp [Indented]
  refine ⟨by simp [Member.head, Accessor.signature], _, ?_, rfl⟩
  exact .line (by decide) (.line (result.ne (by decide)) .brace)

theorem indented_switchLines : ∀ line ∈ p.switchLines, Indented line := by
  unfold switchLines
  split
  · simp
  · simp only [List.forall_mem_append, List.forall_mem_flatMap]
    refine ⟨⟨by simp [Indented], fun found _ => ?_⟩, by simp [Indented]⟩
    simp [branchLines, Indented]

theorem isDefinition_dispatcherLines :
    IsDefinition (Member.dispatcher.head p.className) p.dispatcherLines := by
  refine ⟨by simp [Member.head], openBrace :: (p.switchLines ++ ["  return 0;", closeBrace, ""]),
    ?_, by simp [dispatcherLines, Member.head]⟩
  exact .line (by decide) (.append indented_switchLines (.line (by decide) .brace))

theorem signatures_eq :
    p.signatures = p.methods.map (·.signature) ++
      p.slotAccessors.map fun found => found.1.signature found.2 := by
  simp only [signatures, slotAccessors, slotOf?, List.map_filterMap, Option.map_map,
    Function.comp_def]

theorem headLines_definitionLines :
    headLines false p.definitionLines = p.definedMembers.map (·.head p.className) := by
  unfold definitionLines
  rw [List.append_assoc, List.append_assoc,
    headLines_flatMap fun c _ => isDefinition_constructionLines c,
    headLines_flatMap fun m _ => isDefinition_methodLines m,
    headLines_flatMap fun found _ => isDefinition_accessorLines found.1 found.2,
    ← List.append_nil p.dispatcherLines, headLines_definition isDefinition_dispatcherLines]
  simp [definedMembers, signatures_eq, headLines, Function.comp_def]

/-! ## What the class body declares -/

theorem indented_declaration (class_ : String) (member : Member) :
    Indented (member.declaration class_) := by
  cases member <;> simp [Member.declaration, Indented]

theorem wrapDeclarations_eq :
    p.wrapDeclarations ++ ["  int dispatcher(int opcode, std::vector<any> args) override;"] =
      p.privateMembers.map (·.declaration p.className) := by
  have wrap : "  " ++ p.className ++ "(const " ++ baseClass ++ " &proxy);" =
      Member.wrap.declaration p.className := by
    simp only [Member.declaration, String.append_assoc]
    rfl
  unfold wrapDeclarations privateMembers
  rw [wrap]
  induction p.constructions with
  | nil => rfl
  | cons c rest ih =>
      cases c with
      | wrap _ => exact congrArg (List.cons _) ih
      | default => exact ih

theorem callableDeclarations_eq :
    p.methods.map (fun m => "  " ++ m.declaration) ++ p.accessorDeclarations =
      (p.signatures.map Member.callable).map (·.declaration p.className) := by
  simp only [signatures_eq, accessorDeclarations, List.map_append, List.map_map, Function.comp_def,
    Member.declaration, Method.signature, Method.declaration, Accessor.signature,
    String.append_assoc]
  rfl

theorem defaultDeclarations_eq :
    p.defaultDeclarations ++ (p.methods.map (fun m => "  " ++ m.declaration) ++
      p.accessorDeclarations) = p.publicMembers.map (·.declaration p.className) := by
  rw [callableDeclarations_eq]
  unfold defaultDeclarations publicMembers
  induction p.constructions with
  | nil => rfl
  | cons c rest ih =>
      cases c with
      | wrap _ => exact ih
      | default => exact congrArg (List.cons _) ih

theorem classHead_ne {mark : String} (other : mark.toList.head? ≠ some 'c') :
    "class " ++ p.className ++ " : public " ++ baseClass ≠ mark := by
  rintro rfl
  exact other (by simp)

theorem privateLines_declarationLines :
    privateLines p.declarationLines = p.privateMembers.map (·.declaration p.className) := by
  have opening : ∀ line ∈ ["class " ++ p.className ++ " : public " ++ baseClass, openBrace],
      line ≠ "  " ++ closeBrace ++ ";" :=
    List.forall_mem_cons.mpr ⟨classHead_ne (by decide), by decide⟩
  have slots : ∀ line ∈ p.slots.map
      (fun slot => "    " ++ slot.callbackType ++ " " ++ slot.name ++ ";"),
      line ≠ "  " ++ closeBrace ++ ";" := by
    -- Both are indented, but not as far.
    rw [List.forall_mem_map]
    intro slot _ same
    have same := congrArg String.toList same
    simp only [String.toList_append] at same
    cases same
  have members : ∀ line ∈ p.privateMembers.map (·.declaration p.className), line ≠ "" := by
    rw [List.forall_mem_map]
    exact fun member _ => (indented_declaration _ member).ne (by decide)
  rw [privateLines, declarationLines, classLines, recordLines]
  simp only [List.append_assoc]
  rw [dropWhile_ne_append opening, dropWhile_ne_append (by decide), dropWhile_ne_append slots]
  change (p.wrapDeclarations ++ ([_] ++ "" :: _)).takeWhile _ = _
  rw [← List.append_assoc, wrapDeclarations_eq, takeWhile_ne_append members]

theorem publicLines_declarationLines :
    publicLines p.declarationLines = p.publicMembers.map (·.declaration p.className) := by
  have opening : ∀ line ∈ ["class " ++ p.className ++ " : public " ++ baseClass, openBrace],
      line ≠ "public:" :=
    List.forall_mem_cons.mpr ⟨classHead_ne (by decide), by decide⟩
  have record : ∀ line ∈ p.recordLines, line ≠ "public:" := by
    unfold recordLines
    rw [List.forall_mem_append, List.forall_mem_append, List.forall_mem_map]
    refine ⟨⟨by decide, fun slot _ => Indented.ne ?_ (by decide)⟩, by decide⟩
    simp [Indented]
  have wraps : ∀ line ∈ p.wrapDeclarations, line ≠ "public:" := by
    intro line member
    have hidden : line ∈ p.privateMembers.map (·.declaration p.className) := by
      rw [← wrapDeclarations_eq]
      exact List.mem_append_left _ member
    obtain ⟨declared, -, rfl⟩ := List.mem_map.mp hidden
    exact (indented_declaration _ declared).ne (by decide)
  have grants : ∀ line ∈ p.grantLines, line ≠ "public:" := by
    unfold grantLines
    rw [List.forall_mem_map]
    refine fun grant _ => Indented.ne ?_ (by decide)
    simp [Indented]
  have members : ∀ line ∈ p.publicMembers.map (·.declaration p.className),
      line ≠ closeBrace ++ ";" := by
    rw [List.forall_mem_map]
    exact fun member _ => (indented_declaration _ member).ne (by decide)
  rw [publicLines, declarationLines, classLines]
  simp only [List.append_assoc]
  rw [dropWhile_ne_append opening, dropWhile_ne_append record, dropWhile_ne_append wraps,
    dropWhile_ne_append (by decide), dropWhile_ne_append grants]
  change (p.defaultDeclarations ++
    (_ ++ (p.accessorDeclarations ++ (closeBrace ++ ";") :: _))).takeWhile _ = _
  rw [← List.append_assoc _ p.accessorDeclarations, ← List.append_assoc p.defaultDeclarations,
    defaultDeclarations_eq, takeWhile_ne_append members]

/-! ## Agreement -/

/-- The two blocks of a proxy declare and define the same members. -/
structure MembersAgree (p : Proxy) (declarations definitions : String) : Prop where
  opened : (readLines declarations).head? = some ("class " ++ p.name ++ "_t : public proxy_t")
  hidden : privateLines (readLines declarations) =
    p.privateMembers.map (·.declaration (p.name ++ "_t"))
  offered : publicLines (readLines declarations) =
    p.publicMembers.map (·.declaration (p.name ++ "_t"))
  defined : headLines false (readLines definitions) =
    p.definedMembers.map (·.head (p.name ++ "_t"))
  same : p.definedMembers.Perm p.declaredMembers
  declared_signatures : p.declaredMembers.filterMap (·.signature?) = p.signatures
  defined_signatures : p.definedMembers.filterMap (·.signature?) = p.signatures
  wraps : p.declaredMembers.count .wrap = p.constructions.countP (·.isWrap)
  defaults : p.declaredMembers.count .default = p.constructions.countP (!·.isWrap)
  dispatchers : p.declaredMembers.count .dispatcher = 1

theorem definedMembers_perm : p.definedMembers.Perm p.declaredMembers := by
  have constructors : (p.constructions.map (·.member)).Perm
      ((p.constructions.filter (·.isWrap)).map (·.member) ++
        (p.constructions.filter (!·.isWrap)).map (·.member)) := by
    rw [← List.map_append]
    exact (List.filter_append_perm _ _).symm.map _
  unfold definedMembers declaredMembers privateMembers publicMembers
  refine ((constructors.append_right _).append_right _).trans ?_
  simp only [List.append_assoc]
  refine List.Perm.append_left _ ?_
  rw [← List.append_assoc]
  exact List.perm_append_comm

theorem filterMap_signature?_member (cs : List Construction) :
    (cs.map (·.member)).filterMap (·.signature?) = [] := by
  rw [List.filterMap_map, List.filterMap_eq_nil_iff]
  intro c _
  cases c <;> rfl

theorem filterMap_signature?_callable (signatures : List Signature) :
    (signatures.map Member.callable).filterMap (·.signature?) = signatures := by
  rw [List.filterMap_map]
  exact List.filterMap_some

theorem count_callable {member : Member} (other : member.signature? = none)
    (signatures : List Signature) : (signatures.map Member.callable).count member = 0 := by
  rw [List.count_eq_zero, List.mem_map]
  rintro ⟨s, -, rfl⟩
  cases other

theorem count_declaredMembers {member : Member} (other : member.signature? = none) :
    p.declaredMembers.count member =
      p.constructions.countP (·.member = member) + [Member.dispatcher].count member := by
  rw [← definedMembers_perm.count_eq]
  simp only [definedMembers, List.count_append, count_callable other, Nat.add_zero]
  rw [List.count, List.countP_map]
  rfl

theorem readLines_declarationText (unbroken : ∀ s ∈ p.strings, Unbroken s) :
    readLines p.declarationText = p.declarationLines :=
  readLines_text (unbroken_declarationLines unbroken)

theorem readLines_definitionText (unbroken : ∀ s ∈ p.strings, Unbroken s) :
    readLines p.definitionText = p.definitionLines :=
  readLines_text (unbroken_definitionLines unbroken)

theorem membersAgree (unbroken : ∀ s ∈ p.strings, Unbroken s) :
    p.MembersAgree p.declarationText p.definitionText where
  opened := by
    have head : p.declarationLines.head? =
        some ("class " ++ (p.name ++ "_t") ++ " : public " ++ "proxy_t") := rfl
    rw [readLines_declarationText unbroken, head]
    simp only [String.append_assoc]
    rfl
  hidden := by
    rw [readLines_declarationText unbroken]
    exact privateLines_declarationLines
  offered := by
    rw [readLines_declarationText unbroken]
    exact publicLines_declarationLines
  defined := by
    rw [readLines_definitionText unbroken]
    exact headLines_definitionLines
  same := definedMembers_perm
  declared_signatures := by
    simp only [declaredMembers, privateMembers, publicMembers, List.filterMap_append,
      filterMap_signature?_member, filterMap_signature?_callable]
    rfl
  defined_signatures := by
    simp only [definedMembers, List.filterMap_append, filterMap_signature?_member,
      filterMap_signature?_callable, List.nil_append]
    exact List.append_nil _
  wraps := by
    rw [count_declaredMembers rfl]
    refine List.countP_congr fun c _ => ?_
    cases c <;> simp [Construction.member, Construction.isWrap]
  defaults := by
    rw [count_declaredMembers rfl]
    refine List.countP_congr fun c _ => ?_
    cases c <;> simp [Construction.member, Construction.isWrap]
  dispatchers := by
    have constructors : p.constructions.countP (·.member = .dispatcher) = 0 := by
      rw [List.countP_eq_zero]
      intro c _
      cases c <;> simp [Construction.member, Construction.isWrap]
    rw [count_declaredMembers rfl, constructors]
    rfl

end Proxy

/-- Whatever is in a binding, each class is declared and defined with the same members. -/
theorem Binding.members_agree (b : Binding) (style : OutputStyle)
    (unbroken : ∀ p ∈ b.proxies, ∀ s ∈ p.strings, Unbroken s) :
    Code.text (b.declarationLines style) =
        Code.text style.preamble ++
          String.join (b.forwards.map fun name => "class " ++ name ++ "_t;\n") ++ "\n" ++
          String.join (b.proxies.map (·.declarationText)) ++ "#endif\n" ∧
      Code.text (b.definitionLines style) =
        Code.text style.definitionsHead ++ String.join (b.proxies.map (·.definitionText)) ∧
      ∀ p ∈ b.proxies, p.MembersAgree p.declarationText p.definitionText := by
  refine ⟨?_, b.text_definitionLines style, fun p member => p.membersAgree (unbroken p member)⟩
  rw [b.text_declarationLines style]
  simp only [forwardLine, className, String.append_assoc]
  rfl

/-- A proxy with constructors out of order and with an accessor and a branch that lead nowhere. -/
def strayProxy : Proxy where
  name := "seat"
  descriptor := "wayland_seat_interface"
  slots := [⟨"name", [.text]⟩]
  constructions := [.default, .wrap none, .default]
  grants := ["registry"]
  methods := [⟨"get_pointer", 0, [], some (.proxy "pointer"),
    .construct 0 (.descriptor "wayland_pointer_interface") [.newObject] none⟩]
  accessors := [⟨"on_lost", 7⟩, ⟨"on_name", 0⟩]
  branches := [⟨0, 7, []⟩]
  groups := [⟨"seat_capability", [⟨"pointer", "1"⟩]⟩]

theorem Binding.members_agree_stray :
    (∀ p ∈ [strayProxy], ∀ s ∈ p.strings, Unbroken s) ∧
      privateLines (readLines strayProxy.declarationText) =
        ["  seat_t(const proxy_t &proxy);",
          "  int dispatcher(int opcode, std::vector<any> args) override;"] ∧
      publicLines (readLines strayProxy.declarationText) =
        ["  seat_t();", "  seat_t();", "  pointer_t get_pointer();",
          "  std::function<void(std::string)> &on_name();"] ∧
      headLines false (readLines strayProxy.definitionText) =
        ["seat_t::seat_t()", "seat_t::seat_t(const proxy_t &p)", "seat_t::seat_t()",
          "pointer_t seat_t::get_pointer()",
          "std::function<void(std::string)> &seat_t::on_name()",
          "int seat_t::dispatcher(int opcode, std::vector<any> args)"] := by
  have unbroken : ∀ p ∈ [strayProxy], ∀ s ∈ p.strings, Unbroken s := by decide
  obtain ⟨-, -, agree⟩ := Binding.members_agree ⟨["registry"], [strayProxy]⟩ default unbroken
  have agree := agree strayProxy (List.mem_singleton_self _)
  exact ⟨unbroken, agree.hidden, agree.offered, agree.defined⟩

end WireProxy
