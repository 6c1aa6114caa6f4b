import WireProxy.Proofs.Members

/-!
# Nesting

Brackets are read with a stack of those that are still to be closed.  A well-nested text leaves
every stack as it is, so it can be skipped when a longer text is read, and what remains of a block
are the fixed brackets of its lines.
-/

namespace WireProxy

namespace Code

/-- The bracket that closes an opening one. -/
def closing? : Char → Option Char
  | '(' => some ')'
  | '[' => some ']'
  | '{' => some '}'
  | _ => none

def isClosing (c : Char) : Bool :=
  c == ')' || c == ']' || c == '}'

/-- Reads a character while closing brackets are pending, the one to come first at the front. -/
def nestStep? (pending : List Char) (c : Char) : Option (List Char) :=
  match closing? c with
  | some close => some (close :: pending)
  | none =>
      if isClosing c then
        match pending with
        | expected :: outer => if c = expected then some outer else none
        | [] => none
      else some pending

def nest? (pending : List Char) (s : String) : Option (List Char) :=
  s.toList.foldlM nestStep? pending

/-- Every closing bracket is the one for the latest open bracket, and none is left open. -/
def WellNested (s : String) : Prop :=
  nest? [] s = some []

instance (s : String) : Decidable (WellNested s) :=
  inferInstanceAs (Decidable (_ = _))

def brackets : List Char :=
  ['(', ')', '[', ']', '{', '}']

def Unbracketed (s : String) : Prop :=
  ∀ c ∈ s.toList, c ∉ brackets

instance (s : String) : Decidable (Unbracketed s) :=
  List.decidableBAll (· ∉ brackets) s.toList

theorem nestStep?_of_notMem {c : Char} (plain : c ∉ brackets) (pending : List Char) :
    nestStep? pending c = some pending := by
  simp only [brackets, List.mem_cons, List.not_mem_nil, or_false, not_or] at plain
  have opens : closing? c = none := by
    unfold closing?
    split <;> simp_all
  have closes : isClosing c = false := by simp [isClosing, plain]
  simp [nestStep?, opens, closes]

theorem nestStep?_outer {before after : List Char} {c : Char}
    (read : nestStep? before c = some after) (outer : List Char) :
    nestStep? (before ++ outer) c = some (after ++ outer) := by
  unfold nestStep? at read ⊢
  cases opened : closing? c with
  | some close =>
      rw [opened, Option.some.injEq] at read
      rw [← read]
      rfl
  | none =>
      rw [opened] at read
      cases closes : isClosing c with
      | false =>
          rw [closes, if_neg Bool.false_ne_true, Option.some.injEq] at read
          rw [read, if_neg Bool.false_ne_true]
      | true =>
          rw [closes, if_pos rfl] at read
          rw [if_pos rfl]
          cases before with
          | nil => cases read
          | cons expected inner =>
              obtain ⟨same, rest⟩ := Option.ite_none_right_eq_some.mp read
              obtain rfl := Option.some.inj rest
              exact if_pos same

theorem nest?_outer {before after : List Char} {s : String} (read : nest? before s = some after)
    (outer : List Char) : nest? (before ++ outer) s = some (after ++ outer) := by
  unfold nest? at read ⊢
  -- By induction on the characters; what is pending on the inside changes with each of them.
  generalize s.toList = cs at read ⊢
  induction cs generalizing before with
  | nil =>
      obtain rfl := Option.some.inj read
      rfl
  | cons c cs ih =>
      rw [List.foldlM_cons] at read ⊢
      obtain ⟨next, step, rest⟩ := Option.bind_eq_some_iff.mp read
      rw [nestStep?_outer step]
      exact ih rest

theorem nest?_append (pending : List Char) (s t : String) :
    nest? pending (s ++ t) = (nest? pending s).bind fun pending => nest? pending t := by
  rw [nest?, String.toList_append, List.foldlM_append]
  rfl

theorem WellNested.nest? {s : String} (nested : WellNested s) (pending : List Char) :
    nest? pending s = some pending :=
  nest?_outer nested pending

theorem WellNested.append {s t : String} (first : WellNested s) (second : WellNested t) :
    WellNested (s ++ t) := by
  rw [WellNested, nest?_append, first.nest?]
  exact second

/-- Literals are checked by their characters, which need not be decoded for that. -/
theorem nest?_literal {cs before after : List Char}
    (read : cs.foldlM nestStep? before = some after) :
    nest? before (String.ofList cs) = some after := by
  rw [Code.nest?, String.toList_ofList]
  exact read

theorem wellNested_literal {cs : List Char} (read : cs.foldlM nestStep? [] = some []) :
    WellNested (String.ofList cs) :=
  nest?_literal read

/-- What is left open before the middle part is closed after it. -/
theorem WellNested.enclosed {opening middle ending : String} (nested : WellNested middle)
    (pending : List Char) (opens : Code.nest? [] opening = some pending)
    (closes : Code.nest? pending ending = some []) : WellNested (opening ++ middle ++ ending) := by
  rw [WellNested, nest?_append, nest?_append, opens, Option.bind_some, nested.nest?,
    Option.bind_some, closes]

theorem Unbracketed.wellNested {s : String} (plain : Unbracketed s) : WellNested s := by
  unfold Unbracketed at plain
  unfold WellNested Code.nest?
  generalize s.toList = cs at plain ⊢
  induction cs with
  | nil => rfl
  | cons c cs ih =>
      obtain ⟨first, rest⟩ := List.forall_mem_cons.mp plain
      rw [List.foldlM_cons, nestStep?_of_notMem first]
      exact ih rest

theorem wellNested_toString (n : Nat) : WellNested (toString n) := by
  have digits : (toString n).toList = Nat.toDigits 10 n := String.toList_ofList
  apply Unbracketed.wellNested
  rw [Unbracketed, digits]
  intro c member isBracket
  have outside : brackets.all (fun b => b.toNat < '0'.toNat ∨ '9'.toNat < b.toNat) = true := by
    decide
  have lower : '0'.toNat ≤ c.toNat := (Text.isDigit_of_mem_toDigits member).1
  have upper : c.toNat ≤ '9'.toNat := (Text.isDigit_of_mem_toDigits member).2
  rcases decide_eq_true_iff.mp (List.all_eq_true.mp outside c isBracket) with below | above
  · exact absurd lower (Nat.not_le.mpr below)
  · exact absurd upper (Nat.not_le.mpr above)

theorem wellNested_commaSeparated {items : List String} (nested : ∀ item ∈ items, WellNested item) :
    WellNested (commaSeparated items) := by
  induction items with
  | nil => decide
  | cons item rest ih =>
      obtain ⟨first, others⟩ := List.forall_mem_cons.mp nested
      cases rest with
      | nil => simpa [commaSeparated] using first
      | cons next rest =>
          have comma : WellNested ", " := by decide
          have rest := ih others
          unfold commaSeparated at rest ⊢
          rw [String.intercalate_cons_cons]
          exact (first.append comma).append rest

/-! ## Lines -/

theorem nest?_text_nil (pending : List Char) : nest? pending (text []) = some pending := rfl

theorem nest?_text_cons (pending : List Char) (line : String) (rest : Lines) :
    nest? pending (text (line :: rest)) =
      (nest? pending line).bind fun pending => nest? pending (text rest) := by
  have ending : WellNested "\n" := by decide
  rw [text_cons, nest?_append, nest?_append, Option.bind_assoc]
  simp only [ending.nest?, Option.bind_some]

theorem nest?_text_append (pending : List Char) (first second : Lines) :
    nest? pending (text (first ++ second)) =
      (nest? pending (text first)).bind fun pending => nest? pending (text second) := by
  rw [text_append, nest?_append]

theorem WellNested.text_cons {line : String} {rest : Lines} (first : WellNested line)
    (others : WellNested (text rest)) : WellNested (text (line :: rest)) := by
  rw [WellNested, nest?_text_cons, first.nest?]
  exact others

/-- What is left open before the lines in the middle is closed after them. -/
theorem WellNested.text_enclosed {first middle last : Lines} (nested : WellNested (text middle))
    (pending : List Char) (opens : Code.nest? [] (text first) = some pending)
    (closes : Code.nest? pending (text last) = some []) :
    WellNested (text (first ++ middle ++ last)) := by
  rw [text_append, text_append]
  exact nested.enclosed pending opens closes

theorem nest?_text_literal {cs before after : List Char} {rest : Lines} (middle : List Char)
    (read : cs.foldlM nestStep? before = some middle)
    (others : nest? middle (text rest) = some after) :
    nest? before (text (String.ofList cs :: rest)) = some after := by
  rw [nest?_text_cons, nest?_literal read, Option.bind_some, others]

theorem wellNested_text {lines : Lines} (nested : ∀ line ∈ lines, WellNested line) :
    WellNested (text lines) := by
  induction lines with
  | nil => rfl
  | cons line rest ih =>
      obtain ⟨first, others⟩ := List.forall_mem_cons.mp nested
      exact first.text_cons (ih others)

theorem wellNested_text_flatten {blocks : List Lines}
    (nested : ∀ block ∈ blocks, WellNested (text block)) : WellNested (text blocks.flatten) := by
  induction blocks with
  | nil => rfl
  | cons block rest ih =>
      obtain ⟨first, others⟩ := List.forall_mem_cons.mp nested
      rw [List.flatten_cons, text_append]
      exact first.append (ih others)

theorem wellNested_text_flatMap {α : Type} {lines : α → Lines} {xs : List α}
    (nested : ∀ x ∈ xs, WellNested (text (lines x))) : WellNested (text (xs.flatMap lines)) := by
  rw [List.flatMap_def]
  exact wellNested_text_flatten (List.forall_mem_map.mpr nested)

theorem flatten_flatMap {α : Type} {blocks : α → List Lines} {lines : α → Lines}
    (each : ∀ x, (blocks x).flatten = lines x) (xs : List α) :
    (xs.flatMap blocks).flatten = xs.flatMap lines := by
  induction xs with
  | nil => rfl
  | cons x xs ih => rw [List.flatMap_cons, List.flatten_append, each, ih, List.flatMap_cons]

end Code

open Code

/-! ## Spellings -/

theorem wellNested_className {interface : String} (nested : WellNested interface) :
    WellNested (className interface) :=
  nested.append (by decide)

theorem wellNested_spellingTexts : ∀ s ∈ spellingTexts, WellNested s := by
  decide +kernel

theorem ValueType.wellNested_spelling {type : ValueType}
    (nested : ∀ s ∈ type.strings, WellNested s) : WellNested type.spelling :=
  spelling_of (fun _ _ => .append) wellNested_spellingTexts nested

theorem WireForm.wellNested_spelling {form : WireForm} (nested : ∀ s ∈ form.strings, WellNested s) :
    WellNested form.spelling := by
  cases form with
  | raw token => exact nested token (List.mem_singleton_self _)
  | _ => exact wellNested_literal (by decide)

theorem Slot.wellNested_callbackType {slot : Slot} (nested : ∀ s ∈ slot.strings, WellNested s) :
    WellNested slot.callbackType := by
  have types : WellNested (commaSeparated (slot.params.map (·.spelling))) := by
    apply wellNested_commaSeparated
    rw [List.forall_mem_map]
    intro type member
    apply ValueType.wellNested_spelling
    intro s inside
    exact nested s (List.mem_cons_of_mem _ (List.mem_flatMap.mpr ⟨type, member, inside⟩))
  unfold callbackType
  -- The parenthesis of the first literal is pending until the last one.
  exact types.enclosed [')'] (nest?_literal (by decide)) (nest?_literal (by decide))

theorem Parameter.wellNested_spelling {param : Parameter}
    (nested : ∀ s ∈ param.strings, WellNested s) : WellNested param.spelling :=
  spelling_of (fun _ _ => .append) wellNested_spellingTexts nested

theorem Operand.wellNested_spelling {operand : Operand}
    (nested : ∀ s ∈ operand.strings, WellNested s) : WellNested operand.spelling := by
  cases operand with
  | newObject => decide
  | arg param => exact nested param (List.mem_singleton_self _)
  | version param => exact nested param (List.mem_singleton_self _)
  | handleName param =>
      have name := nested param (List.mem_singleton_self _)
      unfold spelling
      exact name.enclosed [')'] (nest?_literal (by decide)) (nest?_literal (by decide))

theorem Operand.wellNested_spellings {operands : List Operand}
    (nested : ∀ operand ∈ operands, ∀ s ∈ operand.strings, WellNested s) :
    ∀ item ∈ operands.map (·.spelling), WellNested item := by
  rw [List.forall_mem_map]
  exact fun operand member => wellNested_spelling (nested operand member)

theorem Target.wellNested_spelling {target : Target} (nested : ∀ s ∈ target.strings, WellNested s) :
    WellNested target.spelling := by
  cases target with
  | descriptor symbol =>
      exact WellNested.append (by decide) (nested symbol (List.mem_singleton_self _))
  | fromHandle param => exact (nested param (List.mem_singleton_self _)).append (by decide)

namespace Method

variable {m : Method}

theorem wellNested_returnType (nested : ∀ s ∈ m.strings, WellNested s) :
    WellNested m.returnType := by
  obtain ⟨-, -, returns, -⟩ := Method.forall_mem_strings.mp nested
  exact returnType_of (fun _ _ => .append) wellNested_spellingTexts returns

theorem wellNested_parameterList (nested : ∀ s ∈ m.strings, WellNested s) :
    WellNested m.parameterList := by
  obtain ⟨-, params, -⟩ := Method.forall_mem_strings.mp nested
  apply wellNested_commaSeparated
  rw [List.forall_mem_map]
  intro param member
  exact Parameter.wellNested_spelling (params param member)

theorem wellNested_declaration (nested : ∀ s ∈ m.strings, WellNested s) :
    WellNested m.declaration := by
  obtain ⟨name, -⟩ := Method.forall_mem_strings.mp nested
  unfold declaration
  simp only [WellNested, nest?_append, Option.bind_assoc, name.nest?,
    (wellNested_returnType nested).nest?, (wellNested_parameterList nested).nest?,
    Option.bind_some]
  decide

end Method

/-! ## Declarations -/

namespace ConstantGroup

theorem wellNested_constantLines {constants : List Constant}
    (nested : ∀ constant ∈ constants, WellNested constant.name ∧ WellNested constant.value) :
    ∀ line ∈ constantLines constants, WellNested line := by
  fun_induction constantLines constants with
  | case1 => simp
  | case2 last =>
      obtain ⟨name, value⟩ := nested last (List.mem_singleton_self _)
      rw [List.forall_mem_singleton]
      simp only [WellNested, nest?_append, Option.bind_assoc, name.nest?, value.nest?,
        Option.bind_some]
      decide
  | case3 constant rest _ ih =>
      obtain ⟨⟨name, value⟩, others⟩ := List.forall_mem_cons.mp nested
      refine List.forall_mem_cons.mpr ⟨?_, ih others⟩
      simp only [WellNested, nest?_append, Option.bind_assoc, name.nest?, value.nest?,
        Option.bind_some]
      decide

theorem wellNested_lines {g : ConstantGroup} (nested : ∀ s ∈ g.strings, WellNested s) :
    WellNested (text g.lines) := by
  obtain ⟨name, constants⟩ := List.forall_mem_cons.mp nested
  have head : WellNested ("enum " ++ g.name) := WellNested.append (by decide) name
  unfold ConstantGroup.lines
  refine WellNested.text_enclosed (wellNested_text (wellNested_constantLines ?_)) ['}'] ?_
    (by decide)
  · intro constant member
    have pair := List.forall_mem_flatMap.mp constants constant member
    exact ⟨pair _ (by simp), pair _ (by simp)⟩
  · rw [nest?_text_cons, head.nest?]
    decide

end ConstantGroup

namespace Proxy

variable {p : Proxy}

theorem wellNested_recordLines (slots : ∀ slot ∈ p.slots, ∀ s ∈ slot.strings, WellNested s) :
    WellNested (text p.recordLines) := by
  unfold recordLines
  refine WellNested.text_enclosed (wellNested_text ?_) ['}'] (by decide) (by decide)
  rw [List.forall_mem_map]
  intro slot member
  have name := slots slot member slot.name List.mem_cons_self
  have type := Slot.wellNested_callbackType (slots slot member)
  simp only [WellNested, nest?_append, Option.bind_assoc, name.nest?, type.nest?, Option.bind_some]
  decide

theorem wellNested_wrapDeclarations (className : WellNested p.className) :
    WellNested (text p.wrapDeclarations) := by
  apply wellNested_text
  intro line member
  obtain ⟨construction, -, written⟩ := List.mem_filterMap.mp member
  cases construction with
  | wrap destroyOpcode =>
      obtain rfl := Option.some.inj written
      simp only [WellNested, nest?_append, Option.bind_assoc, className.nest?, Option.bind_some]
      decide
  | default => cases written

theorem wellNested_defaultDeclarations (className : WellNested p.className) :
    WellNested (text p.defaultDeclarations) := by
  apply wellNested_text
  intro line member
  obtain ⟨construction, -, written⟩ := List.mem_filterMap.mp member
  cases construction with
  | wrap destroyOpcode => cases written
  | default =>
      obtain rfl := Option.some.inj written
      simp only [WellNested, nest?_append, Option.bind_assoc, className.nest?, Option.bind_some]
      decide

theorem wellNested_grantLines (grants : ∀ grant ∈ p.grants, WellNested grant) :
    WellNested (text p.grantLines) := by
  apply wellNested_text
  unfold grantLines
  rw [List.forall_mem_map]
  intro grant member
  have granted := wellNested_className (grants grant member)
  exact (WellNested.append (by decide) granted).append (by decide)

theorem wellNested_accessorDeclarations
    (slots : ∀ slot ∈ p.slots, ∀ s ∈ slot.strings, WellNested s)
    (accessors : ∀ accessor ∈ p.accessors, WellNested accessor.name) :
    WellNested (text p.accessorDeclarations) := by
  apply wellNested_text
  unfold accessorDeclarations
  rw [List.forall_mem_map]
  rintro ⟨accessor, slot⟩ member
  obtain ⟨isAccessor, found⟩ := mem_slotAccessors.mp member
  have name := accessors accessor isAccessor
  have type := Slot.wellNested_callbackType (slots slot (List.mem_of_getElem? found))
  simp only [WellNested, nest?_append, Option.bind_assoc, name.nest?, type.nest?, Option.bind_some]
  decide

theorem wellNested_classLines (nested : ∀ s ∈ p.strings, WellNested s) :
    WellNested (text p.classLines) := by
  obtain ⟨name, -, slots, grants, methods, accessors, -, -⟩ :=
    Proxy.forall_mem_strings.mp nested
  have className : WellNested p.className := wellNested_className name
  have declarations : WellNested (text (p.methods.map fun m => "  " ++ m.declaration)) := by
    apply wellNested_text
    rw [List.forall_mem_map]
    intro m member
    exact WellNested.append (by decide) (Method.wellNested_declaration (methods m member))
  unfold classLines
  -- All parts but the outer braces and the line of the dispatcher are skipped.
  simp only [WellNested, nest?_text_append, nest?_text_cons, nest?_text_nil, nest?_append,
    Option.bind_assoc, className.nest?, (wellNested_recordLines slots).nest?,
    (wellNested_wrapDeclarations className).nest?, (wellNested_grantLines grants).nest?,
    (wellNested_defaultDeclarations className).nest?, declarations.nest?,
    (wellNested_accessorDeclarations slots accessors).nest?, Option.bind_some]
  decide

end Proxy

/-! ## Definitions -/

theorem Call.wellNested_lines {call : Call} (nested : ∀ s ∈ call.strings, WellNested s) :
    WellNested (text call.lines) := by
  cases call with
  | send opcode operands =>
      have items : WellNested (commaSeparated
          (toString opcode.toNat :: operands.map (·.spelling))) := by
        apply wellNested_commaSeparated
        exact List.forall_mem_cons.mpr ⟨wellNested_toString _,
          Operand.wellNested_spellings (List.forall_mem_flatMap.mp nested)⟩
      unfold lines
      refine WellNested.text_cons ?_ rfl
      exact items.enclosed [')'] (nest?_literal (by decide)) (nest?_literal (by decide))
  | construct opcode target operands backfill =>
      simp only [Call.strings, List.forall_mem_append, List.forall_mem_flatMap] at nested
      obtain ⟨⟨targeted, carried⟩, handles⟩ := nested
      have items : WellNested (commaSeparated
          (toString opcode.toNat :: target.spelling :: operands.map (·.spelling))) := by
        apply wellNested_commaSeparated
        rw [List.forall_mem_cons, List.forall_mem_cons]
        exact ⟨wellNested_toString _, Target.wellNested_spelling targeted,
          Operand.wellNested_spellings carried⟩
      cases backfill with
      | none =>
          unfold lines
          simp only [WellNested, nest?_text_append, nest?_text_cons, nest?_text_nil, nest?_append,
            Option.bind_assoc, items.nest?, Option.bind_some]
          decide
      | some handle =>
          have handle := handles handle (by simp)
          unfold lines
          simp only [WellNested, nest?_text_append, nest?_text_cons, nest?_text_nil, nest?_append,
            Option.bind_assoc, items.nest?, handle.nest?, Option.bind_some]
          decide

namespace Proxy

variable {p : Proxy}

theorem wellNested_destroyNumber (opcode : Option UInt32) : WellNested (destroyNumber opcode) := by
  cases opcode with
  | none => decide
  | some opcode => exact wellNested_toString opcode.toNat

/-- A head and the statements after it in braces. -/
theorem wellNested_function (head body : Lines) (first : ∀ line ∈ head, WellNested line)
    (statements : WellNested (text body)) :
    WellNested (text (head ++ openBrace :: body ++ [closeBrace, ""])) := by
  simp only [WellNested, nest?_text_append, nest?_text_cons, nest?_text_nil, Option.bind_assoc,
    (wellNested_text first).nest?, statements.nest?, Option.bind_some]
  decide

theorem wellNested_constructionLines (className : WellNested p.className)
    (descriptor : WellNested p.descriptor) (construction : Construction) :
    WellNested (text (p.constructionLines construction)) := by
  have symbol : WellNested p.descriptorLine := by
    unfold descriptorLine
    exact (WellNested.append (by decide) descriptor).append (by decide)
  cases construction with
  | default =>
      have head : WellNested (p.className ++ "::" ++ p.className ++ "()") :=
        ((className.append (by decide)).append className).append (by decide)
      exact wellNested_function [_] [p.descriptorLine] (List.forall_mem_singleton.mpr head)
        (symbol.text_cons rfl)
  | wrap destroyOpcode =>
      have head : WellNested (p.className ++ "::" ++ p.className ++ "(const " ++ baseClass ++
          " &p)") := by
        simp only [WellNested, nest?_append, Option.bind_assoc, className.nest?, Option.bind_some]
        decide
      have base : WellNested baseClass := wellNested_literal (by decide)
      have number := wellNested_destroyNumber destroyOpcode
      refine wellNested_function [_, _] [_, _, p.descriptorLine] ?_ ?_
      · rw [List.forall_mem_cons, List.forall_mem_singleton]
        exact ⟨head, by decide⟩
      · refine WellNested.text_cons ?_ (WellNested.text_cons ?_ (symbol.text_cons rfl))
        · exact base.enclosed [')'] (nest?_literal (by decide)) (nest?_literal (by decide))
        · exact number.enclosed [')'] (nest?_literal (by decide)) (nest?_literal (by decide))

theorem wellNested_methodLines (className : WellNested p.className) {m : Method}
    (nested : ∀ s ∈ m.strings, WellNested s) : WellNested (text (p.methodLines m)) := by
  obtain ⟨name, -, -, call⟩ := Method.forall_mem_strings.mp nested
  have head : WellNested (p.methodHead m) := by
    unfold methodHead
    simp only [WellNested, nest?_append, Option.bind_assoc, className.nest?, name.nest?,
      (Method.wellNested_returnType nested).nest?, (Method.wellNested_parameterList nested).nest?,
      Option.bind_some]
    decide
  exact wellNested_function [p.methodHead m] m.call.lines (List.forall_mem_singleton.mpr head)
    (Call.wellNested_lines call)

theorem wellNested_accessorLines (className : WellNested p.className) {accessor : Accessor}
    {slot : Slot} (name : WellNested accessor.name) (nested : ∀ s ∈ slot.strings, WellNested s) :
    WellNested (text (p.accessorLines accessor slot)) := by
  have type := Slot.wellNested_callbackType nested
  have slotName := nested slot.name List.mem_cons_self
  have head :
      WellNested (slot.callbackType ++ " &" ++ p.className ++ "::" ++ accessor.name ++ "()") :=
    ((((type.append (by decide)).append className).append (by decide)).append name).append
      (by decide)
  refine wellNested_function [_] [_] (List.forall_mem_singleton.mpr head)
    (WellNested.text_cons ?_ rfl)
  exact (WellNested.append (wellNested_literal (by decide)) slotName).append (by decide)

theorem wellNested_decoding {form : WireForm} (nested : ∀ s ∈ form.strings, WellNested s)
    (index : Nat) : WellNested (decoding form index) := by
  unfold decoding
  simp only [WellNested, nest?_append, Option.bind_assoc, (wellNested_toString index).nest?,
    (WireForm.wellNested_spelling nested).nest?, Option.bind_some]
  decide

theorem wellNested_branchLines {branch : Branch} {slot : Slot} (name : WellNested slot.name)
    (nested : ∀ s ∈ branch.strings, WellNested s) :
    WellNested (text (branchLines branch slot)) := by
  have items : ∀ item ∈ branch.decoders.zipIdx, WellNested (decoding item.1 item.2) := by
    intro item member
    have isDecoder := List.fst_mem_of_mem_zipIdx member
    exact wellNested_decoding (List.forall_mem_flatMap.mp nested item.1 isDecoder) item.2
  have list := wellNested_commaSeparated (List.forall_mem_map.mpr items)
  unfold branchLines
  simp only [WellNested, nest?_text_cons, nest?_text_nil, nest?_append, Option.bind_assoc,
    (wellNested_toString branch.opcode.toNat).nest?, name.nest?, list.nest?, Option.bind_some]
  decide

theorem wellNested_switchLines (slots : ∀ slot ∈ p.slots, ∀ s ∈ slot.strings, WellNested s)
    (branches : ∀ branch ∈ p.branches, ∀ s ∈ branch.strings, WellNested s) :
    WellNested (text p.switchLines) := by
  unfold switchLines
  split
  · decide
  · refine WellNested.text_enclosed (wellNested_text_flatMap ?_) ['}']
      (nest?_text_literal [] (by decide) (by decide)) (by decide)
    rintro ⟨branch, slot⟩ member
    obtain ⟨isBranch, found⟩ := mem_slotBranches.mp member
    have name := slots slot (List.mem_of_getElem? found) slot.name List.mem_cons_self
    exact wellNested_branchLines name (branches branch isBranch)

theorem wellNested_dispatcherLines (className : WellNested p.className)
    (slots : ∀ slot ∈ p.slots, ∀ s ∈ slot.strings, WellNested s)
    (branches : ∀ branch ∈ p.branches, ∀ s ∈ branch.strings, WellNested s) :
    WellNested (text p.dispatcherLines) := by
  have head : WellNested
      ("int " ++ p.className ++ "::dispatcher(int opcode, std::vector<any> args)") :=
    (WellNested.append (by decide) className).append (wellNested_literal (by decide))
  have statements : WellNested (text (p.switchLines ++ ["  return 0;"])) := by
    rw [text_append]
    exact (wellNested_switchLines slots branches).append (by decide)
  have block := wellNested_function [_] _ (List.forall_mem_singleton.mpr head) statements
  unfold dispatcherLines
  simpa only [List.cons_append, List.nil_append, List.append_assoc] using block

/-! ## Whole texts -/

/-- The class and each of the enumerations that follow it. -/
def declarationBlocks (p : Proxy) : List Lines :=
  p.classLines :: p.groups.map fun group => group.lines ++ [""]

/-- The functions, one by one. -/
def definitionBlocks (p : Proxy) : List Lines :=
  p.constructions.map p.constructionLines ++ p.methods.map p.methodLines ++
    p.slotAccessors.map (fun (accessor, slot) => p.accessorLines accessor slot) ++
    [p.dispatcherLines]

theorem flatten_declarationBlocks (p : Proxy) :
    p.declarationBlocks.flatten = p.declarationLines := by
  rw [declarationBlocks, List.flatten_cons, ← List.flatMap_def]
  rfl

theorem flatten_definitionBlocks (p : Proxy) : p.definitionBlocks.flatten = p.definitionLines := by
  simp only [definitionBlocks, List.flatten_append, ← List.flatMap_def, List.flatten_cons,
    List.flatten_nil, List.append_nil]
  rfl

theorem wellNested_declarationBlocks (nested : ∀ s ∈ p.strings, WellNested s) :
    ∀ block ∈ p.declarationBlocks, WellNested (text block) := by
  obtain ⟨-, -, -, -, -, -, -, groups⟩ := Proxy.forall_mem_strings.mp nested
  unfold declarationBlocks
  rw [List.forall_mem_cons, List.forall_mem_map]
  refine ⟨wellNested_classLines nested, fun group member => ?_⟩
  rw [text_append]
  exact (ConstantGroup.wellNested_lines (groups group member)).append (by decide)

theorem wellNested_definitionBlocks (nested : ∀ s ∈ p.strings, WellNested s) :
    ∀ block ∈ p.definitionBlocks, WellNested (text block) := by
  obtain ⟨name, descriptor, slots, -, methods, accessors, branches, -⟩ :=
    Proxy.forall_mem_strings.mp nested
  have className : WellNested p.className := wellNested_className name
  unfold definitionBlocks
  simp only [List.forall_mem_append, List.forall_mem_map, List.forall_mem_singleton, and_assoc]
  refine ⟨fun construction _ => wellNested_constructionLines className descriptor construction,
    fun m member => wellNested_methodLines className (methods m member), ?_,
    wellNested_dispatcherLines className slots branches⟩
  rintro ⟨accessor, slot⟩ member
  obtain ⟨isAccessor, found⟩ := mem_slotAccessors.mp member
  exact wellNested_accessorLines className (accessors accessor isAccessor)
    (slots slot (List.mem_of_getElem? found))

end Proxy

theorem wellNested_includeLine {file : String} (nested : WellNested file) :
    WellNested (includeLine file) := by
  unfold includeLine
  exact (WellNested.append (by decide) nested).append (by decide)

def OutputStyle.strings (style : OutputStyle) : List String :=
  style.headerGuard :: style.systemIncludes ++ [style.runtimeInclude, style.definitionsInclude]

theorem OutputStyle.wellNested_preamble {style : OutputStyle}
    (nested : ∀ s ∈ style.strings, WellNested s) : WellNested (text style.preamble) := by
  simp only [strings, List.forall_mem_append, List.forall_mem_cons] at nested
  obtain ⟨⟨guard, system⟩, runtime, -⟩ := nested
  have empty : WellNested "" := rfl
  have tests : WellNested ("#ifndef " ++ style.headerGuard) := WellNested.append (by decide) guard
  have defines : WellNested ("#define " ++ style.headerGuard) := WellNested.append (by decide) guard
  apply wellNested_text
  simp only [preamble, List.forall_mem_append, List.forall_mem_map, List.forall_mem_cons, tests,
    defines, empty, wellNested_includeLine runtime]
  simpa using fun file member => wellNested_includeLine (system file member)

/-- The lines are made of blocks, and no bracket is open at the end of a block. -/
structure Code.NestedInBlocks (lines : Lines) (blocks : List Lines) : Prop where
  whole : blocks.flatten = lines
  wellNested : WellNested (text lines)
  closed : ∀ k, WellNested (text (blocks.take k).flatten)

theorem Code.nested_of_blocks {lines : Lines} {blocks : List Lines}
    (whole : blocks.flatten = lines) (each : ∀ block ∈ blocks, WellNested (text block)) :
    NestedInBlocks lines blocks where
  whole := whole
  wellNested := by
    rw [← whole]
    exact wellNested_text_flatten each
  closed k := wellNested_text_flatten fun block member => each block (List.mem_of_mem_take member)

namespace Binding

variable {b : Binding} {style : OutputStyle}

def strings (b : Binding) : List String :=
  b.forwards ++ b.proxies.flatMap (·.strings)

/-- What comes before the first class, the blocks of each proxy, and the end of the header. -/
def declarationBlocks (b : Binding) (style : OutputStyle) : List Lines :=
  (style.preamble ++ b.forwards.map forwardLine ++ [""]) ::
    b.proxies.flatMap (·.declarationBlocks) ++ [["#endif"]]

def definitionBlocks (b : Binding) (style : OutputStyle) : List Lines :=
  style.definitionsHead :: b.proxies.flatMap (·.definitionBlocks)

theorem flatten_declarationBlocks :
    (b.declarationBlocks style).flatten = b.declarationLines style := by
  have proxies := flatten_flatMap (fun p : Proxy => p.flatten_declarationBlocks) b.proxies
  simp only [declarationBlocks, declarationLines, List.cons_append, List.flatten_cons,
    List.flatten_append, List.flatten_nil, List.append_nil, proxies, List.append_assoc]

theorem flatten_definitionBlocks :
    (b.definitionBlocks style).flatten = b.definitionLines style := by
  rw [definitionBlocks, List.flatten_cons,
    flatten_flatMap (fun p : Proxy => p.flatten_definitionBlocks)]
  rfl

theorem wellNested_declarationBlocks (strings : ∀ s ∈ b.strings, WellNested s)
    (styled : ∀ s ∈ style.strings, WellNested s) :
    ∀ block ∈ b.declarationBlocks style, WellNested (text block) := by
  obtain ⟨forwards, proxies⟩ := List.forall_mem_append.mp strings
  have announced : WellNested (text (b.forwards.map forwardLine)) := by
    apply wellNested_text
    rw [List.forall_mem_map]
    intro interface member
    have name := wellNested_className (forwards interface member)
    exact (WellNested.append (by decide) name).append (by decide)
  have head : WellNested (text (style.preamble ++ b.forwards.map forwardLine ++ [""])) := by
    rw [text_append, text_append]
    exact ((OutputStyle.wellNested_preamble styled).append announced).append (by decide)
  simp only [declarationBlocks, List.forall_mem_append, List.forall_mem_cons,
    List.forall_mem_flatMap]
  refine ⟨⟨head, fun p member => ?_⟩, by decide⟩
  exact Proxy.wellNested_declarationBlocks (List.forall_mem_flatMap.mp proxies p member)

theorem wellNested_definitionBlocks (strings : ∀ s ∈ b.strings, WellNested s)
    (styled : ∀ s ∈ style.strings, WellNested s) :
    ∀ block ∈ b.definitionBlocks style, WellNested (text block) := by
  obtain ⟨-, proxies⟩ := List.forall_mem_append.mp strings
  have file : WellNested style.definitionsInclude := styled _ (by simp [OutputStyle.strings])
  have head : WellNested (text style.definitionsHead) :=
    (wellNested_includeLine file).text_cons (by decide)
  simp only [definitionBlocks, List.forall_mem_cons, List.forall_mem_flatMap]
  refine ⟨head, fun p member => ?_⟩
  exact Proxy.wellNested_definitionBlocks (List.forall_mem_flatMap.mp proxies p member)

theorem texts_nested (b : Binding) (style : OutputStyle)
    (plain : ∀ s ∈ b.strings ++ style.strings, Unbracketed s) :
    NestedInBlocks (b.declarationLines style) (b.declarationBlocks style) ∧
      NestedInBlocks (b.definitionLines style) (b.definitionBlocks style) := by
  obtain ⟨strings, styled⟩ := List.forall_mem_append.mp plain
  have strings : ∀ s ∈ b.strings, WellNested s := fun s member => (strings s member).wellNested
  have styled : ∀ s ∈ style.strings, WellNested s := fun s member => (styled s member).wellNested
  exact ⟨nested_of_blocks flatten_declarationBlocks (wellNested_declarationBlocks strings styled),
    nested_of_blocks flatten_definitionBlocks (wellNested_definitionBlocks strings styled)⟩

/-- A proxy with an accessor and a branch that lead nowhere, and one that is empty but for an
enumeration without constants. -/
def strayBinding : Binding where
  forwards := ["seat", "registry"]
  proxies := [strayProxy, ⟨"touch", "touch_interface", [], [], [], [], [], [], [⟨"error", []⟩]⟩]

theorem texts_nested_stray :
    (∀ s ∈ strayBinding.strings ++ OutputStyle.strings default, Unbracketed s) ∧
      NestedInBlocks (strayBinding.declarationLines default)
        (strayBinding.declarationBlocks default) ∧
      NestedInBlocks (strayBinding.definitionLines default)
        (strayBinding.definitionBlocks default) := by
  have plain : ∀ s ∈ strayBinding.strings ++ OutputStyle.strings default, Unbracketed s := by
    decide +kernel
  exact ⟨plain, texts_nested strayBinding default plain⟩

end Binding

end WireProxy
