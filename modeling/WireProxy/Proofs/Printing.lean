import Mathlib.Data.List.Basic
import WireProxy.Proofs.Texts

/-!
# Printing into sinks

A printing stands for one text.  Into a sink with room for that text it writes all of it; into any
other sink it fails, and what the sink took is a beginning of the text.  This composes along the
text, so it is shown for a piece and carried up through the lines, the loops and the blocks.
-/

namespace WireProxy

namespace Code

namespace Sink

variable (s : Sink) (t u : String)

def extend : Sink :=
  { s with accepted := s.accepted ++ t }

@[simp] theorem extend_extend : (s.extend t).extend u = s.extend (t ++ u) := by
  simp [extend, String.append_assoc]

@[simp] theorem extend_empty : s.extend "" = s := by
  simp [extend]

@[simp] theorem fits_extend : (s.extend t).fits u = s.fits (t ++ u) := by
  simp only [fits, extend, String.utf8ByteSize_append, Nat.add_assoc]

variable {s t u}

theorem fits_left (fit : s.fits (t ++ u) = true) : s.fits t = true := by
  unfold fits at fit ⊢
  split at fit
  · rw [String.utf8ByteSize_append, decide_eq_true_eq] at fit
    rw [decide_eq_true_eq]
    omega
  · rfl

end Sink

namespace Printing

variable {α : Type} {first : Printing α} {next : α → Printing Unit} {a : α} {s s' : Sink}

theorem runOn_pure : runOn (pure ()) s = (.ok (), s) := rfl

theorem runOn_bind_of_ok (done : first.runOn s = (.ok a, s')) :
    runOn (first >>= next) s = (next a).runOn s' := by
  simp only [runOn, ExceptT.run_bind, StateT.run_bind] at done ⊢
  rw [done]
  rfl

theorem runOn_bind_of_error (failed : first.runOn s = (.error (), s')) :
    runOn (first >>= next) s = (.error (), s') := by
  simp only [runOn, ExceptT.run_bind, StateT.run_bind] at failed ⊢
  rw [failed]
  rfl

theorem runOn_get : runOn get s = (.ok s, s) := rfl

theorem runOn_put_of_fits {piece : String} (fit : s.fits piece = true) :
    (put piece).runOn s = (.ok (), s.extend piece) := by
  have taken : s.write? piece = some (s.extend piece) := if_pos fit
  rw [put, runOn_bind_of_ok runOn_get, taken]
  rfl

theorem runOn_put_of_not_fits {piece : String} (misfit : s.fits piece = false) :
    (put piece).runOn s = (.error (), s) := by
  have refused : s.write? piece = none := by
    rw [Sink.write?, misfit]
    rfl
  rw [put, runOn_bind_of_ok runOn_get, refused]
  rfl

end Printing

/-! ## What a printing writes -/

structure Prints (printing : Printing Unit) (t : String) : Prop where
  whole : ∀ s : Sink, s.fits t = true → printing.runOn s = (.ok (), s.extend t)
  part : ∀ s : Sink, s.fits "" = true → s.fits t = false →
    ∃ before after, before ++ after = t ∧ s.fits before = true ∧
      printing.runOn s = (.error (), s.extend before)

namespace Prints

variable {first : Printing Unit} {t : String}

theorem nothing : Prints (pure ()) "" where
  whole s _ := by rw [Sink.extend_empty, Printing.runOn_pure]
  part s fit misfit := by
    rw [fit] at misfit
    cases misfit

theorem piece (t : String) : Prints (put t) t where
  whole s fit := Printing.runOn_put_of_fits fit
  part s fit misfit := by
    refine ⟨"", t, String.empty_append, fit, ?_⟩
    rw [Printing.runOn_put_of_not_fits misfit, Sink.extend_empty]

/-- The second text is only begun when the first one is all in the sink. -/
theorem append {next : Unit → Printing Unit} {u : String} (begun : Prints first t)
    (ended : Prints (next ()) u) : Prints (first >>= next) (t ++ u) where
  whole s fit := by
    have rest : (s.extend t).fits u = true := by rw [Sink.fits_extend, fit]
    rw [Printing.runOn_bind_of_ok (begun.whole s (Sink.fits_left fit)), ended.whole _ rest,
      Sink.extend_extend]
  part s fit misfit := by
    -- The piece that is refused lies in the first text, or the first text is all there.
    cases fits : s.fits t with
    | false =>
        obtain ⟨before, after, rfl, taken, failed⟩ := begun.part s fit fits
        refine ⟨before, after ++ u, (String.append_assoc ..).symm, taken, ?_⟩
        rw [Printing.runOn_bind_of_error failed]
    | true =>
        have room : (s.extend t).fits "" = true := by
          rw [Sink.fits_extend, String.append_empty, fits]
        have noRoom : (s.extend t).fits u = false := by rw [Sink.fits_extend, misfit]
        obtain ⟨before, after, rfl, taken, failed⟩ := ended.part _ room noRoom
        rw [Sink.fits_extend] at taken
        refine ⟨t ++ before, after, String.append_assoc .., taken, ?_⟩
        rw [Printing.runOn_bind_of_ok (begun.whole s fits), failed, Sink.extend_extend]

theorem loop {α : Type} {body : α → Printing Unit} {written : α → String}
    (each : ∀ x, Prints (body x) (written x)) (xs : List α) :
    Prints (xs.forM body) (String.join (xs.map written)) := by
  induction xs with
  | nil => exact nothing
  | cons x xs ih =>
      rw [List.map_cons, String.join_cons]
      exact (each x).append ih

theorem pieces (ts : List String) : Prints (write ts) (String.join ts) := by
  have whole := loop piece ts
  rwa [List.map_id''] at whole
  exact fun _ => rfl

end Prints

/-! ## Lines -/

def PrintsLines (printing : Printing Unit) (lines : Lines) : Prop :=
  Prints printing (text lines)

namespace PrintsLines

variable {first rest : Printing Unit} {lines others : Lines}
variable {parts : List String} {written : String}

theorem nothing : PrintsLines (pure ()) [] :=
  Prints.nothing

theorem last (joined : String.join parts = written ++ "\n") :
    PrintsLines (write parts) [written] := by
  have whole := Prints.pieces parts
  rw [joined] at whole
  exact whole

theorem append (begun : PrintsLines first lines) (ended : PrintsLines rest others) :
    PrintsLines (first >>= fun _ => rest) (lines ++ others) := by
  unfold PrintsLines
  rw [text_append]
  exact Prints.append begun ended

theorem line (joined : String.join parts = written ++ "\n") (ended : PrintsLines rest others) :
    PrintsLines (write parts >>= fun _ => rest) (written :: others) :=
  (last joined).append ended

variable {α : Type} {body : α → Printing Unit}

theorem loop {block : α → Lines} (each : ∀ x, PrintsLines (body x) (block x)) (xs : List α) :
    PrintsLines (xs.forM body) (xs.flatMap block) := by
  unfold PrintsLines
  rw [text_flatMap]
  exact Prints.loop each xs

theorem eachLine {block : α → String} (each : ∀ x, PrintsLines (body x) [block x])
    (xs : List α) : PrintsLines (xs.forM body) (xs.map block) := by
  rw [List.map_eq_flatMap]
  exact loop each xs

theorem someLines {block : α → Option String}
    (each : ∀ x, PrintsLines (body x) (block x).toList) (xs : List α) :
    PrintsLines (xs.forM body) (xs.filterMap block) := by
  rw [List.filterMap_eq_flatMap_toList]
  exact loop each xs

theorem found {β : Type} {find : α → Option β} {block : β → Lines}
    (each : ∀ x, PrintsLines (body x) ((find x).toList.flatMap block)) (xs : List α) :
    PrintsLines (xs.forM body) ((xs.filterMap find).flatMap block) := by
  rw [List.filterMap_eq_flatMap_toList, List.flatMap_assoc]
  exact loop each xs

end PrintsLines

end Code

open Code

/-! ## Declarations -/

namespace ConstantGroup

/-- The comma is left out at the index of the last constant, wherever the counting starts. -/
theorem printsLines_constants {constants : List Constant} {start last : Nat}
    (isLast : constants = [] ∨ last + 1 = start + constants.length) :
    PrintsLines
      ((constants.zipIdx start).forM fun (constant, index) =>
        write ["    ", constant.name, " = ", constant.value, if index = last then "" else ",",
          "\n"])
      (constantLines constants) := by
  fun_induction constantLines constants generalizing start with
  | case1 => exact .nothing
  | case2 constant =>
      have here : last = start := by simpa using isLast
      refine .append (.last ?_) .nothing
      simp [here, String.append_assoc]
  | case3 constant rest more ih =>
      have count : last + 1 = start + 1 + rest.length := by
        simpa [Nat.add_assoc, Nat.add_comm 1] using isLast
      have ahead : start ≠ last := by
        have := List.length_pos_iff.mpr more
        omega
      refine .line ?_ (ih (.inr count))
      simp [ahead, String.append_assoc]

theorem printsLines (g : ConstantGroup) : PrintsLines g.print g.lines := by
  have isLast : g.constants = [] ∨ g.constants.length - 1 + 1 = 0 + g.constants.length := by
    cases g.constants <;> simp
  unfold print lines
  simp only [List.cons_append, List.nil_append]
  refine .line ?_ <| .line ?_ <| .append (printsLines_constants isLast) <| .last ?_
  all_goals simp [String.append_assoc, openBrace, closeBrace]

end ConstantGroup

namespace Proxy

variable (p : Proxy)

theorem printsLines_record : PrintsLines p.printRecord p.recordLines := by
  unfold printRecord recordLines
  simp only [List.cons_append, List.nil_append]
  refine .line ?_ <| .line ?_ <| .line ?_ <|
    .append (.eachLine (fun slot => .last ?_) _) <| .line ?_ <| .last ?_
  all_goals simp [String.append_assoc, openBrace, closeBrace]

theorem printsLines_wraps : PrintsLines p.printWraps p.wrapDeclarations := by
  refine .someLines (fun construction => ?_) _
  cases construction with
  | wrap destroyOpcode =>
      refine .last ?_
      simp [String.append_assoc]
  | default => exact .nothing

theorem printsLines_defaults : PrintsLines p.printDefaults p.defaultDeclarations := by
  refine .someLines (fun construction => ?_) _
  cases construction with
  | wrap destroyOpcode => exact .nothing
  | default =>
      refine .last ?_
      simp [String.append_assoc]

theorem printsLines_accessors : PrintsLines p.printAccessors p.accessorDeclarations := by
  unfold accessorDeclarations
  rw [List.map_eq_flatMap]
  refine .found (fun accessor => ?_) _
  cases p.slotOf? accessor with
  | none => exact .nothing
  | some slot =>
      refine .last ?_
      simp [String.append_assoc]

theorem printsLines_class : PrintsLines p.printClass p.classLines := by
  unfold printClass classLines grantLines
  -- Both sides nest to the right, so that the lines can be taken off one by one.
  simp only [List.append_assoc, List.cons_append, List.nil_append]
  refine .line ?_ <| .line ?_ <| .append p.printsLines_record <| .append p.printsLines_wraps <|
    .line ?_ <| .line ?_ <| .append (.eachLine (fun grant => .last ?_) _) <| .line ?_ <|
    .line ?_ <| .append p.printsLines_defaults <| .append (.eachLine (fun m => .last ?_) _) <|
    .append p.printsLines_accessors <| .line ?_ <| .last ?_
  all_goals simp [String.append_assoc, openBrace, closeBrace]

theorem printsLines_declaration : PrintsLines p.printDeclaration p.declarationLines := by
  refine .append p.printsLines_class (.loop (fun group => ?_) _)
  exact .append group.printsLines (.last rfl)

end Proxy

theorem OutputStyle.printsLines_preamble (style : OutputStyle) :
    PrintsLines style.printPreamble style.preamble := by
  unfold printPreamble preamble includeLine
  simp only [List.cons_append, List.nil_append]
  refine .line ?_ <| .line ?_ <| .line ?_ <| .append (.eachLine (fun file => .last ?_) _) <|
    .line ?_ <| .line ?_ <| .last ?_
  all_goals simp [String.append_assoc]

theorem Binding.printsLines_declarations (b : Binding) (style : OutputStyle) :
    PrintsLines (b.printDeclarations style) (b.declarationLines style) := by
  unfold printDeclarations declarationLines forwardLine
  simp only [List.append_assoc, List.cons_append, List.nil_append]
  refine .append style.printsLines_preamble <| .append (.eachLine (fun name => .last ?_) _) <|
    .line ?_ <| .append (.loop (fun p => p.printsLines_declaration) _) <| .last ?_
  all_goals simp [String.append_assoc]

/-! ## Definitions -/

theorem Call.printsLines (call : Call) : PrintsLines call.print call.lines := by
  cases call with
  | send opcode operands =>
      refine .last ?_
      simp [String.append_assoc]
  | construct opcode target operands backfill =>
      cases backfill with
      | none =>
          refine .line ?_ <| .last ?_
          all_goals simp [String.append_assoc]
      | some handle =>
          refine .line ?_ <| .line ?_ <| .last ?_
          all_goals simp [String.append_assoc]

namespace Proxy

variable (p : Proxy)

theorem printsLines_construction (construction : Construction) :
    PrintsLines (p.printConstruction construction) (p.constructionLines construction) := by
  have symbol :
      String.join ["  interface = &", p.descriptor, ";\n"] = p.descriptorLine ++ "\n" := by
    unfold descriptorLine
    simp [String.append_assoc]
  cases construction with
  | wrap destroyOpcode =>
      have number : String.join (["  set_destroy_opcode("] ++ destroyPieces destroyOpcode ++
          [");\n"]) = "  set_destroy_opcode(" ++ destroyNumber destroyOpcode ++ ");" ++ "\n" := by
        cases destroyOpcode <;> simp [destroyPieces, destroyNumber, String.append_assoc]
      refine .line ?_ <| .line ?_ <| .line ?_ <| .line ?_ <| .line number <| .line symbol <|
        .line ?_ <| .last ?_
      all_goals simp [String.append_assoc, openBrace, closeBrace]
  | default =>
      refine .line ?_ <| .line ?_ <| .line symbol <| .line ?_ <| .last ?_
      all_goals simp [String.append_assoc, openBrace, closeBrace]

theorem printsLines_method (m : Method) : PrintsLines (p.printMethod m) (p.methodLines m) := by
  unfold printMethod methodLines
  simp only [List.cons_append, List.nil_append]
  refine .line ?_ <| .line ?_ <| .append m.call.printsLines <| .line ?_ <| .last ?_
  all_goals simp [String.append_assoc, openBrace, closeBrace, methodHead]

theorem printsLines_accessor (accessor : Accessor) :
    PrintsLines (p.printAccessor accessor)
      (((p.slotOf? accessor).map fun slot => (accessor, slot)).toList.flatMap
        fun (accessor, slot) => p.accessorLines accessor slot) := by
  unfold printAccessor
  cases p.slotOf? accessor with
  | none => exact .nothing
  | some slot =>
      refine .line ?_ <| .line ?_ <| .line ?_ <| .line ?_ <| .last ?_
      all_goals simp [String.append_assoc, openBrace, closeBrace]

theorem printsLines_branch (branch : Branch) :
    PrintsLines (p.printBranch branch)
      (((p.slots[branch.slot]?).map fun slot => (branch, slot)).toList.flatMap
        fun (branch, slot) => branchLines branch slot) := by
  unfold printBranch
  cases p.slots[branch.slot]? with
  | none => exact .nothing
  | some slot =>
      refine .line ?_ <| .line ?_ <| .last ?_
      all_goals simp [String.append_assoc]

theorem printsLines_switch : PrintsLines p.printSwitch p.switchLines := by
  unfold printSwitch switchLines
  split
  · exact .nothing
  · simp only [List.cons_append, List.nil_append]
    refine .line ?_ <| .line ?_ <| .line ?_ <| .append (.found p.printsLines_branch _) <| .last ?_
    all_goals simp [openBrace, closeBrace]

theorem printsLines_dispatcher : PrintsLines p.printDispatcher p.dispatcherLines := by
  unfold printDispatcher dispatcherLines
  simp only [List.cons_append, List.nil_append]
  refine .line ?_ <| .line ?_ <| .append p.printsLines_switch <| .line ?_ <| .line ?_ <| .last ?_
  all_goals simp [String.append_assoc, openBrace, closeBrace]

theorem printsLines_definition : PrintsLines p.printDefinition p.definitionLines := by
  unfold definitionLines
  simp only [List.append_assoc]
  exact .append (.loop p.printsLines_construction _) <| .append (.loop p.printsLines_method _) <|
    .append (.found p.printsLines_accessor _) p.printsLines_dispatcher

end Proxy

theorem Binding.printsLines_definitions (b : Binding) (style : OutputStyle) :
    PrintsLines (b.printDefinitions style) (b.definitionLines style) := by
  unfold printDefinitions definitionLines OutputStyle.definitionsHead includeLine
  simp only [List.cons_append, List.nil_append]
  refine .line ?_ <| .line ?_ <| .loop (fun p => p.printsLines_definition) _
  all_goals simp [String.append_assoc]

/-! ## Limits -/

namespace Code

theorem Sink.fits_limit {n : Nat} {t : String} :
    Sink.fits { limit := some n } t = true ↔ t.utf8ByteSize ≤ n := by
  simp [Sink.fits]

/-- A text goes into a sink that takes up to `n` bytes, wholly or up to where it stops fitting. -/
structure PrintsWithin (n : Nat) (printing : Printing Unit) (t : String) : Prop where
  succeeds_iff : (printing.runOn { limit := some n }).1 = .ok () ↔ t.utf8ByteSize ≤ n
  complete : t.utf8ByteSize ≤ n → (printing.runOn { limit := some n }).2.accepted = t
  isPrefix : ∃ rest, (printing.runOn { limit := some n }).2.accepted ++ rest = t
  within : (printing.runOn { limit := some n }).2.accepted.utf8ByteSize ≤ n

variable {printing : Printing Unit} {t : String}

/-- Into a sink that is empty and has a limit, all of the text is written or a beginning of it. -/
theorem Prints.cases (prints : Prints printing t) (n : Nat) :
    (t.utf8ByteSize ≤ n ∧ printing.runOn { limit := some n } = (.ok (), ⟨some n, t⟩)) ∨
    (n < t.utf8ByteSize ∧ ∃ before after, before ++ after = t ∧ before.utf8ByteSize ≤ n ∧
      printing.runOn { limit := some n } = (.error (), ⟨some n, before⟩)) := by
  have filled (u : String) : Sink.extend { limit := some n } u = ⟨some n, u⟩ := by
    simp [Sink.extend]
  rcases Nat.lt_or_ge n t.utf8ByteSize with long | short
  · have room : Sink.fits { limit := some n } "" = true := Sink.fits_limit.mpr (Nat.zero_le n)
    have noRoom : Sink.fits { limit := some n } t = false := by
      rwa [← Bool.not_eq_true, Sink.fits_limit, Nat.not_le]
    obtain ⟨before, after, split, taken, failed⟩ := prints.part _ room noRoom
    rw [filled] at failed
    exact .inr ⟨long, before, after, split, Sink.fits_limit.mp taken, failed⟩
  · have done := prints.whole _ (Sink.fits_limit.mpr short)
    rw [filled] at done
    exact .inl ⟨short, done⟩

theorem Prints.within (prints : Prints printing t) (n : Nat) : PrintsWithin n printing t := by
  obtain ⟨short, done⟩ | ⟨long, before, after, split, taken, failed⟩ := prints.cases n
  · refine ⟨?_, ?_, ?_, ?_⟩ <;> rw [done]
    · exact iff_of_true rfl short
    · exact fun _ => rfl
    · exact ⟨"", String.append_empty⟩
    · exact short
  · refine ⟨?_, ?_, ?_, ?_⟩ <;> rw [failed]
    · exact iff_of_false nofun (Nat.not_le.mpr long)
    · exact fun short => absurd short (Nat.not_le.mpr long)
    · exact ⟨after, split⟩
    · exact taken

theorem Prints.textWithin? (prints : Prints printing t) (n : Nat) :
    Code.textWithin? (some n) printing = if n < t.utf8ByteSize then none else some t := by
  unfold Code.textWithin?
  obtain ⟨short, done⟩ | ⟨long, before, after, -, -, failed⟩ := prints.cases n
  · rw [done, if_neg (Nat.not_lt.mpr short)]
  · rw [failed, if_pos long]

theorem Prints.textWithin?_none (prints : Prints printing t) :
    Code.textWithin? none printing = some t := by
  unfold Code.textWithin?
  rw [prints.whole { limit := none } rfl]
  simp [Sink.extend]

end Code

theorem Binding.prints_within_limit (b : Binding) (style : OutputStyle) (n : Nat) :
    PrintsWithin n (b.printDeclarations style) (text (b.declarationLines style)) ∧
    PrintsWithin n (b.printDefinitions style) (text (b.definitionLines style)) ∧
    ∀ (p : Protocol) (settings : Settings) (d f : Nat),
      p.renderWithin settings (some d) (some f) =
        if d < (p.render settings).declarations.utf8ByteSize then
          .error (.unrendered "declarations")
        else if f < (p.render settings).definitions.utf8ByteSize then
          .error (.unrendered "definitions")
        else .ok (p.render settings) := by
  refine ⟨(b.printsLines_declarations style).within n, (b.printsLines_definitions style).within n,
    fun p settings d f => ?_⟩
  have declarations : Prints ((p.binding settings).printDeclarations settings.output)
      (p.render settings).declarations := Binding.printsLines_declarations _ _
  have definitions : Prints ((p.binding settings).printDefinitions settings.output)
      (p.render settings).definitions := Binding.printsLines_definitions _ _
  simp only [Protocol.renderWithin, declarations.textWithin?, definitions.textWithin?]
  by_cases long : d < (p.render settings).declarations.utf8ByteSize
  · simp only [long, if_true]
  · by_cases longer : f < (p.render settings).definitions.utf8ByteSize
    all_goals simp only [long, longer, if_true, if_false]

end WireProxy
