import WireProxy.Proofs.Printing
import WireProxy.Proofs.Spans

/-!
# Constants read back

A group of constants is printed with one line per constant between two braces.  The name in a line
ends where an equals sign stands for the first time, and the value is all that follows it.  A comma
is appended to every value but the last, so it is the place of the line, and not the look of its
value, that tells whether a comma at the end belongs to the value.
-/

namespace WireProxy

open Code
open Xml (after? cut?)

def Constant.read? (line : List Char) : Option Constant := do
  let body ← after? "    ".toList line
  let (name, value) ← cut? " = ".toList body
  some ⟨String.ofList name, String.ofList value⟩

/-- The line without the comma that ends it. -/
def Code.withoutComma? (line : List Char) : Option (List Char) :=
  if line.getLast? = some ',' then some line.dropLast else none

namespace ConstantGroup

def readConstants? : Lines → Option (List Constant)
  | [] => some []
  | [last] => do
      let constant ← Constant.read? last.toList
      some [constant]
  | line :: rest => do
      let line ← withoutComma? line.toList
      let constant ← Constant.read? line
      let constants ← readConstants? rest
      some (constant :: constants)

def readLines? : Lines → Option ConstantGroup
  | head :: opening :: rest =>
      if opening = "  " ++ openBrace ∧ rest.getLast? = some ("  " ++ closeBrace ++ ";") then do
        let name ← after? "enum ".toList head.toList
        let constants ← readConstants? rest.dropLast
        some ⟨String.ofList name, constants⟩
      else none
  | _ => none

def read? (t : String) : Option ConstantGroup :=
  readLines? (readLines t)

/-- No line is broken, and every name ends before the first equals sign. -/
@[mk_iff] structure Readable (g : ConstantGroup) : Prop where
  unbroken : ∀ s ∈ g.strings, Unbroken s
  plain : ∀ constant ∈ g.constants, '=' ∉ constant.name.toList

instance (g : ConstantGroup) : Decidable g.Readable :=
  decidable_of_iff' _ g.readable_iff

/-- The lines of the text are a head, a brace, the body and a brace; the body has one line per
constant, with a comma after each value but the last. -/
structure LaidOut (g : ConstantGroup) (t : String) (body : Lines) : Prop where
  complete : text (readLines t) = t
  frame : readLines t =
    ["enum " ++ g.name, "  " ++ openBrace] ++ body ++ ["  " ++ closeBrace ++ ";"]
  length : body.length = g.constants.length
  line : ∀ index constant, g.constants[index]? = some constant →
    body[index]? = some ("    " ++ constant.name ++ " = " ++ constant.value ++
      if index + 1 = g.constants.length then "" else ",")

end ConstantGroup

theorem Xml.cut?_equals {name value : List Char} (plain : '=' ∉ name) :
    cut? " = ".toList (name ++ " = ".toList ++ value) = some (name, value) := by
  induction name with
  | nil => rfl
  | cons c name ih =>
      have plainRest : '=' ∉ name := fun member => plain (List.mem_cons_of_mem c member)
      have later : after? " = ".toList (c :: (name ++ " = ".toList ++ value)) = none := by
        -- Right after `c` stands a character of the name or a space, and no equals sign.
        rw [after?_eq_none_iff]
        intro here
        cases name with
        | nil => simp at here
        | cons d name => simp_all
      rw [List.cons_append, List.cons_append, cut?, later, ih plainRest]
      rfl

theorem Constant.read?_line {constant : Constant} (plain : '=' ∉ constant.name.toList) :
    read? ("    " ++ constant.name ++ " = " ++ constant.value).toList = some constant := by
  have indented : after? "    ".toList ("    " ++ constant.name ++ " = " ++ constant.value).toList =
      some (constant.name.toList ++ " = ".toList ++ constant.value.toList) := by
    rw [Xml.after?_eq_some]
    simp only [String.toList_append, List.append_assoc]
  rw [read?, indented, Option.bind_eq_bind, Option.bind_some, Xml.cut?_equals plain]
  simp

theorem Code.withoutComma?_append (line : String) :
    withoutComma? (line ++ ",").toList = some line.toList := by
  simp [withoutComma?]

namespace ConstantGroup

theorem length_constantLines (constants : List Constant) :
    (constantLines constants).length = constants.length := by
  fun_induction constantLines constants with
  | case1 => rfl
  | case2 last => rfl
  | case3 constant rest _ ih => rw [List.length_cons, List.length_cons, ih]

theorem getElem?_constantLines {constants : List Constant} {index : Nat} {constant : Constant}
    (found : constants[index]? = some constant) :
    (constantLines constants)[index]? =
      some ("    " ++ constant.name ++ " = " ++ constant.value ++
        if index + 1 = constants.length then "" else ",") := by
  fun_induction constantLines constants generalizing index with
  | case1 => simp at found
  | case2 last =>
      cases index with
      | zero =>
          obtain rfl : last = constant := by simpa using found
          simp
      | succ index => simp at found
  | case3 first rest more ih =>
      cases index with
      | zero =>
          obtain rfl : first = constant := by simpa using found
          have notLast : 0 + 1 ≠ (first :: rest).length := by
            have := List.length_pos_iff.mpr more
            rw [List.length_cons]
            omega
          rw [if_neg notLast, List.getElem?_cons_zero]
      | succ index =>
          rw [List.getElem?_cons_succ] at found ⊢
          rw [ih found, List.length_cons]
          simp only [Nat.add_right_cancel_iff]

theorem readConstants?_constantLines {constants : List Constant}
    (plain : ∀ constant ∈ constants, '=' ∉ constant.name.toList) :
    readConstants? (constantLines constants) = some constants := by
  fun_induction constantLines constants with
  | case1 => rfl
  | case2 last =>
      rw [readConstants?, Constant.read?_line (plain last (List.mem_singleton_self last))]
      rfl
  | case3 constant rest more ih =>
      obtain ⟨first, others⟩ := List.forall_mem_cons.mp plain
      have following : constantLines rest ≠ [] := by
        rw [← List.length_pos_iff, length_constantLines]
        exact List.length_pos_iff.mpr more
      obtain ⟨line, lines, isMore⟩ := List.exists_cons_of_ne_nil following
      rw [isMore] at ih ⊢
      simp only [readConstants?, withoutComma?_append, Option.bind_eq_bind, Option.bind_some,
        Constant.read?_line first, ih others]

variable {g : ConstantGroup}

theorem readLines_text_lines (readable : g.Readable) : readLines (text g.lines) = g.lines :=
  readLines_text (unbroken_lines readable.unbroken)

theorem laidOut (readable : g.Readable) : g.LaidOut (text g.lines) (constantLines g.constants) where
  complete := by rw [readLines_text_lines readable]
  frame := readLines_text_lines readable
  length := length_constantLines g.constants
  line _ _ found := getElem?_constantLines found

theorem read?_text_lines (readable : g.Readable) : read? (text g.lines) = some g := by
  have head : after? "enum ".toList ("enum " ++ g.name).toList = some g.name.toList := by
    rw [Xml.after?_eq_some, String.toList_append]
  have frame : "  " ++ openBrace = "  " ++ openBrace ∧
      (constantLines g.constants ++ ["  " ++ closeBrace ++ ";"]).getLast? =
        some ("  " ++ closeBrace ++ ";") :=
    ⟨rfl, List.getLast?_concat⟩
  rw [read?, readLines_text_lines readable, lines, List.cons_append, List.cons_append,
    List.cons_append, List.cons_append, List.nil_append, readLines?, if_pos frame, head,
    List.dropLast_concat, readConstants?_constantLines readable.plain]
  simp

theorem textWithin?_print (g : ConstantGroup) : textWithin? none g.print = some (text g.lines) :=
  Prints.textWithin?_none g.printsLines

/-- The text of a group shows its constants line by line, and no other group has that text. -/
theorem print_reads_back (readable : g.Readable) :
    ∃ t body, textWithin? none g.print = some t ∧ g.LaidOut t body ∧ read? t = some g ∧
      ∀ h : ConstantGroup, h.Readable → textWithin? none h.print = some t → h = g := by
  refine ⟨_, _, g.textWithin?_print, laidOut readable, read?_text_lines readable, ?_⟩
  intro h readable' printed
  rw [textWithin?_print, Option.some.injEq] at printed
  have same := read?_text_lines readable'
  rw [printed, read?_text_lines readable, Option.some.injEq] at same
  exact same.symm

/-- Values that end in a comma, that are empty and that look like a line of their own. -/
def awkwardGroup : ConstantGroup where
  name := "enum e = "
  constants := [⟨"", "1,"⟩, ⟨" b ", ""⟩, ⟨"c,", "0x2 = d,"⟩]

theorem print_reads_back_awkward :
    awkwardGroup.Readable ∧
      ∃ t, textWithin? none awkwardGroup.print = some t ∧ read? t = some awkwardGroup ∧
        readLines t = ["enum enum e = ", "  " ++ openBrace, "     = 1,,", "     b  = ,",
          "    c, = 0x2 = d,", "  " ++ closeBrace ++ ";"] := by
  have readable : awkwardGroup.Readable := by decide
  obtain ⟨t, body, printed, laidOut, read, -⟩ := print_reads_back readable
  refine ⟨readable, t, printed, read, ?_⟩
  rw [textWithin?_print, Option.some.injEq] at printed
  rw [← printed, readLines_text_lines readable]
  decide

end ConstantGroup

end WireProxy
