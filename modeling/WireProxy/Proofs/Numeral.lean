import Mathlib.Data.List.TakeWhile
import Mathlib.Data.Nat.Basic
import WireProxy.Text.Blank
import WireProxy.Text.Numeral

/-!
# Decimal words

`readWord?` accepts exactly the decimal numerals below the word limit, with at most one sign in
front, and gives their positional value.
-/

namespace WireProxy.Text

def IsDigit (c : Char) : Prop :=
  '0' ≤ c ∧ c ≤ '9'

/-- The value of digits after those whose value is `acc`. -/
def decimalValue (acc : Nat) (digits : List Char) : Nat :=
  digits.foldl (fun value c => 10 * value + (c.toNat - '0'.toNat)) acc

/-- The text is a decimal numeral of a 32-bit number, leading zeros and one plus sign allowed. -/
def SpellsWord (cs : List Char) (n : Nat) : Prop :=
  ∃ sign digits, cs = sign ++ digits ∧ (sign = [] ∨ sign = ['+']) ∧ digits ≠ [] ∧
    (∀ c ∈ digits, IsDigit c) ∧ decimalValue 0 digits = n ∧ n < wordLimit

theorem digit?_ten {c : Char} {d : Nat} :
    digit? 10 c = some d ↔ IsDigit c ∧ d = c.toNat - '0'.toNat := by
  unfold digit? digitValue? IsDigit
  by_cases isDigit : '0' ≤ c ∧ c ≤ '9'
  · have small : c.toNat - '0'.toNat < 10 := by
      have upper : c.toNat ≤ '9'.toNat := isDigit.2
      have nine : '9'.toNat = 57 := rfl
      have zero : '0'.toNat = 48 := rfl
      omega
    simp only [isDigit, and_self, if_true, Option.filter_some, small, decide_true, true_and,
      Option.some.injEq]
    exact eq_comm
  · -- Letters are worth ten or more, so base ten has none of them.
    simp only [isDigit, if_false, false_and, iff_false]
    split
    · rw [Option.filter_some, if_neg (by simp)]
      simp
    · split
      · rw [Option.filter_some, if_neg (by simp)]
        simp
      · simp

theorem digitsValue?_ten {cs : List Char} {acc n : Nat} :
    digitsValue? 10 acc cs = some n ↔
      (∀ c ∈ cs, IsDigit c) ∧ decimalValue acc cs = n := by
  induction cs generalizing acc with
  | nil => simp [digitsValue?, decimalValue]
  | cons c cs ih =>
      simp only [digitsValue?, Option.bind_eq_bind, Option.bind_eq_some_iff, digit?_ten, ih,
        List.forall_mem_cons]
      constructor
      · rintro ⟨d, ⟨first, rfl⟩, rest, value⟩
        exact ⟨⟨first, rest⟩, value⟩
      · rintro ⟨⟨first, rest⟩, value⟩
        exact ⟨_, ⟨first, rfl⟩, rest, value⟩

theorem numeral?_ten {cs : List Char} {n : Nat} :
    numeral? 10 cs = some n ↔
      cs ≠ [] ∧ (∀ c ∈ cs, IsDigit c) ∧ decimalValue 0 cs = n := by
  cases cs with
  | nil => simp [numeral?]
  | cons c cs => simp [numeral?, digitsValue?_ten]

theorem word?_eq_some {n : Nat} {w : UInt32} :
    word? n = some w ↔ n < wordLimit ∧ w.toNat = n := by
  unfold word?
  split
  · rename_i small
    have exactly : (UInt32.ofNat n).toNat = n := UInt32.toNat_ofNat_of_lt small
    simp only [Option.some.injEq, small, true_and]
    constructor
    · rintro rfl
      exact exactly
    · intro same
      apply UInt32.toNat_inj.mp
      rw [exactly, same]
  · rename_i large
    simp [large]

theorem not_isDigit_plus : ¬ IsDigit '+' := by
  unfold IsDigit
  decide

theorem readWord?_eq_some {cs : List Char} {w : UInt32} :
    readWord? cs = some w ↔ SpellsWord cs w.toNat := by
  have read : ∀ digits, (numeral? 10 digits).bind word? = some w ↔
      digits ≠ [] ∧ (∀ c ∈ digits, IsDigit c) ∧ decimalValue 0 digits = w.toNat ∧
        w.toNat < wordLimit := by
    intro digits
    simp only [Option.bind_eq_some_iff, numeral?_ten, word?_eq_some]
    constructor
    · rintro ⟨n, ⟨some, decimal, value⟩, small, rfl⟩
      exact ⟨some, decimal, value, small⟩
    · rintro ⟨some, decimal, value, small⟩
      exact ⟨_, ⟨some, decimal, value⟩, small, rfl⟩
  unfold readWord? SpellsWord
  split
  · rename_i rest
    rw [read]
    constructor
    · intro spelled
      exact ⟨['+'], rest, rfl, .inr rfl, spelled⟩
    · rintro ⟨sign, digits, split, rfl | rfl, some, decimal, value⟩
      · -- Without the sign, the plus itself would have to be a digit.
        obtain rfl : '+' :: rest = digits := split
        exact absurd (decimal '+' (by simp)) not_isDigit_plus
      · obtain rfl : rest = digits := by simpa using split
        exact ⟨some, decimal, value⟩
  · rename_i unsigned
    rw [read]
    constructor
    · intro spelled
      exact ⟨[], cs, rfl, .inl rfl, spelled⟩
    · rintro ⟨sign, digits, rfl, rfl | rfl, spelled⟩
      · exact spelled
      · exact absurd rfl (unsigned digits)

theorem spellsWord_iff {cs : List Char} {n : Nat} :
    SpellsWord cs n ↔ ∃ w : UInt32, readWord? cs = some w ∧ w.toNat = n := by
  constructor
  · intro spelled
    obtain ⟨sign, digits, -, -, -, -, -, small⟩ := id spelled
    have exactly : (UInt32.ofNat n).toNat = n := UInt32.toNat_ofNat_of_lt small
    exact ⟨.ofNat n, readWord?_eq_some.mpr (by rwa [exactly]), exactly⟩
  · rintro ⟨w, read, rfl⟩
    exact readWord?_eq_some.mp read

theorem exists_spellsWord {cs : List Char} :
    (∃ n, SpellsWord cs n) ↔ (readWord? cs).isSome = true := by
  simp only [spellsWord_iff, Option.isSome_iff_exists]
  rw [exists_comm]
  simp

instance (cs : List Char) : Decidable (∃ n, SpellsWord cs n) :=
  decidable_of_iff' _ exists_spellsWord

theorem isDigit_of_mem_toDigits {n : Nat} {c : Char} (member : c ∈ Nat.toDigits 10 n) :
    IsDigit c := by
  have digit := Nat.isDigit_of_mem_toDigits (by decide) (by decide) member
  simp only [Char.isDigit, Bool.and_eq_true, decide_eq_true_eq] at digit
  exact digit

theorem decimalValue_toDigits (n : Nat) : decimalValue 0 (Nat.toDigits 10 n) = n :=
  Nat.ofDigitChars_toDigits (b := 10) (by decide) (by decide)

theorem isBlank_of_isDigit {c : Char} (digit : IsDigit c) : isBlank c = false := by
  have lower : '0'.toNat ≤ c.toNat := digit.1
  have upper : c.toNat ≤ '9'.toNat := digit.2
  have zero : '0'.toNat = 48 := rfl
  have nine : '9'.toNat = 57 := rfl
  simp only [isBlank, Bool.or_eq_false_iff, Bool.and_eq_false_imp, decide_eq_true_eq,
    decide_eq_false_iff_not, beq_eq_false_iff_ne]
  omega

theorem dropWhile_isBlank_eq_self {cs : List Char} (dark : ∀ c ∈ cs, isBlank c = false) :
    cs.dropWhile isBlank = cs := by
  cases cs with
  | nil => rfl
  | cons c rest => exact List.dropWhile_cons_of_neg (by simp [dark c (by simp)])

theorem trim_blanks {before core after : List Char} (blankBefore : ∀ c ∈ before, isBlank c = true)
    (dark : ∀ c ∈ core, isBlank c = false) (blankAfter : ∀ c ∈ after, isBlank c = true) :
    trim (before ++ core ++ after) = core := by
  rw [trim, List.append_assoc, List.dropWhile_append_of_pos blankBefore]
  cases core with
  | nil =>
      rw [List.nil_append, List.dropWhile_eq_nil_iff.mpr blankAfter]
      rfl
  | cons c rest =>
      have starts : ¬ isBlank c = true := by simp [dark c List.mem_cons_self]
      have blankEnd : ∀ d ∈ after.reverse, isBlank d = true :=
        fun d => blankAfter d ∘ List.mem_reverse.mp
      have darkEnd : ∀ d ∈ (c :: rest).reverse, isBlank d = false :=
        fun d => dark d ∘ List.mem_reverse.mp
      rw [List.cons_append, List.dropWhile_cons_of_neg starts, ← List.cons_append,
        List.reverse_append, List.dropWhile_append_of_pos blankEnd,
        dropWhile_isBlank_eq_self darkEnd, List.reverse_reverse]

theorem trim_eq_self {cs : List Char} (dark : ∀ c ∈ cs, isBlank c = false) : trim cs = cs := by
  simpa using @trim_blanks [] cs [] (by simp) dark (by simp)

theorem readWord?_trim_toString (w : UInt32) :
    readWord? (trim (toString w.toNat).toList) = some w := by
  have digits : (toString w.toNat).toList = Nat.toDigits 10 w.toNat := String.toList_ofList
  rw [digits, trim_eq_self fun c member => isBlank_of_isDigit (isDigit_of_mem_toDigits member),
    readWord?_eq_some]
  exact ⟨[], _, rfl, .inl rfl, Nat.toDigits_ne_nil, fun c => isDigit_of_mem_toDigits,
    decimalValue_toDigits _, w.toNat_lt⟩

end WireProxy.Text
