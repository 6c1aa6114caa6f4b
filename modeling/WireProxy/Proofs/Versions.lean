import WireProxy.Proofs.FirstFault

/-!
# Versions

The version of an interface is a decimal numeral of a 32-bit number, with at most one plus sign in
front of it and any blanks around it.  A scan accepts these texts and no others, and it reports any
other one as it is written.  Whether a numeral is too large need not be seen from its whole value:
a check after every digit comes to the same.
-/

namespace WireProxy

namespace Text

/-- Blanks, the numeral of a word, blanks. -/
def SpellsVersion (cs : List Char) (n : Nat) : Prop :=
  ∃ before numeral after, cs = before ++ numeral ++ after ∧ (∀ c ∈ before, isBlank c = true) ∧
    (∀ c ∈ after, isBlank c = true) ∧ SpellsWord numeral n

/-- A word with one more digit at its end, if both the shifted word and the sum are words. -/
def appendDigit? (w : UInt32) (c : Char) : Option UInt32 := do
  let d ← digit? 10 c
  let shifted ← word? (10 * w.toNat)
  word? (shifted.toNat + d)

/-- Reads a word without ever holding more than a word. -/
def readWordStepwise? : List Char → Option UInt32
  | [] | ['+'] => none
  | '+' :: digits | digits => digits.foldlM appendDigit? 0

theorem exists_blanks_trim (cs : List Char) :
    ∃ before after, cs = before ++ trim cs ++ after ∧ (∀ c ∈ before, isBlank c = true) ∧
      ∀ c ∈ after, isBlank c = true := by
  refine ⟨cs.takeWhile isBlank, ((cs.dropWhile isBlank).reverse.takeWhile isBlank).reverse, ?_,
    fun c => List.mem_takeWhile_imp, fun c => List.mem_takeWhile_imp ∘ List.mem_reverse.mp⟩
  rw [trim, List.append_assoc, ← List.reverse_append, List.takeWhile_append_dropWhile,
    List.reverse_reverse, List.takeWhile_append_dropWhile]

theorem isBlank_of_spellsWord {cs : List Char} {n : Nat} (spelled : SpellsWord cs n) :
    ∀ c ∈ cs, isBlank c = false := by
  obtain ⟨sign, digits, rfl, isSign, -, decimal, -⟩ := spelled
  intro c member
  rcases List.mem_append.mp member with inSign | inDigits
  · rcases isSign with rfl | rfl
    · cases inSign
    · rw [List.mem_singleton.mp inSign]
      decide
  · exact isBlank_of_isDigit (decimal c inDigits)

theorem spellsWord_trim {cs : List Char} {n : Nat} :
    SpellsWord (trim cs) n ↔ SpellsVersion cs n := by
  constructor
  · intro spelled
    obtain ⟨before, after, whole, blankBefore, blankAfter⟩ := exists_blanks_trim cs
    exact ⟨before, trim cs, after, whole, blankBefore, blankAfter, spelled⟩
  · rintro ⟨before, numeral, after, rfl, blankBefore, blankAfter, spelled⟩
    rwa [trim_blanks blankBefore (isBlank_of_spellsWord spelled) blankAfter]

theorem SpellsVersion.unique {cs : List Char} {n m : Nat} (first : SpellsVersion cs n)
    (second : SpellsVersion cs m) : n = m := by
  obtain ⟨w, read, rfl⟩ := spellsWord_iff.mp (spellsWord_trim.mpr first)
  obtain ⟨w', read', rfl⟩ := spellsWord_iff.mp (spellsWord_trim.mpr second)
  rw [read, Option.some.injEq] at read'
  rw [read']

instance (cs : List Char) : Decidable (∃ n, SpellsVersion cs n) :=
  decidable_of_iff (∃ n, SpellsWord (trim cs) n) (exists_congr fun _ => spellsWord_trim)

/-! ## Digit by digit -/

theorem word?_eq_none {n : Nat} : word? n = none ↔ wordLimit ≤ n := by
  unfold word?
  split <;> simp_all

theorem le_decimalValue (acc : Nat) (cs : List Char) : acc ≤ decimalValue acc cs := by
  induction cs generalizing acc with
  | nil => exact Nat.le_refl acc
  | cons c cs ih =>
      have rest := ih (10 * acc + (c.toNat - '0'.toNat))
      change acc ≤ decimalValue (10 * acc + (c.toNat - '0'.toNat)) cs
      omega

theorem appendDigit?_eq (w : UInt32) (c : Char) :
    appendDigit? w c = (digit? 10 c).bind fun d => word? (10 * w.toNat + d) := by
  refine Option.bind_congr fun d _ => ?_
  cases shift : word? (10 * w.toNat) with
  | none =>
      have large := word?_eq_none.mp shift
      exact (word?_eq_none.mpr (by omega)).symm
  | some shifted =>
      obtain ⟨-, same⟩ := word?_eq_some.mp shift
      rw [← same]
      rfl

/-- A value that is too large once stays too large. -/
theorem foldlM_appendDigit? (cs : List Char) (w : UInt32) :
    cs.foldlM appendDigit? w = (digitsValue? 10 w.toNat cs).bind word? := by
  induction cs generalizing w with
  | nil => exact (word?_eq_some.mpr ⟨w.toNat_lt, rfl⟩).symm
  | cons c cs ih =>
      rw [List.foldlM_cons, appendDigit?_eq, digitsValue?]
      cases digit? 10 c with
      | none => rfl
      | some d =>
          change (word? (10 * w.toNat + d)).bind (cs.foldlM appendDigit?) =
            (digitsValue? 10 (10 * w.toNat + d) cs).bind word?
          cases next : word? (10 * w.toNat + d) with
          | some w' =>
              obtain ⟨-, same⟩ := word?_eq_some.mp next
              rw [← same]
              exact ih w'
          | none =>
              have large := word?_eq_none.mp next
              cases value : digitsValue? 10 (10 * w.toNat + d) cs with
              | none => rfl
              | some n =>
                  obtain ⟨-, rfl⟩ := digitsValue?_ten.mp value
                  have grows := le_decimalValue (10 * w.toNat + d) cs
                  exact (word?_eq_none.mpr (by omega)).symm

theorem readWordStepwise?_eq (cs : List Char) : readWordStepwise? cs = readWord? cs := by
  have numeral (digits : List Char) (some : digits ≠ []) :
      digits.foldlM appendDigit? 0 = (numeral? 10 digits).bind word? := by
    rw [foldlM_appendDigit?, numeral?, if_neg (by simpa using some)]
    rfl
  unfold readWordStepwise?
  split
  · rfl
  · rfl
  · next digits more => exact numeral digits (by simpa using more)
  · next notEmpty notSign unsigned =>
      rw [numeral cs notEmpty]
      unfold readWord?
      split
      · next rest => exact absurd rfl (unsigned rest)
      · rfl

end Text

/-! ## Faults of versions -/

namespace Loading

open Xml (Element)

/-- All that is wrong with these interfaces, in the order of the scan. -/
def faultsAmong (o : Origin) (es : List Element) : List Fault :=
  inOrder (fun earlier e => interfaceFaults o e ++ takenFaults o earlier e) [] es

section Versions

variable {o : Origin} {e : Element} {path interface value : String}

theorem version_eq_ok_iff (given : e.attribute? "version" = some value) {n : UInt32} :
    version o interface e = .ok n ↔ Text.SpellsVersion value.toList n.toNat := by
  rw [version_eq_ok, given, ← Text.spellsWord_trim, ← Text.readWord?_eq_some]
  simp

theorem versionFaults_eq (given : e.attribute? "version" = some value) :
    versionFaults o interface e =
      if ∃ n, Text.SpellsVersion value.toList n then []
      else [.invalidVersion o.path interface value] := by
  simp only [versionFaults, given, Text.spellsWord_trim, ite_not]

theorem invalidVersion_mem_lacking {kind : ElementKind} {location : Location} {sought : String}
    {rest : String → List Fault} :
    .invalidVersion path interface value ∈ lacking o kind location e sought rest ↔
      ∃ found, e.attribute? sought = some found ∧
        .invalidVersion path interface value ∈ rest found := by
  unfold lacking
  cases e.attribute? sought <;> simp

theorem invalidVersion_notMem_partFaults {part : ElementKind} {detail owner inside : String} :
    .invalidVersion path interface value ∉ partFaults o part detail inside owner e := by
  simp [partFaults, invalidVersion_mem_lacking]

theorem invalidVersion_notMem_ownerFaults {kind part : ElementKind} {detail inside : String} :
    .invalidVersion path interface value ∉ ownerFaults o kind part detail inside e := by
  simp [ownerFaults, invalidVersion_mem_lacking, invalidVersion_notMem_partFaults]

theorem invalidVersion_notMem_requestFaults {inside : String} {earlier : List Element} :
    .invalidVersion path interface value ∉ requestFaults o inside earlier e := by
  rw [requestFaults, invalidVersion_mem_lacking]
  rintro ⟨name, -, member⟩
  split at member
  · split at member <;> simp at member
  · rcases List.mem_append.mp member with inArgs | inResult
    · obtain ⟨arg, -, member⟩ := List.mem_flatMap.mp inArgs
      exact invalidVersion_notMem_partFaults member
    · unfold resultFaults at inResult
      split at inResult <;> simp at inResult

theorem not_spells_of_mem_interfaceFaults
    (member : .invalidVersion path interface value ∈ interfaceFaults o e) :
    ¬ ∃ n, Text.SpellsVersion value.toList n := by
  rw [interfaceFaults, invalidVersion_mem_lacking] at member
  obtain ⟨raw, -, member⟩ := member
  simp only [List.mem_append] at member
  rcases member with inVersion | inRequests | inEvents | inEnums
  · cases given : e.attribute? "version" with
    | none => simp [versionFaults, given] at inVersion
    | some found =>
        rw [versionFaults_eq given] at inVersion
        split at inVersion
        · cases inVersion
        · next unspelled =>
            cases List.mem_singleton.mp inVersion
            exact unspelled
  · obtain ⟨before, child, -, member⟩ := mem_inOrder inRequests
    exact absurd member invalidVersion_notMem_requestFaults
  · obtain ⟨child, -, member⟩ := List.mem_flatMap.mp inEvents
    exact absurd member invalidVersion_notMem_ownerFaults
  · obtain ⟨child, -, member⟩ := List.mem_flatMap.mp inEnums
    exact absurd member invalidVersion_notMem_ownerFaults

theorem not_spells_of_mem_faults {root : Element}
    (member : .invalidVersion path interface value ∈ faults o root) :
    ¬ ∃ n, Text.SpellsVersion value.toList n := by
  obtain ⟨earlier, e, -, member⟩ := mem_inOrder member
  rcases List.mem_append.mp member with inInterface | isTaken
  · exact not_spells_of_mem_interfaceFaults inInterface
  · unfold takenFaults at isTaken
    repeat' split at isTaken
    all_goals simp at isTaken

end Versions

/-- Where nothing is wrong earlier, a text that is no version is the first fault. -/
theorem head?_faults {o : Origin} {root e : Element} {before after : List Element}
    {raw value : String} (elements : root.children "interface" = before ++ e :: after)
    (clean : faultsAmong o before = []) (named : e.attribute? "name" = some raw)
    (given : e.attribute? "version" = some value)
    (unspelled : ¬ ∃ n, Text.SpellsVersion value.toList n) :
    (faults o root).head? = some (.invalidVersion o.path (stripStem o.stem raw) value) := by
  have here : (interfaceFaults o e).head? =
      some (.invalidVersion o.path (stripStem o.stem raw) value) := by
    simp [interfaceFaults, lacking, named, versionFaults_eq given, unspelled]
  rw [faults, elements, inOrder_append, ← faultsAmong, clean, List.nil_append, inOrder,
    List.append_assoc, List.head?_append, here, Option.some_or]

end Loading

/-! ## Loaded versions -/

namespace Protocol

variable {o : Origin} {text : String} {root e : Xml.Element} {before after : List Xml.Element}

theorem exists_load_of_faults_eq_nil (parsed : Xml.root? text = some root)
    (isProtocol : root.name.base = "protocol") (faultless : Loading.faults o root = []) :
    ∃ p, Protocol.load o text = .ok p := by
  cases loaded : Protocol.load o text with
  | ok p => exact ⟨p, rfl⟩
  | error fault =>
      rw [load_eq_error parsed isProtocol, faultless] at loaded
      cases loaded

/-- The interface at the place of its element has the version that the element spells. -/
theorem exists_interface_of_load (parsed : Xml.root? text = some root)
    (elements : root.children "interface" = before ++ e :: after) {value : String}
    (given : e.attribute? "version" = some value) {p : Protocol}
    (loaded : Protocol.load o text = .ok p) :
    ∃ i, p.interfaces[before.length]? = some i ∧
      Text.SpellsVersion value.toList i.version.toNat := by
  obtain ⟨root', parsed', -, -, scanned, -⟩ := Protocol.load_eq_ok.mp loaded
  obtain rfl : root = root' := Option.some.inj (parsed.symm.trans parsed')
  have fromHere := List.forall₂_drop before.length scanned
  rw [elements, List.drop_left, List.forall₂_cons_left_iff] at fromHere
  obtain ⟨i, rest, found, -, place⟩ := fromHere
  refine ⟨i, ?_, ?_⟩
  · rw [← List.head?_drop, place, List.head?_cons]
  · obtain ⟨-, versioned, -⟩ := Loading.interface_eq_ok.mp found
    exact (Loading.version_eq_ok_iff given).mp versioned

/-- The version step takes exactly the numerals.  A document in which nothing else is wrong is
loaded with that version, and any other text is the fault unless something is wrong before it. -/
theorem load_version_iff (parsed : Xml.root? text = some root)
    (isProtocol : root.name.base = "protocol")
    (elements : root.children "interface" = before ++ e :: after) {raw value : String}
    (named : e.attribute? "name" = some raw) (given : e.attribute? "version" = some value) :
    (∀ n, Loading.version o (stripStem o.stem raw) e = .ok n ↔
      Text.SpellsVersion value.toList n.toNat) ∧
    ((∀ fault ∈ Loading.faults o root,
        fault = .invalidVersion o.path (stripStem o.stem raw) value) →
      ∀ n, (∃ p i, Protocol.load o text = .ok p ∧ p.interfaces[before.length]? = some i ∧
          i.version.toNat = n) ↔
        Text.SpellsVersion value.toList n) ∧
    (Loading.faultsAmong o before = [] →
      (Protocol.load o text = .error (.invalidVersion o.path (stripStem o.stem raw) value) ↔
        ¬ ∃ n, Text.SpellsVersion value.toList n)) ∧
    ∀ cs, Text.readWordStepwise? cs = Text.readWord? cs := by
  refine ⟨fun n => Loading.version_eq_ok_iff given, fun alone n => ⟨?_, ?_⟩,
    fun clean => ⟨?_, ?_⟩, Text.readWordStepwise?_eq⟩
  · rintro ⟨p, i, loaded, place, rfl⟩
    obtain ⟨i', place', spelled⟩ := exists_interface_of_load parsed elements given loaded
    obtain rfl : i = i' := Option.some.inj (place.symm.trans place')
    exact spelled
  · intro spelled
    have faultless : Loading.faults o root = [] := by
      rw [List.eq_nil_iff_forall_not_mem]
      intro fault member
      obtain rfl := alone fault member
      exact Loading.not_spells_of_mem_faults member ⟨n, spelled⟩
    obtain ⟨p, loaded⟩ := exists_load_of_faults_eq_nil parsed isProtocol faultless
    obtain ⟨i, place, spelled'⟩ := exists_interface_of_load parsed elements given loaded
    exact ⟨p, i, loaded, place, spelled'.unique spelled⟩
  · intro failed
    rw [load_eq_error parsed isProtocol] at failed
    exact Loading.not_spells_of_mem_faults (List.mem_of_head? failed)
  · intro unspelled
    rw [load_eq_error parsed isProtocol]
    exact Loading.head?_faults elements clean named given unspelled

end Protocol

/-- Two interfaces, of which the second has a version. -/
def versionedPair (version : String) : Xml.Element :=
  .plain "protocol" [] [.plain "interface" [("name", "wl_a")] [],
    .plain "interface" [("name", "wl_b"), ("version", version)] []]

/-- The largest version between blanks, and the number after it. -/
theorem Protocol.load_version_iff_limit :
    (∃ p i, Protocol.load ⟨"pair.xml", "wl_"⟩
          (versionedPair "\u2003+0004294967295\n").toNode.document = .ok p ∧
        p.interfaces[1]? = some i ∧ i.version.toNat = 4294967295) ∧
      Protocol.load ⟨"pair.xml", "wl_"⟩ (versionedPair " 4294967296 ").toNode.document =
        .error (.invalidVersion "pair.xml" "b" " 4294967296 ") := by
  have parsed : Xml.root? (versionedPair "\u2003+0004294967295\n").toNode.document =
      some (versionedPair "\u2003+0004294967295\n") :=
    Xml.root?_document (by decide +kernel)
  have parsed' : Xml.root? (versionedPair " 4294967296 ").toNode.document =
      some (versionedPair " 4294967296 ") :=
    Xml.root?_document (by decide +kernel)
  have elements (version : String) : (versionedPair version).children "interface" =
      [.plain "interface" [("name", "wl_a")] []] ++
        .plain "interface" [("name", "wl_b"), ("version", version)] [] :: [] := rfl
  have spelled : Text.SpellsVersion "\u2003+0004294967295\n".toList 4294967295 :=
    Text.spellsWord_trim.mp ((Text.readWord?_eq_some (w := 4294967295)).mp (by decide +kernel))
  obtain ⟨-, accepts, -⟩ :=
    Protocol.load_version_iff (o := ⟨"pair.xml", "wl_"⟩) parsed rfl (elements _) rfl rfl
  obtain ⟨-, -, rejects, -⟩ :=
    Protocol.load_version_iff (o := ⟨"pair.xml", "wl_"⟩) parsed' rfl (elements _) rfl rfl
  exact ⟨(accepts (by decide +kernel) _).mpr spelled,
    (rejects (by decide +kernel)).mpr (by decide +kernel)⟩

end WireProxy
