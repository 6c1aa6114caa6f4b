import Mathlib.Data.List.Chain
import WireProxy.Proofs.Success
import WireProxy.Proofs.Writing

/-!
# Spans of text

Every token is read off a span of the text, and off the same span wherever it stands: what comes
after does not matter, but that character data must end where a tag begins.  So the tokens of a
text can be written again in any other order that keeps character data apart.
-/

namespace WireProxy.Xml

/-- The reader takes exactly the span, whatever follows. -/
def Takes {α : Type} (read : List Char → Option (α × List Char)) (span : List Char) (a : α) :
    Prop :=
  ∀ rest, read (span ++ rest) = some (a, rest)

/-- A run of such characters ends before this text. -/
def Stops (p : Char → Bool) (rest : List Char) : Prop :=
  ∀ c ∈ rest.head?, p c = false

theorem Stops.congr {p : Char → Bool} {gap rest : List Char} {c : Char}
    (stops : Stops p (gap ++ c :: rest)) (other : List Char) : Stops p (gap ++ c :: other) := by
  cases gap with
  | nil => exact stops
  | cons first gap => exact stops

theorem stops_dropWhile (p : Char → Bool) (cs : List Char) : Stops p (cs.dropWhile p) := by
  intro c member
  have found := List.head?_dropWhile_not p cs
  rw [member] at found
  simpa using found

section Runs

variable {p : Char → Bool} {run rest : List Char}

theorem takeWhile_run (all : ∀ c ∈ run, p c = true) (stops : Stops p rest) :
    (run ++ rest).takeWhile p = run := by
  rw [List.takeWhile_append_of_pos all]
  cases rest with
  | nil => simp
  | cons c rest => simp [stops c rfl]

theorem dropWhile_run (all : ∀ c ∈ run, p c = true) (stops : Stops p rest) :
    (run ++ rest).dropWhile p = rest := by
  rw [List.dropWhile_append_of_pos all]
  cases rest with
  | nil => rfl
  | cons c rest => simp [stops c rfl]

end Runs

theorem after?_eq_some {start cs rest : List Char} :
    after? start cs = some rest ↔ cs = start ++ rest := by
  unfold after?
  constructor
  · intro h
    split at h
    · next isStart =>
        obtain ⟨tail, rfl⟩ := List.isPrefixOf_iff_prefix.mp isStart
        simpa using h
    · cases h
  · rintro rfl
    simp

theorem skipSpaces_eq {cs rest : List Char} :
    skipSpaces cs = rest ↔
      ∃ gap, cs = gap ++ rest ∧ (∀ c ∈ gap, isSpace c = true) ∧ Stops isSpace rest := by
  constructor
  · rintro rfl
    exact ⟨_, List.takeWhile_append_dropWhile.symm, fun _ => List.mem_takeWhile_imp,
      stops_dropWhile _ _⟩
  · rintro ⟨gap, rfl, blank, stops⟩
    exact dropWhile_run blank stops

theorem readName?_eq_some {cs rest : List Char} {name : QName} :
    readName? cs = some (name, rest) ↔
      ∃ letters, cs = letters ++ rest ∧ nameOf? letters = some name ∧
        (∀ c ∈ letters, isNameOrColon c = true) ∧ Stops isNameOrColon rest := by
  simp only [readName?, Option.bind_eq_bind, Option.bind_eq_some_iff, Option.pure_def,
    Option.some.injEq, Prod.mk.injEq]
  constructor
  · rintro ⟨_, named, rfl, rfl⟩
    exact ⟨_, List.takeWhile_append_dropWhile.symm, named, fun _ => List.mem_takeWhile_imp,
      stops_dropWhile _ _⟩
  · rintro ⟨letters, rfl, named, all, stops⟩
    rw [takeWhile_run all stops, dropWhile_run all stops]
    exact ⟨name, named, rfl, rfl⟩

/-! ## Tags -/

/-- Character data, which alone does not end by itself. -/
def Token.isText : Token → Bool
  | text _ => true
  | _ => false

theorem isNameOrColon_of_isSpace {c : Char} (blank : isSpace c = true) :
    isNameOrColon c = false := by
  simp only [isSpace, Bool.or_eq_true, beq_iff_eq] at blank
  rcases blank with ((rfl | rfl) | rfl) | rfl <;> decide

theorem stops_gap {gap rest : List Char} {c : Char} (blank : ∀ c ∈ gap, isSpace c = true)
    (ends : isNameOrColon c = false) : Stops isNameOrColon (gap ++ c :: rest) := by
  cases gap with
  | nil => simpa [Stops] using ends
  | cons first gap =>
      simpa [Stops] using isNameOrColon_of_isSpace (blank first List.mem_cons_self)

/-- The parts of an assignment: a name, an equals sign between blanks, and a value in quotes. -/
structure Assigns (letters gap gap' : List Char) (quote : Char) (raw : List Char) (name : QName) :
    Prop where
  named : nameOf? letters = some name
  allName : ∀ c ∈ letters, isNameOrColon c = true
  blank : ∀ c ∈ gap, isSpace c = true
  blank' : ∀ c ∈ gap', isSpace c = true
  isQuote : quote = '"' ∨ quote = '\''
  inside : ∀ c ∈ raw, (c != quote && c != '<') = true
  allowed : raw.all isAllowed = true

theorem exists_assigns {cs rest raw : List Char} {name : QName}
    (read : readAssignment? cs = some ((name, raw), rest)) :
    ∃ letters gap gap' quote, Assigns letters gap gap' quote raw name ∧
      cs = letters ++ (gap ++ '=' :: (gap' ++ quote :: (raw ++ quote :: rest))) := by
  simp only [readAssignment?, Option.bind_eq_bind, Option.bind_eq_some_iff] at read
  obtain ⟨⟨found, cs₁⟩, readName, cs₂, equals, read⟩ := read
  obtain ⟨letters, rfl, named, allName, -⟩ := readName?_eq_some.mp readName
  obtain ⟨gap, rfl, blank, -⟩ := skipSpaces_eq.mp (after?_eq_some.mp equals)
  split at read
  · next quote body found =>
      obtain ⟨gap', rfl, blank', -⟩ := skipSpaces_eq.mp found
      split at read
      · next isQuote =>
          simp only [Option.bind_eq_some_iff] at read
          obtain ⟨cs₃, ends, read⟩ := read
          split at read
          · next allowed =>
              cases read
              have body_eq := List.takeWhile_append_dropWhile
                (p := fun c => c != quote && c != '<') (l := body)
              rw [after?_eq_some.mp ends] at body_eq
              refine ⟨letters, gap, gap', quote, ⟨named, allName, blank, blank', isQuote,
                fun _ => List.mem_takeWhile_imp, allowed⟩, ?_⟩
              exact congrArg (fun b => letters ++ (gap ++ '=' :: (gap' ++ quote :: b)))
                body_eq.symm
          · cases read
      · cases read
  · cases read

theorem Assigns.read {letters gap gap' raw : List Char} {quote : Char} {name : QName}
    (parts : Assigns letters gap gap' quote raw name) (rest : List Char) :
    readAssignment? (letters ++ (gap ++ '=' :: (gap' ++ quote :: (raw ++ quote :: rest)))) =
      some ((name, raw), rest) := by
  have quoteDark : isSpace quote = false := by
    rcases parts.isQuote with rfl | rfl <;> decide
  have readName : readName?
      (letters ++ (gap ++ '=' :: (gap' ++ quote :: (raw ++ quote :: rest)))) =
        some (name, gap ++ '=' :: (gap' ++ quote :: (raw ++ quote :: rest))) :=
    readName?_eq_some.mpr
      ⟨letters, rfl, parts.named, parts.allName, stops_gap parts.blank (by decide)⟩
  have equals : skipSpaces (gap ++ '=' :: (gap' ++ quote :: (raw ++ quote :: rest))) =
      '=' :: (gap' ++ quote :: (raw ++ quote :: rest)) :=
    skipSpaces_eq.mpr ⟨gap, rfl, parts.blank, by simp [Stops, isSpace]⟩
  have opens : skipSpaces (gap' ++ quote :: (raw ++ quote :: rest)) =
      quote :: (raw ++ quote :: rest) :=
    skipSpaces_eq.mpr ⟨gap', rfl, parts.blank', by simpa [Stops] using quoteDark⟩
  have closes : Stops (fun c => c != quote && c != '<') (quote :: rest) := by
    simp [Stops]
  simp only [readAssignment?, Option.bind_eq_bind, readName, Option.bind_some, equals,
    after?_singleton, opens, parts.isQuote, if_true, takeWhile_run parts.inside closes,
    dropWhile_run parts.inside closes, parts.allowed, Option.pure_def]

theorem exists_cons_of_nameOf? {letters : List Char} {name : QName}
    (named : nameOf? letters = some name) : ∃ c more, letters = c :: more := by
  cases letters with
  | nil => cases named
  | cons c more => exact ⟨c, more, rfl⟩

theorem readAttribute?_takes {cs rest : List Char} {a : Attribute}
    (read : readAttribute? cs = some (a, rest)) :
    ∃ c span, cs = c :: span ++ rest ∧ isNameOrColon c = true ∧
      Takes readAttribute? (c :: span) a := by
  simp only [readAttribute?, Option.bind_eq_bind, Option.bind_eq_some_iff, Option.pure_def,
    Option.some.injEq, Prod.mk.injEq] at read
  obtain ⟨⟨⟨name, raw⟩, cs₁⟩, assigned, value, expanded, rfl, rfl⟩ := read
  obtain ⟨letters, gap, gap', quote, parts, rfl⟩ := exists_assigns assigned
  obtain ⟨c, more, rfl⟩ := exists_cons_of_nameOf? parts.named
  refine ⟨c, more ++ (gap ++ '=' :: (gap' ++ quote :: (raw ++ [quote]))), by simp,
    parts.allName c List.mem_cons_self, fun other => ?_⟩
  have assigned' : readAssignment?
      (c :: (more ++ (gap ++ '=' :: (gap' ++ quote :: (raw ++ [quote])))) ++ other) =
        some ((name, raw), other) := by
    simpa using parts.read other
  rw [readAttribute?, assigned']
  simp [expanded]

theorem ne_of_isNameOrColon {c d : Char} (is : isNameOrColon c = true)
    (other : isNameOrColon d = false) : c ≠ d := by
  rintro rfl
  rw [is] at other
  cases other

section Attributes

variable {gap rest : List Char}

theorem readAttributes?_end (blank : ∀ c ∈ gap, isSpace c = true) :
    readAttributes? (gap ++ '>' :: rest) = some ([], false, rest) := by
  have skipped : skipSpaces (gap ++ '>' :: rest) = '>' :: rest :=
    skipSpaces_eq.mpr ⟨gap, rfl, blank, by simp [Stops, isSpace]⟩
  rw [readAttributes?, skipped]
  rfl

theorem readAttributes?_emptyEnd (blank : ∀ c ∈ gap, isSpace c = true) :
    readAttributes? (gap ++ '/' :: '>' :: rest) = some ([], true, rest) := by
  have skipped : skipSpaces (gap ++ '/' :: '>' :: rest) = '/' :: '>' :: rest :=
    skipSpaces_eq.mpr ⟨gap, rfl, blank, by simp [Stops, isSpace]⟩
  rw [readAttributes?, skipped]
  rfl

theorem isSpace_of_isNameOrColon {c : Char} (starts : isNameOrColon c = true) :
    isSpace c = false := by
  cases blank : isSpace c with
  | false => rfl
  | true => exact absurd rfl (ne_of_isNameOrColon starts (isNameOrColon_of_isSpace blank))

theorem readAttributes?_attribute {first c : Char} {body : List Char} {a : Attribute}
    (blank : ∀ c ∈ first :: gap, isSpace c = true) (starts : isNameOrColon c = true)
    (read : readAttribute? (c :: body) = some (a, rest)) :
    readAttributes? (first :: gap ++ c :: body) =
      (readAttributes? rest).map fun (others, tail) => (a :: others, tail) := by
  have skipped : skipSpaces (first :: gap ++ c :: body) = c :: body :=
    skipSpaces_eq.mpr
      ⟨first :: gap, rfl, blank, by simpa [Stops] using isSpace_of_isNameOrColon starts⟩
  rw [readAttributes?, skipped]
  split
  · next ended => exact absurd (List.cons.inj ended).1 (ne_of_isNameOrColon starts (by decide))
  · next ended => exact absurd (List.cons.inj ended).1 (ne_of_isNameOrColon starts (by decide))
  · have led : (first :: gap ++ c :: body).head?.any isSpace = true :=
      blank first List.mem_cons_self
    rw [if_pos led]
    split
    · next found =>
        rw [read] at found
        cases found
        rfl
    · next found =>
        rw [read] at found
        cases found

theorem readAttributes?_takes {cs : List Char} {attributes : List Attribute} {closed : Bool}
    (read : readAttributes? cs = some (attributes, closed, rest)) :
    ∃ span, cs = span ++ rest ∧
      ∀ other, readAttributes? (span ++ other) = some (attributes, closed, other) := by
  fun_induction readAttributes? cs generalizing attributes closed rest with
  | case1 cs rest' found =>
      cases read
      obtain ⟨gap, rfl, blank, -⟩ := skipSpaces_eq.mp found
      refine ⟨gap ++ ['>'], by simp, fun other => ?_⟩
      rw [List.append_assoc]
      exact readAttributes?_end blank
  | case2 cs rest' found =>
      cases read
      obtain ⟨gap, rfl, blank, -⟩ := skipSpaces_eq.mp found
      refine ⟨gap ++ ['/', '>'], by simp, fun other => ?_⟩
      rw [List.append_assoc]
      exact readAttributes?_emptyEnd blank
  | case3 cs led a rest' found notEnd notEmptyEnd ih =>
      simp only [Option.map_eq_some_iff, Prod.mk.injEq] at read
      obtain ⟨⟨others, closed', rest''⟩, read, rfl, rfl, rfl⟩ := read
      obtain ⟨span', rfl, takes'⟩ := ih read
      obtain ⟨c, span, found_eq, starts, takes⟩ := readAttribute?_takes found
      obtain ⟨gap, rfl, blank, -⟩ := skipSpaces_eq.mp found_eq
      cases gap with
      | nil =>
          -- White space stands before each attribute.
          have blank : isSpace c = true := led
          rw [isSpace_of_isNameOrColon starts] at blank
          cases blank
      | cons first gap =>
          refine ⟨first :: gap ++ (c :: span ++ span'), by simp, fun other => ?_⟩
          have read' := readAttributes?_attribute blank starts (takes (span' ++ other))
          rw [takes' other] at read'
          simpa using read'
  | case4 => cases read
  | case5 => cases read

end Attributes

theorem readTag?_takes {cs rest : List Char} {t : Token} (read : readTag? cs = some (t, rest)) :
    ∃ c span, cs = c :: span ++ rest ∧ isNameOrColon c = true ∧ t.isText = false ∧
      Takes readTag? (c :: span) t := by
  simp only [readTag?, Option.bind_eq_bind, Option.bind_eq_some_iff, Option.pure_def,
    Option.some.injEq, Prod.mk.injEq] at read
  obtain ⟨⟨name, cs₁⟩, readName, ⟨attributes, closed, cs₂⟩, attributed, rfl, rfl⟩ := read
  obtain ⟨letters, rfl, named, all, stops⟩ := readName?_eq_some.mp readName
  obtain ⟨span, rfl, takes⟩ := readAttributes?_takes attributed
  obtain ⟨c, more, rfl⟩ := exists_cons_of_nameOf? named
  refine ⟨c, more ++ span, by simp, all c List.mem_cons_self, by cases closed <;> rfl,
    fun other => ?_⟩
  cases span with
  | nil =>
      -- At least the end of the tag stands behind its name.
      have nothing := takes []
      rw [List.append_nil, readAttributes?] at nothing
      cases nothing
  | cons first span =>
      have stops' : Stops isNameOrColon (first :: span ++ other) := stops
      have readName' := readName?_eq_some.mpr ⟨c :: more, rfl, named, all, stops'⟩
      rw [← List.cons_append, List.append_assoc, readTag?, readName']
      simp only [Option.bind_eq_bind, Option.bind_some, takes other, Option.pure_def]

theorem readClosing?_takes {cs rest : List Char} {t : Token}
    (read : readClosing? cs = some (t, rest)) :
    ∃ span, cs = span ++ rest ∧ t.isText = false ∧ Takes readClosing? span t := by
  simp only [readClosing?, Option.bind_eq_bind, Option.bind_eq_some_iff, Option.pure_def,
    Option.some.injEq, Prod.mk.injEq] at read
  obtain ⟨⟨name, cs₁⟩, readName, cs₂, ends, rfl, rfl⟩ := read
  obtain ⟨letters, rfl, named, all, -⟩ := readName?_eq_some.mp readName
  obtain ⟨gap, rfl, blank, -⟩ := skipSpaces_eq.mp (after?_eq_some.mp ends)
  refine ⟨letters ++ (gap ++ ['>']), by simp, rfl, fun other => ?_⟩
  have readName' :
      readName? (letters ++ (gap ++ '>' :: other)) = some (name, gap ++ '>' :: other) :=
    readName?_eq_some.mpr ⟨letters, rfl, named, all, stops_gap blank (by decide)⟩
  have skipped : skipSpaces (gap ++ '>' :: other) = '>' :: other :=
    skipSpaces_eq.mpr ⟨gap, rfl, blank, by simp [Stops, isSpace]⟩
  rw [List.append_assoc, List.append_assoc, readClosing?]
  simp [readName', skipped]

/-! ## Other items -/

theorem after?_eq_none_iff {start cs : List Char} : after? start cs = none ↔ ¬ start <+: cs := by
  simp [after?]

/-- A mark is found where it stands for the first time, and nothing behind it counts. -/
theorem cut?_takes {mark cs before behind : List Char} (notEmpty : mark ≠ [])
    (found : cut? mark cs = some (before, behind)) :
    cs = before ++ mark ++ behind ∧ Takes (cut? mark) (before ++ mark) before := by
  induction cs generalizing before with
  | nil => cases found
  | cons c rest ih =>
      unfold cut? at found
      split at found
      · next here =>
          cases found
          refine ⟨after?_eq_some.mp here, fun other => ?_⟩
          obtain ⟨m, ms, rfl⟩ := List.exists_cons_of_ne_nil notEmpty
          rw [List.nil_append, List.cons_append, cut?, ← List.cons_append, after?_append]
      · next notHere =>
          simp only [Option.map_eq_some_iff, Prod.mk.injEq] at found
          obtain ⟨⟨before', behind'⟩, found, rfl, rfl⟩ := found
          obtain ⟨rest_eq, takes⟩ := ih found
          subst rest_eq
          refine ⟨rfl, fun other => ?_⟩
          -- An earlier mark would lie within the span.
          have earlier : after? mark (c :: (before' ++ mark ++ other)) = none := by
            rw [after?_eq_none_iff] at notHere ⊢
            intro here
            have within : mark <+: c :: (before' ++ mark) := by
              refine List.prefix_of_prefix_length_le here ⟨other, rfl⟩ ?_
              simp only [List.length_cons, List.length_append]
              omega
            exact notHere (within.trans ⟨_, rfl⟩)
          rw [List.cons_append, List.cons_append, cut?, earlier, takes other]
          rfl

theorem readComment?_takes {cs rest : List Char} {t : Token}
    (read : readComment? cs = some (t, rest)) :
    ∃ span, cs = span ++ rest ∧ t.isText = false ∧ Takes readComment? span t := by
  simp only [readComment?, Option.bind_eq_bind, Option.bind_eq_some_iff] at read
  obtain ⟨⟨content, cs₁⟩, found, read⟩ := read
  obtain ⟨rfl, takes⟩ := cut?_takes (by decide) found
  split at read
  · next proper =>
      cases read
      refine ⟨_, rfl, rfl, fun other => ?_⟩
      rw [readComment?, takes other]
      exact if_pos proper
  · cases read

theorem readData?_takes {cs rest : List Char} {t : Token} (read : readData? cs = some (t, rest)) :
    ∃ span, cs = span ++ rest ∧ t.isText = false ∧ Takes readData? span t := by
  simp only [readData?, Option.bind_eq_bind, Option.bind_eq_some_iff] at read
  obtain ⟨⟨content, cs₁⟩, found, read⟩ := read
  obtain ⟨rfl, takes⟩ := cut?_takes (by decide) found
  split at read
  · next proper =>
      cases read
      refine ⟨_, rfl, rfl, fun other => ?_⟩
      rw [readData?, takes other]
      exact if_pos proper
  · cases read

/-- The text declaration is told apart within the span, which has a question mark. -/
theorem not_declaration {span rest : List Char} (marked : '?' ∈ span)
    (notXml : ¬ "xml ".toList.isPrefixOf (span ++ rest) = true) (other : List Char) :
    ¬ "xml ".toList.isPrefixOf (span ++ other) = true := by
  rw [List.isPrefixOf_iff_prefix] at notXml ⊢
  intro declares
  obtain within | beyond := List.prefix_or_prefix_of_prefix declares (List.prefix_append span other)
  · exact notXml (within.trans (List.prefix_append span rest))
  · exact absurd (beyond.subset marked) (by decide)

theorem readInstruction?_takes {cs rest : List Char} {t : Token}
    (read : readInstruction? cs = some (t, rest)) :
    ∃ span, cs = span ++ rest ∧ t.isText = false ∧ Takes readInstruction? span t := by
  unfold readInstruction? at read
  split at read
  · cases read
  · next notXml =>
      simp only [Option.bind_eq_bind, Option.bind_eq_some_iff] at read
      obtain ⟨⟨content, cs₁⟩, found, read⟩ := read
      split at read
      · next proper =>
          cases read
          obtain ⟨skipped, takes⟩ := cut?_takes (by decide) found
          obtain ⟨gap, behind, blank, darkStops⟩ := skipSpaces_eq.mp skipped
          have cs_eq := List.takeWhile_append_dropWhile (p := isNameOrColon) (l := cs)
          have all : ∀ c ∈ cs.takeWhile isNameOrColon, isNameOrColon c = true :=
            fun _ => List.mem_takeWhile_imp
          have stops := stops_dropWhile isNameOrColon cs
          rw [behind] at cs_eq stops
          generalize cs.takeWhile isNameOrColon = target at *
          have span_eq (other : List Char) : target ++ (gap ++ (content ++ "?>".toList)) ++ other =
              target ++ (gap ++ (content ++ "?>".toList ++ other)) := by
            simp only [List.append_assoc]
          rw [← cs_eq, ← span_eq] at notXml
          refine ⟨target ++ (gap ++ (content ++ "?>".toList)), ?_, rfl, fun other => ?_⟩
          · rw [← cs_eq, span_eq]
          · have notXml' := not_declaration (by simp) notXml other
            rw [List.append_assoc, ← List.append_assoc] at stops
            rw [List.append_assoc] at darkStops
            have targetStops : Stops isNameOrColon (gap ++ (content ++ "?>".toList ++ other)) := by
              rw [List.append_assoc, ← List.append_assoc]
              exact stops.congr ('>' :: other)
            have gapStops : Stops isSpace (content ++ "?>".toList ++ other) := by
              rw [List.append_assoc]
              exact darkStops.congr ('>' :: other)
            rw [readInstruction?, if_neg notXml', span_eq, takeWhile_run all targetStops,
              dropWhile_run all targetStops, skipSpaces_eq.mpr ⟨gap, rfl, blank, gapStops⟩]
            simp only [Option.bind_eq_bind, takes other, Option.bind_some, Option.pure_def]
            exact if_pos proper
      · cases read

/-! ## Tokens -/

def Token.EndsBefore (t : Token) (rest : List Char) : Prop :=
  t.isText = true → Stops (· != '<') rest

/-- The token is read off the span wherever it can end behind it. -/
structure Token.Spelled (t : Token) (span : List Char) : Prop where
  notEmpty : span ≠ []
  begins : t.isText = false ↔ span.head? = some '<'
  read : ∀ rest, t.EndsBefore rest → readToken? (span ++ rest) = some (t, rest)

section Kinds

variable (more : List Char)

theorem after?_other {start mark : List Char} (differ : ¬ start <+: mark ∧ ¬ mark <+: start) :
    after? start (mark ++ more) = none := by
  rw [after?_eq_none_iff]
  intro here
  obtain within | beyond := List.prefix_or_prefix_of_prefix here (List.prefix_append mark more)
  · exact differ.1 within
  · exact differ.2 beyond

theorem readToken?_closing : readToken? ("</".toList ++ more) = readClosing? more := by
  rw [readToken?, after?_append]

theorem readToken?_comment : readToken? ("<!--".toList ++ more) = readComment? more := by
  rw [readToken?, after?_other _ (by decide), after?_append]

theorem readToken?_data : readToken? ("<![CDATA[".toList ++ more) = readData? more := by
  rw [readToken?, after?_other _ (by decide), after?_other _ (by decide), after?_append]

theorem readToken?_instruction : readToken? ("<?".toList ++ more) = readInstruction? more := by
  rw [readToken?, after?_other _ (by decide), after?_other _ (by decide),
    after?_other _ (by decide), after?_append]

theorem readToken?_tag {c : Char} (named : isNameOrColon c = true) :
    readToken? ('<' :: c :: more) = readTag? (c :: more) := by
  have differs := fun d other => (ne_of_isNameOrColon (d := d) named other).symm
  rw [readToken?,
    show after? "</".toList _ = none from after?_eq_none (differs '/' (by decide)) _ _,
    show after? "<!--".toList _ = none from after?_eq_none (differs '!' (by decide)) _ _,
    show after? "<![CDATA[".toList _ = none from after?_eq_none (differs '!' (by decide)) _ _,
    show after? "<?".toList _ = none from after?_eq_none (differs '?' (by decide)) _ _,
    show after? "<".toList _ = some _ from after?_singleton '<' _]

theorem readToken?_text {c : Char} (plain : c ≠ '<') :
    readToken? (c :: more) = readText? (c :: more) := by
  have notHere (start : List Char) : after? ('<' :: start) (c :: more) = none := by
    simp [after?, plain.symm]
  rw [readToken?, show after? "</".toList _ = none from notHere _,
    show after? "<!--".toList _ = none from notHere _,
    show after? "<![CDATA[".toList _ = none from notHere _,
    show after? "<?".toList _ = none from notHere _, show after? "<".toList _ = none from notHere _]

end Kinds

theorem readToken?_cases {c : Char} {cs rest : List Char} {t : Token}
    (read : readToken? (c :: cs) = some (t, rest)) :
    (∃ more, c :: cs = "</".toList ++ more ∧ readClosing? more = some (t, rest)) ∨
      (∃ more, c :: cs = "<!--".toList ++ more ∧ readComment? more = some (t, rest)) ∨
      (∃ more, c :: cs = "<![CDATA[".toList ++ more ∧ readData? more = some (t, rest)) ∨
      (∃ more, c :: cs = "<?".toList ++ more ∧ readInstruction? more = some (t, rest)) ∨
      (c = '<' ∧ readTag? cs = some (t, rest)) ∨
      c ≠ '<' ∧ readText? (c :: cs) = some (t, rest) := by
  unfold readToken? at read
  split at read
  · next found => exact .inl ⟨_, after?_eq_some.mp found, read⟩
  · split at read
    · next found => exact .inr (.inl ⟨_, after?_eq_some.mp found, read⟩)
    · split at read
      · next found => exact .inr (.inr (.inl ⟨_, after?_eq_some.mp found, read⟩))
      · split at read
        · next found => exact .inr (.inr (.inr (.inl ⟨_, after?_eq_some.mp found, read⟩)))
        · split at read
          · next found =>
              obtain ⟨rfl, rfl⟩ := List.cons.inj (after?_eq_some.mp found)
              exact .inr (.inr (.inr (.inr (.inl ⟨rfl, read⟩))))
          · next noTag =>
              refine .inr (.inr (.inr (.inr (.inr ⟨?_, read⟩))))
              rintro rfl
              simp [after?] at noTag

theorem Token.endsBefore_of_isText_eq_false {t : Token} (other : t.isText = false)
    (rest : List Char) : t.EndsBefore rest := by
  intro isText
  rw [other] at isText
  cases isText

theorem exists_spelled_of_takes {mark more rest : List Char} {t : Token}
    {read : List Char → Option (Token × List Char)} (isMark : mark.head? = some '<')
    (reads : ∀ more, readToken? (mark ++ more) = read more)
    (taken : ∃ span, more = span ++ rest ∧ t.isText = false ∧ Takes read span t) :
    ∃ span, mark ++ more = span ++ rest ∧ t.Spelled span ∧ t.EndsBefore rest := by
  obtain ⟨span, rfl, other, takes⟩ := taken
  obtain ⟨tail, rfl⟩ := List.head?_eq_some_iff.mp isMark
  refine ⟨'<' :: tail ++ span, by simp, ⟨by simp, by simp [other], fun rest _ => ?_⟩,
    Token.endsBefore_of_isText_eq_false other rest⟩
  rw [List.append_assoc, reads, takes]

theorem spelled_of_readText? {c : Char} {cs rest : List Char} {t : Token} (plain : c ≠ '<')
    (read : readText? (c :: cs) = some (t, rest)) :
    ∃ span, c :: cs = span ++ rest ∧ t.Spelled span ∧ t.EndsBefore rest := by
  simp only [readText?] at read
  split at read
  · next proper =>
      cases read
      refine ⟨_, List.takeWhile_append_dropWhile.symm, ?_, fun _ => stops_dropWhile _ _⟩
      have all : ∀ d ∈ (c :: cs).takeWhile (· != '<'), (d != '<') = true :=
        fun _ => List.mem_takeWhile_imp
      have raw : (c :: cs).takeWhile (· != '<') = c :: cs.takeWhile (· != '<') :=
        List.takeWhile_cons_of_pos (by simpa using plain)
      rw [raw] at proper all ⊢
      refine ⟨by simp, by simp [Token.isText, plain], fun rest ends => ?_⟩
      have stops : Stops (· != '<') rest := ends rfl
      rw [List.cons_append, readToken?_text _ plain, ← List.cons_append]
      simp only [readText?, takeWhile_run all stops, dropWhile_run all stops]
      exact if_pos proper
  · cases read

/-- Whatever is read at the front of a text is spelled by what is taken off. -/
theorem exists_spelled {c : Char} {cs rest : List Char} {t : Token}
    (found : readToken? (c :: cs) = some (t, rest)) :
    ∃ span, c :: cs = span ++ rest ∧ t.Spelled span ∧ t.EndsBefore rest := by
  obtain ⟨more, cs_eq, read⟩ | ⟨more, cs_eq, read⟩ | ⟨more, cs_eq, read⟩ | ⟨more, cs_eq, read⟩ |
    ⟨rfl, read⟩ | ⟨plain, read⟩ := readToken?_cases found
  · rw [cs_eq]
    exact exists_spelled_of_takes rfl readToken?_closing (readClosing?_takes read)
  · rw [cs_eq]
    exact exists_spelled_of_takes rfl readToken?_comment (readComment?_takes read)
  · rw [cs_eq]
    exact exists_spelled_of_takes rfl readToken?_data (readData?_takes read)
  · rw [cs_eq]
    exact exists_spelled_of_takes rfl readToken?_instruction (readInstruction?_takes read)
  · obtain ⟨c, span, rfl, named, other, takes⟩ := readTag?_takes read
    refine ⟨'<' :: c :: span, rfl, ⟨by simp, by simp [other], fun rest _ => ?_⟩,
      Token.endsBefore_of_isText_eq_false other rest⟩
    exact (readToken?_tag (span ++ rest) named).trans (takes rest)
  · exact spelled_of_readText? plain read

/-! ## Sequences of tokens -/

/-- No two pieces of character data are next to each other. -/
def Apart (tokens : List Token) : Prop :=
  tokens.IsChain fun s t => s.isText = false ∨ t.isText = false

def Token.HasSpan (t : Token) : Prop :=
  ∃ span, t.Spelled span

theorem isText_of_readToken? {cs rest : List Char} {t : Token}
    (found : readToken? ('<' :: cs) = some (t, rest)) : t.isText = false := by
  obtain ⟨span, span_eq, spelled, -⟩ := exists_spelled found
  obtain ⟨c, more, rfl⟩ := List.exists_cons_of_ne_nil spelled.notEmpty
  obtain ⟨rfl, -⟩ := List.cons.inj span_eq
  exact spelled.begins.mpr rfl

theorem isText_of_readTokens? {cs : List Char} {t : Token} {tokens : List Token}
    (read : readTokens? ('<' :: cs) = some (t :: tokens)) : t.isText = false := by
  rw [readTokens?] at read
  split at read
  · next found =>
      obtain ⟨others, -, same⟩ := Option.map_eq_some_iff.mp read
      obtain ⟨rfl, -⟩ := List.cons.inj same
      exact isText_of_readToken? found
  · cases read

/-- What is read has spans, and character data is read in one piece. -/
theorem apart_of_readTokens? {cs : List Char} {tokens : List Token}
    (read : readTokens? cs = some tokens) : (∀ t ∈ tokens, t.HasSpan) ∧ Apart tokens := by
  fun_induction readTokens? cs generalizing tokens with
  | case1 =>
      cases read
      exact ⟨by simp, .nil⟩
  | case2 c rest t behind found ih =>
      simp only [Option.map_eq_some_iff] at read
      obtain ⟨others, read, rfl⟩ := read
      obtain ⟨spans, apart⟩ := ih read
      obtain ⟨span, -, spelled, ends⟩ := exists_spelled found
      refine ⟨List.forall_mem_cons.mpr ⟨⟨span, spelled⟩, spans⟩, ?_⟩
      refine List.isChain_cons.mpr ⟨fun s member => ?_, apart⟩
      cases isText : t.isText with
      | false => exact .inl rfl
      | true =>
          -- Character data ends only where a tag begins or nothing is left.
          right
          obtain ⟨later, rfl⟩ := List.head?_eq_some_iff.mp member
          cases behind with
          | nil =>
              rw [readTokens?] at read
              cases read
          | cons d behind =>
              have tag : d = '<' := by simpa using ends isText d rfl
              subst tag
              exact isText_of_readTokens? read
  | case3 => cases read

theorem endsBefore_flatten {t : Token} {tokens : List Token} {spans : List (List Char)}
    (spelled : List.Forall₂ Token.Spelled tokens spans) (apart : Apart (t :: tokens)) :
    t.EndsBefore spans.flatten := by
  intro isText c member
  cases spelled with
  | nil => cases member
  | @cons s span tokens spans first others =>
      have other : s.isText = false := by
        have either := (List.isChain_cons_cons.mp apart).1
        rw [isText] at either
        simpa using either
      obtain ⟨more, rfl⟩ := List.head?_eq_some_iff.mp (first.begins.mp other)
      cases member
      rfl

/-- Tokens with spans can be written one after the other. -/
theorem exists_readTokens? {tokens : List Token} (hasSpans : ∀ t ∈ tokens, t.HasSpan)
    (apart : Apart tokens) : ∃ cs, readTokens? cs = some tokens := by
  obtain ⟨spans, spelled⟩ := exists_forall₂.mpr hasSpans
  refine ⟨spans.flatten, ?_⟩
  induction spelled with
  | nil => rw [List.flatten_nil, readTokens?]
  | @cons t span tokens spans first others ih =>
      have read := first.read spans.flatten (endsBefore_flatten others apart)
      obtain ⟨c, more, rfl⟩ := List.exists_cons_of_ne_nil first.notEmpty
      rw [List.cons_append] at read
      rw [List.flatten_cons, List.cons_append, readTokens?_cons read,
        ih (List.forall_mem_cons.mp hasSpans).2 apart.tail, Option.map_some]

end WireProxy.Xml
