import WireProxy.Xml.Node
import WireProxy.Xml.Reference

/-!
# Tokens

A document is a sequence of tags, character data, comments and processing instructions.  Each
reader takes its item off the front of the text and gives back the rest.
-/

namespace WireProxy.Xml

inductive Token where
  | opening (name : QName) (attributes : List Attribute)
  | empty (name : QName) (attributes : List Attribute)
  | closing (name : QName)
  /-- Character data as written, references not yet read. -/
  | text (raw : List Char)
  | data (content : List Char)
  | comment (content : List Char)
  | instruction (target content : List Char)
  deriving Inhabited

/-! ## Pieces of text -/

def skipSpaces (cs : List Char) : List Char :=
  cs.dropWhile isSpace

def after? (start cs : List Char) : Option (List Char) :=
  if start.isPrefixOf cs then some (cs.drop start.length) else none

def cut? (mark : List Char) : List Char → Option (List Char × List Char)
  | [] => none
  | c :: rest =>
      match after? mark (c :: rest) with
      | some behind => some ([], behind)
      | none => (cut? mark rest).map fun (before, behind) => (c :: before, behind)

def hasPart (part : List Char) (cs : List Char) : Bool :=
  (cut? part cs).isSome

/-! ## Names -/

def isNamePart (cs : List Char) : Bool :=
  match cs with
  | [] => false
  | c :: rest => isNameStart c && rest.all isNameChar

/-- A name with at most one colon.  A colon at its very front is dropped. -/
def nameOf? (cs : List Char) : Option QName :=
  match cs.span (· != ':') with
  | (base, []) | ([], _ :: base) =>
      if isNamePart base then some ⟨none, String.ofList base⟩ else none
  | (space, _ :: base) =>
      if isNamePart space && isNamePart base then
        some ⟨some (String.ofList space), String.ofList base⟩
      else none

def isNameOrColon (c : Char) : Bool :=
  isNameChar c || c == ':'

def readName? (cs : List Char) : Option (QName × List Char) := do
  let name ← nameOf? (cs.takeWhile isNameOrColon)
  return (name, cs.dropWhile isNameOrColon)

/-! ## Tags -/

def readAssignment? (cs : List Char) : Option ((QName × List Char) × List Char) := do
  let (name, rest) ← readName? cs
  let rest ← after? ['='] (skipSpaces rest)
  match skipSpaces rest with
  | quote :: body =>
      if quote = '"' ∨ quote = '\'' then
        let raw := body.takeWhile fun c => c != quote && c != '<'
        let rest ← after? [quote] (body.dropWhile fun c => c != quote && c != '<')
        if raw.all isAllowed then return ((name, raw), rest) else none
      else none
  | [] => none

def readAttribute? (cs : List Char) : Option (Attribute × List Char) := do
  let ((name, raw), rest) ← readAssignment? cs
  let value ← expand? spaced raw
  return (⟨name, String.ofList value⟩, rest)

theorem length_dropWhile_le (p : Char → Bool) (cs : List Char) :
    (cs.dropWhile p).length ≤ cs.length :=
  (List.dropWhile_sublist p).length_le

theorem after?_length {start cs rest : List Char} (h : after? start cs = some rest) :
    rest.length = cs.length - start.length := by
  unfold after? at h
  split at h
  · cases h
    simp
  · cases h

theorem after?_length_le {start cs rest : List Char} (h : after? start cs = some rest) :
    rest.length ≤ cs.length := by
  rw [after?_length h]
  omega

theorem readName?_length_le {cs rest : List Char} {name : QName}
    (h : readName? cs = some (name, rest)) : rest.length ≤ cs.length := by
  simp only [readName?, Option.bind_eq_bind, Option.bind_eq_some_iff, Option.pure_def,
    Option.some.injEq, Prod.mk.injEq] at h
  obtain ⟨_, _, _, rfl⟩ := h
  exact length_dropWhile_le _ _

theorem readAssignment?_length_lt {cs rest : List Char} {pair : QName × List Char}
    (h : readAssignment? cs = some (pair, rest)) : rest.length < cs.length := by
  simp only [readAssignment?, Option.bind_eq_bind, Option.bind_eq_some_iff] at h
  obtain ⟨⟨name, r₁⟩, h₁, r₂, h₂, h⟩ := h
  have l₁ := readName?_length_le h₁
  have l₂ := after?_length h₂
  have s₁ := length_dropWhile_le isSpace r₁
  have s₂ := length_dropWhile_le isSpace r₂
  simp only [skipSpaces] at h l₂
  split at h
  · next quote body body_eq =>
      have l₃ : body.length < r₂.length := by
        rw [body_eq, List.length_cons] at s₂
        omega
      split at h
      · simp only [Option.bind_eq_some_iff] at h
        obtain ⟨r₃, h₃, h⟩ := h
        split at h
        · cases h
          have l₄ := after?_length_le h₃
          have s₃ := length_dropWhile_le (fun c => c != quote && c != '<') body
          omega
        · cases h
      · cases h
  · cases h

theorem readAttribute?_length_lt {cs rest : List Char} {a : Attribute}
    (h : readAttribute? cs = some (a, rest)) : rest.length < cs.length := by
  simp only [readAttribute?, Option.bind_eq_bind, Option.bind_eq_some_iff, Option.pure_def,
    Option.some.injEq, Prod.mk.injEq] at h
  obtain ⟨⟨_, r⟩, h₁, _, _, _, rfl⟩ := h
  exact readAssignment?_length_lt h₁

/--
The attributes of a tag up to its end, and whether that end closes the element at once.  White
space stands before each attribute.
-/
def readAttributes? (cs : List Char) : Option (List Attribute × Bool × List Char) :=
  match skipSpaces cs with
  | '>' :: rest => some ([], false, rest)
  | '/' :: '>' :: rest => some ([], true, rest)
  | _ =>
      if cs.head?.any isSpace then
        match _h : readAttribute? (skipSpaces cs) with
        | some (a, rest) => (readAttributes? rest).map fun (others, tail) => (a :: others, tail)
        | none => none
      else none
termination_by cs.length
decreasing_by exact Nat.lt_of_lt_of_le (readAttribute?_length_lt _h) (length_dropWhile_le _ _)

def readTag? (cs : List Char) : Option (Token × List Char) := do
  let (name, rest) ← readName? cs
  let (attributes, closed, rest) ← readAttributes? rest
  return (if closed then .empty name attributes else .opening name attributes, rest)

def readClosing? (cs : List Char) : Option (Token × List Char) := do
  let (name, rest) ← readName? cs
  let rest ← after? ['>'] (skipSpaces rest)
  return (.closing name, rest)

/-! ## Other items -/

/-- A comment after its `<!--`: no two hyphens inside, and none at the end. -/
def readComment? (cs : List Char) : Option (Token × List Char) := do
  let (content, rest) ← cut? "-->".toList cs
  if content.all isAllowed ∧ ¬ hasPart "--".toList content ∧ content.getLast? ≠ some '-' then
    return (.comment content, rest)
  else none

def readData? (cs : List Char) : Option (Token × List Char) := do
  let (content, rest) ← cut? "]]>".toList cs
  if content.all isAllowed then return (.data content, rest) else none

/-- A processing instruction after its `<?`; the text declaration is none. -/
def readInstruction? (cs : List Char) : Option (Token × List Char) := do
  if "xml ".toList.isPrefixOf cs then none
  let target := cs.takeWhile isNameOrColon
  let (content, rest) ← cut? "?>".toList (skipSpaces (cs.dropWhile isNameOrColon))
  if target.head?.any (fun c => isNameStart c || c == ':') ∧ content.all isAllowed then
    return (.instruction target content, rest)
  else none

/-- A run of character data: up to the next `<`, and without the end mark of literal data. -/
def readText? (cs : List Char) : Option (Token × List Char) :=
  let raw := cs.takeWhile (· != '<')
  if raw.all isAllowed ∧ ¬ hasPart "]]>".toList raw then
    some (.text raw, cs.dropWhile (· != '<'))
  else none

def readToken? (cs : List Char) : Option (Token × List Char) :=
  match after? "</".toList cs with
  | some rest => readClosing? rest
  | none =>
    match after? "<!--".toList cs with
    | some rest => readComment? rest
    | none =>
      match after? "<![CDATA[".toList cs with
      | some rest => readData? rest
      | none =>
        match after? "<?".toList cs with
        | some rest => readInstruction? rest
        | none =>
          match after? "<".toList cs with
          | some rest => readTag? rest
          | none => readText? cs

theorem cut?_length_le {mark cs before behind : List Char}
    (h : cut? mark cs = some (before, behind)) : behind.length ≤ cs.length := by
  induction cs generalizing before with
  | nil => simp [cut?] at h
  | cons c rest ih =>
      unfold cut? at h
      split at h
      · next found =>
          cases h
          exact after?_length_le found
      · simp only [Option.map_eq_some_iff, Prod.mk.injEq] at h
        obtain ⟨⟨before', behind'⟩, found, _, rfl⟩ := h
        have := ih found
        simp only [List.length_cons] at this ⊢
        omega

theorem readAttributes?_length_le {cs rest : List Char} {attributes : List Attribute}
    {closed : Bool} (h : readAttributes? cs = some (attributes, closed, rest)) :
    rest.length ≤ cs.length := by
  fun_induction readAttributes? cs generalizing attributes closed rest with
  | case1 cs rest' found =>
      cases h
      have := length_dropWhile_le isSpace cs
      rw [← skipSpaces, found] at this
      simp only [List.length_cons] at this
      omega
  | case2 cs rest' found =>
      cases h
      have := length_dropWhile_le isSpace cs
      rw [← skipSpaces, found] at this
      simp only [List.length_cons] at this
      omega
  | case3 cs _ a rest' found _ _ ih =>
      simp only [Option.map_eq_some_iff, Prod.mk.injEq] at h
      obtain ⟨⟨others, closed', rest''⟩, rest_eq, _, _, rfl⟩ := h
      have l₁ := ih rest_eq
      have l₂ := readAttribute?_length_lt found
      have l₃ := length_dropWhile_le isSpace cs
      simp only [skipSpaces] at l₂
      omega
  | case4 => cases h
  | case5 => cases h

theorem after?_length_lt {start cs rest : List Char} (nonempty : start ≠ [])
    (h : after? start cs = some rest) : rest.length < cs.length := by
  have positive := List.length_pos_iff.mpr nonempty
  have startFits : start.length ≤ cs.length := by
    unfold after? at h
    split at h
    · next isStart => exact (List.isPrefixOf_iff_prefix.mp isStart).length_le
    · cases h
  rw [after?_length h]
  omega

theorem readTag?_length_le {cs rest : List Char} {t : Token}
    (h : readTag? cs = some (t, rest)) : rest.length ≤ cs.length := by
  simp only [readTag?, Option.bind_eq_bind, Option.bind_eq_some_iff, Option.pure_def,
    Option.some.injEq, Prod.mk.injEq] at h
  obtain ⟨⟨_, r⟩, h₁, ⟨_, _, _⟩, h₂, _, rfl⟩ := h
  exact Nat.le_trans (readAttributes?_length_le h₂) (readName?_length_le h₁)

theorem readClosing?_length_le {cs rest : List Char} {t : Token}
    (h : readClosing? cs = some (t, rest)) : rest.length ≤ cs.length := by
  simp only [readClosing?, Option.bind_eq_bind, Option.bind_eq_some_iff, Option.pure_def,
    Option.some.injEq, Prod.mk.injEq] at h
  obtain ⟨⟨_, r⟩, h₁, _, h₂, _, rfl⟩ := h
  exact Nat.le_trans (after?_length_le h₂)
    (Nat.le_trans (length_dropWhile_le _ _) (readName?_length_le h₁))

theorem readComment?_length_le {cs rest : List Char} {t : Token}
    (h : readComment? cs = some (t, rest)) : rest.length ≤ cs.length := by
  simp only [readComment?, Option.bind_eq_bind, Option.bind_eq_some_iff] at h
  obtain ⟨⟨_, r⟩, h₁, h₂⟩ := h
  split at h₂
  · cases h₂
    exact cut?_length_le h₁
  · cases h₂

theorem readData?_length_le {cs rest : List Char} {t : Token}
    (h : readData? cs = some (t, rest)) : rest.length ≤ cs.length := by
  simp only [readData?, Option.bind_eq_bind, Option.bind_eq_some_iff] at h
  obtain ⟨⟨_, r⟩, h₁, h₂⟩ := h
  split at h₂
  · cases h₂
    exact cut?_length_le h₁
  · cases h₂

theorem readInstruction?_length_le {cs rest : List Char} {t : Token}
    (h : readInstruction? cs = some (t, rest)) : rest.length ≤ cs.length := by
  unfold readInstruction? at h
  split at h
  · cases h
  · simp only [Option.bind_eq_bind, Option.bind_eq_some_iff] at h
    obtain ⟨⟨_, r⟩, h₁, h₂⟩ := h
    split at h₂
    · cases h₂
      exact Nat.le_trans (cut?_length_le h₁)
        (Nat.le_trans (length_dropWhile_le _ _) (length_dropWhile_le _ _))
    · cases h₂

theorem readText?_length_lt {c : Char} {cs rest : List Char} {t : Token} (plain : c ≠ '<')
    (h : readText? (c :: cs) = some (t, rest)) : rest.length < (c :: cs).length := by
  simp only [readText?] at h
  split at h
  · cases h
    have := length_dropWhile_le (· != '<') cs
    simp only [List.dropWhile_cons, bne_iff_ne, ne_eq, plain, not_false_eq_true, if_true,
      List.length_cons]
    omega
  · cases h

theorem readToken?_length_lt {c : Char} {cs rest : List Char} {t : Token}
    (h : readToken? (c :: cs) = some (t, rest)) : rest.length < (c :: cs).length := by
  unfold readToken? at h
  split at h
  · next found =>
      exact Nat.lt_of_le_of_lt (readClosing?_length_le h) (after?_length_lt (by decide) found)
  · split at h
    · next found =>
        exact Nat.lt_of_le_of_lt (readComment?_length_le h) (after?_length_lt (by decide) found)
    · split at h
      · next found =>
          exact Nat.lt_of_le_of_lt (readData?_length_le h) (after?_length_lt (by decide) found)
      · split at h
        · next found =>
            exact Nat.lt_of_le_of_lt (readInstruction?_length_le h)
              (after?_length_lt (by decide) found)
        · split at h
          · next found =>
              exact Nat.lt_of_le_of_lt (readTag?_length_le h) (after?_length_lt (by decide) found)
          · next noTag =>
              refine readText?_length_lt (fun isTag => ?_) h
              subst isTag
              simp [after?] at noTag

def readTokens? (cs : List Char) : Option (List Token) :=
  match cs with
  | [] => some []
  | c :: rest =>
      match _h : readToken? (c :: rest) with
      | some (t, behind) => (readTokens? behind).map (t :: ·)
      | none => none
termination_by cs.length
decreasing_by exact readToken?_length_lt _h

end WireProxy.Xml
