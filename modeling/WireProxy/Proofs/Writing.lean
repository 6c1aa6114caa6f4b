import Mathlib.Data.List.Nodup
import Mathlib.Data.List.TakeDrop
import Mathlib.Data.List.TakeWhile
import WireProxy.Proofs.Characters

/-!
# Writing documents

An element whose content is elements only is written as tags, with references for the characters
that an attribute value cannot hold as they are.  What is written is read back as it was.
-/

namespace WireProxy.Xml

/-- The characters that do not stand for themselves in a value between double quotes, and what is
written for them. -/
def references : List (Char × List Char) :=
  [('"', "&quot;".toList), ('&', "&amp;".toList), ('<', "&lt;".toList), ('\t', "&#9;".toList),
    ('\n', "&#10;".toList), ('\r', "&#13;".toList)]

def escapeChar (c : Char) : List Char :=
  (references.lookup c).getD [c]

def escape (cs : List Char) : List Char :=
  cs.flatMap escapeChar

theorem escapeChar_cases (c : Char) :
    (c, escapeChar c) ∈ references ∨ escapeChar c = [c] ∧ c ∉ references.map Prod.fst := by
  unfold escapeChar
  cases found : references.lookup c with
  | some body =>
      obtain ⟨before, after, split, -⟩ := List.lookup_eq_some_iff.mp found
      left
      rw [split]
      simp
  | none =>
      right
      refine ⟨rfl, fun member => ?_⟩
      obtain ⟨⟨key, body⟩, inside, rfl⟩ := List.mem_map.mp member
      have absent := List.lookup_eq_none_iff.mp found _ inside
      simp at absent

/-- Every reference is read as the character that it is written for. -/
theorem expandFrom?_reference {c : Char} {body : List Char} (member : (c, body) ∈ references)
    (rest : List Char) :
    expandFrom? spaced none (body ++ rest) = (expandFrom? spaced none rest).map (c :: ·) := by
  simp only [references, List.mem_cons, List.not_mem_nil, or_false, Prod.mk.injEq] at member
  rcases member with ⟨rfl, rfl⟩ | ⟨rfl, rfl⟩ | ⟨rfl, rfl⟩ | ⟨rfl, rfl⟩ | ⟨rfl, rfl⟩ | ⟨rfl, rfl⟩
  all_goals rfl

theorem expandFrom?_literal {c : Char} (literal : c ∉ references.map Prod.fst)
    (rest : List Char) :
    expandFrom? spaced none (c :: rest) = (expandFrom? spaced none rest).map (c :: ·) := by
  simp only [references, List.map_cons, List.map_nil, List.mem_cons, List.not_mem_nil, or_false,
    not_or] at literal
  obtain ⟨-, reference, -, tab, feed, carriage⟩ := literal
  have kept : spaced c = c := by
    unfold spaced
    split
    · exact absurd rfl carriage
    · exact absurd rfl feed
    · exact absurd rfl tab
    · rfl
  rw [expandFrom?, kept]
  · exact reference
  · intro rest' isCarriage
    exact absurd isCarriage carriage

theorem expand?_escape (cs : List Char) : expand? spaced (escape cs) = some cs := by
  induction cs with
  | nil => rfl
  | cons c cs ih =>
      have step : expandFrom? spaced none (escapeChar c ++ escape cs) =
          (expandFrom? spaced none (escape cs)).map (c :: ·) := by
        rcases escapeChar_cases c with written | ⟨itself, literal⟩
        · exact expandFrom?_reference written _
        · rw [itself]
          exact expandFrom?_literal literal _
      unfold expand? at ih ⊢
      rw [escape, List.flatMap_cons, ← escape, step, ih, Option.map_some]

theorem mem_escape {cs : List Char} {d : Char} (member : d ∈ escape cs) :
    (d != '"' && d != '<') = true := by
  obtain ⟨c, -, inside⟩ := List.mem_flatMap.mp member
  rcases escapeChar_cases c with written | ⟨itself, literal⟩
  · have inert : references.all (·.2.all fun d => d != '"' && d != '<') = true := by decide
    exact List.all_eq_true.mp (List.all_eq_true.mp inert _ written) d inside
  · rw [itself, List.mem_singleton] at inside
    subst inside
    simp only [references, List.map_cons, List.mem_cons, not_or] at literal
    simp [literal]

theorem isAllowed_of_mem_escape {cs : List Char} (allowed : cs.all isAllowed = true) :
    (escape cs).all isAllowed = true := by
  rw [List.all_eq_true] at allowed ⊢
  intro d member
  obtain ⟨c, inText, inside⟩ := List.mem_flatMap.mp member
  rcases escapeChar_cases c with written | ⟨itself, -⟩
  · have plain : references.all (·.2.all isAllowed) = true := by decide
    exact List.all_eq_true.mp (List.all_eq_true.mp plain _ written) d inside
  · rw [itself, List.mem_singleton] at inside
    exact inside ▸ allowed c inText

/-! ## Names -/

namespace QName

/-- A name without a prefix. -/
def isPlain (name : QName) : Bool :=
  name.space.isNone && isNamePart name.base.toList

def written (name : QName) : List Char :=
  name.base.toList

theorem eq_of_isPlain {name : QName} (plain : name.isPlain = true) :
    name = ⟨none, name.base⟩ := by
  obtain ⟨space, base⟩ := name
  simp only [isPlain, Bool.and_eq_true, Option.isNone_iff_eq_none] at plain
  rw [plain.1]

theorem isNamePart_of_isPlain {name : QName} (plain : name.isPlain = true) :
    isNamePart name.written = true := by
  simp only [isPlain, Bool.and_eq_true] at plain
  exact plain.2

end QName

theorem isNameChar_of_isNameStart {c : Char} (starts : isNameStart c = true) :
    isNameChar c = true := by
  simp [isNameChar, starts]

theorem isNameChar_of_mem {cs : List Char} (part : isNamePart cs = true) {c : Char}
    (member : c ∈ cs) : isNameChar c = true := by
  cases cs with
  | nil => cases member
  | cons first rest =>
      simp only [isNamePart, Bool.and_eq_true, List.all_eq_true] at part
      rcases List.mem_cons.mp member with rfl | later
      · exact isNameChar_of_isNameStart part.1
      · exact part.2 c later

theorem exists_cons_of_isNamePart {cs : List Char} (part : isNamePart cs = true) :
    ∃ c rest, cs = c :: rest ∧ isNameStart c = true := by
  cases cs with
  | nil => cases part
  | cons c rest =>
      simp only [isNamePart, Bool.and_eq_true] at part
      exact ⟨c, rest, rfl, part.1⟩

theorem nameOf?_of_isNamePart {cs : List Char} (part : isNamePart cs = true) :
    nameOf? cs = some ⟨none, String.ofList cs⟩ := by
  have noColon : ∀ c ∈ cs, (c != ':') = true := by
    intro c member
    have isName := isNameChar_of_mem part member
    simp only [bne_iff_ne, ne_eq]
    rintro rfl
    revert isName
    decide
  have whole : cs.span (· != ':') = (cs, []) := by
    rw [List.span_eq_takeWhile_dropWhile, List.takeWhile_eq_self_iff.mpr noColon,
      List.dropWhile_eq_nil_iff.mpr noColon]
  rw [nameOf?, whole]
  exact if_pos part

theorem readName?_written {name : QName} (plain : name.isPlain = true) {c : Char}
    (ends : isNameOrColon c = false) (rest : List Char) :
    readName? (name.written ++ c :: rest) = some (name, c :: rest) := by
  have part := QName.isNamePart_of_isPlain plain
  have all : ∀ d ∈ name.written, isNameOrColon d = true := by
    intro d member
    simp [isNameOrColon, isNameChar_of_mem part member]
  have stops : ¬ isNameOrColon c = true := by simp [ends]
  have taken : (name.written ++ c :: rest).takeWhile isNameOrColon = name.written := by
    rw [List.takeWhile_append_of_pos all, List.takeWhile_cons_of_neg stops, List.append_nil]
  have left : (name.written ++ c :: rest).dropWhile isNameOrColon = c :: rest := by
    rw [List.dropWhile_append_of_pos all, List.dropWhile_cons_of_neg stops]
  rw [readName?, taken, left, nameOf?_of_isNamePart part]
  conv_rhs => rw [QName.eq_of_isPlain plain]
  simp [QName.written]

/-! ## Tags -/

namespace Attribute

/-- An attribute that is no declaration, with a value that a document may hold. -/
def isPlain (a : Attribute) : Bool :=
  a.name.isPlain && a.name.base != "xmlns" && isText a.value

def written (a : Attribute) : List Char :=
  ' ' :: a.name.written ++ '=' :: '"' :: escape a.value.toList ++ ['"']

theorem name_of_isPlain {a : Attribute} (plain : a.isPlain = true) : a.name.isPlain = true := by
  simp only [isPlain, Bool.and_eq_true] at plain
  exact plain.1.1

theorem isText_of_isPlain {a : Attribute} (plain : a.isPlain = true) : isText a.value = true := by
  simp only [isPlain, Bool.and_eq_true] at plain
  exact plain.2

end Attribute

theorem ne_of_isNameStart {c d : Char} (starts : isNameStart c = true)
    (other : isNameStart d = false) : c ≠ d := by
  rintro rfl
  rw [starts] at other
  cases other

theorem isSpace_of_isNameStart {c : Char} (starts : isNameStart c = true) :
    isSpace c = false := by
  have differs := fun d => ne_of_isNameStart (d := d) starts
  simp [isSpace, differs ' ' (by decide), differs '\t' (by decide), differs '\n' (by decide),
    differs '\r' (by decide)]

theorem skipSpaces_cons {c : Char} (dark : isSpace c = false) (rest : List Char) :
    skipSpaces (c :: rest) = c :: rest :=
  List.dropWhile_cons_of_neg (by simp [dark])

@[simp] theorem after?_append (start rest : List Char) :
    after? start (start ++ rest) = some rest := by
  simp [after?]

@[simp] theorem after?_singleton (c : Char) (rest : List Char) :
    after? [c] (c :: rest) = some rest :=
  after?_append [c] rest

theorem readAttribute?_written {a : Attribute} (plain : a.isPlain = true) (rest : List Char) :
    readAttribute? (a.name.written ++ '=' :: '"' :: escape a.value.toList ++ '"' :: rest) =
      some (a, rest) := by
  have inert : ∀ d ∈ escape a.value.toList, (d != '"' && d != '<') = true :=
    fun d member => mem_escape member
  have raw : (escape a.value.toList ++ '"' :: rest).takeWhile (fun d => d != '"' && d != '<') =
      escape a.value.toList := by
    rw [List.takeWhile_append_of_pos inert, List.takeWhile_cons_of_neg (by simp), List.append_nil]
  have left : (escape a.value.toList ++ '"' :: rest).dropWhile (fun d => d != '"' && d != '<') =
      '"' :: rest := by
    rw [List.dropWhile_append_of_pos inert, List.dropWhile_cons_of_neg (by simp)]
  have allowed := isAllowed_of_mem_escape (Attribute.isText_of_isPlain plain)
  have assignment : readAssignment?
      (a.name.written ++ '=' :: '"' :: escape a.value.toList ++ '"' :: rest) =
        some ((a.name, escape a.value.toList), rest) := by
    rw [List.append_assoc, List.cons_append, List.cons_append, readAssignment?,
      readName?_written (Attribute.name_of_isPlain plain) (by decide)]
    simp only [Option.bind_eq_bind, Option.bind_some, skipSpaces_cons (c := '=') (by decide),
      skipSpaces_cons (c := '"') (by decide), after?_singleton, true_or, if_true, raw, left,
      allowed]
    rfl
  rw [readAttribute?, assignment]
  simp [expand?_escape]

/-- An attribute after a space is read, and then the others. -/
theorem readAttributes?_of_readAttribute? {c : Char} {body rest : List Char} {a : Attribute}
    (starts : isNameStart c = true) (read : readAttribute? (c :: body) = some (a, rest)) :
    readAttributes? (' ' :: c :: body) =
      (readAttributes? rest).map fun (others, tail) => (a :: others, tail) := by
  have skipped : skipSpaces (' ' :: c :: body) = c :: body :=
    skipSpaces_cons (isSpace_of_isNameStart starts) body
  rw [readAttributes?, skipped]
  split
  · next ended => exact absurd (List.cons.inj ended).1 (ne_of_isNameStart starts (by decide))
  · next ended => exact absurd (List.cons.inj ended).1 (ne_of_isNameStart starts (by decide))
  · have led : (' ' :: c :: body).head?.any isSpace = true := rfl
    rw [if_pos led]
    split
    · next found =>
        rw [read] at found
        cases found
        rfl
    · next found =>
        rw [read] at found
        cases found

theorem readAttributes?_written {attributes : List Attribute}
    (plain : ∀ a ∈ attributes, a.isPlain = true) (rest : List Char) :
    readAttributes? (attributes.flatMap (·.written) ++ '>' :: rest) =
      some (attributes, false, rest) := by
  induction attributes with
  | nil =>
      rw [readAttributes?]
      simp [skipSpaces_cons (c := '>') (by decide)]
  | cons a attributes ih =>
      obtain ⟨first, others⟩ := List.forall_mem_cons.mp plain
      obtain ⟨c, cs, name, starts⟩ :=
        exists_cons_of_isNamePart (QName.isNamePart_of_isPlain (Attribute.name_of_isPlain first))
      have read := readAttribute?_written first (attributes.flatMap (·.written) ++ '>' :: rest)
      rw [name, List.cons_append, List.cons_append] at read
      have text : (a :: attributes).flatMap (·.written) ++ '>' :: rest =
          ' ' :: c :: (cs ++ '=' :: '"' :: escape a.value.toList ++
            '"' :: (attributes.flatMap (·.written) ++ '>' :: rest)) := by
        simp [Attribute.written, name]
      rw [text, readAttributes?_of_readAttribute? starts read, ih others, Option.map_some]

/-! ## Tokens -/

namespace Token

/-- Opening and closing tags, which are all that the tags of plain elements are. -/
inductive Plain : Token → Prop
  | opening {name : QName} {attributes : List Attribute} (named : name.isPlain = true)
      (attributed : ∀ a ∈ attributes, a.isPlain = true) : Plain (.opening name attributes)
  | closing {name : QName} (named : name.isPlain = true) : Plain (.closing name)

/-- A tag as it is written; other tokens are not written. -/
def written : Token → List Char
  | opening name attributes => '<' :: name.written ++ attributes.flatMap (·.written) ++ ['>']
  | closing name => '<' :: '/' :: name.written ++ ['>']
  | _ => []

end Token

theorem readTag?_written {name : QName} {attributes : List Attribute}
    (named : name.isPlain = true) (attributed : ∀ a ∈ attributes, a.isPlain = true)
    (rest : List Char) :
    readTag? (name.written ++ (attributes.flatMap (·.written) ++ '>' :: rest)) =
      some (.opening name attributes, rest) := by
  have begins : ∃ c more, attributes.flatMap (·.written) ++ '>' :: rest = c :: more ∧
      isNameOrColon c = false := by
    cases attributes with
    | nil => exact ⟨'>', rest, rfl, by decide⟩
    | cons a attributes => exact ⟨' ', _, rfl, by decide⟩
  obtain ⟨c, more, begins, ends⟩ := begins
  rw [readTag?, begins, readName?_written named ends, ← begins]
  simp [readAttributes?_written attributed]

theorem readClosing?_written {name : QName} (named : name.isPlain = true) (rest : List Char) :
    readClosing? (name.written ++ '>' :: rest) = some (.closing name, rest) := by
  rw [readClosing?, readName?_written named (by decide)]
  simp [skipSpaces_cons (c := '>') (by decide)]

theorem after?_eq_none {c d : Char} (differs : d ≠ c) (start rest : List Char) :
    after? ('<' :: d :: start) ('<' :: c :: rest) = none := by
  simp [after?, differs]

theorem readToken?_written {t : Token} (plain : t.Plain) (rest : List Char) :
    readToken? (t.written ++ rest) = some (t, rest) := by
  cases plain with
  | closing named =>
      have text : ∀ name : QName, (Token.closing name).written ++ rest =
          "</".toList ++ (name.written ++ '>' :: rest) := by
        intro name
        simp [Token.written]
      rw [text, readToken?, after?_append]
      exact readClosing?_written named rest
  | @opening name attributes named attributed =>
      obtain ⟨c, cs, begins, starts⟩ :=
        exists_cons_of_isNamePart (QName.isNamePart_of_isPlain named)
      have text : (Token.opening name attributes).written ++ rest =
          '<' :: (name.written ++ (attributes.flatMap (·.written) ++ '>' :: rest)) := by
        simp [Token.written]
      have read := readTag?_written named attributed rest
      rw [begins, List.cons_append] at read
      have differs := fun d other => (ne_of_isNameStart (d := d) starts other).symm
      rw [text, readToken?, begins, List.cons_append,
        show after? "</".toList _ = none from after?_eq_none (differs '/' (by decide)) _ _,
        show after? "<!--".toList _ = none from after?_eq_none (differs '!' (by decide)) _ _,
        show after? "<![CDATA[".toList _ = none from after?_eq_none (differs '!' (by decide)) _ _,
        show after? "<?".toList _ = none from after?_eq_none (differs '?' (by decide)) _ _,
        show after? "<".toList _ = some _ from after?_singleton '<' _]
      exact read

theorem readTokens?_cons {c : Char} {cs rest : List Char} {t : Token}
    (read : readToken? (c :: cs) = some (t, rest)) :
    readTokens? (c :: cs) = (readTokens? rest).map (t :: ·) := by
  rw [readTokens?]
  split
  · next found =>
      rw [read] at found
      cases found
      rfl
  · next found =>
      rw [read] at found
      cases found

theorem readTokens?_written {tokens : List Token} (plain : ∀ t ∈ tokens, t.Plain) :
    readTokens? (tokens.flatMap (·.written)) = some tokens := by
  induction tokens with
  | nil => rw [List.flatMap_nil, readTokens?]
  | cons t tokens ih =>
      obtain ⟨first, others⟩ := List.forall_mem_cons.mp plain
      have read := readToken?_written first (tokens.flatMap (·.written))
      have begins : ∃ cs, t.written ++ tokens.flatMap (·.written) = '<' :: cs := by
        cases first with
        | opening => exact ⟨_, rfl⟩
        | closing => exact ⟨_, rfl⟩
      obtain ⟨cs, begins⟩ := begins
      rw [begins] at read
      rw [List.flatMap_cons, begins, readTokens?_cons read, ih others, Option.map_some]

/-! ## Trees -/

mutual

/-- The tags of an element and of the elements in it. -/
def Node.tokens : Node → List Token
  | .element name attributes content =>
      .opening name attributes :: tokensOf content ++ [.closing name]
  | _ => []

def tokensOf : List Node → List Token
  | [] => []
  | node :: rest => node.tokens ++ tokensOf rest

end

/-- An element of plain names and attributes, each attribute once, with only such elements in it. -/
inductive Node.Plain : Node → Prop
  | element {name : QName} {attributes : List Attribute} {content : List Node}
      (named : name.isPlain = true) (attributed : ∀ a ∈ attributes, a.isPlain = true)
      (distinct : (attributes.map (·.name.base)).Nodup)
      (inside : ∀ node ∈ content, node.Plain) : Plain (.element name attributes content)

mutual

def Node.decPlain : (node : Node) → Decidable node.Plain
  | .element name attributes content =>
      have : Decidable (∀ node ∈ content, node.Plain) := Node.decPlainAll content
      decidable_of_iff (name.isPlain = true ∧ (∀ a ∈ attributes, a.isPlain = true) ∧
          (attributes.map (·.name.base)).Nodup ∧ ∀ node ∈ content, node.Plain)
        ⟨fun ⟨named, attributed, distinct, inside⟩ => .element named attributed distinct inside,
          fun (.element named attributed distinct inside) =>
            ⟨named, attributed, distinct, inside⟩⟩
  | .text _ | .comment _ | .instruction .. => isFalse nofun

def Node.decPlainAll : (nodes : List Node) → Decidable (∀ node ∈ nodes, node.Plain)
  | [] => isTrue nofun
  | node :: nodes =>
      have : Decidable node.Plain := node.decPlain
      have : Decidable (∀ node ∈ nodes, node.Plain) := Node.decPlainAll nodes
      decidable_of_iff (node.Plain ∧ ∀ node ∈ nodes, node.Plain) List.forall_mem_cons.symm

end

instance (node : Node) : Decidable node.Plain :=
  node.decPlain

theorem tokensOf_eq_flatMap (content : List Node) :
    tokensOf content = content.flatMap (·.tokens) := by
  induction content with
  | nil => rfl
  | cons node rest ih => rw [tokensOf, ih, List.flatMap_cons]

theorem areBound_eq_all (outer : Bindings) (content : List Node) :
    areBound outer content = content.all (·.isBound outer) := by
  induction content with
  | nil => rfl
  | cons node rest ih => rw [areBound, ih, List.all_cons]

theorem Node.Plain.tokens {node : Node} (plain : node.Plain) : ∀ t ∈ node.tokens, t.Plain := by
  induction plain with
  | @element name attributes content named attributed distinct inside ih =>
      intro t member
      simp only [Node.tokens, tokensOf_eq_flatMap, List.cons_append, List.mem_cons,
        List.mem_append, List.mem_flatMap, List.not_mem_nil, or_false] at member
      rcases member with rfl | ⟨child, isChild, member⟩ | rfl
      · exact .opening named attributed
      · exact ih child isChild t member
      · exact .closing named

namespace Builder

/-- Nodes that are placed one by one end up in the innermost element in their order. -/
theorem foldlM_tokensOf {content : List Node}
    (each : ∀ node ∈ content, ∀ b : Builder, node.tokens.foldlM step? b = b.place? node)
    (top : Open) (below : List Open) (root : Option Node) :
    (tokensOf content).foldlM step? ⟨top :: below, root⟩ =
      some ⟨{ top with children := content.reverse ++ top.children } :: below, root⟩ := by
  induction content generalizing top with
  | nil => rfl
  | cons node rest ih =>
      obtain ⟨first, others⟩ := List.forall_mem_cons.mp each
      rw [tokensOf, List.foldlM_append, first]
      simp only [place?, Option.bind_eq_bind, Option.bind_some]
      rw [ih others]
      simp

theorem foldlM_tokens {node : Node} (plain : node.Plain) (b : Builder) :
    node.tokens.foldlM step? b = b.place? node := by
  induction plain generalizing b with
  | @element name attributes content named attributed distinct inside ih =>
      obtain ⟨stack, root⟩ := b
      have closes : ∀ root, ((tokensOf content ++ [Token.closing name]).foldlM step?
          ⟨⟨name, attributes, []⟩ :: stack, root⟩) =
            place? ⟨stack, root⟩ (.element name attributes content) := by
        intro root
        rw [List.foldlM_append, foldlM_tokensOf ih]
        simp [step?]
      rw [Node.tokens, List.cons_append, List.foldlM_cons]
      cases stack with
      | nil =>
          cases root with
          | none => exact closes none
          | some found => rfl
      | cons top below => exact closes root

end Builder

theorem build?_tokens {node : Node} (plain : node.Plain) : build? node.tokens = some node := by
  rw [build?, Builder.foldlM_tokens plain]
  cases plain
  rfl

/-! ## Namespaces -/

theorem Attribute.declares?_of_isPlain {a : Attribute} (plain : a.isPlain = true) :
    a.declares? = none := by
  have name := QName.eq_of_isPlain (name_of_isPlain plain)
  simp only [isPlain, Bool.and_eq_true, bne_iff_ne, ne_eq] at plain
  rw [declares?, name]
  simp [plain.1.2]

theorem declared?_of_isPlain {attributes : List Attribute}
    (plain : ∀ a ∈ attributes, a.isPlain = true) : declared? attributes = some [] := by
  induction attributes with
  | nil => rfl
  | cons a attributes ih =>
      obtain ⟨first, others⟩ := List.forall_mem_cons.mp plain
      rw [declared?, ih others]
      simp [Attribute.declares?_of_isPlain first]

namespace Bindings

variable {bindings : Bindings} {attributes : List Attribute}

theorem mapM_attributeSpace? (plain : ∀ a ∈ attributes, a.isPlain = true) :
    (attributes.mapM fun a =>
        (bindings.attributeSpace? a).map fun space => (space, a.name.base)) =
      some (attributes.map fun a => (none, a.name.base)) := by
  induction attributes with
  | nil => rfl
  | cons a attributes ih =>
      obtain ⟨first, others⟩ := List.forall_mem_cons.mp plain
      have name := QName.eq_of_isPlain (Attribute.name_of_isPlain first)
      have noSpace : bindings.attributeSpace? a = some none := by
        rw [attributeSpace?, name]
      rw [List.mapM_cons, ih others, noSpace]
      rfl

theorem bindsAttributes_of_isPlain (plain : ∀ a ∈ attributes, a.isPlain = true)
    (distinct : (attributes.map (·.name.base)).Nodup) :
    bindings.bindsAttributes attributes = true := by
  have all : attributes.filter (·.declares?.isNone) = attributes := by
    rw [List.filter_eq_self]
    intro a member
    rw [Attribute.declares?_of_isPlain (plain a member)]
    rfl
  rw [bindsAttributes, all, mapM_attributeSpace? plain]
  simp only [decide_eq_true_eq]
  refine List.Nodup.of_map Prod.snd ?_
  rw [List.map_map]
  exact distinct

theorem bindsElement_of_isPlain {name : QName} (plain : name.isPlain = true) :
    bindings.bindsElement name = true := by
  rw [bindsElement, QName.eq_of_isPlain plain]

end Bindings

theorem Node.Plain.isBound {node : Node} (plain : node.Plain) (outer : Bindings) :
    node.isBound outer = true := by
  induction plain generalizing outer with
  | @element name attributes content named attributed distinct inside ih =>
      have content : areBound outer content = true := by
        rw [areBound_eq_all, List.all_eq_true]
        exact fun child isChild => ih child isChild outer
      rw [Node.isBound, declared?_of_isPlain attributed]
      simp [Bindings.bindsElement_of_isPlain named,
        Bindings.bindsAttributes_of_isPlain attributed distinct, content]

/-! ## Whole documents -/

/-- The document that has this element as its root. -/
def Node.document (node : Node) : String :=
  String.ofList (node.tokens.flatMap (·.written))

theorem root?_document {node : Node} (plain : node.Plain) :
    root? node.document = node.element? := by
  have tags := readTokens?_written plain.tokens
  have bound := plain.isBound []
  have built := build?_tokens plain
  have begins : ∃ c more, node.tokens.flatMap (·.written) = '<' :: c :: more ∧
      isNameStart c = true := by
    cases plain with
    | @element name attributes content named attributed distinct inside =>
        obtain ⟨c, cs, base, starts⟩ :=
          exists_cons_of_isNamePart (QName.isNamePart_of_isPlain named)
        rw [Node.tokens, List.cons_append, List.flatMap_cons, Token.written, base]
        exact ⟨c, _, rfl, starts⟩
  obtain ⟨c, more, begins, starts⟩ := begins
  have noMark : skipMark ('<' :: c :: more) = '<' :: c :: more := rfl
  have noDeclaration : skipDeclaration? ('<' :: c :: more) = some ('<' :: c :: more) := by
    have absent : after? "<?xml ".toList ('<' :: c :: more) = none :=
      after?_eq_none (ne_of_isNameStart starts (by decide)).symm _ _
    rw [skipDeclaration?, absent]
  rw [root?, Node.document, String.toList_ofList, begins, noMark, noDeclaration, ← begins]
  simp only [Option.bind_eq_bind, Option.bind_some, tags, built, bound, if_true]

/-! ## Elements without prefixes -/

namespace Element

def toNode (e : Element) : Node :=
  .element e.name e.attributes e.content

/-- An element with plain names whose content is elements. -/
def plain (tag : String) (attributes : List (String × String)) (content : List Element) :
    Element where
  name := ⟨none, tag⟩
  attributes := attributes.map fun (name, value) => ⟨⟨none, name⟩, value⟩
  content := content.map toNode

variable {tag : String} {attributes : List (String × String)} {content : List Element}

theorem children_plain (child : String) :
    (plain tag attributes content).children child = content.filter (·.name.base = child) := by
  have elements : (plain tag attributes content).content.filterMap Node.element? = content := by
    simp [plain, toNode, Function.comp_def, Node.element?]
  rw [children, elements]

theorem children_plain_self {child : String} (all : ∀ e ∈ content, e.name.base = child) :
    (plain tag attributes content).children child = content := by
  rw [children_plain, List.filter_eq_self]
  simpa using all

theorem attribute?_plain (name : String) :
    (plain tag attributes content).attribute? name = attributes.lookup name := by
  unfold attribute? plain
  induction attributes with
  | nil => rfl
  | cons pair attributes ih =>
      obtain ⟨key, value⟩ := pair
      by_cases same : name = key
      · subst same
        simp
      · have skips : (name == key) = false := beq_false_of_ne same
        simpa [List.lookup_cons, skips, Ne.symm same] using ih

theorem attribute?_plain_head {name value : String} :
    (plain tag ((name, value) :: attributes) content).attribute? name = some value := by
  rw [attribute?_plain, List.lookup_cons_self]

/-- A name that an element or attribute may have without a prefix. -/
def isPlainName (name : String) : Bool :=
  isNamePart name.toList && name != "xmlns"

theorem toNode_plain (tagged : isPlainName tag = true)
    (attributed : ∀ name value, (name, value) ∈ attributes →
      isPlainName name = true ∧ isText value = true)
    (distinct : (attributes.map Prod.fst).Nodup)
    (inside : ∀ e ∈ content, e.toNode.Plain) : (plain tag attributes content).toNode.Plain := by
  refine .element ?_ ?_ ?_ ?_
  · simp only [isPlainName, Bool.and_eq_true] at tagged
    simpa [plain, QName.isPlain] using tagged.1
  · intro a member
    obtain ⟨⟨name, value⟩, isPair, rfl⟩ := List.mem_map.mp member
    obtain ⟨named, valued⟩ := attributed name value isPair
    simp only [isPlainName, Bool.and_eq_true] at named
    simp [Attribute.isPlain, QName.isPlain, named, valued]
  · simpa [plain, Function.comp_def] using distinct
  · intro node member
    obtain ⟨e, isInside, rfl⟩ := List.mem_map.mp member
    exact inside e isInside

end Element

end WireProxy.Xml
