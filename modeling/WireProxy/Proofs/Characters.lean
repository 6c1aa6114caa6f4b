import Mathlib.Data.List.Basic
import WireProxy.Xml.Document

/-!
# Characters in a tree

An attribute value holds only characters that may occur in a document, also where references are
used to write it.  The readers check this of what is written and of what is referred to, and so it
holds throughout the tree of a document.
-/

namespace WireProxy.Xml

/-- The text may occur in a document. -/
def isText (s : String) : Bool :=
  s.toList.all isAllowed

theorem isAllowed_spaced {c : Char} (allowed : isAllowed c = true) :
    isAllowed (spaced c) = true := by
  unfold spaced
  split
  · decide
  · decide
  · decide
  · exact allowed

theorem isAllowed_of_referencedChar? {code : Nat} {c : Char}
    (found : referencedChar? code = some c) : isAllowed c = true := by
  unfold referencedChar? at found
  split at found
  · next valid =>
      cases found
      exact valid.2
  · cases found

theorem isAllowed_of_reference? {body : List Char} {c : Char} (found : reference? body = some c) :
    isAllowed c = true := by
  unfold reference? at found
  split at found
  · obtain ⟨code, -, found⟩ := Option.bind_eq_some_iff.mp found
    exact isAllowed_of_referencedChar? found
  · obtain ⟨code, -, found⟩ := Option.bind_eq_some_iff.mp found
    exact isAllowed_of_referencedChar? found
  · repeat' split at found
    all_goals cases found
    all_goals decide

theorem isAllowed_of_expandFrom? {state : Option (List Char)} {cs expanded : List Char}
    (allowed : cs.all isAllowed = true) (found : expandFrom? spaced state cs = some expanded) :
    expanded.all isAllowed = true := by
  fun_induction expandFrom? spaced state cs generalizing expanded with
  | case1 =>
      cases found
      rfl
  | case2 => cases found
  | case3 rest ih =>
      rw [List.all_cons, Bool.and_eq_true] at allowed
      exact ih allowed.2 found
  | case4 rest ih =>
      obtain ⟨others, following, rfl⟩ := Option.map_eq_some_iff.mp found
      simp only [List.all_cons, Bool.and_eq_true] at allowed ⊢
      exact ⟨isAllowed_spaced allowed.2.1, ih allowed.2.2 following⟩
  | case5 c rest _ _ ih =>
      obtain ⟨others, following, rfl⟩ := Option.map_eq_some_iff.mp found
      rw [List.all_cons, Bool.and_eq_true] at allowed ⊢
      exact ⟨isAllowed_spaced allowed.1, ih allowed.2 following⟩
  | case6 body rest ih =>
      obtain ⟨c, referred, found⟩ := Option.bind_eq_some_iff.mp found
      obtain ⟨others, following, rfl⟩ := Option.map_eq_some_iff.mp found
      rw [List.all_cons, Bool.and_eq_true] at allowed ⊢
      exact ⟨isAllowed_of_reference? referred, ih allowed.2 following⟩
  | case7 body c rest _ ih =>
      rw [List.all_cons, Bool.and_eq_true] at allowed
      exact ih allowed.2 found

/-! ## Tokens -/

theorem isAllowed_of_readAssignment? {cs rest raw : List Char} {name : QName}
    (read : readAssignment? cs = some ((name, raw), rest)) : raw.all isAllowed = true := by
  simp only [readAssignment?, Option.bind_eq_bind, Option.bind_eq_some_iff] at read
  obtain ⟨⟨_, _⟩, -, _, -, read⟩ := read
  split at read
  · split at read
    · obtain ⟨_, -, read⟩ := Option.bind_eq_some_iff.mp read
      split at read
      · next allowed =>
          cases read
          exact allowed
      · cases read
    · cases read
  · cases read

theorem isText_of_readAttribute? {cs rest : List Char} {a : Attribute}
    (read : readAttribute? cs = some (a, rest)) : isText a.value = true := by
  simp only [readAttribute?, Option.bind_eq_bind, Option.bind_eq_some_iff, Option.pure_def,
    Option.some.injEq, Prod.mk.injEq] at read
  obtain ⟨⟨⟨_, raw⟩, _⟩, assigned, value, expanded, rfl, -⟩ := read
  have allowed := isAllowed_of_expandFrom? (isAllowed_of_readAssignment? assigned) expanded
  simpa [isText] using allowed

theorem isText_of_readAttributes? {cs rest : List Char} {attributes : List Attribute}
    {closed : Bool} (read : readAttributes? cs = some (attributes, closed, rest)) :
    ∀ a ∈ attributes, isText a.value = true := by
  fun_induction readAttributes? cs generalizing attributes closed rest with
  | case1 =>
      cases read
      simp
  | case2 =>
      cases read
      simp
  | case3 cs _ first tail found _ _ ih =>
      obtain ⟨⟨others, ending⟩, following, same⟩ := Option.map_eq_some_iff.mp read
      cases same
      exact List.forall_mem_cons.mpr ⟨isText_of_readAttribute? found, ih following⟩
  | case4 => cases read
  | case5 => cases read

namespace Token

def attributes : Token → List Attribute
  | opening _ attributes | empty _ attributes => attributes
  | _ => []

def Clean (t : Token) : Prop :=
  ∀ a ∈ t.attributes, isText a.value = true

theorem clean_of_attributes_eq_nil {t : Token} (bare : t.attributes = []) : t.Clean := by
  intro a member
  rw [bare] at member
  cases member

end Token

theorem readTag?_clean {cs rest : List Char} {t : Token} (read : readTag? cs = some (t, rest)) :
    t.Clean := by
  simp only [readTag?, Option.bind_eq_bind, Option.bind_eq_some_iff, Option.pure_def,
    Option.some.injEq, Prod.mk.injEq] at read
  obtain ⟨⟨name, _⟩, -, ⟨attributes, closed, _⟩, attributed, rfl, -⟩ := read
  have texts := isText_of_readAttributes? attributed
  cases closed with
  | false => exact texts
  | true => exact texts

/-! Only tags have attributes. -/

theorem attributes_of_readClosing? {cs rest : List Char} {t : Token}
    (read : readClosing? cs = some (t, rest)) : t.attributes = [] := by
  simp only [readClosing?, Option.bind_eq_bind, Option.bind_eq_some_iff, Option.pure_def,
    Option.some.injEq, Prod.mk.injEq] at read
  obtain ⟨_, -, _, -, rfl, -⟩ := read
  rfl

theorem attributes_of_readComment? {cs rest : List Char} {t : Token}
    (read : readComment? cs = some (t, rest)) : t.attributes = [] := by
  simp only [readComment?, Option.bind_eq_bind, Option.bind_eq_some_iff] at read
  obtain ⟨⟨_, _⟩, -, read⟩ := read
  split at read
  · cases read
    rfl
  · cases read

theorem attributes_of_readData? {cs rest : List Char} {t : Token}
    (read : readData? cs = some (t, rest)) : t.attributes = [] := by
  simp only [readData?, Option.bind_eq_bind, Option.bind_eq_some_iff] at read
  obtain ⟨⟨_, _⟩, -, read⟩ := read
  split at read
  · cases read
    rfl
  · cases read

theorem attributes_of_readInstruction? {cs rest : List Char} {t : Token}
    (read : readInstruction? cs = some (t, rest)) : t.attributes = [] := by
  unfold readInstruction? at read
  split at read
  · cases read
  · simp only [Option.bind_eq_bind, Option.bind_eq_some_iff] at read
    obtain ⟨⟨_, _⟩, -, read⟩ := read
    split at read
    · cases read
      rfl
    · cases read

theorem attributes_of_readText? {cs rest : List Char} {t : Token}
    (read : readText? cs = some (t, rest)) : t.attributes = [] := by
  simp only [readText?] at read
  split at read
  · cases read
    rfl
  · cases read

theorem readToken?_clean {cs rest : List Char} {t : Token}
    (read : readToken? cs = some (t, rest)) : t.Clean := by
  unfold readToken? at read
  split at read
  · exact Token.clean_of_attributes_eq_nil (attributes_of_readClosing? read)
  · split at read
    · exact Token.clean_of_attributes_eq_nil (attributes_of_readComment? read)
    · split at read
      · exact Token.clean_of_attributes_eq_nil (attributes_of_readData? read)
      · split at read
        · exact Token.clean_of_attributes_eq_nil (attributes_of_readInstruction? read)
        · split at read
          · exact readTag?_clean read
          · exact Token.clean_of_attributes_eq_nil (attributes_of_readText? read)

theorem readTokens?_clean {cs : List Char} {tokens : List Token}
    (read : readTokens? cs = some tokens) : ∀ t ∈ tokens, t.Clean := by
  fun_induction readTokens? cs generalizing tokens with
  | case1 =>
      cases read
      simp
  | case2 c rest t behind found ih =>
      obtain ⟨others, following, rfl⟩ := Option.map_eq_some_iff.mp read
      exact List.forall_mem_cons.mpr ⟨readToken?_clean found, ih following⟩
  | case3 => cases read

/-! ## Trees -/

/-- All attribute values in the node, however deep, may occur in a document. -/
inductive Node.Clean : Node → Prop
  | element {name : QName} {attributes : List Attribute} {content : List Node}
      (attributed : ∀ a ∈ attributes, isText a.value = true)
      (inside : ∀ node ∈ content, node.Clean) : Clean (.element name attributes content)
  | text {content : String} : Clean (.text content)
  | comment {content : String} : Clean (.comment content)
  | instruction {target content : String} : Clean (.instruction target content)

structure Open.Clean (o : Open) : Prop where
  attributed : ∀ a ∈ o.attributes, isText a.value = true
  inside : ∀ node ∈ o.children, node.Clean

namespace Builder

structure Clean (b : Builder) : Prop where
  stack : ∀ o ∈ b.stack, o.Clean
  root : ∀ node, b.root = some node → node.Clean

theorem place?_clean {b b' : Builder} {node : Node} (clean : b.Clean) (isClean : node.Clean)
    (placed : b.place? node = some b') : b'.Clean := by
  unfold place? at placed
  split at placed
  · next top below stack =>
      cases placed
      have opened := clean.stack
      rw [stack] at opened
      obtain ⟨first, others⟩ := List.forall_mem_cons.mp opened
      refine ⟨List.forall_mem_cons.mpr ⟨⟨first.attributed, ?_⟩, others⟩, clean.root⟩
      exact List.forall_mem_cons.mpr ⟨isClean, first.inside⟩
  · split at placed
    · split at placed
      · cases placed
      · cases placed
        refine ⟨clean.stack, fun found same => ?_⟩
        cases same
        exact isClean
    · cases placed
      exact clean

theorem step?_clean {b b' : Builder} {t : Token} (clean : b.Clean) (isClean : t.Clean)
    (stepped : b.step? t = some b') : b'.Clean := by
  cases t with
  | opening name attributes =>
      simp only [step?] at stepped
      split at stepped
      · cases stepped
      · cases stepped
        exact ⟨List.forall_mem_cons.mpr ⟨⟨isClean, by simp⟩, clean.stack⟩, clean.root⟩
  | empty name attributes => exact place?_clean clean (.element isClean (by simp)) stepped
  | closing name =>
      simp only [step?] at stepped
      split at stepped
      · next top below stack =>
          split at stepped
          · have opened := clean.stack
            rw [stack] at opened
            obtain ⟨first, others⟩ := List.forall_mem_cons.mp opened
            have below : Clean { b with stack := below } := ⟨others, clean.root⟩
            refine place?_clean below (.element first.attributed ?_) stepped
            intro node member
            exact first.inside node (List.mem_reverse.mp member)
          · cases stepped
      · cases stepped
  | text raw =>
      simp only [step?] at stepped
      split at stepped
      · split at stepped
        · cases stepped
          exact clean
        · cases stepped
      · obtain ⟨content, -, placed⟩ := Option.bind_eq_some_iff.mp stepped
        exact place?_clean clean .text placed
  | data content =>
      simp only [step?] at stepped
      split at stepped
      · cases stepped
      · exact place?_clean clean .text stepped
  | comment content => exact place?_clean clean .comment stepped
  | instruction target content => exact place?_clean clean .instruction stepped

theorem foldlM_step?_clean {tokens : List Token} {b b' : Builder} (clean : b.Clean)
    (areClean : ∀ t ∈ tokens, t.Clean) (ran : tokens.foldlM step? b = some b') : b'.Clean := by
  induction tokens generalizing b with
  | nil =>
      cases ran
      exact clean
  | cons t tokens ih =>
      obtain ⟨first, others⟩ := List.forall_mem_cons.mp areClean
      rw [List.foldlM_cons] at ran
      obtain ⟨next, stepped, ran⟩ := Option.bind_eq_some_iff.mp ran
      exact ih (step?_clean clean first stepped) others ran

end Builder

theorem build?_clean {tokens : List Token} {node : Node} (areClean : ∀ t ∈ tokens, t.Clean)
    (built : build? tokens = some node) : node.Clean := by
  obtain ⟨b, ran, finished⟩ := Option.bind_eq_some_iff.mp built
  have clean : b.Clean :=
    Builder.foldlM_step?_clean ⟨by simp, by simp⟩ areClean ran
  unfold Builder.finish? at finished
  split at finished
  · exact clean.root node finished
  · cases finished

/-! ## Elements -/

namespace Element

structure Clean (e : Element) : Prop where
  attributed : ∀ a ∈ e.attributes, isText a.value = true
  inside : ∀ node ∈ e.content, node.Clean

theorem clean_of_element? {node : Node} {e : Element} (clean : node.Clean)
    (isElement : node.element? = some e) : e.Clean := by
  cases clean with
  | element attributed inside =>
      cases isElement
      exact ⟨attributed, inside⟩
  | text => cases isElement
  | comment => cases isElement
  | instruction => cases isElement

namespace Clean

variable {e : Element}

theorem child (clean : e.Clean) {child : Element} {tag : String}
    (isChild : child ∈ e.children tag) : child.Clean := by
  obtain ⟨inContent, -⟩ := List.mem_filter.mp isChild
  obtain ⟨node, member, isElement⟩ := List.mem_filterMap.mp inContent
  exact clean_of_element? (clean.inside node member) isElement

theorem attribute? (clean : e.Clean) {name value : String}
    (found : e.attribute? name = some value) : isText value = true := by
  obtain ⟨a, isFirst, rfl⟩ := Option.map_eq_some_iff.mp found
  exact clean.attributed a (List.mem_of_find?_eq_some isFirst)

end Clean

end Element

theorem root?_clean {text : String} {root : Element} (parsed : root? text = some root) :
    root.Clean := by
  simp only [root?, Option.bind_eq_bind, Option.bind_eq_some_iff] at parsed
  obtain ⟨rest, -, tokens, read, node, built, parsed⟩ := parsed
  split at parsed
  · exact Element.clean_of_element? (build?_clean (readTokens?_clean read) built) parsed
  · cases parsed

end WireProxy.Xml
