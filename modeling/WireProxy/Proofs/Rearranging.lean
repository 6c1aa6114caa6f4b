import WireProxy.Proofs.Spans

/-!
# Rearranged documents

The tokens of an element are a stretch of the tokens of its document, and elements can change
places.  So whatever is a document stays one if the elements of one tag in its root are permuted.
-/

namespace WireProxy.Xml

/-- The tokens stand for these nodes, one after the other. -/
inductive Stands : List Node → List Token → Prop
  | nil : Stands [] []
  | empty {name : QName} {attributes : List Attribute} {nodes : List Node} {tokens : List Token}
      (others : Stands nodes tokens) :
      Stands (.element name attributes [] :: nodes) (.empty name attributes :: tokens)
  | element {name : QName} {attributes : List Attribute} {content nodes : List Node}
      {inner tokens : List Token} (inside : Stands content inner) (others : Stands nodes tokens) :
      Stands (.element name attributes content :: nodes)
        (.opening name attributes :: inner ++ .closing name :: tokens)
  | text {raw meant : List Char} {nodes : List Node} {tokens : List Token}
      (expanded : expand? lineEnd raw = some meant) (others : Stands nodes tokens) :
      Stands (.text (String.ofList meant) :: nodes) (.text raw :: tokens)
  | data {content : List Char} {nodes : List Node} {tokens : List Token}
      (others : Stands nodes tokens) :
      Stands (.text (String.ofList content) :: nodes) (.data content :: tokens)
  | comment {content : List Char} {nodes : List Node} {tokens : List Token}
      (others : Stands nodes tokens) :
      Stands (.comment (String.ofList content) :: nodes) (.comment content :: tokens)
  | instruction {target content : List Char} {nodes : List Node} {tokens : List Token}
      (others : Stands nodes tokens) :
      Stands (.instruction (String.ofList target) (String.ofList content) :: nodes)
        (.instruction target content :: tokens)

namespace Stands

variable {nodes nodes' : List Node} {tokens tokens' : List Token}

theorem append (first : Stands nodes tokens) (second : Stands nodes' tokens') :
    Stands (nodes ++ nodes') (tokens ++ tokens') := by
  induction first with
  | nil => exact second
  | empty _ ih => exact .empty ih
  | element inside _ _ ih =>
      rw [List.append_assoc]
      exact .element inside ih
  | text expanded _ ih => exact .text expanded ih
  | data _ ih => exact .data ih
  | comment _ ih => exact .comment ih
  | instruction _ ih => exact .instruction ih

theorem cons_inv {node : Node} (stands : Stands (node :: nodes) tokens) :
    ∃ front rest, tokens = front ++ rest ∧ Stands [node] front ∧ Stands nodes rest := by
  cases stands with
  | empty others => exact ⟨_, _, rfl, .empty .nil, others⟩
  | @element name attributes content _ inner tokens inside others =>
      exact ⟨.opening name attributes :: inner ++ [.closing name], tokens, by simp,
        .element inside .nil, others⟩
  | text expanded others => exact ⟨_, _, rfl, .text expanded .nil, others⟩
  | data others => exact ⟨_, _, rfl, .data .nil, others⟩
  | comment others => exact ⟨_, _, rfl, .comment .nil, others⟩
  | instruction others => exact ⟨_, _, rfl, .instruction .nil, others⟩

/-- Nodes are placed in the innermost open element in their order. -/
theorem foldlM_step? (stands : Stands nodes tokens) (top : Open) (below : List Open)
    (root : Option Node) :
    tokens.foldlM Builder.step? ⟨top :: below, root⟩ =
      some ⟨{ top with children := nodes.reverse ++ top.children } :: below, root⟩ := by
  induction stands generalizing top below with
  | nil => rfl
  | empty _ ih =>
      rw [List.foldlM_cons]
      simp [Builder.step?, Builder.place?, ih]
  | element _ _ ihInside ih =>
      rw [List.foldlM_append, List.foldlM_cons]
      simp [Builder.step?, Builder.place?, ihInside, ih]
  | text expanded _ ih =>
      rw [List.foldlM_cons]
      simp [Builder.step?, Builder.place?, expanded, ih]
  | data _ ih =>
      rw [List.foldlM_cons]
      simp [Builder.step?, Builder.place?, ih]
  | comment _ ih =>
      rw [List.foldlM_cons]
      simp [Builder.step?, Builder.place?, ih]
  | instruction _ ih =>
      rw [List.foldlM_cons]
      simp [Builder.step?, Builder.place?, ih]

end Stands

/-! ## What a builder has read -/

/-- The tokens up to now, given what is still open: each open element has its own tag and then the
tokens of its children. -/
inductive StandsOpen : List Open → List Token → Prop
  | outside (tokens : List Token) : StandsOpen [] tokens
  | inside {top : Open} {below : List Open} {tokens inner : List Token}
      (outer : StandsOpen below tokens) (children : Stands top.children.reverse inner) :
      StandsOpen (top :: below) (tokens ++ .opening top.name top.attributes :: inner)

namespace Builder

variable {b b' : Builder} {node : Node} {tokens front : List Token}

/-- What the tokens up to now say about a builder. -/
def HasRead (b : Builder) (tokens : List Token) : Prop :=
  match b.root with
  | none => StandsOpen b.stack tokens
  | some node => b.stack = [] ∧ ∃ before own after, tokens = before ++ own ++ after ∧
      Stands [node] own

theorem hasRead_append_of_stack_eq_nil (outside : b.stack = []) (read : b.HasRead tokens)
    (more : List Token) : b.HasRead (tokens ++ more) := by
  obtain ⟨stack, root⟩ := b
  obtain rfl : stack = [] := outside
  cases root with
  | none => exact .outside _
  | some node =>
      obtain ⟨-, before, own, after, rfl, stands⟩ := read
      exact ⟨rfl, before, own, after ++ more, by simp, stands⟩

theorem hasRead_place? (read : b.HasRead tokens) (stands : Stands [node] front)
    (placed : b.place? node = some b') : b'.HasRead (tokens ++ front) := by
  obtain ⟨stack, root⟩ := b
  cases stack with
  | cons top below =>
      cases placed
      cases root with
      | some root => exact absurd read.1 (List.cons_ne_nil _ _)
      | none =>
          cases read with
          | inside outer children =>
              rw [List.append_assoc, List.cons_append]
              refine @StandsOpen.inside { top with children := node :: top.children } _ _ _ outer ?_
              rw [List.reverse_cons]
              exact children.append stands
  | nil =>
      cases node with
      | element name attributes content =>
          cases root with
          | some root => cases placed
          | none =>
              cases placed
              exact ⟨rfl, tokens, front, [], by simp, stands⟩
      | _ =>
          cases placed
          exact hasRead_append_of_stack_eq_nil rfl read _

theorem hasRead_opening {name : QName} {attributes : List Attribute} (read : b.HasRead tokens)
    (step : b.step? (.opening name attributes) = some b') :
    b'.HasRead (tokens ++ [.opening name attributes]) := by
  obtain ⟨stack, root⟩ := b
  cases root with
  | none =>
      simp only [step?, Option.isSome_none, Bool.and_false, Bool.false_eq_true, if_false] at step
      cases step
      exact .inside read .nil
  | some root =>
      obtain rfl : stack = [] := read.1
      cases step

theorem hasRead_closing {name : QName} (read : b.HasRead tokens)
    (step : b.step? (.closing name) = some b') : b'.HasRead (tokens ++ [.closing name]) := by
  obtain ⟨stack, root⟩ := b
  cases stack with
  | nil => cases step
  | cons top below =>
      cases root with
      | some root => exact absurd read.1 (List.cons_ne_nil _ _)
      | none =>
          simp only [step?] at step
          split at step
          · next same =>
              subst same
              cases read with
              | @inside _ _ tokens inner outer children =>
                  have outer : HasRead ⟨below, none⟩ tokens := outer
                  rw [List.append_assoc]
                  exact hasRead_place? outer (.element children .nil) step
          · cases step

theorem hasRead_step? {t : Token} (read : b.HasRead tokens) (step : b.step? t = some b') :
    b'.HasRead (tokens ++ [t]) := by
  cases t with
  | opening name attributes => exact hasRead_opening read step
  | empty name attributes => exact hasRead_place? read (.empty .nil) step
  | closing name => exact hasRead_closing read step
  | text raw =>
      simp only [step?] at step
      split at step
      · next outside =>
          split at step
          · cases step
            exact hasRead_append_of_stack_eq_nil (List.isEmpty_iff.mp outside) read _
          · cases step
      · obtain ⟨meant, expanded, placed⟩ := Option.bind_eq_some_iff.mp step
        exact hasRead_place? read (.text expanded .nil) placed
  | data content =>
      simp only [step?] at step
      split at step
      · cases step
      · exact hasRead_place? read (.data .nil) step
  | comment content => exact hasRead_place? read (.comment .nil) step
  | instruction target content => exact hasRead_place? read (.instruction .nil) step

theorem hasRead_foldlM {more : List Token} (read : b.HasRead tokens)
    (run : more.foldlM step? b = some b') : b'.HasRead (tokens ++ more) := by
  induction more generalizing b tokens with
  | nil =>
      cases run
      rwa [List.append_nil]
  | cons t more ih =>
      obtain ⟨next, step, run⟩ := Option.bind_eq_some_iff.mp run
      have later := ih (hasRead_step? read step) run
      rwa [List.append_assoc] at later

end Builder

theorem stands_of_build? {tokens : List Token} {node : Node} (built : build? tokens = some node) :
    ∃ before own after, tokens = before ++ own ++ after ∧ Stands [node] own := by
  obtain ⟨b, run, finished⟩ := Option.bind_eq_some_iff.mp built
  have read : b.HasRead ([] ++ tokens) :=
    Builder.hasRead_foldlM (b := {}) (StandsOpen.outside []) run
  unfold Builder.finish? at finished
  split at finished
  · simp only [Builder.HasRead, finished] at read
    exact read.2
  · cases finished

/-! ## Elements that change places -/

structure Writable (tokens : List Token) : Prop where
  spans : ∀ t ∈ tokens, t.HasSpan
  apart : Apart tokens

theorem Writable.part {part tokens : List Token} (writable : Writable tokens)
    (isPart : part <:+: tokens) : Writable part :=
  ⟨fun t member => writable.spans t (isPart.subset member),
    List.IsChain.infix writable.apart isPart⟩

theorem writable_append {first second : List Token} :
    Writable (first ++ second) ↔ Writable first ∧ Writable second ∧
      ∀ s ∈ first.getLast?, ∀ t ∈ second.head?, s.isText = false ∨ t.isText = false := by
  constructor
  · intro writable
    exact ⟨writable.part (List.prefix_append first second).isInfix,
      writable.part (List.suffix_append first second).isInfix,
      (List.isChain_append.mp writable.apart).2.2⟩
  · rintro ⟨⟨spans, apart⟩, ⟨spans', apart'⟩, boundary⟩
    exact ⟨List.forall_mem_append.mpr ⟨spans, spans'⟩,
      List.isChain_append.mpr ⟨apart, apart', boundary⟩⟩

/-- Between tags anything that can be written may stand. -/
theorem Writable.between {name : QName} {attributes : List Attribute} {inner inner' : List Token}
    (writable : Writable (.opening name attributes :: inner ++ [.closing name]))
    (inside : Writable inner') :
    Writable (.opening name attributes :: inner' ++ [.closing name]) := by
  have opening : Writable [.opening name attributes] :=
    writable.part ⟨[], inner ++ [.closing name], by simp⟩
  have closing : Writable [.closing name] :=
    writable.part ⟨.opening name attributes :: inner, [], by simp⟩
  rw [← List.singleton_append, writable_append, writable_append]
  refine ⟨⟨opening, inside, fun s last _ _ => .inl ?_⟩, closing, fun _ _ t first => .inr ?_⟩
  · cases last
    rfl
  · cases first
    rfl

namespace Stands

variable {node : Node} {nodes : List Node} {tokens : List Token}

theorem ne_nil (stands : Stands [node] tokens) : tokens ≠ [] := by
  cases stands <;> simp

theorem exists_stretch (stands : Stands nodes tokens) (member : node ∈ nodes) :
    ∃ own, own <:+: tokens ∧ Stands [node] own := by
  induction nodes generalizing tokens with
  | nil => cases member
  | cons first nodes ih =>
      obtain ⟨front, rest, rfl, here, others⟩ := stands.cons_inv
      rcases List.mem_cons.mp member with rfl | later
      · exact ⟨front, (List.prefix_append front rest).isInfix, here⟩
      · obtain ⟨own, isPart, stands⟩ := ih others later
        exact ⟨own, isPart.trans (List.suffix_append front rest).isInfix, stands⟩

theorem tags {name : QName} {attributes : List Attribute} {content : List Node}
    (stands : Stands [.element name attributes content] tokens) :
    (∀ t ∈ tokens.head?, t.isText = false) ∧ ∀ t ∈ tokens.getLast?, t.isText = false := by
  cases stands with
  | empty others =>
      cases others
      simp [Token.isText]
  | element inside others =>
      cases others
      refine ⟨by simp [Token.isText], ?_⟩
      rw [List.getLast?_concat]
      simp [Token.isText]

end Stands

def Node.isTagged (tag : String) (node : Node) : Bool :=
  node.element?.any (·.name.base = tag)

/-- The nodes with these elements, in their order, in the places of those with the tag. -/
def putInPlace (tag : String) : List Node → List Element → List Node
  | [], _ => []
  | node :: rest, es =>
      if node.isTagged tag then
        match es with
        | e :: es => e.toNode :: putInPlace tag rest es
        | [] => node :: rest
      else node :: putInPlace tag rest es

namespace Element

/-- The element with other children of one tag in the places of those that it has. -/
def withChildren (e : Element) (tag : String) (es : List Element) : Element :=
  { e with content := putInPlace tag e.content es }

variable {e : Element} {tag : String} {es : List Element}

@[simp] theorem element?_toNode (e : Element) : e.toNode.element? = some e := rfl

theorem eq_toNode {node : Node} (is : node.element? = some e) : node = e.toNode := by
  cases node with
  | element name attributes content =>
      cases is
      rfl
  | _ => cases is

end Element

section PutInPlace

variable {tag : String} {node : Node} {nodes : List Node} {tokens : List Token} {es : List Element}

def taggedIn (tag : String) (nodes : List Node) : List Element :=
  (nodes.filterMap Node.element?).filter (·.name.base = tag)

theorem exists_element_of_isTagged (tagged : node.isTagged tag = true) :
    ∃ e : Element, node = e.toNode ∧ e.name.base = tag := by
  unfold Node.isTagged at tagged
  cases found : node.element? with
  | none =>
      rw [found] at tagged
      cases tagged
  | some e =>
      rw [found] at tagged
      exact ⟨e, Element.eq_toNode found, by simpa using tagged⟩

theorem taggedIn_cons_toNode {e : Element} (tagged : e.name.base = tag) :
    taggedIn tag (e.toNode :: nodes) = e :: taggedIn tag nodes := by
  simp [taggedIn, tagged]

theorem taggedIn_cons_of_not_isTagged (other : node.isTagged tag = false) :
    taggedIn tag (node :: nodes) = taggedIn tag nodes := by
  unfold Node.isTagged at other
  unfold taggedIn
  cases found : node.element? with
  | none => rw [List.filterMap_cons_none found]
  | some e =>
      rw [found] at other
      rw [List.filterMap_cons_some found, List.filter_cons_of_neg (by simpa using other)]

theorem taggedIn_putInPlace (size : es.length = (taggedIn tag nodes).length)
    (tagged : ∀ e ∈ es, e.name.base = tag) : taggedIn tag (putInPlace tag nodes es) = es := by
  fun_induction putInPlace tag nodes es with
  | case1 es => exact (List.length_eq_zero_iff.mp size).symm
  | case2 node rest isTagged e es ih =>
      obtain ⟨old, rfl, based⟩ := exists_element_of_isTagged isTagged
      obtain ⟨first, others⟩ := List.forall_mem_cons.mp tagged
      rw [taggedIn_cons_toNode based, List.length_cons, List.length_cons] at size
      rw [taggedIn_cons_toNode first, ih (by omega) others]
  | case3 node rest isTagged => exact List.length_eq_zero_iff.mp size.symm
  | case4 node rest es other ih =>
      have other : node.isTagged tag = false := by simpa using other
      rw [taggedIn_cons_of_not_isTagged other] at size ⊢
      exact ih size tagged

theorem mem_putInPlace (member : node ∈ putInPlace tag nodes es) :
    node ∈ nodes ∨ ∃ e ∈ es, node = e.toNode := by
  fun_induction putInPlace tag nodes es with
  | case1 es => cases member
  | case2 first rest isTagged e es ih =>
      rcases List.mem_cons.mp member with rfl | later
      · exact .inr ⟨e, List.mem_cons_self, rfl⟩
      · rcases ih later with old | ⟨e', isNew, rfl⟩
        · exact .inl (List.mem_cons_of_mem _ old)
        · exact .inr ⟨e', List.mem_cons_of_mem _ isNew, rfl⟩
  | case3 first rest isTagged => exact .inl member
  | case4 first rest es other ih =>
      rcases List.mem_cons.mp member with rfl | later
      · exact .inl List.mem_cons_self
      · rcases ih later with old | new
        · exact .inl (List.mem_cons_of_mem _ old)
        · exact .inr new

/-- Elements that can be written can stand in each other's places. -/
theorem exists_stands_putInPlace (stands : Stands nodes tokens) (writable : Writable tokens)
    (fits : ∀ e ∈ es, ∃ own, Stands [e.toNode] own ∧ Writable own) :
    ∃ tokens', Stands (putInPlace tag nodes es) tokens' ∧ Writable tokens' ∧
      ∀ t ∈ tokens'.head?, t.isText = true → ∃ s ∈ tokens.head?, s.isText = true := by
  -- Character data may come first only where it did, so that it does not meet what stands before.
  fun_induction putInPlace tag nodes es generalizing tokens with
  | case1 es => exact ⟨tokens, stands, writable, fun t first isText => ⟨t, first, isText⟩⟩
  | case2 node rest tagged e es ih =>
      obtain ⟨front, back, rfl, -, others⟩ := stands.cons_inv
      obtain ⟨-, backWritable, -⟩ := writable_append.mp writable
      obtain ⟨⟨own, here, ownWritable⟩, fits⟩ := List.forall_mem_cons.mp fits
      obtain ⟨back', stands', writable', -⟩ := ih others backWritable fits
      obtain ⟨begins, ends⟩ := here.tags
      refine ⟨own ++ back', here.append stands',
        writable_append.mpr ⟨ownWritable, writable', fun s last _ _ => .inl (ends s last)⟩, ?_⟩
      intro t first isText
      rw [List.head?_append_of_ne_nil _ here.ne_nil] at first
      rw [begins t first] at isText
      cases isText
  | case3 node rest tagged =>
      exact ⟨tokens, stands, writable, fun t first isText => ⟨t, first, isText⟩⟩
  | case4 node rest es other ih =>
      obtain ⟨front, back, rfl, here, others⟩ := stands.cons_inv
      obtain ⟨frontWritable, backWritable, boundary⟩ := writable_append.mp writable
      obtain ⟨back', stands', writable', begins⟩ := ih others backWritable fits
      refine ⟨front ++ back', here.append stands',
        writable_append.mpr ⟨frontWritable, writable', fun s last t first => ?_⟩, ?_⟩
      · cases isText : t.isText with
        | false => exact .inr rfl
        | true =>
            obtain ⟨old, oldFirst, oldText⟩ := begins t first isText
            simpa [oldText] using boundary s last old oldFirst
      · intro t first isText
        rw [List.head?_append_of_ne_nil _ here.ne_nil] at first ⊢
        exact ⟨t, first, isText⟩

end PutInPlace

/-! ## Whole documents -/

theorem build?_of_stands {name : QName} {attributes : List Attribute} {content : List Node}
    {inner : List Token} (inside : Stands content inner) :
    build? (.opening name attributes :: inner ++ [.closing name]) =
      some (.element name attributes content) := by
  rw [build?, List.foldlM_append, List.foldlM_cons]
  simp [Builder.step?, Builder.place?, Builder.finish?, inside.foldlM_step?]

theorem isBound_of_subset {outer : Bindings} {name : QName} {attributes : List Attribute}
    {content content' : List Node}
    (bound : (Node.element name attributes content).isBound outer = true)
    (within : ∀ node ∈ content', node ∈ content) :
    (Node.element name attributes content').isBound outer = true := by
  unfold Node.isBound at bound ⊢
  cases declared : declared? attributes with
  | none =>
      rw [declared] at bound
      cases bound
  | some inner =>
      simp only [declared, areBound_eq_all, Bool.and_eq_true, List.all_eq_true] at bound ⊢
      exact ⟨bound.1, fun node member => bound.2 node (within node member)⟩

theorem root?_eq_some {text : String} {root : Element} (parsed : root? text = some root) :
    ∃ cs tokens, readTokens? cs = some tokens ∧ build? tokens = some root.toNode ∧
      root.toNode.isBound [] = true := by
  simp only [root?, Option.bind_eq_bind, Option.bind_eq_some_iff] at parsed
  obtain ⟨cs, -, tokens, read, node, built, parsed⟩ := parsed
  split at parsed
  · next bound =>
      obtain rfl := Element.eq_toNode parsed
      exact ⟨cs, tokens, read, built, bound⟩
  · cases parsed

theorem after?_declaration {cs : List Char} {tokens : List Token}
    (read : readTokens? cs = some tokens) : after? "<?xml ".toList cs = none := by
  cases found : after? "<?xml ".toList cs with
  | none => rfl
  | some rest =>
      rw [after?_eq_some] at found
      have refused : readToken? cs = none := by
        rw [found]
        exact readToken?_instruction ("xml ".toList ++ rest)
      have begins : cs = '<' :: ("?xml ".toList ++ rest) := found
      rw [begins] at read refused
      rw [readTokens?] at read
      split at read
      · next found =>
          rw [refused] at found
          cases found
      · cases read

/-- A byte order mark keeps what follows it from being taken for one. -/
theorem root?_of_readTokens? {cs : List Char} {tokens : List Token} {root : Element}
    (read : readTokens? cs = some tokens) (built : build? tokens = some root.toNode)
    (bound : root.toNode.isBound [] = true) :
    root? (String.ofList ('\ufeff' :: cs)) = some root := by
  have skipped : skipDeclaration? (skipMark ('\ufeff' :: cs)) = some cs := by
    rw [skipMark, skipDeclaration?, after?_declaration read]
  rw [root?, String.toList_ofList, skipped]
  simp [read, built, bound]

namespace Element

variable {root : Element} {tag : String} {es : List Element}

theorem children_withChildren (perm : (root.children tag).Perm es) :
    (root.withChildren tag es).children tag = es := by
  refine taggedIn_putInPlace perm.length_eq.symm fun e member => ?_
  have isChild := List.of_mem_filter (perm.mem_iff.mpr member)
  simpa using isChild

theorem toNode_mem_content {e : Element} (member : e ∈ root.children tag) :
    e.toNode ∈ root.content := by
  obtain ⟨node, isInside, is⟩ := List.mem_filterMap.mp (List.mem_of_mem_filter member)
  rwa [← eq_toNode is]

theorem mem_content_withChildren (perm : (root.children tag).Perm es) {node : Node}
    (member : node ∈ (root.withChildren tag es).content) : node ∈ root.content := by
  rcases mem_putInPlace member with old | ⟨e, isNew, rfl⟩
  · exact old
  · exact toNode_mem_content (perm.mem_iff.mpr isNew)

end Element

/-- Whatever order the children of one tag are put into, there is a document with them in it. -/
theorem exists_root?_withChildren {text tag : String} {root : Element} {es : List Element}
    (parsed : root? text = some root) (perm : (root.children tag).Perm es) :
    ∃ text', root? text' = some (root.withChildren tag es) := by
  obtain ⟨cs, tokens, read, built, bound⟩ := root?_eq_some parsed
  obtain ⟨before, own, after, rfl, stands⟩ := stands_of_build? built
  obtain ⟨spans, apart⟩ := apart_of_readTokens? read
  have writable : Writable own := Writable.part ⟨spans, apart⟩ ⟨before, after, rfl⟩
  have bound' : (root.withChildren tag es).toNode.isBound [] = true :=
    isBound_of_subset bound fun _ => Element.mem_content_withChildren perm
  obtain ⟨name, attributes, content⟩ := root
  cases stands with
  | empty others =>
      -- There is nothing in the root that could be moved.
      exact ⟨text, parsed⟩
  | @element _ _ _ _ inner _ inside others =>
      cases others
      have innerWritable : Writable inner :=
        writable.part ⟨[.opening name attributes], [.closing name], by simp⟩
      have fits : ∀ e ∈ es, ∃ own, Stands [e.toNode] own ∧ Writable own := by
        intro e member
        have isInside := Element.toNode_mem_content (perm.mem_iff.mpr member)
        obtain ⟨own, isPart, stands⟩ := inside.exists_stretch isInside
        exact ⟨own, stands, innerWritable.part isPart⟩
      obtain ⟨inner', stands', writable', -⟩ := exists_stands_putInPlace inside innerWritable fits
      have whole := writable.between writable'
      obtain ⟨cs', read'⟩ := exists_readTokens? whole.spans whole.apart
      exact ⟨_, root?_of_readTokens? read' (build?_of_stands stands') bound'⟩

end WireProxy.Xml
