import WireProxy.Proofs.Numeral
import WireProxy.Proofs.WellFormed
import WireProxy.Proofs.Writing

/-!
# Documents of protocols

Every well-formed protocol can be written as a document that it is loaded from again.  Together with
what a loaded protocol must satisfy this says which protocols there are documents for.
-/

namespace WireProxy

open Xml (Element isText)

/-- What is written for a name.  A name that begins like the stem gets it once more, as it is taken
off once. -/
def withStem (stem name : String) : String :=
  if stem.toList.isPrefixOf name.toList then stem ++ name else name

@[simp] theorem stripStem_withStem (stem name : String) :
    stripStem stem (withStem stem name) = name := by
  unfold withStem
  split
  · have begins : stem.toList.isPrefixOf (stem ++ name).toList = true := by simp
    rw [stripStem, if_pos begins, String.toList_append, List.drop_left, String.ofList_toList]
  · rename_i differs
    rw [stripStem, if_neg differs]

theorem isText_withStem (stem : String) {name : String} (text : isText name = true) :
    isText (withStem stem name) = true := by
  unfold withStem
  split
  · rename_i begins
    -- The stem has no characters that the name does not have.
    obtain ⟨rest, whole⟩ := List.isPrefixOf_iff_prefix.mp begins
    simp only [isText] at text ⊢
    rw [← whole, List.all_append, Bool.and_eq_true] at text
    rw [String.toList_append, ← whole, List.all_append, List.all_append, text.1, text.2]
    rfl
  · exact text

theorem isText_toString (n : Nat) : isText (toString n) = true := by
  have digits : (toString n).toList = Nat.toDigits 10 n := String.toList_ofList
  rw [isText, digits, List.all_eq_true]
  intro c member
  have lower : '0'.toNat ≤ c.toNat := (Text.isDigit_of_mem_toDigits member).1
  have upper : c.toNat ≤ '9'.toNat := (Text.isDigit_of_mem_toDigits member).2
  have zero : '0'.toNat = 48 := rfl
  have nine : '9'.toNat = 57 := rfl
  simp only [Xml.isAllowed, Bool.or_eq_true, Bool.and_eq_true, decide_eq_true_eq, bne_iff_ne]
  omega

def Argument.toElement (stem : String) (arg : Argument) : Element :=
  .plain "arg"
    (("name", arg.name) :: ("type", arg.kind.token) :: ("allow_null", toString arg.allowNull) ::
      (arg.interface.map fun target => ("interface", withStem stem target)).toList)
    []

/-- The element of a request or of an event. -/
def Message.toElement (stem tag : String) (message : Message) : Element :=
  .plain tag [("name", message.name)] (message.args.map (·.toElement stem))

def Request.toElement (stem : String) (r : Request) : Element :=
  r.toMessage.toElement stem "request"

def EnumEntry.toElement (entry : EnumEntry) : Element :=
  .plain "entry" [("name", entry.name), ("value", entry.value)] []

def Enumeration.toElement (enumeration : Enumeration) : Element :=
  .plain "enum" [("name", enumeration.name)] (enumeration.entries.map (·.toElement))

namespace Interface

def destroyElement : Element :=
  .plain "request" [("name", Loading.destroyRequest)] []

/-- The request elements.  The one of the destroy request stands where its opcode says. -/
def requestElements (stem : String) (i : Interface) : List Element :=
  match i.destroyOpcode with
  | none => i.requests.map (·.toElement stem)
  | some number =>
      (i.requests.take number.toNat).map (·.toElement stem) ++
        destroyElement :: (i.requests.drop number.toNat).map (·.toElement stem)

theorem mem_requestElements {stem : String} {i : Interface} {e : Element}
    (member : e ∈ i.requestElements stem) :
    e = destroyElement ∨ ∃ r ∈ i.requests, e = r.toElement stem := by
  unfold requestElements at member
  split at member
  · obtain ⟨r, isRequest, rfl⟩ := List.mem_map.mp member
    exact .inr ⟨r, isRequest, rfl⟩
  · simp only [List.mem_append, List.mem_cons, List.mem_map] at member
    rcases member with ⟨r, before, rfl⟩ | rfl | ⟨r, after, rfl⟩
    · exact .inr ⟨r, List.mem_of_mem_take before, rfl⟩
    · exact .inl rfl
    · exact .inr ⟨r, List.mem_of_mem_drop after, rfl⟩

def toElement (stem : String) (i : Interface) : Element :=
  .plain "interface" [("name", withStem stem i.name), ("version", toString i.version.toNat)]
    (i.requestElements stem ++ i.events.map (·.toElement stem "event") ++
      i.enums.map (·.toElement))

end Interface

namespace Protocol

def toElement (stem : String) (p : Protocol) : Element :=
  .plain "protocol" (p.name.map ("name", ·)).toList (p.interfaces.map (·.toElement stem))

def document (stem : String) (p : Protocol) : String :=
  (p.toElement stem).toNode.document

end Protocol

/-! ## What the elements are scanned as -/

namespace Loading

variable {o : Origin} {interfaceName owner : String}

theorem argument_toElement {arg : Argument} (wellFormed : arg.WellFormed) :
    argument o interfaceName owner (arg.toElement o.stem) = .ok arg := by
  rw [argument_eq_ok]
  simp only [Argument.toElement, Element.attribute?_plain]
  refine ⟨rfl, ⟨arg.kind.token, rfl, (ArgumentKind.ofToken_token wellFormed.kind).symm⟩, ?_, ?_⟩
  · cases arg.interface with
    | none => rfl
    | some target => simp [List.lookup_cons]
  · cases arg.allowNull with
    | false => rfl
    | true => rfl

theorem children_toElement_message (stem tag : String) (message : Message) :
    (message.toElement stem tag).children "arg" = message.args.map (·.toElement stem) :=
  Element.children_plain_self (by simp [Argument.toElement, Element.plain])

theorem arguments_toElement {tag : String} {message : Message} (wellFormed : message.WellFormed) :
    arguments o interfaceName owner (message.toElement o.stem tag) = .ok message.args := by
  rw [arguments_eq_ok, children_toElement_message, List.forall₂_map_left_iff, List.forall₂_same]
  intro arg member
  exact argument_toElement (wellFormed.args arg member)

theorem event_toElement {message : Message} (wellFormed : message.WellFormed) :
    event o interfaceName (message.toElement o.stem "event") = .ok message := by
  rw [event_eq_ok]
  exact ⟨Element.attribute?_plain_head, arguments_toElement wellFormed⟩

theorem enumEntry_toElement (entry : EnumEntry) :
    enumEntry o interfaceName owner entry.toElement = .ok entry := by
  rw [enumEntry_eq_ok, EnumEntry.toElement, Element.attribute?_plain, Element.attribute?_plain]
  exact ⟨rfl, rfl⟩

theorem enumeration_toElement (enumeration : Enumeration) :
    Loading.enumeration o interfaceName enumeration.toElement = .ok enumeration := by
  rw [enumeration_eq_ok, Enumeration.toElement,
    Element.children_plain_self (by simp [EnumEntry.toElement, Element.plain]),
    List.forall₂_map_left_iff, List.forall₂_same]
  exact ⟨Element.attribute?_plain_head, fun entry _ => enumEntry_toElement entry⟩

theorem request_toElement {r : Request} (wellFormed : r.WellFormed) :
    request o interfaceName r.name r.opcode (r.toElement o.stem) = .ok r := by
  have created : r.args.filter (·.isNewObject) = r.result.toList := wellFormed.returns
  rw [request_eq_ok, created]
  refine ⟨rfl, rfl, arguments_toElement wellFormed.message, ?_, ?_⟩
  · cases r.result <;> simp
  · cases r.result <;> rfl

/-- Requests that are numbered from `start` are scanned as they are, and then what follows. -/
theorem requests_toElement_append {rs others : List Request} {es : List Element} {start : Nat}
    {destroy recorded : Option UInt32} (wellFormed : ∀ r ∈ rs, r.WellFormed)
    (opcodes : rs.map (·.opcode) = (List.range' start rs.length).map UInt32.ofNat)
    (following : requests o interfaceName (.ofNat (start + rs.length)) destroy es =
      .ok (others, recorded)) :
    requests o interfaceName (.ofNat start) destroy
        (rs.map (·.toElement o.stem) ++ es) = .ok (rs ++ others, recorded) := by
  induction rs generalizing start with
  | nil => simpa using following
  | cons r rs ih =>
      rw [List.forall_mem_cons] at wellFormed
      obtain ⟨first, rest⟩ := wellFormed
      simp only [List.map_cons, List.length_cons, List.range'_succ, List.cons.injEq] at opcodes
      obtain ⟨opcode, opcodes⟩ := opcodes
      rw [List.map_cons, List.cons_append, requests_cons_eq_ok]
      refine .inr ⟨r, rs ++ others, Element.attribute?_plain_head, first.ordinary, ?_, ?_, rfl⟩
      · rw [← opcode]
        exact request_toElement first
      · have next : UInt32.ofNat start + 1 = .ofNat (start + 1) := by
          rw [UInt32.ofNat_add]
          rfl
        rw [next]
        apply ih rest opcodes
        rwa [Nat.add_right_comm]

theorem requests_toElement {rs : List Request} {start : Nat} {destroy : Option UInt32}
    (wellFormed : ∀ r ∈ rs, r.WellFormed)
    (opcodes : rs.map (·.opcode) = (List.range' start rs.length).map UInt32.ofNat) :
    requests o interfaceName (.ofNat start) destroy
        (rs.map (·.toElement o.stem)) = .ok (rs, destroy) := by
  have ends : requests o interfaceName (.ofNat (start + rs.length)) destroy [] =
      .ok ([], destroy) := rfl
  simpa using requests_toElement_append wellFormed opcodes ends

theorem opcodes_of_wellFormed {i : Interface} (wellFormed : i.WellFormed) :
    i.requests.map (·.opcode) = (List.range' 0 i.requests.length).map UInt32.ofNat := by
  have opcodes := congrArg (List.map UInt32.ofNat) wellFormed.opcodes
  rw [List.map_map, List.range_eq_range'] at opcodes
  simpa [Function.comp_def] using opcodes

/-- Numbers that run through two lists run through the first one and go on in the second. -/
theorem opcodes_append {front back : List Request}
    (opcodes : (front ++ back).map (·.opcode) =
      (List.range' 0 (front ++ back).length).map UInt32.ofNat) :
    front.map (·.opcode) = (List.range' 0 front.length).map UInt32.ofNat ∧
      back.map (·.opcode) = (List.range' front.length back.length).map UInt32.ofNat := by
  have numbers : List.range' 0 (front ++ back).length =
      List.range' 0 front.length ++ List.range' front.length back.length := by
    rw [List.length_append, ← List.range'_append_1, Nat.zero_add]
  rw [numbers, List.map_append, List.map_append] at opcodes
  exact List.append_inj opcodes (by simp)

theorem requests_requestElements {i : Interface} (wellFormed : i.WellFormed) :
    requests o interfaceName 0 none (i.requestElements o.stem) =
      .ok (i.requests, i.destroyOpcode) := by
  have opcodes := opcodes_of_wellFormed wellFormed
  have each := wellFormed.requests
  unfold Interface.requestElements
  cases recorded : i.destroyOpcode with
  | none => exact requests_toElement each opcodes
  | some number =>
      have size : (i.requests.take number.toNat).length = number.toNat :=
        List.length_take_of_le (wellFormed.destroy _ (by rw [recorded]; rfl))
      have whole := List.take_append_drop number.toNat i.requests
      simp only
      generalize i.requests.take number.toNat = front at size whole ⊢
      generalize i.requests.drop number.toNat = back at whole ⊢
      rw [← whole] at opcodes each ⊢
      rw [List.forall_mem_append] at each
      obtain ⟨opcodes, opcodes'⟩ := opcodes_append opcodes
      -- The destroy request is met when the requests before it have taken their numbers.
      apply requests_toElement_append each.1 opcodes
      refine requests_cons_eq_ok.mpr (.inl ⟨rfl, rfl, ?_⟩)
      rw [Nat.zero_add, requests_toElement each.2 opcodes', size, UInt32.ofNat_toNat]

theorem filter_of_base_eq {es : List Element} {tag : String}
    (all : ∀ e ∈ es, e.name.base = tag) (sought : String) :
    es.filter (·.name.base = sought) = if tag = sought then es else [] := by
  split
  · rename_i same
    exact List.filter_eq_self.mpr fun e member => by simp [all e member, same]
  · rename_i differs
    exact List.filter_eq_nil_iff.mpr fun e member => by simp [all e member, differs]

theorem base_of_mem_requestElements {stem : String} {i : Interface} :
    ∀ e ∈ i.requestElements stem, e.name.base = "request" := by
  intro e member
  rcases Interface.mem_requestElements member with rfl | ⟨r, -, rfl⟩
  · rfl
  · rfl

theorem children_toElement_interface (stem : String) (i : Interface) (sought : String) :
    (i.toElement stem).children sought =
      (if "request" = sought then i.requestElements stem else []) ++
        (if "event" = sought then i.events.map (·.toElement stem "event") else []) ++
        (if "enum" = sought then i.enums.map (·.toElement) else []) := by
  have events : ∀ e ∈ i.events.map (·.toElement stem "event"), e.name.base = "event" := by
    simp [Message.toElement, Element.plain]
  have enums : ∀ e ∈ i.enums.map (·.toElement), e.name.base = "enum" := by
    simp [Enumeration.toElement, Element.plain]
  rw [Interface.toElement, Element.children_plain, List.filter_append, List.filter_append,
    filter_of_base_eq base_of_mem_requestElements, filter_of_base_eq events,
    filter_of_base_eq enums]

theorem version_toElement (i : Interface) :
    version o interfaceName (i.toElement o.stem) = .ok i.version := by
  refine version_eq_ok.mpr (.inr ⟨toString i.version.toNat, ?_, Text.readWord?_trim_toString _⟩)
  rw [Interface.toElement, Element.attribute?_plain]
  rfl

theorem interface_toElement {i : Interface} (wellFormed : i.WellFormed) :
    interface o (i.toElement o.stem) = .ok i := by
  rw [interface_eq_ok, interfaceName_eq_ok]
  refine ⟨⟨_, Element.attribute?_plain_head, stripStem_withStem _ _⟩, version_toElement i, ?_, ?_,
    ?_⟩
  · simpa [children_toElement_interface] using requests_requestElements wellFormed
  · simp only [children_toElement_interface, String.reduceEq, if_true, if_false, List.nil_append,
      List.append_nil, List.forall₂_map_left_iff, List.forall₂_same]
    intro event member
    exact event_toElement (wellFormed.events event member)
  · simp only [children_toElement_interface, String.reduceEq, if_true, if_false, List.nil_append,
      List.forall₂_map_left_iff, List.forall₂_same]
    intro enumeration _
    exact enumeration_toElement enumeration

end Loading

/-! ## The document -/

section Plain

variable {stem : String}

theorem Argument.toNode_plain {arg : Argument} (wellFormed : arg.WellFormed) :
    (arg.toElement stem).toNode.Plain := by
  refine Element.toNode_plain (by decide) ?_ ?_ (by simp)
  · intro name value member
    simp only [List.mem_cons, Option.mem_toList, Option.map_eq_some_iff, Prod.mk.injEq] at member
    rcases member with ⟨rfl, rfl⟩ | ⟨rfl, rfl⟩ | ⟨rfl, rfl⟩ | ⟨target, refers, rfl, rfl⟩
    · exact ⟨by decide, wellFormed.name⟩
    · exact ⟨by decide, ArgumentKind.isText_token wellFormed.kind⟩
    · cases arg.allowNull with
      | false => decide
      | true => decide
    · exact ⟨by decide, isText_withStem stem (wellFormed.interface target refers)⟩
  · cases arg.interface with
    | none => simp
    | some target => simp

theorem Message.toNode_plain {tag : String} (tagged : Element.isPlainName tag = true)
    {message : Message} (wellFormed : message.WellFormed) :
    (message.toElement stem tag).toNode.Plain := by
  refine Element.toNode_plain tagged ?_ (by simp) ?_
  · intro name value member
    obtain ⟨rfl, rfl⟩ := Prod.mk.inj (List.mem_singleton.mp member)
    exact ⟨by decide, wellFormed.name⟩
  · intro e member
    obtain ⟨arg, isArg, rfl⟩ := List.mem_map.mp member
    exact Argument.toNode_plain (wellFormed.args arg isArg)

theorem Enumeration.toNode_plain {enumeration : Enumeration}
    (wellFormed : enumeration.WellFormed) : enumeration.toElement.toNode.Plain := by
  refine Element.toNode_plain (by decide) ?_ (by simp) ?_
  · intro name value member
    obtain ⟨rfl, rfl⟩ := Prod.mk.inj (List.mem_singleton.mp member)
    exact ⟨by decide, wellFormed.name⟩
  · intro e member
    obtain ⟨entry, isEntry, rfl⟩ := List.mem_map.mp member
    obtain ⟨named, valued⟩ := wellFormed.entries entry isEntry
    refine Element.toNode_plain (by decide) ?_ (by simp) (by simp)
    intro name value member
    simp only [List.mem_cons, List.not_mem_nil, or_false, Prod.mk.injEq] at member
    rcases member with ⟨rfl, rfl⟩ | ⟨rfl, rfl⟩
    · exact ⟨by decide, named⟩
    · exact ⟨by decide, valued⟩

theorem Interface.requestElements_plain {i : Interface} (wellFormed : i.WellFormed) :
    ∀ e ∈ i.requestElements stem, e.toNode.Plain := by
  intro e member
  rcases mem_requestElements member with rfl | ⟨r, isRequest, rfl⟩
  · refine Element.toNode_plain (by decide) ?_ (by simp) (by simp)
    intro name value member
    obtain ⟨rfl, rfl⟩ := Prod.mk.inj (List.mem_singleton.mp member)
    exact ⟨by decide, by decide⟩
  · exact Message.toNode_plain (by decide) (wellFormed.requests r isRequest).message

theorem Interface.toNode_plain {i : Interface} (wellFormed : i.WellFormed) :
    (i.toElement stem).toNode.Plain := by
  refine Element.toNode_plain (by decide) ?_ (by simp) ?_
  · intro name value member
    simp only [List.mem_cons, List.not_mem_nil, or_false, Prod.mk.injEq] at member
    rcases member with ⟨rfl, rfl⟩ | ⟨rfl, rfl⟩
    · exact ⟨by decide, isText_withStem stem wellFormed.name⟩
    · exact ⟨by decide, isText_toString i.version.toNat⟩
  · intro e member
    simp only [List.mem_append, List.mem_map] at member
    rcases member with (requested | ⟨event, isEvent, rfl⟩) | ⟨enumeration, isEnum, rfl⟩
    · exact requestElements_plain wellFormed e requested
    · exact Message.toNode_plain (by decide) (wellFormed.events event isEvent)
    · exact Enumeration.toNode_plain (wellFormed.enums enumeration isEnum)

theorem Protocol.toNode_plain {p : Protocol} (wellFormed : p.WellFormed) :
    (p.toElement stem).toNode.Plain := by
  refine Element.toNode_plain (by decide) ?_ ?_ ?_
  · intro name value member
    simp only [Option.mem_toList, Option.map_eq_some_iff, Prod.mk.injEq] at member
    obtain ⟨given, named, rfl, rfl⟩ := member
    exact ⟨by decide, wellFormed.name given named⟩
  · cases p.name with
    | none => simp
    | some name => simp
  · intro e member
    obtain ⟨i, isInterface, rfl⟩ := List.mem_map.mp member
    exact Interface.toNode_plain (wellFormed.interfaces i isInterface)

end Plain

namespace Protocol

variable {p : Protocol}

theorem root?_document (stem : String) (wellFormed : p.WellFormed) :
    Xml.root? (p.document stem) = some (p.toElement stem) :=
  Xml.root?_document (toNode_plain wellFormed)

theorem children_toElement (stem : String) (p : Protocol) :
    (p.toElement stem).children "interface" = p.interfaces.map (·.toElement stem) :=
  Element.children_plain_self (by simp [Interface.toElement, Element.plain])

theorem load_document (o : Origin) (wellFormed : p.WellFormed) :
    Protocol.load o (p.document o.stem) = .ok p := by
  refine load_eq_ok.mpr ⟨_, root?_document o.stem wellFormed, rfl, ?_, ?_, ?_⟩
  · rw [toElement, Element.attribute?_plain]
    cases p.name with
    | none => rfl
    | some name => rfl
  · rw [children_toElement, List.forall₂_map_left_iff, List.forall₂_same]
    intro i member
    exact Loading.interface_toElement (wellFormed.interfaces i member)
  · rw [interfaces, List.map_map]
    conv_lhs => rw [← List.map_id p.entries]
    apply List.map_congr_left
    intro entry member
    exact Prod.ext (wellFormed.keyed entry member) rfl

/-- The protocols that documents describe are the well-formed ones, and each is loaded from the
document that is written for it. -/
theorem exists_load_iff_wellFormed (o : Origin)
    (few : ∀ i ∈ p.interfaces, i.requests.length < Text.wordLimit) :
    ((∃ text, Protocol.load o text = .ok p) ↔ p.WellFormed) ∧
      (p.WellFormed → Protocol.load o (p.document o.stem) = .ok p) := by
  refine ⟨⟨?_, ?_⟩, load_document o⟩
  · rintro ⟨text, loaded⟩
    exact wellFormed_of_load loaded few
  · intro wellFormed
    exact ⟨_, load_document o wellFormed⟩

end Protocol

/-- Markup, quotes and line breaks in names, names that begin like the stem, a destroy request
between two others, and a kind that only looks like a known one. -/
def awkwardProtocol : Protocol where
  name := some "a \"b\" <c/> & 'd'\r\n\te"
  entries :=
    [("wl_wl_seat", {
        name := "wl_wl_seat"
        version := 0
        destroyOpcode := some 1
        requests :=
          [{ name := "get & <take>", opcode := 0, result := some ⟨"id", .newId, some "wl_", true⟩,
             args := [⟨"\n", .other "Int", some "", false⟩, ⟨"id", .newId, some "wl_", true⟩] },
            { name := "&amp;", opcode := 1 }] }),
      ("", {
        name := ""
        destroyOpcode := some 0
        events := [⟨"destroy", [⟨"", .other "", none, true⟩]⟩]
        enums := [⟨"]]>", [⟨"'", "0x10\t"⟩]⟩] })]
  keys_nodup := by decide

theorem Protocol.exists_load_iff_wellFormed_awkward :
    awkwardProtocol.WellFormed ∧
      Protocol.load ⟨"a.xml", "wl_"⟩ (awkwardProtocol.document "wl_") = .ok awkwardProtocol := by
  obtain ⟨-, loads⟩ := Protocol.exists_load_iff_wellFormed (p := awkwardProtocol) ⟨"a.xml", "wl_"⟩
    (by decide)
  have wellFormed : awkwardProtocol.WellFormed := by decide +kernel
  exact ⟨wellFormed, loads wellFormed⟩

end WireProxy
