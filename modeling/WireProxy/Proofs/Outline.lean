import WireProxy.Proofs.Encoding
import WireProxy.Proofs.Texts

/-!
# What is read of a document

A scan looks up certain attributes at each level of a document and goes on to certain elements.  The
outline of a document is what remains if all else is taken out, prefixes of elements are dropped, a
destroy request is emptied and the parts of an interface are put together by their tags.  Documents
with the same outline are loaded with the same result.
-/

namespace WireProxy

namespace Xml

/-- What remains of a node if only elements with this tag do. -/
def Node.remains? (tag : String) (shorten : Element → Element) : Node → Option Node
  | .element name attributes content =>
      if name.base = tag then some (shorten ⟨name, attributes, content⟩).toNode else none
  | .text _ | .comment _ | .instruction _ _ => none

namespace Element

/-- The element without its prefix, with the attributes of these names that have no prefix, and with
the elements in it that have these tags, each of them shortened. -/
def restrict (names : List String) (inner : List (String × (Element → Element))) (e : Element) :
    Element where
  name := ⟨none, e.name.base⟩
  attributes := names.flatMap fun name => e.attributes.filter (·.name = ⟨none, name⟩)
  content := inner.flatMap fun (tag, shorten) => e.content.filterMap (Node.remains? tag shorten)

section Restrict

variable {names : List String} {inner : List (String × (Element → Element))} {e : Element}

theorem find?_filter_name (attributes : List Attribute) (kept sought : String) :
    (attributes.filter (·.name = ⟨none, kept⟩)).find? (·.name = ⟨none, sought⟩) =
      if kept = sought then attributes.find? (·.name = ⟨none, sought⟩) else none := by
  rw [List.find?_filter]
  split
  · next same => simp [same]
  · next different =>
      rw [List.find?_eq_none]
      intro a _
      simp only [decide_eq_true_eq, not_and]
      intro isKept isSought
      exact different (QName.mk.inj (isKept.symm.trans isSought)).2

theorem attribute?_restrict {name : String} (member : name ∈ names) :
    (e.restrict names inner).attribute? name = e.attribute? name := by
  unfold attribute? restrict
  congr 1
  rw [List.find?_flatMap]
  simp only [find?_filter_name]
  cases e.attributes.find? (·.name = ⟨none, name⟩) with
  | none => simp
  | some a =>
      -- Of the attributes kept for the names in turn, only those for this name can be the one.
      induction names with
      | nil => cases member
      | cons first names ih =>
          by_cases same : first = name
          · simp [same]
          · have later : name ∈ names := by simpa [Ne.symm same] using member
            simpa [List.findSome?_cons, same] using ih later

theorem filterMap_remains? (tag : String) (shorten : Element → Element) (content : List Node) :
    (content.filterMap (Node.remains? tag shorten)).filterMap Node.element? =
      ((content.filterMap Node.element?).filter (·.name.base = tag)).map shorten := by
  induction content with
  | nil => rfl
  | cons node content ih =>
      cases node with
      | element name attributes inside =>
          by_cases tagged : name.base = tag
          · simpa [Node.remains?, Node.element?, tagged, toNode] using ih
          · simpa [Node.remains?, Node.element?, tagged] using ih
      | text _ => exact ih
      | comment _ => exact ih
      | instruction _ _ => exact ih

/-- The shortened element has the tag that it had. -/
def KeepsTag (shorten : Element → Element) : Prop :=
  ∀ e, (shorten e).name.base = e.name.base

@[simp] theorem children_restrict_nil (tag : String) : (e.restrict names []).children tag = [] :=
  rfl

theorem filter_map_children {shorten : Element → Element} (keeps : KeepsTag shorten)
    (kept tag : String) :
    ((e.children kept).map shorten).filter (·.name.base = tag) =
      if kept = tag then (e.children tag).map shorten else [] := by
  have tagged : ∀ x ∈ (e.children kept).map shorten, x.name.base = kept := by
    intro x member
    obtain ⟨y, inside, rfl⟩ := List.mem_map.mp member
    simpa [keeps y] using (List.mem_filter.mp inside).2
  split
  · next same =>
      subst same
      rw [List.filter_eq_self]
      simpa using tagged
  · next different =>
      rw [List.filter_eq_nil_iff]
      intro x member
      simpa [tagged x member] using different

theorem children_restrict_cons {kept : String} {shorten : Element → Element}
    (keeps : KeepsTag shorten) (tag : String) :
    (e.restrict names ((kept, shorten) :: inner)).children tag =
      (if kept = tag then (e.children tag).map shorten else []) ++
        (e.restrict names inner).children tag := by
  rw [← filter_map_children keeps, children, restrict, List.flatMap_cons, List.filterMap_append,
    List.filter_append, filterMap_remains?]
  rfl

end Restrict

end Element

end Xml

/-! ## The outline of a document -/

namespace Loading

open Xml (Element)
open Xml.Element (restrict attribute?_restrict children_restrict_cons KeepsTag)

def argumentOutline : Element → Element :=
  restrict ["name", "type", "interface", "allow_null"] []

theorem keepsTag_argumentOutline : KeepsTag argumentOutline := fun _ => rfl

def messageOutline : Element → Element :=
  restrict ["name"] [("arg", argumentOutline)]

theorem keepsTag_messageOutline : KeepsTag messageOutline := fun _ => rfl

/-- Nothing in a destroy request is read. -/
def requestOutline (e : Element) : Element :=
  if isDestroy e then restrict ["name"] [] e else messageOutline e

theorem keepsTag_requestOutline : KeepsTag requestOutline := by
  intro e
  unfold requestOutline
  split <;> rfl

def entryOutline : Element → Element :=
  restrict ["name", "value"] []

theorem keepsTag_entryOutline : KeepsTag entryOutline := fun _ => rfl

def enumerationOutline : Element → Element :=
  restrict ["name"] [("entry", entryOutline)]

theorem keepsTag_enumerationOutline : KeepsTag enumerationOutline := fun _ => rfl

def interfaceOutline : Element → Element :=
  restrict ["name", "version"]
    [("request", requestOutline), ("event", messageOutline), ("enum", enumerationOutline)]

theorem keepsTag_interfaceOutline : KeepsTag interfaceOutline := fun _ => rfl

def outline : Element → Element :=
  restrict ["name"] [("interface", interfaceOutline)]

section Scans

variable {o : Origin} {interfaceName owner : String} {e : Element}

theorem required_bind_congr {α : Type} {kind : ElementKind} {location : Location} {name : String}
    {e' : Element} {f g : String → Except Fault α} (same : e.attribute? name = e'.attribute? name)
    (following : ∀ value, e'.attribute? name = some value → f value = g value) :
    (required o kind location e name >>= f) = (required o kind location e' name >>= g) := by
  unfold required
  rw [same]
  cases found : e'.attribute? name with
  | none => rfl
  | some value => exact following value found

theorem mapM_map_of_eq {α : Type} {f : Element → Except Fault α} {shorten : Element → Element}
    (same : ∀ e, f (shorten e) = f e) (es : List Element) :
    (es.map shorten).mapM f = es.mapM f := by
  have composed : f ∘ shorten = f := funext same
  rw [List.mapM_map, composed]

theorem argument_argumentOutline (e : Element) :
    argument o interfaceName owner (argumentOutline e) = argument o interfaceName owner e := by
  simp [argument, argumentOutline, required, attribute?_restrict]

theorem arguments_messageOutline :
    arguments o interfaceName owner (messageOutline e) = arguments o interfaceName owner e := by
  have children : (messageOutline e).children "arg" = (e.children "arg").map argumentOutline := by
    simp [messageOutline, children_restrict_cons keepsTag_argumentOutline]
  rw [arguments, arguments, children, mapM_map_of_eq argument_argumentOutline]

theorem attribute?_requestOutline : (requestOutline e).attribute? "name" = e.attribute? "name" := by
  unfold requestOutline
  split <;> exact attribute?_restrict (by decide)

theorem request_requestOutline {name : String} {opcode : UInt32}
    (named : e.attribute? "name" = some name) (other : name ≠ destroyRequest) :
    request o interfaceName name opcode (requestOutline e) =
      request o interfaceName name opcode e := by
  rw [request, request, requestOutline, isDestroy_eq_false named other, if_neg (by decide),
    arguments_messageOutline]

theorem requests_requestOutline {next : UInt32} {destroy : Option UInt32} {es : List Element} :
    requests o interfaceName next destroy (es.map requestOutline) =
      requests o interfaceName next destroy es := by
  induction es generalizing next destroy with
  | nil => rfl
  | cons e es ih =>
      refine required_bind_congr attribute?_requestOutline fun name named => ?_
      by_cases ends : name = destroyRequest
      -- No argument of a destroy request is scanned, so it does not matter that they are gone.
      · rw [if_pos ends, if_pos ends, ih]
      · rw [if_neg ends, if_neg ends, request_requestOutline named ends, ih]

theorem event_messageOutline (e : Element) :
    event o interfaceName (messageOutline e) = event o interfaceName e := by
  refine required_bind_congr (attribute?_restrict (by decide)) fun name _ => ?_
  rw [arguments_messageOutline]

theorem enumEntry_entryOutline (e : Element) :
    enumEntry o interfaceName owner (entryOutline e) = enumEntry o interfaceName owner e := by
  simp [enumEntry, entryOutline, required, attribute?_restrict]

theorem enumeration_enumerationOutline (e : Element) :
    enumeration o interfaceName (enumerationOutline e) = enumeration o interfaceName e := by
  have children : (enumerationOutline e).children "entry" =
      (e.children "entry").map entryOutline := by
    simp [enumerationOutline, children_restrict_cons keepsTag_entryOutline]
  refine required_bind_congr (attribute?_restrict (by decide)) fun name _ => ?_
  rw [children, mapM_map_of_eq enumEntry_entryOutline]

theorem children_interfaceOutline :
    (interfaceOutline e).children "request" = (e.children "request").map requestOutline ∧
      (interfaceOutline e).children "event" = (e.children "event").map messageOutline ∧
      (interfaceOutline e).children "enum" = (e.children "enum").map enumerationOutline := by
  simp [interfaceOutline, children_restrict_cons keepsTag_requestOutline,
    children_restrict_cons keepsTag_messageOutline,
    children_restrict_cons keepsTag_enumerationOutline]

theorem interface_interfaceOutline : interface o (interfaceOutline e) = interface o e := by
  obtain ⟨requests, events, enums⟩ := children_interfaceOutline (e := e)
  have named : Loading.interfaceName o (interfaceOutline e) = Loading.interfaceName o e :=
    required_bind_congr (attribute?_restrict (by decide)) fun _ _ => rfl
  have versioned (name : String) : version o name (interfaceOutline e) = version o name e := by
    rw [version, version, interfaceOutline, attribute?_restrict (by decide)]
  simp only [interface, named, versioned, requests, events, enums, requests_requestOutline,
    mapM_map_of_eq event_messageOutline, mapM_map_of_eq enumeration_enumerationOutline]

theorem protocol_outline (root : Element) : protocol o (outline root) = protocol o root := by
  have children : (outline root).children "interface" =
      (root.children "interface").map interfaceOutline := by
    simp [outline, children_restrict_cons keepsTag_interfaceOutline]
  have named : (outline root).attribute? "name" = root.attribute? "name" :=
    attribute?_restrict (by decide)
  have added : (fun p e => addInterface o p (interfaceOutline e)) = addInterface o := by
    funext p e
    rw [addInterface, addInterface, interface_interfaceOutline]
  rw [protocol, protocol, children, named, List.foldlM_map, added]
  rfl

end Scans

end Loading

/-- Documents with the same outline are loaded with the same result, a protocol or a fault. -/
theorem Protocol.load_eq_of_outline_eq {text text' : String} {root root' : Xml.Element}
    (parsed : Xml.root? text = some root) (parsed' : Xml.root? text' = some root')
    (same : Loading.outline root = Loading.outline root') (o : Origin) :
    Protocol.load o text = Protocol.load o text' := by
  rw [Protocol.load, Protocol.load, parsed, parsed']
  calc Loading.protocol o root
      = Loading.protocol o (Loading.outline root) := (Loading.protocol_outline root).symm
    _ = Loading.protocol o (Loading.outline root') := by rw [same]
    _ = Loading.protocol o root' := Loading.protocol_outline root'

def deskProtocol : Protocol where
  name := some "desk"
  entries :=
    [("seat", {
        name := "seat"
        version := 2
        destroyOpcode := some 0
        requests := [{ name := "bind", opcode := 0, args := [⟨"at", .fd, none, true⟩] }]
        events := [⟨"enter", []⟩]
        enums := [⟨"cap", []⟩] })]
  keys_nodup := by decide

/-- The protocol in a document with much else in it, and with its parts in another order. -/
def deskText : String :=
  Code.text [
    "<p:protocol xmlns:p='u'",
    "p:name='no' name='desk'>",
    "<!-- --><note/>",
    "<p:interface name='seat'",
    "since='1' version='2'>",
    "<enum name='cap'/>",
    "<event name='enter'>",
    "<note><arg/></note>",
    "</event> text",
    "<request name='destroy'>",
    "<arg/></request>",
    "<note><request/></note>",
    "<request name='bind'>",
    "<?skip?><p:arg name='at'",
    "p:type='int' type='fd'",
    "allow_null='true'/>",
    "</request>",
    "</p:interface>",
    "</p:protocol>"]

theorem Protocol.load_eq_of_outline_eq_desk :
    ∃ root, Xml.root? deskText = some root ∧
      Loading.outline root = Loading.outline (deskProtocol.toElement "wl_") ∧
      Protocol.load ⟨"desk.xml", "wl_"⟩ deskText = .ok deskProtocol := by
  have wellFormed : deskProtocol.WellFormed := by decide +kernel
  have outlined : (Xml.root? deskText).map Loading.outline =
      some (Loading.outline (deskProtocol.toElement "wl_")) := by
    rw [Xml.root?, deskText, Code.toList_text]
    decide +kernel
  obtain ⟨root, parsed, same⟩ := Option.map_eq_some_iff.mp outlined
  refine ⟨root, parsed, same, ?_⟩
  calc Protocol.load ⟨"desk.xml", "wl_"⟩ deskText
      = Protocol.load ⟨"desk.xml", "wl_"⟩ (deskProtocol.document "wl_") :=
        Protocol.load_eq_of_outline_eq parsed (Protocol.root?_document "wl_" wellFormed) same _
    _ = .ok deskProtocol := Protocol.load_document ⟨"desk.xml", "wl_"⟩ wellFormed

end WireProxy
