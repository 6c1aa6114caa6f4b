import WireProxy.Proofs.Validity
import WireProxy.Proofs.Writing

/-!
# The first fault

All that is wrong with a document can be listed, in the order in which a scan comes by it: the
interfaces one after the other, and in each one its name, its version, its requests, its events, its
enumerations, and last whether its name is taken.  A scan that fails reports the first item of that
list.
-/

namespace WireProxy

/-- What stopped a scan. -/
def fault? {α : Type} : Except Fault α → Option Fault
  | .error fault => some fault
  | .ok _ => none

theorem fault?_eq_some {α : Type} {x : Except Fault α} {fault : Fault} :
    fault? x = some fault ↔ x = .error fault := by
  cases x <;> simp [fault?]

theorem fault?_bind {α β : Type} {x : Except Fault α} {f : α → Except Fault β}
    {before after : List Fault} (first : fault? x = before.head?)
    (following : ∀ a, x = .ok a → fault? (f a) = after.head?) :
    fault? (x >>= f) = (before ++ after).head? := by
  cases x with
  | error fault =>
      have stops : before.head? = some fault := first.symm
      rw [List.head?_append, stops]
      rfl
  | ok a =>
      have none : before = [] := List.head?_eq_none_iff.mp first.symm
      rw [none]
      exact following a rfl

theorem fault?_bind_last {α β : Type} {x : Except Fault α} {f : α → Except Fault β}
    (succeeds : ∀ a, fault? (f a) = none) : fault? (x >>= f) = fault? x := by
  cases x with
  | error fault => rfl
  | ok a => exact succeeds a

theorem fault?_mapM {α β : Type} {f : α → Except Fault β} {listed : α → List Fault} {xs : List α}
    (each : ∀ x, fault? (f x) = (listed x).head?) :
    fault? (xs.mapM f) = (xs.flatMap listed).head? := by
  induction xs with
  | nil => rfl
  | cons x xs ih =>
      rw [List.mapM_cons, List.flatMap_cons]
      exact fault?_bind (each x) fun y _ => (fault?_bind_last fun ys => rfl).trans ih

namespace Loading

open Xml (Element)

/-- What is wrong in a list whose members are judged beside those before them. -/
def inOrder {α : Type} (judge : List α → α → List Fault) (earlier : List α) :
    List α → List Fault
  | [] => []
  | x :: later => judge earlier x ++ inOrder judge (earlier ++ [x]) later

theorem inOrder_append {α : Type} (judge : List α → α → List Fault) (earlier xs ys : List α) :
    inOrder judge earlier (xs ++ ys) =
      inOrder judge earlier xs ++ inOrder judge (earlier ++ xs) ys := by
  induction xs generalizing earlier with
  | nil => simp [inOrder]
  | cons x xs ih => simp [inOrder, ih]

theorem mem_inOrder {α : Type} {judge : List α → α → List Fault} {earlier xs : List α}
    {fault : Fault} (member : fault ∈ inOrder judge earlier xs) :
    ∃ before, ∃ x ∈ xs, fault ∈ judge before x := by
  induction xs generalizing earlier with
  | nil => cases member
  | cons x xs ih =>
      rcases List.mem_append.mp member with first | later
      · exact ⟨earlier, x, List.mem_cons_self, first⟩
      · obtain ⟨before, y, inside, found⟩ := ih later
        exact ⟨before, y, List.mem_cons_of_mem x inside, found⟩

/-! ## The faults of a document -/

/-- That the element lacks an attribute, or else what is wrong beside the value that it has. -/
def lacking (o : Origin) (kind : ElementKind) (location : Location) (e : Element)
    (sought : String) (rest : String → List Fault) : List Fault :=
  match e.attribute? sought with
  | none => [.missingAttribute o.path kind sought location]
  | some value => rest value

/-- An argument or an entry has a name and one more attribute. -/
def partFaults (o : Origin) (part : ElementKind) (detail interface owner : String) (e : Element) :
    List Fault :=
  lacking o part (.within interface owner) e "name" fun name =>
    lacking o part (.within interface s!"{owner}.{name}") e detail fun _ => []

/-- An event has arguments, an enumeration has entries. -/
def ownerFaults (o : Origin) (kind part : ElementKind) (detail interface : String) (e : Element) :
    List Fault :=
  lacking o kind (.inInterface interface) e "name" fun owner =>
    (e.children part.tag).flatMap (partFaults o part detail interface owner)

/-- A request makes one object at most. -/
def resultFaults (o : Origin) (interface request : String) (e : Element) : List Fault :=
  if 1 < (newObjects e).length then [.multipleNewObjects o.path interface request] else []

/-- A destroy request is judged by its name alone. -/
def requestFaults (o : Origin) (interface : String) (earlier : List Element) (e : Element) :
    List Fault :=
  lacking o .request (.inInterface interface) e "name" fun name =>
    if name = destroyRequest then
      if earlier.any isDestroy then [.duplicateDestroy o.path interface] else []
    else
      (e.children "arg").flatMap (partFaults o .arg "type" interface name) ++
        resultFaults o interface name e

def versionFaults (o : Origin) (interface : String) (e : Element) : List Fault :=
  match e.attribute? "version" with
  | none => []
  | some value =>
      if ¬ ∃ n, Text.SpellsWord (Text.trim value.toList) n then
        [.invalidVersion o.path interface value]
      else []

def interfaceFaults (o : Origin) (e : Element) : List Fault :=
  lacking o .interface .root e "name" fun raw =>
    let name := stripStem o.stem raw
    versionFaults o name e ++
      (inOrder (requestFaults o name) [] (e.children "request") ++
        ((e.children "event").flatMap (ownerFaults o .event .arg "type" name) ++
          (e.children "enum").flatMap (ownerFaults o .enumeration .entry "value" name)))

/-- An interface before this one has its name. -/
def takenFaults (o : Origin) (earlier : List Element) (e : Element) : List Fault :=
  match strippedName? o.stem e with
  | none => []
  | some name =>
      if some name ∈ earlier.map (strippedName? o.stem) then [.duplicateInterface o.path name]
      else []

/-- All that is wrong with the interfaces under a root, in the order of the scan. -/
def faults (o : Origin) (root : Element) : List Fault :=
  inOrder (fun earlier e => interfaceFaults o e ++ takenFaults o earlier e) []
    (root.children "interface")

/-! ## What stops a scan -/

section Scans

variable {o : Origin} {interfaceName owner : String} {e : Element}

theorem fault?_required_bind {α : Type} {kind : ElementKind} {location : Location} {sought : String}
    {f : String → Except Fault α} {rest : String → List Fault} {after : List Fault}
    (following : ∀ value, e.attribute? sought = some value →
      fault? (f value) = (rest value ++ after).head?) :
    fault? (required o kind location e sought >>= f) =
      (lacking o kind location e sought rest ++ after).head? := by
  unfold required lacking
  cases found : e.attribute? sought with
  | none => rfl
  | some value => exact following value found

theorem fault?_required_bind_last {α : Type} {kind : ElementKind} {location : Location}
    {sought : String} {f : String → Except Fault α} {rest : String → List Fault}
    (following : ∀ value, e.attribute? sought = some value →
      fault? (f value) = (rest value).head?) :
    fault? (required o kind location e sought >>= f) =
      (lacking o kind location e sought rest).head? := by
  rw [← List.append_nil (lacking ..)]
  apply fault?_required_bind
  simpa using following

theorem fault?_argument :
    fault? (argument o interfaceName owner e) =
      (partFaults o .arg "type" interfaceName owner e).head? := by
  refine fault?_required_bind_last fun name _ => fault?_required_bind_last fun token _ => ?_
  rfl

theorem fault?_arguments :
    fault? (arguments o interfaceName owner e) =
      ((e.children "arg").flatMap (partFaults o .arg "type" interfaceName owner)).head? :=
  fault?_mapM fun _ => fault?_argument

theorem fault?_newObject {request : String} {args : List Argument}
    (scanned : arguments o interfaceName request e = .ok args) :
    fault? (newObject o interfaceName request args) =
      (resultFaults o interfaceName request e).head? := by
  rw [resultFaults, ← length_newObjects scanned, newObject]
  generalize args.filter (·.isNewObject) = created
  match created with
  | [] => rfl
  | [_] => rfl
  | first :: second :: others => simp [fault?]

theorem fault?_request {name : String} {opcode : UInt32} :
    fault? (request o interfaceName name opcode e) =
      ((e.children "arg").flatMap (partFaults o .arg "type" interfaceName name) ++
        resultFaults o interfaceName name e).head? :=
  fault?_bind fault?_arguments fun _ scanned =>
    (fault?_bind_last fun _ => rfl).trans (fault?_newObject scanned)

/-- What is recorded for a destroy request says whether there was one before. -/
theorem fault?_requests {next : UInt32} {destroy : Option UInt32} {earlier es : List Element}
    (recorded : destroy.isSome = earlier.any isDestroy) :
    fault? (requests o interfaceName next destroy es) =
      (inOrder (requestFaults o interfaceName) earlier es).head? := by
  induction es generalizing next destroy earlier with
  | nil => rfl
  | cons e es ih =>
      refine fault?_required_bind fun name named => ?_
      by_cases ends : name = destroyRequest
      · subst ends
        have isLast : isDestroy e = true := isDestroy_eq_true named
        rw [if_pos rfl, if_pos rfl, recorded]
        split
        · rfl
        · exact ih (by simp [isLast])
      · have isOther : isDestroy e = false := isDestroy_eq_false named ends
        rw [if_neg ends, if_neg ends]
        refine fault?_bind fault?_request fun first _ => (fault?_bind_last fun _ => rfl).trans ?_
        exact ih (by simp [isOther, recorded])

theorem fault?_event :
    fault? (event o interfaceName e) =
      (ownerFaults o .event .arg "type" interfaceName e).head? :=
  fault?_required_bind_last fun _ _ => (fault?_bind_last fun _ => rfl).trans fault?_arguments

theorem fault?_enumEntry :
    fault? (enumEntry o interfaceName owner e) =
      (partFaults o .entry "value" interfaceName owner e).head? :=
  fault?_required_bind_last fun _ _ => fault?_required_bind_last fun _ _ => rfl

theorem fault?_enumeration :
    fault? (enumeration o interfaceName e) =
      (ownerFaults o .enumeration .entry "value" interfaceName e).head? :=
  fault?_required_bind_last fun _ _ =>
    (fault?_bind_last fun _ => rfl).trans (fault?_mapM fun _ => fault?_enumEntry)

theorem fault?_version :
    fault? (version o interfaceName e) = (versionFaults o interfaceName e).head? := by
  unfold version versionFaults
  cases e.attribute? "version" with
  | none => rfl
  | some value =>
      simp only [Text.exists_spellsWord]
      cases Text.readWord? (Text.trim value.toList) <;> simp [fault?]

theorem fault?_interface : fault? (interface o e) = (interfaceFaults o e).head? := by
  rw [interface, Loading.interfaceName, bind_assoc]
  refine fault?_required_bind_last fun raw _ => ?_
  rw [pure_bind]
  refine fault?_bind fault?_version fun _ _ => ?_
  refine fault?_bind (fault?_requests rfl) fun _ _ => ?_
  refine fault?_bind (fault?_mapM fun _ => fault?_event) fun _ _ => ?_
  exact (fault?_bind_last fun _ => rfl).trans (fault?_mapM fun _ => fault?_enumeration)

theorem strippedName?_of_interface {i : Interface} (scanned : interface o e = .ok i) :
    strippedName? o.stem e = some i.name := by
  obtain ⟨named, -⟩ := interface_eq_ok.mp scanned
  obtain ⟨raw, named, stripped⟩ := interfaceName_eq_ok.mp named
  rw [strippedName?, named, Option.map_some, stripped]

theorem fault?_addInterface {p : Protocol} {earlier : List Element}
    (scanned : earlier.map (strippedName? o.stem) = p.keys.map some) :
    fault? (addInterface o p e) = (interfaceFaults o e ++ takenFaults o earlier e).head? := by
  refine fault?_bind fault?_interface fun i found => ?_
  have names : some i.name ∈ earlier.map (strippedName? o.stem) ↔ i.name ∈ p.keys := by
    rw [scanned]
    simp
  rw [takenFaults, strippedName?_of_interface found]
  simp only [names]
  cases added : p.insert? i with
  | some q =>
      obtain ⟨fresh, -⟩ := Protocol.insert?_eq_some.mp added
      rw [if_neg fresh]
      rfl
  | none =>
      have taken : i.name ∈ p.keys := by
        by_contra fresh
        obtain ⟨q, added'⟩ := Protocol.exists_insert? fresh
        rw [added] at added'
        cases added'
      rw [if_pos taken]
      rfl

theorem fault?_foldlM_addInterface {p : Protocol} {earlier es : List Element}
    (scanned : earlier.map (strippedName? o.stem) = p.keys.map some) :
    fault? (es.foldlM (addInterface o) p) =
      (inOrder (fun earlier e => interfaceFaults o e ++ takenFaults o earlier e)
        earlier es).head? := by
  induction es generalizing p earlier with
  | nil => rfl
  | cons e es ih =>
      rw [List.foldlM_cons]
      refine fault?_bind (fault?_addInterface scanned) fun q added => ih ?_
      obtain ⟨i, found, added⟩ := addInterface_eq_ok.mp added
      obtain ⟨-, -, entries⟩ := Protocol.insert?_eq_some.mp added
      have keys : q.keys = p.keys ++ [i.name] := by
        rw [Protocol.keys, entries, List.map_append]
        rfl
      rw [keys, List.map_append, List.map_append, scanned]
      simp [strippedName?_of_interface found]

theorem fault?_protocol {root : Element} (isProtocol : root.name.base = "protocol") :
    fault? (protocol o root) = (faults o root).head? := by
  rw [protocol, if_pos isProtocol]
  exact fault?_foldlM_addInterface rfl

end Scans

/-! ## Elements that lack an attribute -/

/-- The parts of requests, events and enumerations, with the attribute that they have to have beside
their names. -/
def partTable : List (ElementKind × ElementKind × String) :=
  [(.request, .arg, "type"), (.event, .arg, "type"), (.enumeration, .entry, "value")]

/-- An element of the kind stands directly in an interface of this name. -/
def StandsIn (stem : String) (root : Element) (interface : String) (kind : ElementKind)
    (child : Element) : Prop :=
  ∃ e ∈ root.children "interface", strippedName? stem e = some interface ∧
    child ∈ e.children kind.tag

/-- An element of the kind lacks the attribute, and this is its location. -/
inductive Lacks (stem : String) (root : Element) : ElementKind → String → Location → Prop
  | interface {e : Element} (inside : e ∈ root.children "interface")
      (lacks : e.attribute? "name" = none) : Lacks stem root .interface "name" .root
  | owner {kind : ElementKind} {interface : String} {child : Element}
      (isOwner : kind ∈ partTable.map Prod.fst)
      (inside : StandsIn stem root interface kind child) (lacks : child.attribute? "name" = none) :
      Lacks stem root kind "name" (.inInterface interface)
  | part {kind partKind : ElementKind} {detail interface owner : String} {child e : Element}
      (hasParts : (kind, partKind, detail) ∈ partTable)
      (inside : StandsIn stem root interface kind child)
      (named : child.attribute? "name" = some owner) (below : e ∈ child.children partKind.tag)
      (lacks : e.attribute? "name" = none) :
      Lacks stem root partKind "name" (.within interface owner)
  | detail {kind partKind : ElementKind} {detail interface owner name : String} {child e : Element}
      (hasParts : (kind, partKind, detail) ∈ partTable)
      (inside : StandsIn stem root interface kind child)
      (named : child.attribute? "name" = some owner) (below : e ∈ child.children partKind.tag)
      (partNamed : e.attribute? "name" = some name) (lacks : e.attribute? detail = none) :
      Lacks stem root partKind detail (.within interface s!"{owner}.{name}")

/-- A fault that reports a missing attribute is right about it. -/
def Located (o : Origin) (root : Element) (fault : Fault) : Prop :=
  ∀ path kind missing location, fault = .missingAttribute path kind missing location →
    path = o.path ∧ Lacks o.stem root kind missing location

section Located

variable {o : Origin} {root e child : Element} {interface owner : String} {fault : Fault}

theorem located_of_mem_lacking {kind : ElementKind} {location : Location} {sought : String}
    {rest : String → List Fault}
    (lacks : e.attribute? sought = none → Lacks o.stem root kind sought location)
    (following : ∀ value, e.attribute? sought = some value → fault ∈ rest value →
      Located o root fault)
    (member : fault ∈ lacking o kind location e sought rest) : Located o root fault := by
  unfold lacking at member
  cases found : e.attribute? sought with
  | none =>
      simp only [found, List.mem_singleton] at member
      rintro path kind missing location same
      cases member.symm.trans same
      exact ⟨rfl, lacks found⟩
  | some value =>
      simp only [found] at member
      exact following value found member

theorem located_of_mem_partFaults {kind part : ElementKind} {detail : String}
    (hasParts : (kind, part, detail) ∈ partTable)
    (inside : StandsIn o.stem root interface kind child)
    (named : child.attribute? "name" = some owner) (below : e ∈ child.children part.tag)
    (member : fault ∈ partFaults o part detail interface owner e) : Located o root fault := by
  refine located_of_mem_lacking (.part hasParts inside named below) (fun name found member => ?_)
    member
  refine located_of_mem_lacking (.detail hasParts inside named below found) (fun _ _ member => ?_)
    member
  cases member

theorem located_of_mem_ownerFaults {kind part : ElementKind} {detail : String}
    (hasParts : (kind, part, detail) ∈ partTable)
    (inside : StandsIn o.stem root interface kind child)
    (member : fault ∈ ownerFaults o kind part detail interface child) : Located o root fault := by
  refine located_of_mem_lacking (.owner (List.mem_map_of_mem hasParts) inside)
    (fun owner named member => ?_) member
  obtain ⟨e, below, member⟩ := List.mem_flatMap.mp member
  exact located_of_mem_partFaults hasParts inside named below member

theorem located_of_mem_ite {condition : Prop} [Decidable condition] {reported : Fault}
    (other : Located o root reported) (member : fault ∈ if condition then [reported] else []) :
    Located o root fault := by
  split at member
  · rwa [List.mem_singleton.mp member]
  · cases member

theorem located_of_mem_requestFaults {earlier : List Element}
    (inside : StandsIn o.stem root interface .request child)
    (member : fault ∈ requestFaults o interface earlier child) : Located o root fault := by
  have hasParts : (ElementKind.request, ElementKind.arg, "type") ∈ partTable := by decide
  refine located_of_mem_lacking (.owner (List.mem_map_of_mem hasParts) inside)
    (fun owner named member => ?_) member
  split at member
  · exact located_of_mem_ite (by rintro _ _ _ _ ⟨⟩) member
  · rcases List.mem_append.mp member with inArgs | inResult
    · obtain ⟨e, below, member⟩ := List.mem_flatMap.mp inArgs
      exact located_of_mem_partFaults hasParts inside named below member
    · exact located_of_mem_ite (by rintro _ _ _ _ ⟨⟩) inResult

theorem located_of_mem_interfaceFaults (inside : e ∈ root.children "interface")
    (member : fault ∈ interfaceFaults o e) : Located o root fault := by
  refine located_of_mem_lacking (.interface inside) (fun raw named member => ?_) member
  have stripped : strippedName? o.stem e = some (stripStem o.stem raw) := by
    rw [strippedName?, named, Option.map_some]
  simp only [List.mem_append] at member
  rcases member with inVersion | inRequests | inEvents | inEnums
  · unfold versionFaults at inVersion
    split at inVersion
    · cases inVersion
    · exact located_of_mem_ite (by rintro _ _ _ _ ⟨⟩) inVersion
  · obtain ⟨before, child, below, member⟩ := mem_inOrder inRequests
    exact located_of_mem_requestFaults ⟨e, inside, stripped, below⟩ member
  · obtain ⟨child, below, member⟩ := List.mem_flatMap.mp inEvents
    exact located_of_mem_ownerFaults (by decide) ⟨e, inside, stripped, below⟩ member
  · obtain ⟨child, below, member⟩ := List.mem_flatMap.mp inEnums
    exact located_of_mem_ownerFaults (by decide) ⟨e, inside, stripped, below⟩ member

theorem located_of_mem_faults (member : fault ∈ faults o root) : Located o root fault := by
  obtain ⟨earlier, e, inside, member⟩ := mem_inOrder member
  rcases List.mem_append.mp member with inInterface | isTaken
  · exact located_of_mem_interfaceFaults inside inInterface
  · unfold takenFaults at isTaken
    split at isTaken
    · cases isTaken
    · exact located_of_mem_ite (by rintro _ _ _ _ ⟨⟩) isTaken

end Located

end Loading

namespace Protocol

variable {o : Origin} {text : String} {root : Xml.Element}

theorem load_eq_error (parsed : Xml.root? text = some root)
    (isProtocol : root.name.base = "protocol") {fault : Fault} :
    Protocol.load o text = .error fault ↔ (Loading.faults o root).head? = some fault := by
  rw [← fault?_eq_some, Protocol.load, parsed, Loading.fault?_protocol isProtocol]

/-- A scan reports the first fault of its document.  What follows in the document does not matter
then, and an attribute that is reported as missing is missing. -/
theorem load_first_fault (parsed : Xml.root? text = some root)
    (isProtocol : root.name.base = "protocol") :
    (∀ fault, Protocol.load o text = .error fault ↔
      (Loading.faults o root).head? = some fault) ∧
    (∀ fault, Protocol.load o text = .error fault →
      ∀ (text' : String) (root' : Xml.Element) (more : List Xml.Element),
        Xml.root? text' = some root' → root'.name.base = "protocol" →
        root'.children "interface" = root.children "interface" ++ more →
        Protocol.load o text' = .error fault) ∧
    ∀ path kind missing location,
      Protocol.load o text = .error (.missingAttribute path kind missing location) →
      path = o.path ∧ Loading.Lacks o.stem root kind missing location := by
  refine ⟨fun fault => load_eq_error parsed isProtocol, ?_, ?_⟩
  · intro fault failed text' root' more parsed' isProtocol' elements
    rw [load_eq_error parsed isProtocol] at failed
    rw [load_eq_error parsed' isProtocol', Loading.faults, elements, Loading.inOrder_append,
      List.head?_append, ← Loading.faults, failed, Option.some_or]
  · intro path kind missing location failed
    rw [load_eq_error parsed isProtocol] at failed
    exact Loading.located_of_mem_faults (List.mem_of_head? failed) _ _ _ _ rfl

end Protocol

/-- A document with a second copy of an interface, in which a nameless event stands before a request
with an argument of no type. -/
def brokenCopy (more : List Xml.Element) : Xml.Element :=
  .plain "protocol" [] ([.plain "interface" [("name", "wl_a")] [],
    .plain "interface" [("name", "wl_a")]
      [.plain "event" [] [],
        .plain "request" [("name", "r")] [.plain "arg" [("name", "x")] []]]] ++ more)

theorem Protocol.load_first_fault_copy :
    Xml.root? (brokenCopy []).toNode.document = some (brokenCopy []) ∧
      Loading.faults ⟨"copy.xml", "wl_"⟩ (brokenCopy []) =
        [.missingAttribute "copy.xml" .arg "type" (.within "a" "r.x"),
          .missingAttribute "copy.xml" .event "name" (.inInterface "a"),
          .duplicateInterface "copy.xml" "a"] ∧
      Protocol.load ⟨"copy.xml", "wl_"⟩ (brokenCopy []).toNode.document =
        .error (.missingAttribute "copy.xml" .arg "type" (.within "a" "r.x")) ∧
      Protocol.load ⟨"copy.xml", "wl_"⟩
          (brokenCopy [.plain "interface" [] []]).toNode.document =
        .error (.missingAttribute "copy.xml" .arg "type" (.within "a" "r.x")) ∧
      Loading.Lacks "wl_" (brokenCopy []) .arg "type" (.within "a" "r.x") := by
  have parsed : Xml.root? (brokenCopy []).toNode.document = some (brokenCopy []) :=
    Xml.root?_document (by decide +kernel)
  have parsed' : Xml.root? (brokenCopy [.plain "interface" [] []]).toNode.document =
      some (brokenCopy [.plain "interface" [] []]) :=
    Xml.root?_document (by decide +kernel)
  have listed : Loading.faults ⟨"copy.xml", "wl_"⟩ (brokenCopy []) =
      [.missingAttribute "copy.xml" .arg "type" (.within "a" "r.x"),
        .missingAttribute "copy.xml" .event "name" (.inInterface "a"),
        .duplicateInterface "copy.xml" "a"] := by
    decide +kernel
  obtain ⟨first, lasting, lacks⟩ :=
    Protocol.load_first_fault (o := ⟨"copy.xml", "wl_"⟩) parsed rfl
  have failed := (first (.missingAttribute "copy.xml" .arg "type" (.within "a" "r.x"))).mpr
    (by rw [listed]; rfl)
  exact ⟨parsed, listed, failed, lasting _ failed _ _ [.plain "interface" [] []] parsed' rfl rfl,
    (lacks _ _ _ _ failed).2⟩

end WireProxy
