import Mathlib.Data.List.Nodup
import WireProxy.Proofs.Numeral
import WireProxy.Proofs.Opcodes

/-!
# Valid documents

What a document must have so that a protocol can be loaded from it, said of the tree alone.  The
loader accepts the valid documents and no others.
-/

namespace WireProxy

namespace Loading

open Xml (Element)

variable {o : Origin} {interfaceName owner : String} {e : Element}

/-- The element has an attribute of each of these names. -/
def HasAttributes (names : List String) (e : Element) : Prop :=
  ∀ name ∈ names, (e.attribute? name).isSome

/-- The argument elements that stand for new objects. -/
def newObjects (e : Element) : List Element :=
  (e.children "arg").filter (·.attribute? "type" = some "new_id")

/-- The arguments of a destroy request do not matter. -/
structure ValidRequest (e : Element) : Prop where
  named : HasAttributes ["name"] e
  args : isDestroy e = false → ∀ arg ∈ e.children "arg", HasAttributes ["name", "type"] arg
  oneResult : isDestroy e = false → (newObjects e).length ≤ 1

/-- An event may bring several new objects. -/
structure ValidEvent (e : Element) : Prop where
  named : HasAttributes ["name"] e
  args : ∀ arg ∈ e.children "arg", HasAttributes ["name", "type"] arg

structure ValidEnumeration (e : Element) : Prop where
  named : HasAttributes ["name"] e
  entries : ∀ entry ∈ e.children "entry", HasAttributes ["name", "value"] entry

structure ValidInterface (e : Element) : Prop where
  named : HasAttributes ["name"] e
  version : ∀ value, e.attribute? "version" = some value →
    ∃ n, Text.SpellsWord (Text.trim value.toList) n
  requests : ∀ request ∈ e.children "request", ValidRequest request
  oneDestroy : ((e.children "request").filter isDestroy).length ≤ 1
  events : ∀ event ∈ e.children "event", ValidEvent event
  enums : ∀ enumeration ∈ e.children "enum", ValidEnumeration enumeration

/-- The name of an interface element without the stem. -/
def strippedName? (stem : String) (e : Element) : Option String :=
  (e.attribute? "name").map (stripStem stem)

structure ValidProtocol (stem : String) (root : Element) : Prop where
  isProtocol : root.name.base = "protocol"
  interfaces : ∀ interface ∈ root.children "interface", ValidInterface interface
  distinct : ((root.children "interface").map (strippedName? stem)).Nodup

theorem hasAttributes_singleton {name : String} :
    HasAttributes [name] e ↔ ∃ value, e.attribute? name = some value := by
  simp [HasAttributes, Option.isSome_iff_exists]

theorem hasAttributes_pair {first second : String} :
    HasAttributes [first, second] e ↔
      (∃ value, e.attribute? first = some value) ∧ ∃ value, e.attribute? second = some value := by
  simp [HasAttributes, Option.isSome_iff_exists]

theorem exists_argument :
    (∃ arg, argument o interfaceName owner e = .ok arg) ↔ HasAttributes ["name", "type"] e := by
  rw [hasAttributes_pair]
  constructor
  · rintro ⟨arg, scanned⟩
    obtain ⟨named, ⟨token, typed, -⟩, -⟩ := argument_eq_ok.mp scanned
    exact ⟨⟨_, named⟩, _, typed⟩
  · rintro ⟨⟨name, named⟩, token, typed⟩
    exact ⟨⟨name, .ofToken token, _, _⟩,
      argument_eq_ok.mpr ⟨named, ⟨token, typed, rfl⟩, rfl, rfl⟩⟩

theorem exists_arguments :
    (∃ args, arguments o interfaceName owner e = .ok args) ↔
      ∀ arg ∈ e.children "arg", HasAttributes ["name", "type"] arg := by
  simp only [arguments_eq_ok, exists_forall₂, exists_argument]

theorem ofToken_eq_newId {token : String} :
    ArgumentKind.ofToken token = .newId ↔ token = "new_id" := by
  constructor
  · intro isNew
    have named : (ArgumentKind.ofToken token).token = "new_id" := by
      rw [isNew]
      rfl
    rwa [ArgumentKind.token_ofToken] at named
  · rintro rfl
    decide

theorem isNewObject_eq {arg : Argument} (scanned : argument o interfaceName owner e = .ok arg) :
    arg.isNewObject = decide (e.attribute? "type" = some "new_id") := by
  obtain ⟨-, ⟨token, typed, kind⟩, -⟩ := argument_eq_ok.mp scanned
  rw [Bool.eq_iff_iff, Argument.isNewObject, beq_iff_eq, kind, ofToken_eq_newId, typed]
  simp

/-- The scanned arguments that are new objects are those of the elements that say so. -/
theorem length_newObjects {args : List Argument}
    (scanned : arguments o interfaceName owner e = .ok args) :
    (args.filter (·.isNewObject)).length = (newObjects e).length := by
  rw [arguments_eq_ok] at scanned
  unfold newObjects
  generalize e.children "arg" = children at scanned
  induction scanned with
  | nil => simp
  | @cons child arg children args first others ih =>
      rw [List.filter_cons, List.filter_cons, isNewObject_eq first]
      split
      · rw [List.length_cons, List.length_cons, ih]
      · exact ih

/-! ## Requests -/

theorem exists_request {name : String} {opcode : UInt32} :
    (∃ r, request o interfaceName name opcode e = .ok r) ↔
      (∀ arg ∈ e.children "arg", HasAttributes ["name", "type"] arg) ∧
        (newObjects e).length ≤ 1 := by
  constructor
  · rintro ⟨r, scanned⟩
    obtain ⟨-, -, args, few, -⟩ := request_eq_ok.mp scanned
    rw [length_newObjects args] at few
    exact ⟨exists_arguments.mp ⟨r.args, args⟩, few⟩
  · rintro ⟨complete, few⟩
    have scan : ∃ args, arguments o interfaceName name e = .ok args :=
      exists_arguments.mpr complete
    obtain ⟨args, scanned⟩ := scan
    rw [← length_newObjects scanned] at few
    exact ⟨⟨⟨name, args⟩, opcode, (args.filter (·.isNewObject)).head?⟩,
      request_eq_ok.mpr ⟨rfl, rfl, scanned, few, rfl⟩⟩

theorem validRequest_of_isDestroy (named : e.attribute? "name" = some destroyRequest) :
    ValidRequest e := by
  refine ⟨hasAttributes_singleton.mpr ⟨_, named⟩, ?_, ?_⟩ <;>
  · rw [isDestroy_eq_true named]
    intro other
    cases other

theorem validRequest_iff {name : String} (named : e.attribute? "name" = some name)
    (other : name ≠ destroyRequest) :
    ValidRequest e ↔ (∀ arg ∈ e.children "arg", HasAttributes ["name", "type"] arg) ∧
      (newObjects e).length ≤ 1 := by
  have notDestroy := isDestroy_eq_false named other
  constructor
  · intro valid
    exact ⟨valid.args notDestroy, valid.oneResult notDestroy⟩
  · rintro ⟨args, few⟩
    exact ⟨hasAttributes_singleton.mpr ⟨_, named⟩, fun _ => args, fun _ => few⟩

/-- The scan gets through if all requests are valid and at most one of them, or one recorded
before, is the destroy request. -/
theorem exists_requests {next : UInt32} {destroy : Option UInt32} {es : List Element} :
    (∃ found, requests o interfaceName next destroy es = .ok found) ↔
      (∀ e ∈ es, ValidRequest e) ∧
        (es.filter isDestroy).length + destroy.toList.length ≤ 1 := by
  induction es generalizing next destroy with
  | nil =>
      cases destroy <;> simp [requests]
  | cons e es ih =>
      constructor
      · rintro ⟨⟨rs, recorded⟩, scanned⟩
        obtain ⟨named, rfl, following⟩ | ⟨r, others, named, other, first, following, -⟩ :=
          requests_cons_eq_ok.mp scanned
        · obtain ⟨valid, few⟩ := ih.mp ⟨_, following⟩
          refine ⟨List.forall_mem_cons.mpr ⟨validRequest_of_isDestroy named, valid⟩, ?_⟩
          simpa [isDestroy_eq_true named] using few
        · obtain ⟨valid, few⟩ := ih.mp ⟨_, following⟩
          have validFirst := (validRequest_iff named other).mpr (exists_request.mp ⟨r, first⟩)
          refine ⟨List.forall_mem_cons.mpr ⟨validFirst, valid⟩, ?_⟩
          simpa [isDestroy_eq_false named other] using few
      · rintro ⟨valid, few⟩
        obtain ⟨validFirst, valid⟩ := List.forall_mem_cons.mp valid
        obtain ⟨name, named⟩ := hasAttributes_singleton.mp validFirst.named
        by_cases ends : name = destroyRequest
        · subst ends
          rw [List.filter_cons_of_pos (isDestroy_eq_true named), List.length_cons] at few
          have notYet : destroy = none := by
            cases destroy with
            | none => rfl
            | some number =>
                simp only [Option.toList_some, List.length_singleton] at few
                omega
          subst notYet
          have scan : ∃ found, requests o interfaceName next (some next) es = .ok found :=
            ih.mpr ⟨valid, by simpa using few⟩
          obtain ⟨⟨rs, recorded⟩, following⟩ := scan
          exact ⟨_, requests_cons_eq_ok.mpr (.inl ⟨named, rfl, following⟩)⟩
        · rw [List.filter_cons_of_neg (by simp [isDestroy_eq_false named ends])] at few
          have scanFirst : ∃ r, request o interfaceName name next e = .ok r :=
            exists_request.mpr ((validRequest_iff named ends).mp validFirst)
          have scan : ∃ found, requests o interfaceName (next + 1) destroy es = .ok found :=
            ih.mpr ⟨valid, few⟩
          obtain ⟨r, first⟩ := scanFirst
          obtain ⟨⟨others, recorded⟩, following⟩ := scan
          obtain ⟨rfl, -⟩ := request_eq_ok.mp first
          exact ⟨_, requests_cons_eq_ok.mpr
            (.inr ⟨r, others, named, ends, first, following, rfl⟩)⟩

/-! ## Events, enumerations and interfaces -/

theorem exists_event : (∃ message, event o interfaceName e = .ok message) ↔ ValidEvent e := by
  constructor
  · rintro ⟨message, scanned⟩
    obtain ⟨named, args⟩ := event_eq_ok.mp scanned
    exact ⟨hasAttributes_singleton.mpr ⟨_, named⟩, exists_arguments.mp ⟨_, args⟩⟩
  · intro valid
    obtain ⟨name, named⟩ := hasAttributes_singleton.mp valid.named
    have scan : ∃ args, arguments o interfaceName name e = .ok args :=
      exists_arguments.mpr valid.args
    obtain ⟨args, scanned⟩ := scan
    exact ⟨⟨name, args⟩, event_eq_ok.mpr ⟨named, scanned⟩⟩

theorem exists_enumEntry :
    (∃ entry, enumEntry o interfaceName owner e = .ok entry) ↔
      HasAttributes ["name", "value"] e := by
  rw [hasAttributes_pair]
  constructor
  · rintro ⟨entry, scanned⟩
    obtain ⟨named, valued⟩ := enumEntry_eq_ok.mp scanned
    exact ⟨⟨_, named⟩, _, valued⟩
  · rintro ⟨⟨name, named⟩, value, valued⟩
    exact ⟨⟨name, value⟩, enumEntry_eq_ok.mpr ⟨named, valued⟩⟩

theorem exists_enumeration :
    (∃ scanned, enumeration o interfaceName e = .ok scanned) ↔ ValidEnumeration e := by
  constructor
  · rintro ⟨scanned, found⟩
    obtain ⟨named, entries⟩ := enumeration_eq_ok.mp found
    have complete := exists_forall₂.mp ⟨_, entries⟩
    simp only [exists_enumEntry] at complete
    exact ⟨hasAttributes_singleton.mpr ⟨_, named⟩, complete⟩
  · intro valid
    obtain ⟨name, named⟩ := hasAttributes_singleton.mp valid.named
    have scan : ∃ entries, List.Forall₂
        (fun child entry => enumEntry o interfaceName name child = .ok entry)
        (e.children "entry") entries := by
      simp only [exists_forall₂, exists_enumEntry]
      exact valid.entries
    obtain ⟨entries, scanned⟩ := scan
    exact ⟨⟨name, entries⟩, enumeration_eq_ok.mpr ⟨named, scanned⟩⟩

theorem exists_version :
    (∃ n, version o interfaceName e = .ok n) ↔
      ∀ value, e.attribute? "version" = some value →
        ∃ n, Text.SpellsWord (Text.trim value.toList) n := by
  simp only [version_eq_ok, Text.exists_spellsWord, Option.isSome_iff_exists]
  cases e.attribute? "version" <;> simp

theorem exists_interface : (∃ i, interface o e = .ok i) ↔ ValidInterface e := by
  constructor
  · rintro ⟨i, scanned⟩
    obtain ⟨named, versioned, requested, evented, enumerated⟩ := interface_eq_ok.mp scanned
    obtain ⟨raw, named, -⟩ := interfaceName_eq_ok.mp named
    obtain ⟨requests, oneDestroy⟩ := exists_requests.mp ⟨_, requested⟩
    have events := exists_forall₂.mp ⟨_, evented⟩
    have enums := exists_forall₂.mp ⟨_, enumerated⟩
    simp only [exists_event] at events
    simp only [exists_enumeration] at enums
    exact ⟨hasAttributes_singleton.mpr ⟨_, named⟩, exists_version.mp ⟨_, versioned⟩, requests,
      by simpa using oneDestroy, events, enums⟩
  · intro valid
    obtain ⟨raw, named⟩ := hasAttributes_singleton.mp valid.named
    let name := stripStem o.stem raw
    have versionScan : ∃ n, version o name e = .ok n := exists_version.mpr valid.version
    have requestScan : ∃ found, requests o name 0 none (e.children "request") = .ok found :=
      exists_requests.mpr ⟨valid.requests, by simpa using valid.oneDestroy⟩
    have eventScan : ∃ events, List.Forall₂ (fun child message => event o name child = .ok message)
        (e.children "event") events := by
      simp only [exists_forall₂, exists_event]
      exact valid.events
    have enumScan : ∃ enums, List.Forall₂ (fun child found => enumeration o name child = .ok found)
        (e.children "enum") enums := by
      simp only [exists_forall₂, exists_enumeration]
      exact valid.enums
    obtain ⟨n, versioned⟩ := versionScan
    obtain ⟨⟨rs, destroy⟩, requested⟩ := requestScan
    obtain ⟨events, evented⟩ := eventScan
    obtain ⟨enums, enumerated⟩ := enumScan
    exact ⟨⟨name, n, destroy, rs, events, enums⟩, interface_eq_ok.mpr
      ⟨interfaceName_eq_ok.mpr ⟨raw, named, rfl⟩, versioned, requested, evented, enumerated⟩⟩

/-! ## Protocols -/

theorem map_strippedName? {es : List Element} {is : List Interface}
    (scanned : List.Forall₂ (fun e i => interface o e = .ok i) es is) :
    es.map (strippedName? o.stem) = (is.map (·.name)).map some := by
  induction scanned with
  | nil => rfl
  | @cons e i es is first others ih =>
      obtain ⟨named, -⟩ := interface_eq_ok.mp first
      obtain ⟨raw, named, stripped⟩ := interfaceName_eq_ok.mp named
      simp [strippedName?, named, stripped, ih]

theorem nodup_map_strippedName? {es : List Element} {is : List Interface}
    (scanned : List.Forall₂ (fun e i => interface o e = .ok i) es is) :
    (es.map (strippedName? o.stem)).Nodup ↔ (is.map (·.name)).Nodup := by
  rw [map_strippedName? scanned]
  exact List.nodup_map_iff fun _ _ => Option.some.inj

end Loading

/-- A protocol is loaded from exactly the well-formed texts whose trees are valid. -/
theorem Protocol.load_succeeds_iff (o : Origin) (text : String) :
    (∃ p, Protocol.load o text = .ok p) ↔
      ∃ root, Xml.root? text = some root ∧ Loading.ValidProtocol o.stem root := by
  constructor
  · rintro ⟨p, loaded⟩
    obtain ⟨root, parsed, isProtocol, -, scanned, entries⟩ := Protocol.load_eq_ok.mp loaded
    have valid := exists_forall₂.mp ⟨_, scanned⟩
    simp only [Loading.exists_interface] at valid
    refine ⟨root, parsed, isProtocol, valid, ?_⟩
    rw [Loading.nodup_map_strippedName? scanned]
    have nodup := p.keys_nodup
    rw [entries] at nodup
    simpa [Function.comp_def] using nodup
  · rintro ⟨root, parsed, valid⟩
    have scan : ∃ is, List.Forall₂ (fun e i => Loading.interface o e = .ok i)
        (root.children "interface") is := by
      simp only [exists_forall₂, Loading.exists_interface]
      exact valid.interfaces
    obtain ⟨is, scanned⟩ := scan
    have nodup := (Loading.nodup_map_strippedName? scanned).mp valid.distinct
    let p : Protocol := ⟨root.attribute? "name", is.map fun i => (i.name, i), by
      simpa [Function.comp_def] using nodup⟩
    have interfaces : p.interfaces = is := by
      simp [p, Protocol.interfaces, Function.comp_def]
    refine ⟨p, Protocol.load_eq_ok.mpr ⟨root, parsed, valid.isProtocol, rfl, ?_, ?_⟩⟩
    · rw [interfaces]
      exact scanned
    · rw [interfaces]

end WireProxy
