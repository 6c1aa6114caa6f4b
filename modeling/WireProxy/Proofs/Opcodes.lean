import WireProxy.Proofs.Scanning

/-!
# Opcodes

Requests are numbered in document order, and the destroy request takes no number: what is recorded
for it is the number of requests before it, which the request after it gets too.  Events are
numbered by their positions.
-/

namespace WireProxy

namespace Loading

open Xml (Element)

variable {o : Origin} {interfaceName : String} {e : Element}

/-- The element is named as the request that ends an object's life. -/
def isDestroy (e : Element) : Bool :=
  e.attribute? "name" == some "destroy"

/-- The message has the name of the element and the arguments that are scanned from it. -/
def Describes (o : Origin) (interfaceName : String) (e : Element) (message : Message) : Prop :=
  e.attribute? "name" = some message.name ∧
    arguments o interfaceName message.name e = .ok message.args

theorem describes_of_request {r : Request} {opcode : UInt32}
    (named : e.attribute? "name" = some r.name)
    (scanned : request o interfaceName r.name opcode e = .ok r) :
    Describes o interfaceName e r.toMessage := by
  obtain ⟨-, -, args, -⟩ := request_eq_ok.mp scanned
  exact ⟨named, args⟩

theorem isDestroy_eq_false {name : String} (named : e.attribute? "name" = some name)
    (other : name ≠ destroyRequest) : isDestroy e = false := by
  have different : name ≠ "destroy" := other
  simp [isDestroy, named, different]

theorem isDestroy_eq_true (named : e.attribute? "name" = some destroyRequest) :
    isDestroy e = true := by
  simp [isDestroy, named, destroyRequest]

section Requests

variable {next : UInt32} {destroy recorded : Option UInt32} {es : List Element}
  {rs : List Request}

theorem requests_described
    (scanned : requests o interfaceName next destroy es = .ok (rs, recorded)) :
    List.Forall₂ (Describes o interfaceName) (es.filter (!isDestroy ·))
      (rs.map (·.toMessage)) := by
  induction es generalizing next destroy rs with
  | nil =>
      obtain ⟨rfl, -⟩ := requests_nil_eq_ok.mp scanned
      simp
  | cons e es ih =>
      obtain ⟨named, -, following⟩ | ⟨r, others, named, other, first, following, rfl⟩ :=
        requests_cons_eq_ok.mp scanned
      · simpa [isDestroy_eq_true named] using ih following
      · simpa [isDestroy_eq_false named other] using
          And.intro (describes_of_request named first) (ih following)

theorem requests_opcodes
    (scanned : requests o interfaceName next destroy es = .ok (rs, recorded)) :
    rs.map (·.opcode) = (List.range rs.length).map fun k => next + .ofNat k := by
  induction es generalizing next destroy rs with
  | nil =>
      obtain ⟨rfl, -⟩ := requests_nil_eq_ok.mp scanned
      simp
  | cons e es ih =>
      obtain ⟨-, -, following⟩ | ⟨r, others, -, -, first, following, rfl⟩ :=
        requests_cons_eq_ok.mp scanned
      · exact ih following
      · obtain ⟨-, opcode, -⟩ := request_eq_ok.mp first
        have shift : ∀ k : Nat, next + 1 + .ofNat k = next + UInt32.ofNat (k + 1) := by
          intro k
          rw [UInt32.ofNat_add, UInt32.add_assoc, UInt32.add_comm 1]
          rfl
        simp only [List.map_cons, List.length_cons, List.range_succ_eq_map, List.map_map,
          ih following, opcode]
        simp [shift, Function.comp_def]

/-- Once a destroy request is recorded, no second one is let through. -/
theorem requests_of_recorded {number : UInt32}
    (scanned : requests o interfaceName next (some number) es = .ok (rs, recorded)) :
    recorded = some number ∧ ∀ e ∈ es, isDestroy e = false := by
  induction es generalizing next rs with
  | nil =>
      obtain ⟨-, rfl⟩ := requests_nil_eq_ok.mp scanned
      simp
  | cons e es ih =>
      obtain ⟨-, taken, -⟩ | ⟨r, others, named, other, -, following, -⟩ :=
        requests_cons_eq_ok.mp scanned
      · cases taken
      · obtain ⟨kept, none⟩ := ih following
        refine ⟨kept, ?_⟩
        simpa [isDestroy_eq_false named other] using none

theorem requests_without_destroy
    (scanned : requests o interfaceName next destroy es = .ok (rs, recorded))
    (none : ∀ e ∈ es, isDestroy e = false) : recorded = destroy := by
  induction es generalizing next rs with
  | nil =>
      obtain ⟨-, rfl⟩ := requests_nil_eq_ok.mp scanned
      rfl
  | cons e es ih =>
      obtain ⟨named, -⟩ | ⟨r, others, -, -, -, following, -⟩ := requests_cons_eq_ok.mp scanned
      · have first := none e (by simp)
        rw [isDestroy_eq_true named] at first
        cases first
      · exact ih following fun e member => none e (by simp [member])

/-- The destroy request is the only one, and its number is that of the elements before it. -/
theorem requests_with_destroy {before after : List Element}
    (scanned : requests o interfaceName next destroy (before ++ e :: after) = .ok (rs, recorded))
    (ends : isDestroy e = true) :
    destroy = none ∧ recorded = some (next + .ofNat before.length) ∧
      ∀ other ∈ before ++ after, isDestroy other = false := by
  induction before generalizing next destroy rs with
  | nil =>
      obtain ⟨-, rfl, following⟩ | ⟨r, others, named, other, -⟩ := requests_cons_eq_ok.mp scanned
      · obtain ⟨rfl, none⟩ := requests_of_recorded following
        exact ⟨rfl, by simp, none⟩
      · rw [isDestroy_eq_false named other] at ends
        cases ends
  | cons first before ih =>
      obtain ⟨-, -, following⟩ | ⟨r, others, named, other, -, following, -⟩ :=
        requests_cons_eq_ok.mp scanned
      · obtain ⟨taken, -⟩ := ih following
        cases taken
      · obtain ⟨notYet, number, none⟩ := ih following
        refine ⟨notYet, ?_, ?_⟩
        · rw [number, List.length_cons, UInt32.ofNat_add, UInt32.add_assoc, UInt32.add_comm 1]
          rfl
        · simpa [isDestroy_eq_false named other] using none

end Requests

/-! ## Interfaces -/

/-- How an interface is numbered that is scanned from an element. -/
structure Numbered (o : Origin) (e : Element) (i : Interface) : Prop where
  requests_in_order :
    List.Forall₂ (Describes o i.name) ((e.children "request").filter (!isDestroy ·))
      (i.requests.map (·.toMessage))
  opcodes_from_zero : i.requests.map (·.opcode.toNat) = List.range i.requests.length
  destroy_absent :
    i.destroyOpcode = none ↔ ∀ child ∈ e.children "request", isDestroy child = false
  destroy_only : ∀ before child after, e.children "request" = before ++ child :: after →
    isDestroy child = true → ∀ other ∈ before ++ after, isDestroy other = false
  /-- The opcode of the destroy request counts the requests before it, and another request has it
  too if and only if one comes after. -/
  destroy_counts : ∀ before child after, e.children "request" = before ++ child :: after →
    isDestroy child = true → ∃ number, i.destroyOpcode = some number ∧
      number.toNat = before.length ∧ number.toNat ≤ i.requests.length ∧
      ((∃ r ∈ i.requests, r.opcode = number) ↔ after ≠ [])
  events_in_order : List.Forall₂ (Describes o i.name) (e.children "event") i.events
  events_from_zero :
    i.numberedEvents.map (fun (number, event) => (number.toNat, event)) =
      (List.range i.events.length).zip i.events

theorem toNat_zero_add_ofNat {k : Nat} (small : k < Text.wordLimit) :
    (0 + UInt32.ofNat k).toNat = k := by
  rw [UInt32.zero_add]
  exact UInt32.toNat_ofNat_of_lt small

theorem map_toNat_opcodes {rs : List Request} {destroy recorded : Option UInt32}
    {es : List Element} (few : rs.length < Text.wordLimit)
    (scanned : requests o interfaceName 0 destroy es = .ok (rs, recorded)) :
    rs.map (·.opcode.toNat) = List.range rs.length := by
  have opcodes := congrArg (List.map UInt32.toNat) (requests_opcodes scanned)
  rw [List.map_map, List.map_map] at opcodes
  refine opcodes.trans ?_
  conv_rhs => rw [← List.map_id (List.range rs.length)]
  apply List.map_congr_left
  intro k member
  exact toNat_zero_add_ofNat (by have := List.mem_range.mp member; omega)

theorem exists_opcode_iff {rs : List Request} {number : UInt32}
    (opcodes : rs.map (·.opcode.toNat) = List.range rs.length) :
    (∃ r ∈ rs, r.opcode = number) ↔ number.toNat < rs.length := by
  rw [← List.mem_range, ← opcodes, List.mem_map]
  exact exists_congr fun r => and_congr_right fun _ => UInt32.toNat_inj.symm

theorem numberedEvents_from_zero {i : Interface} (few : i.events.length < Text.wordLimit) :
    i.numberedEvents.map (fun (number, event) => (number.toNat, event)) =
      (List.range i.events.length).zip i.events := by
  apply List.ext_getElem
  · simp [Interface.numberedEvents]
  · intro k inLeft inRight
    have inEvents : k < i.events.length := by
      simpa [Interface.numberedEvents] using inLeft
    unfold Text.wordLimit at few
    simp [Interface.numberedEvents]
    omega

theorem numbered_of_interface {i : Interface} (scanned : interface o e = .ok i)
    (fewRequests : (e.children "request").length < Text.wordLimit)
    (fewEvents : (e.children "event").length < Text.wordLimit) : Numbered o e i := by
  obtain ⟨-, -, requested, evented, -⟩ := interface_eq_ok.mp scanned
  have described := requests_described requested
  have size : ((e.children "request").filter (!isDestroy ·)).length = i.requests.length := by
    simpa using described.length_eq
  have opcodes : i.requests.map (·.opcode.toNat) = List.range i.requests.length := by
    apply map_toNat_opcodes _ requested
    have := List.length_filter_le (!isDestroy ·) (e.children "request")
    omega
  refine ⟨described, opcodes, ⟨?_, ?_⟩, ?_, ?_, ?_, ?_⟩
  · intro absent child member
    obtain ⟨before, after, split⟩ := List.append_of_mem member
    rw [split] at requested
    by_contra ends
    obtain ⟨-, recorded, -⟩ := requests_with_destroy requested (by simpa using ends)
    rw [absent] at recorded
    cases recorded
  · intro none
    exact requests_without_destroy requested none
  · intro before child after split ends
    rw [split] at requested
    exact (requests_with_destroy requested ends).2.2
  · intro before child after split ends
    rw [split] at requested
    obtain ⟨-, recorded, none⟩ := requests_with_destroy requested ends
    have room : before.length < Text.wordLimit := by
      rw [split] at fewRequests
      simp only [List.length_append, List.length_cons] at fewRequests
      omega
    have number := toNat_zero_add_ofNat room
    -- All but the destroy request itself are requests of the interface.
    have total : i.requests.length = before.length + after.length := by
      rw [← size, split, List.filter_append, List.filter_cons_of_neg (by simp [ends]),
        ← List.filter_append, List.filter_eq_self.mpr (by simpa using none), List.length_append]
    refine ⟨_, recorded, number, by omega, ?_⟩
    rw [exists_opcode_iff opcodes, number, total, ← List.length_pos_iff]
    omega
  · exact evented.imp fun child message found => event_eq_ok.mp found
  · have := evented.length_eq
    exact numberedEvents_from_zero (by omega)

end Loading

/-- Every interface of a loaded protocol is numbered in document order. -/
theorem Protocol.load_numbered {o : Origin} {text : String} {p : Protocol}
    (loaded : Protocol.load o text = .ok p) :
    ∃ root, Xml.root? text = some root ∧
      List.Forall₂ (fun e i =>
          (e.children "request").length < Text.wordLimit →
          (e.children "event").length < Text.wordLimit → Loading.Numbered o e i)
        (root.children "interface") p.interfaces := by
  obtain ⟨root, parsed, -, -, scanned, -⟩ := Protocol.load_eq_ok.mp loaded
  refine ⟨root, parsed, scanned.imp ?_⟩
  intro e i found fewRequests fewEvents
  exact Loading.numbered_of_interface found fewRequests fewEvents

/-- A destroy request between two others. -/
def sharedOpcodeText : String :=
  "<protocol><interface name='wl_a'><request name='r'/><request name='destroy'/>" ++
    "<request name='s'/><event name='e'/></interface></protocol>"

theorem Protocol.load_numbered_shared :
    ∃ (p : Protocol) (root e : Xml.Element) (i : Interface),
      Protocol.load ⟨"shared.xml", "wl_"⟩ sharedOpcodeText = .ok p ∧
      Xml.root? sharedOpcodeText = some root ∧ root.children "interface" = [e] ∧
      p.interfaces = [i] ∧ i.destroyOpcode = some 1 ∧ i.requests.map (·.opcode) = [0, 1] ∧
      Loading.Numbered ⟨"shared.xml", "wl_"⟩ e i := by
  have opcodes : (Protocol.load ⟨"shared.xml", "wl_"⟩ sharedOpcodeText).toOption.map
      (fun p => p.interfaces.map fun i => (i.destroyOpcode, i.requests.map (·.opcode))) =
        some [(some 1, [0, 1])] := by
    decide +kernel
  have sizes : (Xml.root? sharedOpcodeText).map (fun root => (root.children "interface").map
      fun e => ((e.children "request").length, (e.children "event").length)) =
        some [(3, 1)] := by
    decide +kernel
  cases loaded : Protocol.load ⟨"shared.xml", "wl_"⟩ sharedOpcodeText with
  | error fault =>
      rw [loaded] at opcodes
      cases opcodes
  | ok p =>
      obtain ⟨root, parsed, numbered⟩ := Protocol.load_numbered loaded
      rw [loaded] at opcodes
      rw [parsed] at sizes
      obtain ⟨i, interfaces, opcodes⟩ := List.map_eq_singleton_iff.mp (Option.some.inj opcodes)
      obtain ⟨e, elements, sizes⟩ := List.map_eq_singleton_iff.mp (Option.some.inj sizes)
      obtain ⟨destroy, requests⟩ := Prod.mk.inj opcodes
      obtain ⟨three, one⟩ := Prod.mk.inj sizes
      rw [elements, interfaces, List.forall₂_cons] at numbered
      have few := numbered.1 (by rw [three]; decide) (by rw [one]; decide)
      exact ⟨p, root, e, i, rfl, parsed, elements, interfaces, destroy, requests, few⟩

end WireProxy
