import Mathlib.Data.List.Nodup
import WireProxy.Proofs.AccessTable
import WireProxy.Proofs.Encoding
import WireProxy.Proxy.Lowering

/-!
# Grants and generated signatures

Grants are counted on the arguments of a protocol.  The signatures of a proxy come from the same
arguments by another way: a typed new object is no parameter of its method but its result.  The two
still agree, since the scan makes the new object of a request its result and lets only one pass.
-/

namespace WireProxy

theorem Interface.refersTo_iff {i : Interface} {target : String} :
    i.RefersTo target ↔
      (∃ r ∈ i.requests, ∃ arg ∈ r.args, arg.interface = some target) ∨
        ∃ event ∈ i.events, ∃ arg ∈ event.args, arg.interface = some target := by
  unfold RefersTo arguments
  simp only [List.mem_append, List.mem_flatMap]
  constructor
  · rintro ⟨arg, ⟨r, member, inArgs⟩ | ⟨event, member, inArgs⟩, refers⟩
    · exact .inl ⟨r, member, arg, inArgs, refers⟩
    · exact .inr ⟨event, member, arg, inArgs, refers⟩
  · rintro (⟨r, member, arg, inArgs, refers⟩ | ⟨event, member, arg, inArgs, refers⟩)
    · exact ⟨arg, .inl ⟨r, member, inArgs⟩, refers⟩
    · exact ⟨arg, .inr ⟨event, member, inArgs⟩, refers⟩

/-- The types of the parameters of a method and of its result. -/
def Method.types (m : Method) : List ValueType :=
  m.params.map (·.type) ++ m.returns.toList

/-- All types that the slots and the methods of a proxy show. -/
def Proxy.surface (p : Proxy) : List ValueType :=
  p.slots.flatMap (·.params) ++ p.methods.flatMap (·.types)

theorem Argument.valueType_eq_proxy {arg : Argument} {target : String} :
    arg.valueType = .proxy target ↔ arg.interface = some target := by
  unfold valueType
  cases arg.interface with
  | some interface => simp
  | none => cases arg.kind <;> simp

theorem Message.proxy_mem_params_slot {event : Message} {target : String} :
    .proxy target ∈ event.slot.params ↔ ∃ arg ∈ event.args, arg.interface = some target := by
  simp [slot, Argument.valueType_eq_proxy]

theorem Argument.proxy_mem_types_parameters {arg : Argument} {handle version target : String} :
    .proxy target ∈ (arg.parameters handle version).map (·.type) ↔
      arg.isNewObject = false ∧ arg.interface = some target := by
  unfold parameters isUntypedNewObject
  cases arg.isNewObject with
  | false => simp [eq_comm, Argument.valueType_eq_proxy]
  | true =>
      -- The parameters of an untyped new object have fixed types, and a typed one has none.
      cases arg.interface <;> simp

theorem Request.proxy_mem_types_parameters {r : Request} {target : String} :
    .proxy target ∈ r.parameters.map (·.type) ↔
      ∃ arg ∈ r.args, arg.isNewObject = false ∧ arg.interface = some target := by
  rw [parameters, List.map_flatMap, List.mem_flatMap]
  simp only [Argument.proxy_mem_types_parameters]

theorem Request.proxy_mem_returns {r : Request} {stem target : String}
    (returns : r.ReturnsNewObject) :
    .proxy target ∈ (r.method stem).returns.toList ↔
      ∃ arg ∈ r.args, arg.isNewObject = true ∧ arg.interface = some target := by
  calc .proxy target ∈ (r.method stem).returns.toList
      ↔ ∃ arg ∈ r.result.toList, arg.valueType = .proxy target := by
        simp [method]
    _ ↔ ∃ arg ∈ r.args, arg.isNewObject = true ∧ arg.interface = some target := by
        rw [← returns]
        simp only [List.mem_filter, Argument.valueType_eq_proxy, and_assoc]

theorem Request.proxy_mem_types_method {r : Request} {stem target : String}
    (returns : r.ReturnsNewObject) :
    .proxy target ∈ (r.method stem).types ↔ ∃ arg ∈ r.args, arg.interface = some target := by
  have parameters : .proxy target ∈ (r.method stem).params.map (·.type) ↔ _ :=
    r.proxy_mem_types_parameters
  rw [Method.types, List.mem_append, parameters, Request.proxy_mem_returns returns]
  constructor
  · rintro (⟨arg, member, -, refers⟩ | ⟨arg, member, -, refers⟩)
    · exact ⟨arg, member, refers⟩
    · exact ⟨arg, member, refers⟩
  · rintro ⟨arg, member, refers⟩
    cases isNew : arg.isNewObject with
    | false => exact .inl ⟨arg, member, isNew, refers⟩
    | true => exact .inr ⟨arg, member, isNew, refers⟩

theorem Interface.proxy_mem_surface {i : Interface} {stem target : String} {access : Access}
    (returns : ∀ r ∈ i.requests, r.ReturnsNewObject) :
    .proxy target ∈ (i.proxy stem access).surface ↔ i.RefersTo target := by
  have slots : .proxy target ∈ (i.proxy stem access).slots.flatMap (·.params) ↔
      ∃ event ∈ i.events, ∃ arg ∈ event.args, arg.interface = some target := by
    simp [Interface.proxy, Message.proxy_mem_params_slot]
  have methods : .proxy target ∈ (i.proxy stem access).methods.flatMap (·.types) ↔
      ∃ r ∈ i.requests, ∃ arg ∈ r.args, arg.interface = some target := by
    rw [Interface.proxy, List.flatMap_map, List.mem_flatMap]
    exact exists_congr fun r => and_congr_right fun member =>
      Request.proxy_mem_types_method (returns r member)
  rw [Proxy.surface, List.mem_append, slots, methods, refersTo_iff, or_comm]

theorem Protocol.returnsNewObject_of_load {o : Origin} {text : String} {p : Protocol}
    {i : Interface} (loaded : Protocol.load o text = .ok p) (member : i ∈ p.interfaces) :
    ∀ r ∈ i.requests, r.ReturnsNewObject := by
  intro r isRequest
  obtain ⟨root, -, -, -, scanned, -⟩ := Protocol.load_eq_ok.mp loaded
  obtain ⟨e, -, found⟩ := exists_of_forall₂ scanned member
  obtain ⟨-, -, requested, -⟩ := Loading.interface_eq_ok.mp found
  obtain ⟨child, -, opcode, -, -, found⟩ := Loading.exists_element_of_requests requested isRequest
  exact Loading.returnsNewObject_request found

theorem Protocol.mem_proxies_binding {p : Protocol} {settings : Settings} {a : Proxy} :
    a ∈ (p.binding settings).proxies ↔
      ∃ i ∈ p.interfaces, settings.isHandMaintained i.name = false ∧
        i.proxy settings.stem p.access = a := by
  simp [binding, Binding.ofProxies, generated, and_assoc]

/-- Grants are what the signatures need, sorted, and those of the hand-maintained interfaces. -/
theorem Protocol.binding_grants_iff_surface {o : Origin} {text : String} {p : Protocol}
    (loaded : Protocol.load o text = .ok p) (settings : Settings) :
    (∀ a ∈ (p.binding settings).proxies, ∀ b ∈ (p.binding settings).proxies,
      b.name ∈ a.grants ↔ .proxy a.name ∈ b.surface) ∧
    ∀ a ∈ (p.binding settings).proxies, a.grants.Pairwise (· < ·) ∧
      ∀ i ∈ p.interfaces, settings.isHandMaintained i.name = true → i.RefersTo a.name →
        i.name ∈ a.grants := by
  constructor
  · intro a inBinding b inBinding'
    obtain ⟨i, member, -, rfl⟩ := Protocol.mem_proxies_binding.mp inBinding
    obtain ⟨j, member', -, rfl⟩ := Protocol.mem_proxies_binding.mp inBinding'
    have returns := Protocol.returnsNewObject_of_load loaded member'
    have nodup := Protocol.nodup_names_of_load loaded
    rw [Interface.proxy_mem_surface returns]
    change j.name ∈ p.access.grantedTo i.name ↔ j.RefersTo i.name
    rw [Protocol.mem_grantedTo]
    constructor
    · rintro ⟨owner, isOwner, sameName, refers⟩
      obtain rfl := List.inj_on_of_nodup_map nodup isOwner member' sameName
      exact refers
    · intro refers
      exact ⟨j, member', rfl, refers⟩
  · intro a inBinding
    obtain ⟨i, member, -, rfl⟩ := Protocol.mem_proxies_binding.mp inBinding
    refine ⟨Access.grantedTo_sorted _ _, ?_⟩
    intro owner isOwner _ refers
    exact Protocol.mem_grantedTo.mpr ⟨owner, isOwner, rfl, refers⟩

/-- A hand-maintained interface that refers to a seat, whose one request makes a touch. -/
def seatProtocol : Protocol where
  name := none
  entries :=
    [("display", {
        name := "display"
        events := [⟨"added", [⟨"seat", .object, some "seat", false⟩]⟩] }),
      ("seat", {
        name := "seat"
        requests :=
          [{ name := "get_touch", opcode := 0, result := some ⟨"id", .newId, some "touch", false⟩,
             args := [⟨"id", .newId, some "touch", false⟩] }] }),
      ("touch", { name := "touch" })]
  keys_nodup := by decide

theorem Protocol.binding_grants_iff_surface_seat :
    Protocol.load ⟨"seat.xml", "wl_"⟩ (seatProtocol.document "wl_") = .ok seatProtocol ∧
      ∃ seat touch, (seatProtocol.binding {}).proxies = [seat, touch] ∧
        seat.grants = ["display"] ∧ touch.grants = ["seat"] ∧
        .proxy touch.name ∈ seat.surface ∧ .proxy seat.name ∉ touch.surface := by
  have loaded := Protocol.load_document (p := seatProtocol) ⟨"seat.xml", "wl_"⟩ (by decide +kernel)
  have granted : (seatProtocol.binding {}).proxies.map (fun a => (a.name, a.grants)) =
      [("seat", ["display"]), ("touch", ["seat"])] := by
    decide +kernel
  obtain ⟨seat, rest, proxies, first, granted⟩ := List.map_eq_cons_iff.mp granted
  obtain ⟨touch, rfl, second⟩ := List.map_eq_singleton_iff.mp granted
  obtain ⟨seatName, seatGrants⟩ := Prod.mk.inj first
  obtain ⟨touchName, touchGrants⟩ := Prod.mk.inj second
  obtain ⟨agree, -⟩ := Protocol.binding_grants_iff_surface loaded {}
  rw [proxies] at agree
  refine ⟨loaded, seat, touch, proxies, seatGrants, touchGrants, ?_, ?_⟩
  · rw [← agree touch (by simp) seat (by simp), touchGrants, seatName]
    decide
  · rw [← agree seat (by simp) touch (by simp), seatGrants, touchName]
    decide

end WireProxy
