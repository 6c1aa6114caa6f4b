import WireProxy.Loading
import WireProxy.Proofs.Success

/-!
# What a scan yields

Each scan of a document is described by the results it can have: a scan succeeds with a value
exactly when the element has the attributes and the children that the value is made of.  Later
modules use these descriptions and do not open the scans again.
-/

namespace WireProxy

namespace Protocol

theorem eq_of_name_entries {p q : Protocol} (name : p.name = q.name)
    (entries : p.entries = q.entries) : p = q := by
  cases p
  cases q
  simp_all

theorem insert?_eq_some {p q : Protocol} {i : Interface} :
    p.insert? i = some q ↔
      i.name ∉ p.keys ∧ q.name = p.name ∧ q.entries = p.entries ++ [(i.name, i)] := by
  unfold insert? add? keys
  split
  · rename_i taken
    simp [taken]
  · rename_i fresh
    constructor
    · intro added
      cases added
      exact ⟨fresh, rfl, rfl⟩
    · rintro ⟨-, name, entries⟩
      exact congrArg some (eq_of_name_entries name.symm entries.symm)

theorem exists_insert? {p : Protocol} {i : Interface} (fresh : i.name ∉ p.keys) :
    ∃ q, p.insert? i = some q := by
  unfold keys at fresh
  unfold insert? add?
  rw [dif_neg fresh]
  exact ⟨_, rfl⟩

end Protocol

namespace Loading

open Xml (Element)

variable {o : Origin} {interfaceName owner : String} {e : Element}

@[simp] theorem required_eq_ok {kind : ElementKind} {location : Location} {name value : String} :
    required o kind location e name = .ok value ↔ e.attribute? name = some value := by
  unfold required
  cases e.attribute? name with
  | none => simp
  | some found => simp

theorem argument_eq_ok {arg : Argument} :
    argument o interfaceName owner e = .ok arg ↔
      e.attribute? "name" = some arg.name ∧
        (∃ token, e.attribute? "type" = some token ∧ arg.kind = .ofToken token) ∧
        arg.interface = (e.attribute? "interface").map (stripStem o.stem) ∧
        arg.allowNull = (e.attribute? "allow_null" == some "true") := by
  simp only [argument, bind_eq_ok, required_eq_ok, pure_eq_ok]
  constructor
  · rintro ⟨name, named, token, typed, rfl⟩
    exact ⟨named, ⟨token, typed, rfl⟩, rfl, rfl⟩
  · rintro ⟨named, ⟨token, typed, kind⟩, interface, allowNull⟩
    refine ⟨arg.name, named, token, typed, ?_⟩
    rw [← kind, ← interface, ← allowNull]

theorem arguments_eq_ok {args : List Argument} :
    arguments o interfaceName owner e = .ok args ↔
      List.Forall₂ (fun a arg => argument o interfaceName owner a = .ok arg)
        (e.children "arg") args :=
  mapM_eq_ok

theorem newObject_eq_ok {request : String} {args : List Argument} {result : Option Argument} :
    newObject o interfaceName request args = .ok result ↔
      (args.filter (·.isNewObject)).length ≤ 1 ∧
        result = (args.filter (·.isNewObject)).head? := by
  unfold newObject
  generalize args.filter (·.isNewObject) = created
  match created with
  | [] => simp [eq_comm]
  | [arg] => simp [eq_comm]
  | first :: second :: others => simp

theorem request_eq_ok {name : String} {opcode : UInt32} {r : Request} :
    request o interfaceName name opcode e = .ok r ↔
      r.name = name ∧ r.opcode = opcode ∧ arguments o interfaceName name e = .ok r.args ∧
        (r.args.filter (·.isNewObject)).length ≤ 1 ∧
        r.result = (r.args.filter (·.isNewObject)).head? := by
  simp only [request, bind_eq_ok, pure_eq_ok, newObject_eq_ok]
  constructor
  · rintro ⟨args, scanned, result, ⟨few, rfl⟩, rfl⟩
    exact ⟨rfl, rfl, scanned, few, rfl⟩
  · rintro ⟨rfl, rfl, scanned, few, result⟩
    refine ⟨r.args, scanned, r.result, ⟨few, result⟩, rfl⟩

theorem requests_nil_eq_ok {next : UInt32} {destroy recorded : Option UInt32}
    {rs : List Request} :
    requests o interfaceName next destroy [] = .ok (rs, recorded) ↔
      rs = [] ∧ recorded = destroy := by
  simp [requests, eq_comm]

/-- One step of the scan of requests: a destroy request is recorded under the number that comes
next, and any other request takes that number. -/
theorem requests_cons_eq_ok {next : UInt32} {destroy recorded : Option UInt32}
    {rest : List Element} {rs : List Request} :
    requests o interfaceName next destroy (e :: rest) = .ok (rs, recorded) ↔
      (e.attribute? "name" = some destroyRequest ∧ destroy = none ∧
        requests o interfaceName next (some next) rest = .ok (rs, recorded)) ∨
      ∃ r others, e.attribute? "name" = some r.name ∧ r.name ≠ destroyRequest ∧
        request o interfaceName r.name next e = .ok r ∧
        requests o interfaceName (next + 1) destroy rest = .ok (others, recorded) ∧
        rs = r :: others := by
  simp only [requests, bind_eq_ok, required_eq_ok]
  constructor
  · rintro ⟨name, named, scanned⟩
    split at scanned
    · rename_i isDestroy
      subst isDestroy
      split at scanned
      · cases scanned
      · rename_i notYet
        exact .inl ⟨named, by simpa using notYet, scanned⟩
    · rename_i isOther
      simp only [bind_eq_ok, pure_eq_ok] at scanned
      obtain ⟨r, first, ⟨others, recorded'⟩, following, same⟩ := scanned
      cases same
      obtain ⟨rfl, -⟩ := request_eq_ok.mp first
      exact .inr ⟨r, others, named, isOther, first, following, rfl⟩
  · rintro (⟨named, rfl, following⟩ | ⟨r, others, named, isOther, first, following, rfl⟩)
    · exact ⟨destroyRequest, named, by simpa using following⟩
    · refine ⟨r.name, named, ?_⟩
      simp only [isOther, if_false, bind_eq_ok, pure_eq_ok]
      exact ⟨r, first, (others, recorded), following, rfl⟩

/-- Every request is scanned from one of the elements, and that is no destroy request. -/
theorem exists_element_of_requests {next : UInt32} {destroy recorded : Option UInt32}
    {es : List Element} {rs : List Request} {r : Request}
    (scanned : requests o interfaceName next destroy es = .ok (rs, recorded)) (member : r ∈ rs) :
    ∃ e ∈ es, ∃ opcode, e.attribute? "name" = some r.name ∧ r.name ≠ destroyRequest ∧
      request o interfaceName r.name opcode e = .ok r := by
  induction es generalizing next destroy rs with
  | nil =>
      obtain ⟨rfl, -⟩ := requests_nil_eq_ok.mp scanned
      cases member
  | cons e es ih =>
      obtain ⟨-, -, following⟩ | ⟨first, others, named, other, found, following, rfl⟩ :=
        requests_cons_eq_ok.mp scanned
      · obtain ⟨child, inside, rest⟩ := ih following member
        exact ⟨child, List.mem_cons_of_mem e inside, rest⟩
      · rcases List.mem_cons.mp member with rfl | later
        · exact ⟨e, List.mem_cons_self, next, named, other, found⟩
        · obtain ⟨child, inside, rest⟩ := ih following later
          exact ⟨child, List.mem_cons_of_mem e inside, rest⟩

theorem event_eq_ok {message : Message} :
    event o interfaceName e = .ok message ↔
      e.attribute? "name" = some message.name ∧
        arguments o interfaceName message.name e = .ok message.args := by
  simp only [event, bind_eq_ok, required_eq_ok, pure_eq_ok]
  constructor
  · rintro ⟨name, named, args, scanned, rfl⟩
    exact ⟨named, scanned⟩
  · rintro ⟨named, scanned⟩
    exact ⟨message.name, named, message.args, scanned, rfl⟩

theorem enumEntry_eq_ok {entry : EnumEntry} :
    enumEntry o interfaceName owner e = .ok entry ↔
      e.attribute? "name" = some entry.name ∧ e.attribute? "value" = some entry.value := by
  simp only [enumEntry, bind_eq_ok, required_eq_ok, pure_eq_ok]
  constructor
  · rintro ⟨name, named, value, valued, rfl⟩
    exact ⟨named, valued⟩
  · rintro ⟨named, valued⟩
    exact ⟨entry.name, named, entry.value, valued, rfl⟩

theorem enumeration_eq_ok {enumeration : Enumeration} :
    Loading.enumeration o interfaceName e = .ok enumeration ↔
      e.attribute? "name" = some enumeration.name ∧
        List.Forall₂ (fun child entry =>
            enumEntry o interfaceName enumeration.name child = .ok entry)
          (e.children "entry") enumeration.entries := by
  simp only [Loading.enumeration, bind_eq_ok, required_eq_ok, pure_eq_ok, mapM_eq_ok]
  constructor
  · rintro ⟨name, named, entries, scanned, rfl⟩
    exact ⟨named, scanned⟩
  · rintro ⟨named, scanned⟩
    exact ⟨enumeration.name, named, enumeration.entries, scanned, rfl⟩

/-! ## Interfaces -/

theorem interfaceName_eq_ok {name : String} :
    Loading.interfaceName o e = .ok name ↔
      ∃ raw, e.attribute? "name" = some raw ∧ stripStem o.stem raw = name := by
  simp only [Loading.interfaceName, bind_eq_ok, required_eq_ok, pure_eq_ok]

theorem version_eq_ok {n : UInt32} :
    version o interfaceName e = .ok n ↔
      (e.attribute? "version" = none ∧ n = 1) ∨
        ∃ value, e.attribute? "version" = some value ∧
          Text.readWord? (Text.trim value.toList) = some n := by
  unfold version
  cases e.attribute? "version" with
  | none => simp [eq_comm]
  | some value =>
      cases read : Text.readWord? (Text.trim value.toList) with
      | none => simp [read]
      | some m => simp [read]

theorem interface_eq_ok {i : Interface} :
    interface o e = .ok i ↔
      Loading.interfaceName o e = .ok i.name ∧ version o i.name e = .ok i.version ∧
        requests o i.name 0 none (e.children "request") = .ok (i.requests, i.destroyOpcode) ∧
        List.Forall₂ (fun child message => event o i.name child = .ok message)
          (e.children "event") i.events ∧
        List.Forall₂ (fun child enumeration =>
            Loading.enumeration o i.name child = .ok enumeration)
          (e.children "enum") i.enums := by
  simp only [interface, bind_eq_ok, pure_eq_ok, mapM_eq_ok]
  constructor
  · rintro ⟨name, named, n, versioned, ⟨rs, recorded⟩, requested, events, evented, enums,
      enumerated, rfl⟩
    exact ⟨named, versioned, requested, evented, enumerated⟩
  · rintro ⟨named, versioned, requested, evented, enumerated⟩
    exact ⟨i.name, named, i.version, versioned, (i.requests, i.destroyOpcode), requested,
      i.events, evented, i.enums, enumerated, rfl⟩

/-! ## Protocols -/

theorem addInterface_eq_ok {p q : Protocol} :
    addInterface o p e = .ok q ↔
      ∃ i, interface o e = .ok i ∧ p.insert? i = some q := by
  simp only [addInterface, bind_eq_ok]
  refine exists_congr fun i => and_congr_right fun _ => ?_
  cases p.insert? i with
  | none => simp
  | some added => simp

/-- The interfaces that were there come first, then those of the elements, each under its name. -/
theorem foldlM_addInterface_eq_ok {es : List Element} {p q : Protocol} :
    es.foldlM (addInterface o) p = .ok q ↔
      ∃ is, List.Forall₂ (fun e i => interface o e = .ok i) es is ∧ q.name = p.name ∧
        q.entries = p.entries ++ is.map fun i => (i.name, i) := by
  induction es generalizing p with
  | nil =>
      simp only [List.foldlM_nil, pure_eq_ok, List.forall₂_nil_left_iff, exists_eq_left,
        List.map_nil, List.append_nil]
      constructor
      · rintro rfl
        exact ⟨rfl, rfl⟩
      · rintro ⟨name, entries⟩
        exact Protocol.eq_of_name_entries name.symm entries.symm
  | cons e es ih =>
      simp only [List.foldlM_cons, bind_eq_ok, addInterface_eq_ok, ih]
      constructor
      · rintro ⟨p', ⟨i, scanned, added⟩, is, others, name, entries⟩
        obtain ⟨-, name', entries'⟩ := Protocol.insert?_eq_some.mp added
        refine ⟨i :: is, .cons scanned others, name.trans name', ?_⟩
        rw [entries, entries']
        simp
      · rintro ⟨is, scanned, name, entries⟩
        cases scanned with
        | @cons _ i _ is first others =>
            have fresh : i.name ∉ p.keys := by
              have nodup := q.keys_nodup
              rw [entries, List.map_append, List.nodup_append] at nodup
              intro taken
              exact nodup.2.2 i.name taken i.name (by simp) rfl
            obtain ⟨p', added⟩ := Protocol.exists_insert? fresh
            obtain ⟨-, name', entries'⟩ := Protocol.insert?_eq_some.mp added
            refine ⟨p', ⟨i, first, added⟩, is, others, name.trans name'.symm, ?_⟩
            rw [entries, entries']
            simp

end Loading

/-- A protocol is loaded from a text exactly when the text is a document whose root is a protocol
element and the interfaces of the protocol are scanned from the interface elements in order. -/
theorem Protocol.load_eq_ok {o : Origin} {text : String} {p : Protocol} :
    Protocol.load o text = .ok p ↔
      ∃ root, Xml.root? text = some root ∧ root.name.base = "protocol" ∧
        p.name = root.attribute? "name" ∧
        List.Forall₂ (fun e i => Loading.interface o e = .ok i)
          (root.children "interface") p.interfaces ∧
        p.entries = p.interfaces.map fun i => (i.name, i) := by
  unfold Protocol.load
  cases Xml.root? text with
  | none => simp
  | some root =>
      simp only [Option.some.injEq, exists_eq_left', Loading.protocol]
      split
      · rename_i isProtocol
        simp only [isProtocol, true_and, Loading.foldlM_addInterface_eq_ok, Protocol.empty,
          List.nil_append]
        constructor
        · rintro ⟨is, scanned, name, entries⟩
          have same : p.interfaces = is := by
            simp [Protocol.interfaces, entries, Function.comp_def]
          rw [same]
          exact ⟨name, scanned, entries⟩
        · rintro ⟨name, scanned, entries⟩
          exact ⟨p.interfaces, scanned, name, entries⟩
      · rename_i notProtocol
        simp [notProtocol]

end WireProxy
