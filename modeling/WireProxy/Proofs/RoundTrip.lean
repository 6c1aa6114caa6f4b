import WireProxy.Proofs.FieldOrder
import WireProxy.Proofs.WellFormed

/-!
# Round trips through JSON

What is written as JSON is read back as it was, with its fields in any order.  There is one
exception: a kind that is kept as a token is read back as the known kind of that token, if there is
one.  Neither the loader nor the reader makes such a kind.
-/

namespace WireProxy

open Json

/-- The kind that the token of this one is read as. -/
def ArgumentKind.settled (kind : ArgumentKind) : ArgumentKind :=
  .ofToken kind.token

def Argument.settled (arg : Argument) : Argument :=
  { arg with kind := arg.kind.settled }

def Message.settled (message : Message) : Message :=
  { message with args := message.args.map (·.settled) }

def Request.settled (r : Request) : Request :=
  { r with args := r.args.map (·.settled), result := r.result.map (·.settled) }

def Interface.settled (i : Interface) : Interface :=
  { i with requests := i.requests.map (·.settled), events := i.events.map (·.settled) }

/-- Not a token that names a known kind. -/
def ArgumentKind.Canonical : ArgumentKind → Prop
  | .other token => token ∉ knownTokens
  | _ => True

instance : (kind : ArgumentKind) → Decidable kind.Canonical
  | .other _ => inferInstanceAs (Decidable (_ ∉ _))
  | .int | .uint | .fixed | .string | .object | .newId | .fd | .array => isTrue trivial

/-- The kinds of all arguments, and of the results of requests, which are written once more. -/
def Interface.kinds (i : Interface) : List ArgumentKind :=
  (i.arguments ++ i.requests.filterMap (·.result)).map (·.kind)

def Interface.Canonical (i : Interface) : Prop :=
  ∀ kind ∈ i.kinds, kind.Canonical

instance (i : Interface) : Decidable i.Canonical :=
  inferInstanceAs (Decidable (∀ kind ∈ _, _))

/-! ## What is written and read again -/

namespace Json

@[simp] theorem field?_object (name : String) (fields : List (String × Json)) :
    (object fields).field? name = fields.lookup name := rfl

@[simp] theorem record?_object {α : Type} (names others : List String) (decode : Json → Option α)
    (fields : List (String × Json)) :
    record? names others decode (object fields) = decode (object fields) := rfl

@[simp] theorem string?_string (s : String) : (string s).string? = some s := rfl

@[simp] theorem bool?_bool (b : Bool) : (bool b).bool? = some b := rfl

@[simp] theorem word?_word (n : UInt32) : (word n).word? = some n :=
  Text.word?_eq_some.mpr ⟨n.toNat_lt, rfl⟩

theorem list?_array_map {α β : Type} {encode : α → Json} {decode : Json → Option β} {settle : α → β}
    (reads : ∀ a, decode (encode a) = some (settle a)) (as : List α) :
    list? decode (array (as.map encode)) = some (as.map settle) := by
  unfold list?
  induction as with
  | nil => rfl
  | cons a as ih => simp [reads, ih]

theorem list?_strings (names : List String) : list? string? (strings names) = some names := by
  rw [strings, list?_array_map string?_string]
  exact congrArg some (List.map_id names)

theorem lookup_optionalField {α : Type} (name other : String) (encode : α → Json)
    (value : Option α) :
    (optionalField other encode value).lookup name =
      if name = other then value.map encode else none := by
  cases value with
  | none => simp [optionalField]
  | some a =>
      by_cases same : name = other
      · simp [optionalField, same]
      · simp [optionalField, List.lookup_cons, beq_false_of_ne same, same]

theorem optional?_of_field? {α β : Type} {encode : α → Json} {decode : Json → Option β}
    {settle : α → β} {name : String} {j : Json} {value : Option α}
    (found : j.field? name = value.map encode) (given : ∀ a, encode a ≠ null)
    (reads : ∀ a, decode (encode a) = some (settle a)) :
    optional? decode name j = some (value.map settle) := by
  unfold optional?
  rw [found]
  cases value with
  | none => rfl
  | some a =>
      have reads := reads a
      have given := given a
      rw [Option.map_some]
      split
      · contradiction
      · next same => exact absurd (Option.some.inj same) given
      · next same =>
          obtain rfl := Option.some.inj same
          rw [reads]
          rfl

end Json

theorem Argument.field?_interface (arg : Argument) :
    arg.toJson.field? "interface" = arg.interface.map .string := by
  simp [toJson, List.lookup_cons, List.lookup_append, lookup_optionalField]

theorem Argument.ofJson?_toJson (arg : Argument) : ofJson? arg.toJson = some arg.settled := by
  have interface : optional? string? "interface" arg.toJson = some (arg.interface.map id) :=
    optional?_of_field? arg.field?_interface nofun string?_string
  have name : required? string? "name" arg.toJson = some arg.name := rfl
  have kind : required? ArgumentKind.ofJson? "kind" arg.toJson = some arg.kind.settled := rfl
  have allowNull : defaulted? false bool? "allow_null" arg.toJson = some arg.allowNull := by
    simp [defaulted?, toJson, List.lookup_cons, List.lookup_append, lookup_optionalField]
  rw [ofJson?, toJson, record?_object, ← toJson]
  simp [name, kind, interface, allowNull, settled]

theorem Message.ofFields?_object (message : Message) (rest : List (String × Json)) :
    ofFields? (.object (message.jsonFields ++ rest)) = some message.settled := by
  have args := list?_array_map Argument.ofJson?_toJson message.args
  simp [ofFields?, jsonFields, required?, List.lookup_cons, args, settled]

theorem Message.ofJson?_toJson (message : Message) :
    ofJson? message.toJson = some message.settled := by
  have read := message.ofFields?_object []
  rwa [List.append_nil] at read

theorem Request.field?_result (r : Request) :
    r.toJson.field? "return_argument" = r.result.map Argument.toJson := by
  simp [toJson, Message.jsonFields, List.lookup_cons, lookup_optionalField]

theorem Request.message_ofFields?_toJson (r : Request) :
    Message.ofFields? r.toJson = some r.toMessage.settled := by
  rw [toJson, List.append_assoc]
  exact r.toMessage.ofFields?_object _

theorem Request.ofJson?_toJson (r : Request) : ofJson? r.toJson = some r.settled := by
  have result := optional?_of_field? r.field?_result nofun Argument.ofJson?_toJson
  have opcode : required? word? "opcode" r.toJson = some r.opcode := by
    simp [required?, toJson, Message.jsonFields, List.lookup_cons]
  simp [ofJson?, r.message_ofFields?_toJson, opcode, result, settled, Message.settled]

theorem EnumEntry.ofJson?_toJson (entry : EnumEntry) : ofJson? entry.toJson = some entry := rfl

theorem Enumeration.ofJson?_toJson (enumeration : Enumeration) :
    ofJson? enumeration.toJson = some enumeration := by
  have entries := list?_array_map EnumEntry.ofJson?_toJson enumeration.entries
  simp [ofJson?, toJson, required?, List.lookup_cons, entries]

theorem Interface.field?_destroyOpcode (i : Interface) :
    i.toJson.field? "destroy_opcode" = i.destroyOpcode.map .word := by
  simp [toJson, List.lookup_cons, List.lookup_append, lookup_optionalField]

theorem Interface.ofJson?_toJson (i : Interface) : ofJson? i.toJson = some i.settled := by
  have destroyOpcode := optional?_of_field? i.field?_destroyOpcode nofun word?_word
  have requests := list?_array_map Request.ofJson?_toJson i.requests
  have events := list?_array_map Message.ofJson?_toJson i.events
  have enums := list?_array_map Enumeration.ofJson?_toJson i.enums
  rw [ofJson?, toJson, record?_object, ← toJson]
  simp only [destroyOpcode]
  simp [toJson, required?, List.lookup_cons, List.lookup_append, lookup_optionalField, requests,
    events, enums, settled]

/-! ## What is read back as it was -/

theorem ArgumentKind.settled_eq_self {kind : ArgumentKind} :
    kind.settled = kind ↔ kind.Canonical := by
  cases kind with
  | other token =>
      refine ofToken_eq_other.trans ?_
      exact and_iff_right rfl
  | _ => exact iff_of_true rfl trivial

theorem ArgumentKind.canonical_ofToken (token : String) : (ofToken token).Canonical := by
  rw [← settled_eq_self, settled, token_ofToken]

theorem Argument.settled_eq_self {arg : Argument} : arg.settled = arg ↔ arg.kind.Canonical := by
  rw [← ArgumentKind.settled_eq_self]
  constructor
  · exact congrArg Argument.kind
  · intro same
    rw [settled, same]

theorem map_eq_self {α : Type} {f : α → α} {as : List α} : as.map f = as ↔ ∀ a ∈ as, f a = a := by
  conv_lhs => rhs; rw [← List.map_id as]
  exact List.map_inj_left

theorem Message.settled_eq_self {message : Message} :
    message.settled = message ↔ ∀ arg ∈ message.args, arg.kind.Canonical := by
  simp only [← Argument.settled_eq_self, ← map_eq_self]
  constructor
  · exact congrArg Message.args
  · intro same
    rw [settled, same]

theorem Request.settled_eq_self {r : Request} :
    r.settled = r ↔ (∀ arg ∈ r.args, arg.kind.Canonical) ∧
      ∀ arg ∈ r.result, arg.kind.Canonical := by
  have result : r.result.map (·.settled) = r.result ↔ ∀ arg ∈ r.result, arg.kind.Canonical := by
    simp only [← Argument.settled_eq_self]
    cases r.result <;> simp
  rw [← Message.settled_eq_self, ← result]
  constructor
  · intro same
    exact ⟨congrArg Request.toMessage same, congrArg Request.result same⟩
  · rintro ⟨message, result⟩
    rw [settled, result]
    exact congrArg (fun m : Message => { r with toMessage := m }) message

theorem Interface.canonical_iff {i : Interface} :
    i.Canonical ↔
      (∀ r ∈ i.requests, (∀ arg ∈ r.args, arg.kind.Canonical) ∧
        ∀ arg ∈ r.result, arg.kind.Canonical) ∧
      ∀ event ∈ i.events, ∀ arg ∈ event.args, arg.kind.Canonical := by
  have results : (∀ arg ∈ i.requests.filterMap (·.result), arg.kind.Canonical) ↔
      ∀ r ∈ i.requests, ∀ arg ∈ r.result, arg.kind.Canonical := by
    simp only [List.mem_filterMap, forall_exists_index, and_imp, Option.mem_def]
    exact ⟨fun all r member arg result => all arg r member result,
      fun all arg r member result => all r member arg result⟩
  simp only [Canonical, kinds, arguments, List.forall_mem_map, List.forall_mem_append,
    List.forall_mem_flatMap, results, forall_and]
  exact and_right_comm

theorem Interface.settled_eq_self {i : Interface} : i.settled = i ↔ i.Canonical := by
  have requests : i.requests.map (·.settled) = i.requests ↔ _ := map_eq_self
  have events : i.events.map (·.settled) = i.events ↔ _ := map_eq_self
  simp only [Request.settled_eq_self] at requests
  simp only [Message.settled_eq_self] at events
  rw [canonical_iff, ← requests, ← events]
  constructor
  · intro same
    exact ⟨congrArg Interface.requests same, congrArg Interface.events same⟩
  · rintro ⟨requests, events⟩
    rw [settled, requests, events]

/-! ## What is read -/

namespace Json

/-- All that the reader gives has the property. -/
def Yields {α : Type} (P : α → Prop) (decode : Json → Option α) : Prop :=
  ∀ ⦃j : Json⦄ ⦃a : α⦄, decode j = some a → P a

variable {α : Type} {P : α → Prop} {decode : Json → Option α}

theorem Yields.record? (yields : Yields P decode) (names others : List String) :
    Yields P (record? names others decode) :=
  fun _ _ read => yields read

theorem Yields.required? (yields : Yields P decode) (name : String) :
    Yields P (required? decode name) := by
  intro j a read
  obtain ⟨value, -, read⟩ := Option.bind_eq_some_iff.mp read
  exact yields read

theorem Yields.optional? (yields : Yields P decode) (name : String) :
    Yields (fun value => ∀ a ∈ value, P a) (optional? decode name) := by
  intro j value read a member
  unfold Json.optional? at read
  split at read
  · obtain rfl := Option.some.inj read
    cases member
  · obtain rfl := Option.some.inj read
    cases member
  · obtain ⟨found, given, rfl⟩ := Option.map_eq_some_iff.mp read
    obtain rfl := Option.some.inj member
    exact yields given

theorem Yields.mapM (yields : Yields P decode) {items : List Json} {as : List α}
    (read : items.mapM decode = some as) : ∀ a ∈ as, P a := by
  induction items generalizing as with
  | nil =>
      obtain rfl := Option.some.inj read
      simp
  | cons item items ih =>
      simp only [List.mapM_cons, Option.bind_eq_bind, Option.bind_eq_some_iff, Option.pure_def,
        Option.some.injEq] at read
      obtain ⟨first, readFirst, rest, readRest, rfl⟩ := read
      exact List.forall_mem_cons.mpr ⟨yields readFirst, ih readRest⟩

theorem Yields.list? (yields : Yields P decode) :
    Yields (fun as => ∀ a ∈ as, P a) (list? decode) := by
  intro j as read
  cases j with
  | array items => exact yields.mapM read
  | _ => cases read

end Json

theorem ArgumentKind.canonical_of_ofJson? : Yields Canonical ofJson? := by
  intro j kind read
  obtain ⟨token, -, rfl⟩ := Option.map_eq_some_iff.mp read
  exact canonical_ofToken token

theorem Argument.canonical_of_ofJson? : Yields (fun arg => arg.kind.Canonical) ofJson? := by
  refine .record? (fun j arg read => ?_) _ _
  simp only [Option.bind_eq_bind, Option.bind_eq_some_iff, Option.pure_def,
    Option.some.injEq] at read
  obtain ⟨name, -, kind, read, interface, -, allowNull, -, rfl⟩ := read
  exact ArgumentKind.canonical_of_ofJson?.required? _ read

theorem Message.canonical_of_ofFields? :
    Yields (fun message => ∀ arg ∈ message.args, arg.kind.Canonical) ofFields? := by
  intro j message read
  simp only [ofFields?, Option.bind_eq_bind, Option.bind_eq_some_iff, Option.pure_def,
    Option.some.injEq] at read
  obtain ⟨name, -, args, read, rfl⟩ := read
  exact Argument.canonical_of_ofJson?.list?.required? _ read

theorem Request.canonical_of_ofJson? :
    Yields (fun r => (∀ arg ∈ r.args, arg.kind.Canonical) ∧
      ∀ arg ∈ r.result, arg.kind.Canonical) ofJson? := by
  intro j r read
  simp only [ofJson?, Option.bind_eq_bind, Option.bind_eq_some_iff, Option.pure_def,
    Option.some.injEq] at read
  obtain ⟨message, readMessage, opcode, -, result, readResult, rfl⟩ := read
  exact ⟨Message.canonical_of_ofFields? readMessage,
    Argument.canonical_of_ofJson?.optional? _ readResult⟩

theorem Interface.canonical_of_ofJson? : Yields Canonical ofJson? := by
  refine .record? (fun j i read => ?_) _ _
  simp only [Option.bind_eq_bind, Option.bind_eq_some_iff, Option.pure_def,
    Option.some.injEq] at read
  obtain ⟨name, -, version, -, destroyOpcode, -, requests, readRequests, events, readEvents, enums,
    -, rfl⟩ := read
  exact canonical_iff.mpr ⟨Request.canonical_of_ofJson?.list?.required? _ readRequests,
    (Message.canonical_of_ofFields?.record? _ _).list?.required? _ readEvents⟩

/-! ## What is loaded -/

namespace Loading

variable {o : Origin} {interfaceName owner : String} {e : Xml.Element}

theorem canonical_arguments {args : List Argument}
    (scanned : arguments o interfaceName owner e = .ok args) :
    ∀ arg ∈ args, arg.kind.Canonical := by
  intro arg member
  obtain ⟨child, -, found⟩ := exists_of_forall₂ (arguments_eq_ok.mp scanned) member
  obtain ⟨-, ⟨token, -, kind⟩, -⟩ := argument_eq_ok.mp found
  rw [kind]
  exact ArgumentKind.canonical_ofToken token

theorem canonical_interface {i : Interface} (scanned : interface o e = .ok i) : i.Canonical := by
  obtain ⟨-, -, requested, evented, -⟩ := interface_eq_ok.mp scanned
  refine Interface.canonical_iff.mpr ⟨fun r member => ?_, fun event member => ?_⟩
  · obtain ⟨child, -, opcode, -, -, found⟩ := exists_element_of_requests requested member
    obtain ⟨-, -, args, -, result⟩ := request_eq_ok.mp found
    have canonical := canonical_arguments args
    refine ⟨canonical, fun arg returned => canonical arg ?_⟩
    rw [result] at returned
    exact List.mem_of_mem_filter (List.mem_of_head? returned)
  · obtain ⟨child, -, found⟩ := exists_of_forall₂ evented member
    exact canonical_arguments (event_eq_ok.mp found).2

end Loading

namespace Protocol

/-- Made from an empty protocol by adding interfaces under their names. -/
inductive Inserted : Protocol → Prop where
  | empty (name : Option String) : Inserted (.empty name)
  | insert {p q : Protocol} {i : Interface} (made : Inserted p) (added : p.insert? i = some q) :
      Inserted q

theorem Inserted.keyed {p : Protocol} (made : p.Inserted) :
    ∀ entry ∈ p.entries, entry.1 = entry.2.name := by
  induction made with
  | empty name => exact nofun
  | insert _ added ih =>
      obtain ⟨-, -, entries⟩ := insert?_eq_some.mp added
      rw [entries, List.forall_mem_append, List.forall_mem_singleton]
      exact ⟨ih, rfl⟩

theorem inserted_of_foldlM {o : Origin} {es : List Xml.Element} {p q : Protocol} (made : p.Inserted)
    (scanned : es.foldlM (Loading.addInterface o) p = .ok q) : q.Inserted := by
  induction es generalizing p with
  | nil =>
      obtain rfl := pure_eq_ok.mp scanned
      exact made
  | cons e es ih =>
      rw [List.foldlM_cons, bind_eq_ok] at scanned
      obtain ⟨next, first, others⟩ := scanned
      obtain ⟨i, -, added⟩ := Loading.addInterface_eq_ok.mp first
      exact ih (made.insert added) others

theorem inserted_of_load {o : Origin} {text : String} {p : Protocol}
    (loaded : Protocol.load o text = .ok p) : p.Inserted := by
  unfold Protocol.load Loading.protocol at loaded
  split at loaded
  · split at loaded
    · exact inserted_of_foldlM (.empty _) loaded
    · cases loaded
  · cases loaded

theorem canonical_of_load {o : Origin} {text : String} {p : Protocol}
    (loaded : Protocol.load o text = .ok p) : ∀ i ∈ p.interfaces, i.Canonical := by
  intro i member
  obtain ⟨root, -, -, -, scanned, -⟩ := Protocol.load_eq_ok.mp loaded
  obtain ⟨e, -, found⟩ := exists_of_forall₂ scanned member
  exact Loading.canonical_interface found

end Protocol

/-! ## Protocols -/

namespace Json

theorem Rearranged.of_object {fields : List (String × Json)} {j : Json}
    (moved : (Json.object fields).Rearranged j) :
    ∃ fields' fields'', j = .object fields'' ∧
      List.Forall₂ (fun field other => field.1 = other.1 ∧ field.2.Rearranged other.2)
        fields fields' ∧ fields'.Perm fields'' := by
  cases moved with
  | refl =>
      refine ⟨fields, fields, rfl, ?_, .refl _⟩
      exact List.forall₂_same.mpr fun field _ => ⟨rfl, .refl _⟩
  | @object _ moved fields'' distinct perm names each =>
      rw [← List.forall₂_eq_eq_eq, List.forall₂_map_left_iff, List.forall₂_map_right_iff] at names
      rw [List.forall₂_map_left_iff, List.forall₂_map_right_iff] at each
      have both := List.Forall₂.mp (fun _ _ name value => And.intro name value) names each
      obtain ⟨fields', same, perm'⟩ := List.perm_comp_forall₂ perm both
      exact ⟨fields', fields'', rfl, same, perm'⟩

end Json

namespace Protocol

theorem exists_add? {p : Protocol} {key : String} {i : Interface}
    (fresh : key ∉ p.entries.map Prod.fst) :
    ∃ q, p.add? key i = some q ∧ q.name = p.name ∧ q.entries = p.entries ++ [(key, i)] := by
  unfold add?
  rw [dif_neg fresh]
  exact ⟨_, rfl, rfl, rfl⟩

/-- The field holds the interface of the entry under its key. -/
def Holds (field : String × Json) (entry : String × Interface) : Prop :=
  field.1 = entry.1 ∧ Interface.ofJson? field.2 = some entry.2

theorem exists_addFields? {p : Protocol} {fields : List (String × Json)}
    {entries : List (String × Interface)} (holds : List.Forall₂ Holds fields entries)
    (distinct : ((p.entries ++ entries).map Prod.fst).Nodup) :
    ∃ q, p.addFields? fields = some q ∧ q.name = p.name ∧ q.entries = p.entries ++ entries := by
  induction holds generalizing p with
  | nil => exact ⟨p, rfl, rfl, (List.append_nil _).symm⟩
  | @cons field entry fields entries first _ ih =>
      obtain ⟨key, value⟩ := field
      obtain ⟨key', i⟩ := entry
      obtain ⟨rfl, read⟩ := first
      have fresh : key ∉ p.entries.map Prod.fst := by
        rw [List.map_append, List.nodup_append] at distinct
        intro taken
        exact distinct.2.2 key taken key (by simp) rfl
      obtain ⟨next, added, name, entries'⟩ := exists_add? (i := i) fresh
      rw [List.append_cons, ← entries'] at distinct
      obtain ⟨q, others, name', entries''⟩ := ih distinct
      refine ⟨q, ?_, name'.trans name, ?_⟩
      · simp [addFields?, read, added, others]
      · rw [entries'', entries', List.append_assoc]
        rfl

/-- The entries as they are read back. -/
def settledEntries (p : Protocol) : List (String × Interface) :=
  p.entries.map fun (key, i) => (key, i.settled)

theorem lookup_settledEntries (p : Protocol) (key : String) :
    p.settledEntries.lookup key = (p.get? key).map (·.settled) := by
  unfold settledEntries get?
  induction p.entries with
  | nil => rfl
  | cons entry entries ih =>
      obtain ⟨first, i⟩ := entry
      rw [List.map_cons, List.lookup_cons, List.lookup_cons, ih]
      cases key == first <;> rfl

theorem map_fst_settledEntries (p : Protocol) :
    p.settledEntries.map Prod.fst = p.entries.map Prod.fst := by
  rw [settledEntries, List.map_map]
  rfl

theorem optional?_name (p : Protocol) : optional? string? "name" p.toJson = some p.name := by
  obtain ⟨name, entries, distinct⟩ := p
  cases name <;> rfl

theorem exists_ofJson?_of_rearranged {p : Protocol} {j : Json} (moved : p.toJson.Rearranged j) :
    ∃ q, Protocol.ofJson? j = some q ∧ q.name = p.name ∧ q.entries.Perm p.settledEntries := by
  obtain ⟨-, whole, isObject, -⟩ := moved.of_object
  have name : optional? string? "name" j = some p.name := by
    rw [unordered_string?.optional? "name" moved, p.optional?_name]
  have interfaces : p.toJson.field? "interfaces" =
      some (.object (p.entries.map fun (key, i) => (key, i.toJson))) := rfl
  have found := moved.field? "interfaces"
  rw [interfaces] at found
  cases given : j.field? "interfaces" with
  | none =>
      rw [given] at found
      cases found
  | some value =>
      rw [given] at found
      obtain ⟨moved⟩ := found
      obtain ⟨fields, fields', rfl, same, perm⟩ := moved.of_object
      have holds : List.Forall₂ (fun entry field => Holds field entry) p.settledEntries fields := by
        rw [List.forall₂_map_left_iff] at same
        rw [settledEntries, List.forall₂_map_left_iff]
        refine same.imp fun entry field ⟨key, moved⟩ => ⟨key.symm, ?_⟩
        rw [Interface.unordered_ofJson? moved, Interface.ofJson?_toJson]
      obtain ⟨entries, holds, perm⟩ := List.perm_comp_forall₂ perm.symm holds.flip
      have distinct : (entries.map Prod.fst).Nodup := by
        refine (perm.map Prod.fst).nodup_iff.mpr ?_
        rw [map_fst_settledEntries]
        exact p.keys_nodup
      obtain ⟨q, read, name', entries'⟩ := exists_addFields? (p := .empty p.name) holds distinct
      refine ⟨q, ?_, name', ?_⟩
      · subst isObject
        simp only [Protocol.ofJson?, record?_object, name, given, Option.bind_eq_bind,
          Option.bind_some]
        exact read
      · rw [entries']
        exact perm

end Protocol

/-! ## Settings and round trips -/

theorem NameSet.ofList_toList (s : NameSet) : ofList s.toList = s := by
  rw [NameSet.mk.injEq]
  exact names_eq_of_sorted (ofList s.toList).sorted s.sorted fun name => mem_ofList

theorem OutputStyle.ofJson?_toJson (style : OutputStyle) : ofJson? style.toJson = some style := by
  have includes := list?_strings style.systemIncludes
  simp [ofJson?, toJson, required?, List.lookup_cons, includes]

theorem Settings.ofJson?_toJson (settings : Settings) :
    ofJson? settings.toJson = some settings := by
  have byHand := list?_strings settings.handMaintained.toList
  have output := settings.output.ofJson?_toJson
  simp [ofJson?, toJson, required?, List.lookup_cons, byHand, output, NameSet.ofList_toList]

/-- The value is read back from what is written for it, in whichever order the fields are. -/
def ReadsBack {α : Type} (encode : α → Json) (decode : Json → Option α) (a : α) : Prop :=
  ∀ j, (encode a).Rearranged j → decode j = some a

theorem readsBack_iff {α : Type} {encode : α → Json} {decode : Json → Option α} {a : α}
    (unordered : Unordered decode) : ReadsBack encode decode a ↔ decode (encode a) = some a := by
  constructor
  · intro reads
    exact reads _ (.refl _)
  · intro reads j moved
    rw [unordered moved, reads]

theorem Interface.readsBack_iff_canonical {i : Interface} :
    ReadsBack toJson ofJson? i ↔ i.Canonical := by
  rw [readsBack_iff unordered_ofJson?, ofJson?_toJson, Option.some.injEq, settled_eq_self]

/-- What is absent has no field, and a request has the fields of its message. -/
structure Interface.WrittenPlainly (i : Interface) : Prop where
  destroyOpcode : i.toJson.field? "destroy_opcode" = i.destroyOpcode.map .word
  results : ∀ r ∈ i.requests,
    r.toJson.field? "return_argument" = r.result.map Argument.toJson
  references : ∀ arg ∈ i.arguments ++ i.requests.filterMap (·.result),
    arg.toJson.field? "interface" = arg.interface.map .string
  flat : ∀ r ∈ i.requests, Message.ofFields? r.toJson = Message.ofJson? r.toMessage.toJson

theorem Interface.writtenPlainly (i : Interface) : i.WrittenPlainly where
  destroyOpcode := i.field?_destroyOpcode
  results r _ := r.field?_result
  references arg _ := arg.field?_interface
  flat r _ := by
    rw [r.message_ofFields?_toJson, r.toMessage.ofJson?_toJson]

theorem Protocol.forall_get?_eq_iff {p q : Protocol} (perm : q.entries.Perm p.settledEntries) :
    (∀ key, q.get? key = p.get? key) ↔ ∀ i ∈ p.interfaces, i.Canonical := by
  have read : ∀ key, q.get? key = (p.get? key).map (·.settled) := fun key => by
    rw [← lookup_settledEntries]
    exact lookup_perm q.keys_nodup perm key
  simp only [read, ← Interface.settled_eq_self]
  constructor
  · intro same i member
    obtain ⟨⟨key, i⟩, isEntry, rfl⟩ := List.mem_map.mp member
    have same := same key
    have found : p.get? key = some i := (lookup_eq_some_iff_mem p.keys_nodup).mpr isEntry
    rw [found] at same
    exact Option.some.inj same
  · intro same key
    cases found : p.get? key with
    | none => rfl
    | some i =>
        have member := (lookup_eq_some_iff_mem p.keys_nodup).mp found
        rw [Option.map_some, same i (List.mem_map.mpr ⟨_, member, rfl⟩)]

theorem Protocol.keyed_of_perm {p q : Protocol} (made : p.Inserted)
    (perm : q.entries.Perm p.settledEntries) : ∀ entry ∈ q.entries, entry.1 = entry.2.name := by
  intro entry member
  obtain ⟨⟨key, i⟩, isEntry, rfl⟩ := List.mem_map.mp (perm.mem_iff.mp member)
  exact made.keyed (key, i) isEntry

theorem Settings.handMaintained_of_ofJson? {j : Json} {settings : Settings}
    (read : ofJson? j = some settings) :
    ∃ given, required? (list? string?) "hand_maintained"
        (j.record ["namespace_prefix", "hand_maintained", "output"] []) = some given ∧
      ∀ name, name ∈ settings.handMaintained ↔ name ∈ given := by
  simp only [ofJson?, record?, Option.bind_eq_bind, Option.bind_eq_some_iff, Option.pure_def,
    Option.some.injEq] at read
  obtain ⟨stem, -, given, readGiven, output, -, rfl⟩ := read
  exact ⟨given, readGiven, fun name => NameSet.mem_ofList⟩

/-- The second protocol is read from the value, and has the name of the first and each interface
under the name of that. -/
structure Protocol.ReadAs (p : Protocol) (j : Json) (q : Protocol) : Prop where
  read : Protocol.ofJson? j = some q
  name : q.name = p.name
  keyed : ∀ entry ∈ q.entries, entry.1 = entry.2.name

theorem Protocol.exists_readAs {p : Protocol} {j : Json} (made : p.Inserted)
    (moved : p.toJson.Rearranged j) :
    ∃ q, p.ReadAs j q ∧ ((∀ key, q.get? key = p.get? key) ↔ ∀ i ∈ p.interfaces, i.Canonical) := by
  obtain ⟨q, read, name, perm⟩ := exists_ofJson?_of_rearranged moved
  exact ⟨q, ⟨read, name, keyed_of_perm made perm⟩, forall_get?_eq_iff perm⟩

/-- An interface with a kind that is kept as the token of a known one. -/
def dialInterface : Interface where
  name := "dial"
  version := 1
  events := [{ name := "turn", args := [{ name := "steps", kind := .other "int" }] }]

def dialProtocol : Protocol where
  name := none
  entries := [("dial", dialInterface)]
  keys_nodup := by decide

/-- Not every protocol that is made by adding interfaces is read back as it was. -/
theorem Protocol.inserted_not_read_back :
    (Protocol.empty none).insert? dialInterface = some dialProtocol ∧ dialProtocol.Inserted ∧
      ¬ ∃ q, Protocol.ofJson? dialProtocol.toJson = some q ∧
        ∀ key, q.get? key = dialProtocol.get? key := by
  have added : (Protocol.empty none).insert? dialInterface = some dialProtocol := by rfl
  have made : dialProtocol.Inserted := (Inserted.empty none).insert added
  refine ⟨added, made, ?_⟩
  rintro ⟨q, read, same⟩
  obtain ⟨other, as, mapped⟩ := exists_readAs made (.refl dialProtocol.toJson)
  obtain rfl : other = q := Option.some.inj (as.read.symm.trans read)
  have canonical := mapped.mp same dialInterface (by simp [dialProtocol, interfaces])
  revert canonical
  decide

/-- Interfaces are read back as they were exactly if their kinds are canonical, and all that are
read or loaded have such kinds.  A protocol of such interfaces is read back with the same ones under
the same keys, and no other protocol is.  Settings are read back with the set of names sorted. -/
theorem json_round_trips :
    (∀ i : Interface, (ReadsBack Interface.toJson Interface.ofJson? i ↔ i.Canonical) ∧
      i.WrittenPlainly) ∧
    (∀ (j : Json) (i : Interface), Interface.ofJson? j = some i →
      i.Canonical ∧ ReadsBack Interface.toJson Interface.ofJson? i) ∧
    (∀ (o : Origin) (text : String) (p : Protocol), Protocol.load o text = .ok p →
      p.Inserted ∧ ∀ i ∈ p.interfaces, i.Canonical) ∧
    (∀ p : Protocol, p.Inserted → (∀ i ∈ p.interfaces, i.Canonical) →
      ∀ j, p.toJson.Rearranged j → ∃ q, p.ReadAs j q ∧ ∀ key, q.get? key = p.get? key) ∧
    (∀ p : Protocol, p.Inserted → ∀ j, p.toJson.Rearranged j →
      ∃ q, p.ReadAs j q ∧ ((∀ key, q.get? key = p.get? key) → ∀ i ∈ p.interfaces, i.Canonical)) ∧
    (∀ settings : Settings, ReadsBack Settings.toJson Settings.ofJson? settings) ∧
    ∀ (j : Json) (settings : Settings), Settings.ofJson? j = some settings →
      ∃ given names, required? (list? string?) "hand_maintained"
          (j.record ["namespace_prefix", "hand_maintained", "output"] []) = some given ∧
        settings.toJson.field? "hand_maintained" = some (strings names) ∧
        names.Pairwise (· < ·) ∧ ∀ name, name ∈ names ↔ name ∈ given := by
  refine ⟨fun i => ⟨i.readsBack_iff_canonical, i.writtenPlainly⟩, fun j i read => ?_,
    fun o text p loaded => ⟨Protocol.inserted_of_load loaded, Protocol.canonical_of_load loaded⟩,
    fun p made canonical j moved => ?_, fun p made j moved => ?_, fun settings => ?_,
    fun j settings read => ?_⟩
  · have canonical := Interface.canonical_of_ofJson? read
    exact ⟨canonical, Interface.readsBack_iff_canonical.mpr canonical⟩
  · obtain ⟨q, as, mapped⟩ := Protocol.exists_readAs made moved
    exact ⟨q, as, mapped.mpr canonical⟩
  · obtain ⟨q, as, mapped⟩ := Protocol.exists_readAs made moved
    exact ⟨q, as, mapped.mp⟩
  · exact (readsBack_iff Settings.unordered_ofJson?).mpr settings.ofJson?_toJson
  · obtain ⟨given, readGiven, same⟩ := Settings.handMaintained_of_ofJson? read
    exact ⟨given, settings.handMaintained.toList, readGiven, rfl, settings.handMaintained.sorted,
      same⟩

/-- The JSON of a protocol with all fields of its two outer objects in reverse order. -/
def seatJson : Json :=
  .object [("interfaces",
      .object (seatProtocol.entries.map fun (key, i) => (key, i.toJson)).reverse),
    ("name", .null)]

def keyboardInterface : Interface where
  name := "keyboard"
  version := 1
  events := [{ name := "enter", args := [{ name := "serial", kind := .uint }] }]

/-- An interface as an array, and in it an event and an argument as arrays. -/
def keyboardJson : Json :=
  .array [.string "keyboard", .nat 1, .null, .array [],
    .array [.array [.string "enter", .array [.array [.string "serial", .string "uint", .null]]]],
    .array []]

theorem json_round_trips_seat :
    (seatProtocol.toJson.Rearranged seatJson ∧
      ∃ q, Protocol.ofJson? seatJson = some q ∧ q.name = none ∧
        ∀ key, q.get? key = seatProtocol.get? key) ∧
      Interface.ofJson? keyboardJson = some keyboardInterface ∧
        ReadsBack Interface.toJson Interface.ofJson? keyboardInterface := by
  obtain ⟨-, interfaces, load, protocols, -⟩ := json_round_trips
  constructor
  · have moved : seatProtocol.toJson.Rearranged seatJson := by
      refine .object (by decide) (.swap _ _ _) rfl (.cons ?_ (.cons (.refl _) .nil))
      refine .object (by decide) (List.reverse_perm _).symm rfl ?_
      exact List.forall₂_same.mpr fun j _ => .refl j
    have loaded := Protocol.load_document (p := seatProtocol) ⟨"seat.xml", "wl_"⟩
      (by decide +kernel)
    obtain ⟨made, canonical⟩ := load _ _ _ loaded
    obtain ⟨q, as, same⟩ := protocols _ made canonical seatJson moved
    exact ⟨moved, q, as.read, as.name, same⟩
  · have read : Interface.ofJson? keyboardJson = some keyboardInterface := by decide +kernel
    exact ⟨read, (interfaces _ _ read).2⟩

end WireProxy
