import Mathlib.Tactic.MkIffOfInductiveProp
import WireProxy.Proofs.Characters
import WireProxy.Proofs.Opcodes

/-!
# Well-formed protocols

What holds of every protocol that is loaded from a document: names that a document can spell, no
request of the reserved name, opcodes that count the requests, and results that are the new objects
of their requests.
-/

namespace WireProxy

open Xml (isText)

namespace ArgumentKind

/-- The tokens that name a kind. -/
def knownTokens : List String :=
  ["int", "uint", "fixed", "string", "object", "new_id", "fd", "array"]

theorem ofToken_eq_other {token rest : String} :
    ofToken token = .other rest ↔ rest = token ∧ token ∉ knownTokens := by
  constructor
  · intro unknown
    have same : (ofToken token).token = rest := by
      rw [unknown]
      rfl
    rw [token_ofToken] at same
    refine ⟨same.symm, fun known => ?_⟩
    simp only [knownTokens, List.mem_cons, List.not_mem_nil, or_false] at known
    rcases known with rfl | rfl | rfl | rfl | rfl | rfl | rfl | rfl
    all_goals cases unknown
  · rintro ⟨rfl, unknown⟩
    simp only [knownTokens, List.mem_cons, List.not_mem_nil, or_false, not_or] at unknown
    simp [ofToken, unknown]

end ArgumentKind

/-- A kind that is kept as a token can be spelled, and is none of the kinds that have a name. -/
def ArgumentKind.WellFormed : ArgumentKind → Prop
  | .other token => isText token = true ∧ token ∉ knownTokens
  | _ => True

instance : (kind : ArgumentKind) → Decidable kind.WellFormed
  | .other _ => inferInstanceAs (Decidable (_ ∧ _))
  | .int | .uint | .fixed | .string | .object | .newId | .fd | .array => isTrue trivial

namespace ArgumentKind

theorem wellFormed_ofToken {token : String} (text : isText token = true) :
    (ofToken token).WellFormed := by
  cases unknown : ofToken token with
  | other rest =>
      obtain ⟨rfl, foreign⟩ := ofToken_eq_other.mp unknown
      exact ⟨text, foreign⟩
  | _ => trivial

theorem ofToken_token {kind : ArgumentKind} (wellFormed : kind.WellFormed) :
    ofToken kind.token = kind := by
  cases kind with
  | other token => exact ofToken_eq_other.mpr ⟨rfl, wellFormed.2⟩
  | _ => rfl

theorem isText_token {kind : ArgumentKind} (wellFormed : kind.WellFormed) :
    isText kind.token = true := by
  cases kind with
  | other token => exact wellFormed.1
  | _ => decide

end ArgumentKind

@[mk_iff] structure Argument.WellFormed (arg : Argument) : Prop where
  name : isText arg.name = true
  kind : arg.kind.WellFormed
  interface : ∀ target ∈ arg.interface, isText target = true

instance (arg : Argument) : Decidable arg.WellFormed :=
  decidable_of_iff' _ arg.wellFormed_iff

@[mk_iff] structure Message.WellFormed (message : Message) : Prop where
  name : isText message.name = true
  args : ∀ arg ∈ message.args, arg.WellFormed

instance (message : Message) : Decidable message.WellFormed :=
  decidable_of_iff' _ message.wellFormed_iff

/-- The result of the request is its new object, of which it has one at most. -/
def Request.ReturnsNewObject (r : Request) : Prop :=
  r.args.filter (·.isNewObject) = r.result.toList

instance (r : Request) : Decidable r.ReturnsNewObject :=
  inferInstanceAs (Decidable (_ = _))

@[mk_iff] structure Request.WellFormed (r : Request) : Prop where
  message : r.toMessage.WellFormed
  ordinary : r.name ≠ "destroy"
  returns : r.ReturnsNewObject

instance (r : Request) : Decidable r.WellFormed :=
  decidable_of_iff' _ r.wellFormed_iff

@[mk_iff] structure Enumeration.WellFormed (enumeration : Enumeration) : Prop where
  name : isText enumeration.name = true
  entries : ∀ entry ∈ enumeration.entries, isText entry.name = true ∧ isText entry.value = true

instance (enumeration : Enumeration) : Decidable enumeration.WellFormed :=
  decidable_of_iff' _ enumeration.wellFormed_iff

@[mk_iff] structure Interface.WellFormed (i : Interface) : Prop where
  name : isText i.name = true
  requests : ∀ r ∈ i.requests, r.WellFormed
  opcodes : i.requests.map (·.opcode.toNat) = List.range i.requests.length
  destroy : ∀ number ∈ i.destroyOpcode.map (·.toNat), number ≤ i.requests.length
  events : ∀ event ∈ i.events, event.WellFormed
  enums : ∀ enumeration ∈ i.enums, enumeration.WellFormed

instance (i : Interface) : Decidable i.WellFormed :=
  decidable_of_iff' _ i.wellFormed_iff

@[mk_iff] structure Protocol.WellFormed (p : Protocol) : Prop where
  name : ∀ name ∈ p.name, isText name = true
  keyed : ∀ entry ∈ p.entries, entry.1 = entry.2.name
  distinct : (p.interfaces.map (·.name)).Nodup
  interfaces : ∀ i ∈ p.interfaces, i.WellFormed

instance (p : Protocol) : Decidable p.WellFormed :=
  decidable_of_iff' _ p.wellFormed_iff

namespace Loading

open Xml (Element)

variable {o : Origin} {interfaceName owner : String} {e : Element}

theorem isText_stripStem {stem name : String} (text : isText name = true) :
    isText (stripStem stem name) = true := by
  unfold stripStem
  split
  · simp only [isText, String.toList_ofList, List.all_eq_true] at text ⊢
    intro c member
    exact text c (List.mem_of_mem_drop member)
  · exact text

theorem wellFormed_argument (clean : e.Clean) {arg : Argument}
    (scanned : argument o interfaceName owner e = .ok arg) : arg.WellFormed := by
  obtain ⟨named, ⟨token, typed, kind⟩, interface, -⟩ := argument_eq_ok.mp scanned
  refine ⟨clean.attribute? named, ?_, ?_⟩
  · rw [kind]
    exact ArgumentKind.wellFormed_ofToken (clean.attribute? typed)
  · intro target refers
    rw [interface] at refers
    obtain ⟨raw, given, rfl⟩ := Option.map_eq_some_iff.mp refers
    exact isText_stripStem (clean.attribute? given)

theorem wellFormed_arguments (clean : e.Clean) {args : List Argument}
    (scanned : arguments o interfaceName owner e = .ok args) : ∀ arg ∈ args, arg.WellFormed := by
  intro arg member
  obtain ⟨child, isChild, found⟩ := exists_of_forall₂ (arguments_eq_ok.mp scanned) member
  exact wellFormed_argument (clean.child isChild) found

theorem returnsNewObject_request {r : Request} {name : String} {opcode : UInt32}
    (scanned : request o interfaceName name opcode e = .ok r) : r.ReturnsNewObject := by
  obtain ⟨-, -, -, few, result⟩ := request_eq_ok.mp scanned
  unfold Request.ReturnsNewObject
  rw [result]
  generalize r.args.filter (·.isNewObject) = created at few
  match created with
  | [] => rfl
  | [arg] => rfl
  | first :: second :: others => simp at few

/-- What is recorded for the destroy request counts requests that are scanned. -/
theorem recorded_of_requests {next : UInt32} {destroy recorded : Option UInt32}
    {es : List Element} {rs : List Request}
    (scanned : requests o interfaceName next destroy es = .ok (rs, recorded)) :
    recorded = destroy ∨ ∃ k ≤ rs.length, recorded = some (next + .ofNat k) := by
  induction es generalizing next destroy rs with
  | nil =>
      obtain ⟨-, rfl⟩ := requests_nil_eq_ok.mp scanned
      exact .inl rfl
  | cons e es ih =>
      obtain ⟨-, -, following⟩ | ⟨r, others, -, -, -, following, rfl⟩ :=
        requests_cons_eq_ok.mp scanned
      · right
        rcases ih following with rfl | counted
        · exact ⟨0, Nat.zero_le _, by simp⟩
        · exact counted
      · rcases ih following with same | ⟨k, few, rfl⟩
        · exact .inl same
        · refine .inr ⟨k + 1, by simpa using few, ?_⟩
          rw [UInt32.ofNat_add, UInt32.add_assoc, UInt32.add_comm 1]
          rfl

theorem wellFormed_interface (clean : e.Clean) {i : Interface} (scanned : interface o e = .ok i)
    (few : i.requests.length < Text.wordLimit) : i.WellFormed := by
  obtain ⟨named, -, requested, evented, enumerated⟩ := interface_eq_ok.mp scanned
  obtain ⟨raw, named, stripped⟩ := interfaceName_eq_ok.mp named
  refine ⟨?_, ?_, ?_, ?_, ?_, ?_⟩
  · rw [← stripped]
    exact isText_stripStem (clean.attribute? named)
  · intro r member
    obtain ⟨child, isChild, opcode, named, ordinary, found⟩ :=
      exists_element_of_requests requested member
    have childClean := clean.child isChild
    obtain ⟨-, -, args, -⟩ := request_eq_ok.mp found
    exact ⟨⟨childClean.attribute? named, wellFormed_arguments childClean args⟩, ordinary,
      returnsNewObject_request found⟩
  · exact map_toNat_opcodes few requested
  · intro number recorded
    rcases recorded_of_requests requested with absent | ⟨k, bound, counted⟩
    · rw [absent] at recorded
      cases recorded
    · rw [counted, Option.map_some, Option.mem_some_iff] at recorded
      rw [← recorded, toNat_zero_add_ofNat (by omega)]
      exact bound
  · intro event member
    obtain ⟨child, isChild, found⟩ := exists_of_forall₂ evented member
    obtain ⟨named, args⟩ := event_eq_ok.mp found
    have childClean := clean.child isChild
    exact ⟨childClean.attribute? named, wellFormed_arguments childClean args⟩
  · intro enumeration member
    obtain ⟨child, isChild, found⟩ := exists_of_forall₂ enumerated member
    obtain ⟨named, entries⟩ := enumeration_eq_ok.mp found
    have childClean := clean.child isChild
    refine ⟨childClean.attribute? named, fun entry member => ?_⟩
    obtain ⟨entryElement, isEntry, found⟩ := exists_of_forall₂ entries member
    obtain ⟨named, valued⟩ := enumEntry_eq_ok.mp found
    have entryClean := childClean.child isEntry
    exact ⟨entryClean.attribute? named, entryClean.attribute? valued⟩

end Loading

theorem Protocol.nodup_names_of_load {o : Origin} {text : String} {p : Protocol}
    (loaded : Protocol.load o text = .ok p) : (p.interfaces.map (·.name)).Nodup := by
  obtain ⟨root, -, -, -, -, entries⟩ := Protocol.load_eq_ok.mp loaded
  have nodup := p.keys_nodup
  rw [entries] at nodup
  simpa [Function.comp_def] using nodup

theorem Protocol.wellFormed_of_load {o : Origin} {text : String} {p : Protocol}
    (loaded : Protocol.load o text = .ok p)
    (few : ∀ i ∈ p.interfaces, i.requests.length < Text.wordLimit) : p.WellFormed := by
  obtain ⟨root, parsed, -, name, scanned, entries⟩ := Protocol.load_eq_ok.mp loaded
  have clean := Xml.root?_clean parsed
  refine ⟨?_, ?_, Protocol.nodup_names_of_load loaded, ?_⟩
  · intro given named
    exact clean.attribute? (name.symm.trans named)
  · intro entry member
    rw [entries] at member
    obtain ⟨i, -, rfl⟩ := List.mem_map.mp member
    rfl
  · intro i member
    obtain ⟨e, isChild, found⟩ := exists_of_forall₂ scanned member
    exact Loading.wellFormed_interface (clean.child isChild) found (few i member)

end WireProxy
