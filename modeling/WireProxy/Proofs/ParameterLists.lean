import WireProxy.Proofs.Calls
import WireProxy.Proofs.FreeName
import WireProxy.Proofs.Texts

/-!
# Parameter lists

A declaration shows the parameters of its method between brackets, with a comma and a space between
each two of them.  If no name and no type has a bracket or a comma of its own, the list is found
again by the outermost brackets, and its items by the commas.
-/

namespace WireProxy

open Xml (after? cut?)

namespace Code

/-- What stands between the first opening bracket and the last closing one. -/
def bracketed? (t : String) : Option String := do
  let (_, behind) ← cut? ['('] t.toList
  let (_, inside) ← cut? [')'] behind.reverse
  some (String.ofList inside.reverse)

/-- The text cut at every comma that a space follows. -/
def cutAtCommas : List Char → List (List Char)
  | ',' :: ' ' :: rest => [] :: cutAtCommas rest
  | c :: rest => (cutAtCommas rest).modifyHead (c :: ·)
  | [] => [[]]

/-- The items of a list; the empty text lists none. -/
def readItems (list : String) : List String :=
  if list = "" then [] else (cutAtCommas list.toList).map String.ofList

/-- Neither a bracket nor a comma is in the text. -/
def Listable (s : String) : Prop :=
  ∀ c ∈ s.toList, c ≠ '(' ∧ c ≠ ')' ∧ c ≠ ','

instance (s : String) : Decidable (Listable s) :=
  List.decidableBAll (fun c => c ≠ '(' ∧ c ≠ ')' ∧ c ≠ ',') s.toList

end Code

open Code

def Argument.strings (arg : Argument) : List String :=
  arg.name :: arg.kind.token :: arg.interface.toList

/-- All that a document says of a request in words of its own. -/
def Request.strings (r : Request) : List String :=
  r.name :: r.args.flatMap (·.strings)

/-- What stands between the type and the name of a parameter. -/
def Passing.mark : Passing → String
  | value => " "
  | outRef => " &"

/-- The declaration of the method shows one item per parameter.  For a new object these are two if
it is untyped and none if it is typed; every other argument has one. -/
structure Method.Lists (r : Request) (m : Method) (list : String) : Prop where
  between : bracketed? m.declaration = some list
  empty_iff : list = "" ↔ m.params = []
  items : readItems list =
    m.params.map fun param => param.type.spelling ++ param.passing.mark ++ param.name
  count : (readItems list).length =
    r.args.length - r.args.countP (·.isNewObject) + 2 * r.args.countP (·.isUntypedNewObject)

/-! ## Joined items -/

theorem Xml.cut?_singleton {mark : Char} {before : List Char} (absent : mark ∉ before)
    (behind : List Char) : cut? [mark] (before ++ mark :: behind) = some (before, behind) := by
  induction before with
  | nil => simp [cut?]
  | cons c before ih =>
      rw [List.mem_cons, not_or] at absent
      have later : after? [mark] (c :: (before ++ mark :: behind)) = none := by
        simp [after?, absent.1]
      rw [List.cons_append, cut?, later, ih absent.2]
      rfl

namespace Code

/-- Brackets within the list do not matter, since only the outermost ones are looked for. -/
theorem bracketed?_append {before after : String} (first : '(' ∉ before.toList)
    (last : ')' ∉ after.toList) (list : String) :
    bracketed? (before ++ "(" ++ list ++ ")" ++ after) = some list := by
  have opened : cut? ['('] (before ++ "(" ++ list ++ ")" ++ after).toList =
      some (before.toList, list.toList ++ ')' :: after.toList) := by
    rw [← Xml.cut?_singleton first]
    simp
  have closed : cut? [')'] (list.toList ++ ')' :: after.toList).reverse =
      some (after.toList.reverse, list.toList.reverse) := by
    rw [← Xml.cut?_singleton (by simpa using last)]
    simp
  simp only [bracketed?, opened, closed, Option.bind_eq_bind, Option.bind_some,
    List.reverse_reverse, String.ofList_toList]

theorem cutAtCommas_of_notMem {item : List Char} (plain : ',' ∉ item) :
    cutAtCommas item = [item] := by
  fun_induction cutAtCommas item with
  | case1 rest ih => simp at plain
  | case2 c rest _ ih =>
      rw [ih fun member => plain (List.mem_cons_of_mem c member), List.modifyHead_cons]
  | case3 => rfl

theorem cutAtCommas_append {item : List Char} (plain : ',' ∉ item) (rest : List Char) :
    cutAtCommas (item ++ ',' :: ' ' :: rest) = item :: cutAtCommas rest := by
  induction item with
  | nil => rfl
  | cons c item ih =>
      rw [List.mem_cons, not_or] at plain
      rw [List.cons_append, cutAtCommas, ih plain.2, List.modifyHead_cons]
      -- The mark does not begin at `c`.
      rintro others rfl
      exact absurd rfl plain.1

theorem toList_commaSeparated_cons (item next : String) (rest : List String) :
    (commaSeparated (item :: next :: rest)).toList =
      item.toList ++ ',' :: ' ' :: (commaSeparated (next :: rest)).toList := by
  simp [commaSeparated, String.intercalate_cons_cons]

theorem cutAtCommas_commaSeparated {items : List String} (some : items ≠ [])
    (plain : ∀ item ∈ items, ',' ∉ item.toList) :
    (cutAtCommas (commaSeparated items).toList).map String.ofList = items := by
  induction items with
  | nil => exact absurd rfl some
  | cons item rest ih =>
      obtain ⟨first, others⟩ := List.forall_mem_cons.mp plain
      cases rest with
      | nil => simp [commaSeparated, cutAtCommas_of_notMem first]
      | cons next rest =>
          rw [toList_commaSeparated_cons, cutAtCommas_append first, List.map_cons,
            ih (List.cons_ne_nil _ _) others, String.ofList_toList]

theorem commaSeparated_eq_empty {items : List String} (filled : ∀ item ∈ items, item ≠ "") :
    commaSeparated items = "" ↔ items = [] := by
  match items with
  | [] => simp [commaSeparated]
  | [item] => simpa [commaSeparated] using filled
  | item :: next :: rest =>
      rw [← String.toList_inj, toList_commaSeparated_cons]
      simp

theorem readItems_commaSeparated {items : List String} (filled : ∀ item ∈ items, item ≠ "")
    (plain : ∀ item ∈ items, ',' ∉ item.toList) : readItems (commaSeparated items) = items := by
  unfold readItems
  split
  · next isEmpty => rw [(commaSeparated_eq_empty filled).mp isEmpty]
  · next notEmpty =>
      rw [commaSeparated_eq_empty filled] at notEmpty
      exact cutAtCommas_commaSeparated notEmpty plain

/-! ## Texts without brackets and commas -/

theorem Listable.append {s t : String} (first : Listable s) (second : Listable t) :
    Listable (s ++ t) := by
  intro c member
  rw [String.toList_append, List.mem_append] at member
  exact member.elim (first c) (second c)

theorem listable_spellingTexts : ∀ s ∈ spellingTexts, Listable s := by
  decide +kernel

theorem listable_freeName {base : String} (listable : Listable base) (used : List String) :
    Listable (freeName base used) := by
  obtain ⟨n, name, -⟩ := freeName_spec base used
  intro c member
  rw [name, toList_underscored, List.mem_append] at member
  rcases member with inBase | isAdded
  · exact listable c inBase
  · rw [List.eq_of_mem_replicate isAdded]
    decide

end Code

/-! ## Parameters -/

namespace Parameter

theorem spelling_eq (param : Parameter) :
    param.spelling = param.type.spelling ++ param.passing.mark ++ param.name := by
  unfold spelling
  cases param.passing <;> rfl

theorem spelling_ne_empty (param : Parameter) : param.spelling ≠ "" := by
  rw [spelling_eq, ← String.toList_inj.ne]
  cases param.passing <;> simp [Passing.mark]

end Parameter

namespace Argument

variable {arg : Argument} (handle version : String)

/-- A new object loses the place of its argument; an untyped one gets two others. -/
theorem length_parameters (arg : Argument) :
    (arg.parameters handle version).length + (if arg.isNewObject then 1 else 0) =
      1 + 2 * (if arg.isUntypedNewObject then 1 else 0) := by
  unfold parameters isUntypedNewObject
  cases arg.isNewObject <;> cases arg.interface <;> rfl

theorem listable_valueType (listable : ∀ s ∈ arg.strings, Listable s) :
    ∀ s ∈ arg.valueType.strings, Listable s := by
  simp only [strings, List.forall_mem_cons, Option.mem_toList] at listable
  obtain ⟨-, token, interface⟩ := listable
  unfold valueType
  cases refers : arg.interface with
  | some target => exact List.forall_mem_singleton.mpr (interface target refers)
  | none =>
      cases kind : arg.kind with
      | other unknown =>
          rw [kind] at token
          exact List.forall_mem_singleton.mpr token
      | _ => simp [ValueType.strings]

theorem listable_parameters (listable : ∀ s ∈ arg.strings, Listable s) (isHandle : Listable handle)
    (isVersion : Listable version) :
    ∀ param ∈ arg.parameters handle version, ∀ s ∈ param.strings, Listable s := by
  unfold parameters
  split
  · simp [Parameter.strings, ValueType.strings, isHandle, isVersion]
  · split
    · simp
    · rw [List.forall_mem_singleton]
      exact List.forall_mem_cons.mpr ⟨listable _ List.mem_cons_self, listable_valueType listable⟩

end Argument

namespace Request

variable {r : Request}

theorem length_parameters (r : Request) :
    r.parameters.length =
      r.args.length - r.args.countP (·.isNewObject) + 2 * r.args.countP (·.isUntypedNewObject) := by
  have balance (args : List Argument) :
      (args.flatMap (·.parameters r.handleName r.versionName)).length +
          args.countP (·.isNewObject) =
        args.length + 2 * args.countP (·.isUntypedNewObject) := by
    induction args with
    | nil => rfl
    | cons arg args ih =>
        have first := arg.length_parameters r.handleName r.versionName
        simp only [List.flatMap_cons, List.length_append, List.length_cons, List.countP_cons]
        omega
  have fewer : r.args.countP (·.isNewObject) ≤ r.args.length := List.countP_le_length
  have all := balance r.args
  unfold parameters
  omega

theorem listable_spelling (listable : ∀ s ∈ r.strings, Listable s) :
    ∀ param ∈ r.parameters, Listable param.spelling := by
  obtain ⟨-, args⟩ := List.forall_mem_cons.mp listable
  rw [List.forall_mem_flatMap] at args
  intro param member
  obtain ⟨arg, isArgument, added⟩ := List.mem_flatMap.mp member
  refine Parameter.spelling_of (fun _ _ => .append) listable_spellingTexts ?_
  exact Argument.listable_parameters _ _ (args arg isArgument)
    (listable_freeName (by decide) _) (listable_freeName (by decide) _) param added

theorem listable_returnType (returns : r.ReturnsNewObject) (listable : ∀ s ∈ r.strings, Listable s)
    (stem : String) : Listable (r.method stem).returnType := by
  obtain ⟨-, args⟩ := List.forall_mem_cons.mp listable
  rw [List.forall_mem_flatMap] at args
  refine Method.returnType_of (fun _ _ => .append) listable_spellingTexts fun type found => ?_
  obtain ⟨arg, result, rfl⟩ := Option.map_eq_some_iff.mp found
  exact Argument.listable_valueType (args arg (mem_of_result returns result).1)

theorem lists (returns : r.ReturnsNewObject) (listable : ∀ s ∈ r.strings, Listable s)
    (stem : String) : (r.method stem).Lists r (r.method stem).parameterList := by
  have filled : ∀ item ∈ r.parameters.map (·.spelling), item ≠ "" := by
    rw [List.forall_mem_map]
    exact fun param _ => param.spelling_ne_empty
  have plain : ∀ item ∈ r.parameters.map (·.spelling), ',' ∉ item.toList := by
    rw [List.forall_mem_map]
    exact fun param member comma => (listable_spelling listable param member _ comma).2.2 rfl
  have items : readItems (r.method stem).parameterList = r.parameters.map (·.spelling) :=
    readItems_commaSeparated filled plain
  have head : Listable ((r.method stem).returnType ++ " " ++ r.name) :=
    ((listable_returnType returns listable stem).append (by decide)).append
      (listable r.name List.mem_cons_self)
  refine ⟨?_, ?_, ?_, ?_⟩
  · rw [Method.declaration, show ");" = ")" ++ ";" from rfl, ← String.append_assoc]
    exact bracketed?_append (fun opened => (head _ opened).1 rfl) (by decide) _
  · exact (commaSeparated_eq_empty filled).trans List.map_eq_nil_iff
  · rw [items]
    exact List.map_congr_left fun param _ => param.spelling_eq
  · rw [items, List.length_map]
    exact r.length_parameters

end Request

theorem Protocol.load_parameters_listed {o : Origin} {text : String} {p : Protocol} {i : Interface}
    (loaded : Protocol.load o text = .ok p) (member : i ∈ p.interfaces) (stem : String)
    (access : Access) :
    List.Forall₂ (fun r m => (∀ s ∈ r.strings, Listable s) → ∃ list, Method.Lists r m list)
      i.requests (i.proxy stem access).methods := by
  have returns := Protocol.returnsNewObject_of_load loaded member
  rw [Interface.proxy, List.forall₂_map_right_iff, List.forall₂_same]
  intro r isRequest listable
  exact ⟨_, Request.lists (returns r isRequest) listable stem⟩

/-- An argument has neither a name nor a type, and another one looks like a reference.  The second
request has no parameter. -/
def portalInterface : Interface where
  name := "portal"
  requests :=
    [{ name := "import", opcode := 0, result := some ⟨"id", .newId, none, false⟩,
       args := [⟨"", .other "", none, false⟩, ⟨"id", .newId, none, false⟩,
        ⟨"&size", .other "const char *", none, false⟩,
        ⟨"interface", .object, some "seat", true⟩] },
      { name := "sync", opcode := 1, result := some ⟨"done", .newId, some "callback", false⟩,
        args := [⟨"done", .newId, some "callback", false⟩] }]

def portalProtocol : Protocol where
  name := none
  entries := [("portal", portalInterface)]
  keys_nodup := by decide

theorem Protocol.load_parameters_listed_portal :
    Protocol.load ⟨"portal.xml", "wl_"⟩ (portalProtocol.document "wl_") = .ok portalProtocol ∧
      (∀ r ∈ portalInterface.requests, ∀ s ∈ r.strings, Listable s) ∧
      ∃ imports sync list,
        (portalInterface.proxy "wl_" portalProtocol.access).methods = [imports, sync] ∧
        bracketed? imports.declaration = some list ∧
        readItems list = [" ", "proxy_t &interface_", "uint32_t version", "const char * &size",
          "seat_t interface"] ∧
        bracketed? sync.declaration = some "" := by
  have loaded := Protocol.load_document (p := portalProtocol) ⟨"portal.xml", "wl_"⟩
    (by decide +kernel)
  have listable : ∀ r ∈ portalInterface.requests, ∀ s ∈ r.strings, Listable s := by
    decide +kernel
  have listed := Protocol.load_parameters_listed loaded (i := portalInterface)
    (List.mem_singleton_self _) "wl_" portalProtocol.access
  obtain ⟨imports, rest, first, others, methods⟩ := List.forall₂_cons_left_iff.mp listed
  obtain ⟨sync, rest, second, following, rfl⟩ := List.forall₂_cons_left_iff.mp others
  obtain rfl := List.forall₂_nil_left_iff.mp following
  obtain ⟨list, shown⟩ := first (listable _ (by decide))
  obtain ⟨none, empty⟩ := second (listable _ (by decide))
  obtain ⟨rfl, same⟩ := List.cons.inj methods
  obtain ⟨rfl, -⟩ := List.cons.inj same
  refine ⟨loaded, listable, _, _, list, methods, shown.between, ?_, ?_⟩
  · rw [shown.items]
    decide +kernel
  · rw [empty.between, empty.empty_iff.mpr (by decide +kernel)]

end WireProxy
