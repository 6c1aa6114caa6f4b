import WireProxy.Proofs.ParameterNames
import WireProxy.Proofs.Printing
import WireProxy.Proofs.Spans

/-!
# Names in the body of a method

The body of a method that makes an object declares a variable for it.  Its name is fixed, and so is
not searched for among the names of the arguments as those of added parameters are.  The names in a
body mean what the call means by them as long as no parameter has the name of the variable, which
only an ordinary argument can bring about.
-/

namespace WireProxy

open Xml (after? cut?)

/-- What a name in a body can stand for. -/
inductive Referent where
  | parameter (name : String)
  | object
  deriving DecidableEq, Repr

namespace Code

/-- A part of a body: fixed text, the declaration of a name, or a name with what is meant by it. -/
inductive Piece where
  | fixed (text : String)
  | declaration (name : String)
  | mention (name : String) (meant : Referent)
  deriving DecidableEq, Repr

def Piece.spelling : Piece → String
  | fixed text => text
  | declaration name => name
  | mention name _ => name

def Piece.mention? : Piece → Option (String × Referent)
  | mention name meant => some (name, meant)
  | _ => none

def spelled (pieces : List Piece) : String :=
  String.join (pieces.map (·.spelling))

def separated : List (List Piece) → List Piece
  | [] => []
  | [last] => last
  | item :: rest => item ++ .fixed ", " :: separated rest

/-- The name that a body declares for the object that it makes. -/
def declaredObject? (body : String) : Option String := do
  let rest ← after? "  proxy_t ".toList body.toList
  let (name, _) ← cut? " = marshal_constructor(".toList rest
  some (String.ofList name)

end Code

open Code

def Operand.pieces : Operand → List Piece
  | arg param | version param => [.mention param (.parameter param)]
  | handleName param =>
      [.fixed "std::string(", .mention param (.parameter param), .fixed ".interface->name)"]
  | newObject => [.fixed "NULL"]

def Target.pieces : Target → List Piece
  | descriptor symbol => [.fixed "&", .fixed symbol]
  | fromHandle param => [.mention param (.parameter param), .fixed ".interface"]

/-- The body of a method, whose object, if it makes one, has a given name. -/
def Call.pieces (object : String) : Call → List Piece
  | send opcode operands =>
      .fixed "  marshal(" ::
        separated ([.fixed (toString opcode.toNat)] :: operands.map (·.pieces)) ++ [.fixed ");\n"]
  | construct opcode target operands backfill =>
      [.fixed "  proxy_t ", .declaration object, .fixed " = marshal_constructor("] ++
        separated
          ([.fixed (toString opcode.toNat)] :: target.pieces :: operands.map (·.pieces)) ++
        [.fixed ");\n"] ++
        backfill.toList.flatMap (fun handle =>
          [.fixed "  ", .mention handle (.parameter handle), .fixed " = ",
            .mention object .object, .fixed ";\n"]) ++
        [.fixed "  return ", .mention object .object, .fixed ";\n"]

/-- The names that a body uses, each with what is meant by it. -/
def Call.mentions (object : String) (call : Call) : List (String × Referent) :=
  (call.pieces object).filterMap (·.mention?)

/-- What a name stands for in a body that declares `object`, which hides a parameter of that
name. -/
def Method.referent? (m : Method) (object name : String) : Option Referent :=
  if name = object then some .object
  else if name ∈ m.params.map (·.name) then some (.parameter name)
  else none

/-! ## Spelling -/

namespace Code

theorem spelled_append (first second : List Piece) :
    spelled (first ++ second) = spelled first ++ spelled second := by
  rw [spelled, List.map_append, String.join_append]
  rfl

theorem spelled_cons (piece : Piece) (rest : List Piece) :
    spelled (piece :: rest) = piece.spelling ++ spelled rest := by
  rw [spelled, List.map_cons, String.join_cons]
  rfl

theorem spelled_separated (items : List (List Piece)) :
    spelled (separated items) = commaSeparated (items.map spelled) := by
  unfold commaSeparated
  fun_induction separated items with
  | case1 => rfl
  | case2 last => simp
  | case3 item rest more ih =>
      obtain ⟨next, rest, rfl⟩ := List.exists_cons_of_ne_nil more
      rw [spelled_append, spelled_cons, ih]
      simp only [List.map_cons]
      rw [String.intercalate_cons_cons, String.append_assoc]
      rfl

theorem filterMap_mention?_separated (items : List (List Piece)) :
    (separated items).filterMap (·.mention?) = items.flatMap (·.filterMap (·.mention?)) := by
  fun_induction separated items with
  | case1 => rfl
  | case2 last => rw [List.flatMap_singleton]
  | case3 item rest more ih =>
      rw [List.filterMap_append, List.filterMap_cons_none rfl, ih, List.flatMap_cons]

end Code

theorem Operand.spelled_pieces (operand : Operand) : spelled operand.pieces = operand.spelling := by
  cases operand <;> simp [pieces, spelled, Piece.spelling, spelling, String.append_assoc]

theorem Target.spelled_pieces (target : Target) : spelled target.pieces = target.spelling := by
  cases target <;> simp [pieces, spelled, Piece.spelling, spelling]

namespace Call

/-- The printed body is the one in which the object is called `p`. -/
theorem text_lines (call : Call) : text call.lines = spelled (call.pieces "p") := by
  have values (operands : List Operand) :
      (operands.map (·.pieces)).map spelled = operands.map (·.spelling) := by
    rw [List.map_map]
    exact List.map_congr_left fun operand _ => operand.spelled_pieces
  have number (n : Nat) : spelled [.fixed (toString n)] = toString n := by
    simp [spelled, Piece.spelling]
  cases call with
  | send opcode operands =>
      simp only [lines, pieces, text_cons, spelled_cons, spelled_append, spelled_separated,
        List.map_cons, values, number, List.cons_append]
      simp [spelled, Piece.spelling, text, String.append_assoc]
  | construct opcode target operands backfill =>
      cases backfill <;>
      · simp only [lines, pieces, spelled_append, spelled_separated, List.map_cons, values,
          number, target.spelled_pieces, text_append]
        simp [spelled, Piece.spelling, text, ended, baseClass, String.append_assoc]

theorem declaredObject?_text_lines {call : Call} (made : call.isConstruct = true) :
    declaredObject? (text call.lines) = some "p" := by
  have declared (rest : String) :
      declaredObject? ("  proxy_t " ++ ("p" ++ (" = marshal_constructor(" ++ rest))) =
        some "p" := by
    simp only [declaredObject?, String.toList_append]
    rfl
  rw [text_lines]
  cases call with
  | send opcode operands => cases made
  | construct opcode target operands backfill =>
      simp only [pieces, List.append_assoc, List.cons_append, List.nil_append, spelled_cons,
        Piece.spelling]
      exact declared _

end Call

/-! ## Meaning -/

def Target.param? : Target → Option String
  | descriptor _ => none
  | fromHandle param => some param

/-- A name of a parameter by which that parameter is meant. -/
def parameterMention (name : String) : String × Referent :=
  (name, .parameter name)

theorem Operand.filterMap_mention?_pieces (operand : Operand) :
    operand.pieces.filterMap (·.mention?) = operand.param?.toList.map parameterMention := by
  cases operand <;> rfl

theorem Target.filterMap_mention?_pieces (target : Target) :
    target.pieces.filterMap (·.mention?) = target.param?.toList.map parameterMention := by
  cases target <;> rfl

theorem Call.mentions_construct (object : String) (opcode : UInt32) (target : Target)
    (operands : List Operand) (backfill : Option String) :
    (construct opcode target operands backfill).mentions object =
      (target.param?.toList ++ operands.filterMap (·.param?)).map parameterMention ++
        backfill.toList.flatMap (fun handle => [parameterMention handle, (object, .object)]) ++
        [(object, .object)] := by
  have values : (operands.map (·.pieces)).flatMap (·.filterMap (·.mention?)) =
      (operands.filterMap (·.param?)).map parameterMention := by
    rw [List.flatMap_map, List.filterMap_eq_flatMap_toList, List.map_flatMap]
    simp only [Operand.filterMap_mention?_pieces]
  rw [mentions, pieces]
  simp only [List.filterMap_append, filterMap_mention?_separated, List.flatMap_cons, values,
    target.filterMap_mention?_pieces, List.map_append, List.filterMap_flatMap]
  cases backfill <;> simp [Piece.mention?, parameterMention]

namespace Request

variable {r : Request} {arg : Argument}

theorem handleName_mem_parameters (member : arg ∈ r.args)
    (untyped : arg.isUntypedNewObject = true) :
    r.handleName ∈ r.parameters.map (·.name) := by
  rw [parameters, List.map_flatMap, List.mem_flatMap]
  refine ⟨arg, member, ?_⟩
  simp [Argument.parameters, untyped]

/-- A body that makes an object mentions every parameter and the object, and nothing else. -/
theorem mem_mentions_call (returns : r.ReturnsNewObject) (member : arg ∈ r.args)
    (isNew : arg.kind = .newId) (stem object : String) (mention : String × Referent) :
    mention ∈ (r.call stem).mentions object ↔
      mention ∈ (r.parameters.map (·.name)).map parameterMention ∨
        mention = (object, .object) := by
  have result := result_eq_some returns member isNew
  cases typed : arg.interface with
  | some interface =>
      have call : r.call stem =
          .construct r.opcode (.descriptor (descriptorSymbol stem interface)) r.operands none := by
        simp only [Request.call, result, typed]
      rw [call, Call.mentions_construct, r.filterMap_param?_operands]
      simp [Target.param?]
  | none =>
      have call : r.call stem =
          .construct r.opcode (.fromHandle r.handleName) r.operands (some r.handleName) := by
        simp only [Request.call, result, typed]
      have untyped : arg.isUntypedNewObject = true := by
        simp [Argument.isUntypedNewObject, arg.isNewObject_iff.mpr isNew, typed]
      have handle := List.mem_map_of_mem (f := parameterMention)
        (handleName_mem_parameters member untyped)
      rw [call, Call.mentions_construct, r.filterMap_param?_operands]
      simp only [Target.param?, Option.toList_some, List.cons_append, List.nil_append,
        List.map_cons, List.flatMap_singleton, List.mem_append, List.mem_cons, List.not_mem_nil,
        or_false]
      constructor
      · rintro (rfl | (given | rfl | rfl) | rfl)
        · exact .inl handle
        · exact .inl given
        · exact .inl handle
        · exact .inr rfl
        · exact .inr rfl
      · rintro (given | rfl)
        · exact .inr (.inl (.inl given))
        · exact .inr (.inr rfl)

/-- A name that is searched for begins with its base, so another name is that of an argument. -/
theorem mem_names_parameters_iff {name : String} (notHandle : ¬ handleBase.toList <+: name.toList)
    (notVersion : ¬ versionBase.toList <+: name.toList) :
    name ∈ r.parameters.map (·.name) ↔
      ∃ arg ∈ r.args, arg.isNewObject = false ∧ arg.name = name := by
  have handle : name ≠ r.handleName := by
    rintro rfl
    exact notHandle (prefix_freeName _ _)
  have version : name ≠ r.versionName := by
    rintro rfl
    exact notVersion (prefix_freeName _ _)
  rw [parameters, List.map_flatMap, List.mem_flatMap]
  refine exists_congr fun arg => and_congr_right fun _ => ?_
  cases isNew : arg.isNewObject with
  | false => simp [Argument.names_parameters_of_ordinary _ _ isNew, eq_comm]
  | true =>
      rcases Argument.names_parameters_of_isNewObject r.handleName r.versionName isNew with
        names | names
      all_goals simp [names, handle, version]

end Request

/-- Names mean what they should as long as the object does not hide a parameter. -/
theorem Method.notMem_params_iff {m : Method} {object : String}
    (mentions : ∀ mention, mention ∈ m.call.mentions object ↔
      mention ∈ (m.params.map (·.name)).map parameterMention ∨ mention = (object, .object)) :
    object ∉ m.params.map (·.name) ↔
      ∀ mention ∈ m.call.mentions object, m.referent? object mention.1 = some mention.2 := by
  constructor
  · intro apart mention used
    rcases (mentions mention).mp used with given | rfl
    · obtain ⟨name, isParameter, rfl⟩ := List.mem_map.mp given
      have other : name ≠ object := by
        rintro rfl
        exact apart isParameter
      have seen : m.referent? object name = some (.parameter name) := by
        rw [referent?, if_neg other, if_pos isParameter]
      exact seen
    · simp [referent?]
  · intro resolved isParameter
    have used := (mentions (parameterMention object)).mpr (.inl (List.mem_map_of_mem isParameter))
    have hidden := resolved _ used
    simp [referent?, parameterMention] at hidden

/-- The variable that a body declares for the object that it makes is a name of its own, and every
mention of a parameter or of the object means what the call means by it, just when no ordinary
argument is called like the variable. -/
theorem Protocol.load_object_name {o : Origin} {document : String} {p : Protocol} {i : Interface}
    {r : Request} {created : Argument} (loaded : Protocol.load o document = .ok p)
    (member : i ∈ p.interfaces) (isRequest : r ∈ i.requests) (isArgument : created ∈ r.args)
    (isNew : created.kind = .newId) (stem : String) :
    ∃ body object,
      textWithin? none (r.method stem).call.print = some body ∧
      body = spelled ((r.method stem).call.pieces object) ∧
      declaredObject? body = some object ∧
      (object ∉ (r.method stem).params.map (·.name) ↔
        ∀ arg ∈ r.args, arg.kind ≠ .newId → arg.name ≠ object) ∧
      (object ∉ (r.method stem).params.map (·.name) ↔
        ∀ mention ∈ (r.method stem).call.mentions object,
          (r.method stem).referent? object mention.1 = some mention.2) := by
  have returns := Protocol.returnsNewObject_of_load loaded member r isRequest
  have made : (r.method stem).call.isConstruct = true := by
    rw [Request.method, Request.isConstruct_call,
      Request.result_eq_some returns isArgument isNew]
    rfl
  refine ⟨_, "p", Prints.textWithin?_none (r.method stem).call.printsLines,
    (r.method stem).call.text_lines, Call.declaredObject?_text_lines made, ?_, ?_⟩
  · have names : "p" ∈ r.parameters.map (·.name) ↔ _ :=
      Request.mem_names_parameters_iff (by decide) (by decide)
    rw [Request.method, names]
    simp [Argument.isNewObject]
  · exact Method.notMem_params_iff
      (Request.mem_mentions_call returns isArgument isNew stem "p")

theorem Protocol.load_object_name_factory :
    Protocol.load ⟨"factory.xml", "wl_"⟩ (factoryProtocol.document "wl_") = .ok factoryProtocol ∧
      ∃ body, textWithin? none (createRequest.method "wl_").call.print = some body ∧
        declaredObject? body = some "p" ∧
        "p" ∉ (createRequest.method "wl_").params.map (·.name) ∧
        ∀ mention ∈ (createRequest.method "wl_").call.mentions "p",
          (createRequest.method "wl_").referent? "p" mention.1 = some mention.2 := by
  have loaded := Protocol.load_document (p := factoryProtocol) ⟨"factory.xml", "wl_"⟩
    (by decide +kernel)
  have isArgument : ⟨"version_", .newId, none, false⟩ ∈ createRequest.args := by decide
  obtain ⟨body, object, printed, -, declared, apart, resolved⟩ :=
    Protocol.load_object_name loaded (i := factoryInterface) (List.mem_singleton_self _)
      (List.mem_singleton_self _) isArgument rfl "wl_"
  obtain rfl : object = "p" := by
    have isConstruct : (createRequest.method "wl_").call.isConstruct = true := by decide
    have text := Prints.textWithin?_none (createRequest.method "wl_").call.printsLines
    rw [printed, Option.some.injEq] at text
    rw [text, Call.declaredObject?_text_lines isConstruct, Option.some.injEq] at declared
    exact declared.symm
  have other := apart.mpr (by decide)
  exact ⟨loaded, body, printed, declared, other, resolved.mp other⟩

/-- An ordinary argument has the name of the variable. -/
def frameRequest : Request where
  name := "frame"
  args := [⟨"callback", .newId, some "callback", false⟩, ⟨"p", .uint, none, false⟩]
  opcode := 0
  result := some ⟨"callback", .newId, some "callback", false⟩

def frameProtocol : Protocol where
  name := none
  entries := [("surface", { name := "surface", requests := [frameRequest] })]
  keys_nodup := by decide

theorem Protocol.object_redeclares_parameter :
    Protocol.load ⟨"frame.xml", "wl_"⟩ (frameProtocol.document "wl_") = .ok frameProtocol ∧
      ∃ body, textWithin? none (frameRequest.method "wl_").call.print = some body ∧
        body = "  proxy_t p = marshal_constructor(0, &wl_callback_interface, NULL, p);\n" ++
          "  return p;\n" ∧
        declaredObject? body = some "p" ∧
        "p" ∈ (frameRequest.method "wl_").params.map (·.name) := by
  refine ⟨Protocol.load_document ⟨"frame.xml", "wl_"⟩ (by decide +kernel), _, ?_, rfl, ?_, ?_⟩
  · decide +kernel
  · decide +kernel
  · decide

end WireProxy
