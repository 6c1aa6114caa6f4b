import WireProxy.Proofs.Grants

/-!
# Calls

The parameters of a method and the operands of its call grow side by side, argument by argument.
The target of the call, the parameter that it fills in and the result come by another way, from the
result of the request.  They fit together since a scanned request has its new object as its result
and never has two of them.
-/

namespace WireProxy

namespace Call

def target? : Call → Option Target
  | send _ _ => none
  | construct _ target _ _ => some target

def backfill? : Call → Option String
  | send _ _ => none
  | construct _ _ _ backfill => backfill

def isConstruct : Call → Bool
  | send _ _ => false
  | construct _ _ _ _ => true

end Call

/-- The operands that only describe a new object. -/
def Operand.isDescriptive : Operand → Bool
  | handleName _ | version _ => true
  | arg _ | newObject => false

/-- The operand that stands for an argument itself. -/
def Argument.place (arg : Argument) : Operand :=
  if arg.kind = .newId then .newObject else .arg arg.name

/-- The method makes an object of a fixed interface. -/
structure Method.MakesTyped (stem interface : String) (m : Method) : Prop where
  target : m.call.target? = some (.descriptor (descriptorSymbol stem interface))
  returns : m.returns = some (.proxy interface)
  backfill : m.call.backfill? = none
  by_value : ∀ param ∈ m.params, param.passing = .value

/-- The method makes an object of the interface that its caller brings in a handle. -/
structure Method.MakesUntyped (handle version : String) (m : Method) : Prop where
  target : m.call.target? = some (.fromHandle handle)
  returns : m.returns = some .anyProxy
  backfill : m.call.backfill? = some handle
  params : ∃ before after,
    m.params = before ++ [⟨handle, .anyProxy, .outRef⟩, ⟨version, .uint32, .value⟩] ++ after ∧
      ∀ param ∈ before ++ after, param.passing = .value
  operands : ∃ before after,
    m.call.operands = before ++ [.handleName handle, .version version, .newObject] ++ after

/-- The method of a request agrees with it and with its own call. -/
structure Method.CoherentWith (stem : String) (r : Request) (m : Method) : Prop where
  names : m.call.operands.filterMap (·.param?) = m.params.map (·.name)
  places : m.call.operands.filter (!·.isDescriptive) = r.args.map (·.place)
  opcode : m.opcode = r.opcode
  call_opcode : m.call.opcode = r.opcode
  constructs_iff : m.call.isConstruct = true ↔ .newObject ∈ m.call.operands
  returns_iff : m.returns.isSome = true ↔ .newObject ∈ m.call.operands
  once : m.call.isConstruct = true → m.call.operands.count .newObject = 1
  typed : ∀ arg ∈ r.args, arg.kind = .newId → ∀ interface, arg.interface = some interface →
    m.MakesTyped stem interface
  untyped : ∀ arg ∈ r.args, arg.kind = .newId → arg.interface = none →
    ∃ handle version, m.MakesUntyped handle version

namespace Argument

variable (arg : Argument) (handle version : String)

theorem isNewObject_iff : arg.isNewObject = true ↔ arg.kind = .newId := by
  simp [isNewObject]

/-- What an argument adds to the operands takes its values from what it adds to the parameters. -/
theorem filterMap_param?_operands :
    (arg.operands handle version).filterMap (·.param?) =
      (arg.parameters handle version).map (·.name) := by
  unfold operands parameters
  split
  · rfl
  · split <;> rfl

theorem filter_operands :
    (arg.operands handle version).filter (!·.isDescriptive) = [arg.place] := by
  unfold operands place isUntypedNewObject
  simp only [← arg.isNewObject_iff]
  cases arg.isNewObject with
  | false => simp [Operand.isDescriptive]
  | true => cases arg.interface <;> simp [Operand.isDescriptive]

variable {arg}

theorem place_eq_newObject : arg.place = .newObject ↔ arg.isNewObject = true := by
  rw [arg.isNewObject_iff, place]
  split <;> simp_all

theorem passing_of_mem_parameters (typed : arg.isUntypedNewObject = false) {param : Parameter}
    (member : param ∈ arg.parameters handle version) : param.passing = .value := by
  unfold parameters at member
  rw [typed] at member
  cases isNew : arg.isNewObject with
  | false =>
      simp only [isNew, Bool.false_eq_true, if_false, List.mem_singleton] at member
      rw [member]
  | true => simp [isNew] at member

end Argument

/-! ## All arguments of a request -/

namespace Request

variable (r : Request) (stem : String)

@[simp] theorem operands_call : (r.call stem).operands = r.operands := by
  unfold call
  split
  · rfl
  · split <;> rfl

@[simp] theorem opcode_call : (r.call stem).opcode = r.opcode := by
  unfold call
  split
  · rfl
  · split <;> rfl

@[simp] theorem isConstruct_call : (r.call stem).isConstruct = r.result.isSome := by
  unfold call
  split
  · next none => rw [none]; rfl
  · next some => split <;> rw [some] <;> rfl

theorem filterMap_param?_operands :
    r.operands.filterMap (·.param?) = r.parameters.map (·.name) := by
  rw [operands, parameters, List.filterMap_flatMap, List.map_flatMap]
  simp only [Argument.filterMap_param?_operands]

theorem filter_operands : r.operands.filter (!·.isDescriptive) = r.args.map (·.place) := by
  rw [operands, List.filter_flatMap]
  simp only [Argument.filter_operands]
  exact List.flatMap_pure_eq_map _ _

theorem count_newObject_operands :
    r.operands.count .newObject = (r.args.filter (·.isNewObject)).length := by
  have kept : (!(Operand.newObject).isDescriptive) = true := rfl
  rw [← List.count_filter (p := (!·.isDescriptive)) kept, filter_operands,
    List.count_eq_countP, List.countP_map, ← List.countP_eq_length_filter]
  apply List.countP_congr
  intro arg _
  simp [Argument.place_eq_newObject]

variable {r}

theorem result_eq_some (returns : r.ReturnsNewObject) {arg : Argument} (member : arg ∈ r.args)
    (isNew : arg.kind = .newId) : r.result = some arg := by
  have created : arg ∈ r.args.filter (·.isNewObject) :=
    List.mem_filter.mpr ⟨member, arg.isNewObject_iff.mpr isNew⟩
  rw [returns] at created
  simpa using created

theorem mem_of_result (returns : r.ReturnsNewObject) {arg : Argument}
    (result : r.result = some arg) : arg ∈ r.args ∧ arg.isNewObject = true := by
  have created : arg ∈ r.args.filter (·.isNewObject) := by
    rw [returns, result]
    exact List.mem_singleton_self arg
  exact List.mem_filter.mp created

theorem isSome_result_iff (returns : r.ReturnsNewObject) :
    r.result.isSome = true ↔ .newObject ∈ r.operands := by
  rw [← List.count_pos_iff, count_newObject_operands, returns]
  cases r.result <;> simp

/-- Around its one new object a request has ordinary arguments only. -/
theorem exists_split (returns : r.ReturnsNewObject) {arg : Argument}
    (result : r.result = some arg) :
    ∃ before after, r.args = before ++ arg :: after ∧
      ∀ other ∈ before ++ after, other.isNewObject = false := by
  have only : r.args.filter (·.isNewObject) = [arg] := by
    rw [returns, result]
    rfl
  obtain ⟨member, isNew⟩ := mem_of_result returns result
  obtain ⟨before, after, split⟩ := List.append_of_mem member
  refine ⟨before, after, split, ?_⟩
  rw [split, List.filter_append, List.filter_cons, if_pos isNew] at only
  have sizes := congrArg List.length only
  have none : (before ++ after).filter (·.isNewObject) = [] := by
    apply List.length_eq_zero_iff.mp
    rw [List.filter_append]
    simp only [List.length_append, List.length_cons, List.length_nil] at sizes ⊢
    omega
  intro other inside
  simpa using List.filter_eq_nil_iff.mp none other inside

theorem makesTyped (returns : r.ReturnsNewObject) {arg : Argument} {interface : String}
    (result : r.result = some arg) (refers : arg.interface = some interface) :
    (r.method stem).MakesTyped stem interface := by
  have call : r.call stem =
      .construct r.opcode (.descriptor (descriptorSymbol stem interface)) r.operands none := by
    simp only [Request.call, result, refers]
  refine ⟨?_, ?_, ?_, ?_⟩
  · rw [method, call]
    rfl
  · rw [method, result, Option.map_some, Argument.valueType_eq_proxy.mpr refers]
  · rw [method, call]
    rfl
  · intro param member
    obtain ⟨other, isArgument, added⟩ := List.mem_flatMap.mp member
    refine Argument.passing_of_mem_parameters _ _ ?_ added
    -- Another new object would be the result too.
    by_contra untyped
    rw [Bool.not_eq_false, Argument.isUntypedNewObject, Bool.and_eq_true] at untyped
    have same := result_eq_some returns isArgument (other.isNewObject_iff.mp untyped.1)
    rw [result, Option.some.injEq] at same
    rw [← same, refers] at untyped
    cases untyped.2

theorem makesUntyped (returns : r.ReturnsNewObject) {arg : Argument} (isNew : arg.kind = .newId)
    (result : r.result = some arg) (free : arg.interface = none) :
    (r.method stem).MakesUntyped r.handleName r.versionName := by
  have call : r.call stem =
      .construct r.opcode (.fromHandle r.handleName) r.operands (some r.handleName) := by
    simp only [Request.call, result, free]
  have untyped : arg.isUntypedNewObject = true := by
    simp [Argument.isUntypedNewObject, arg.isNewObject_iff.mpr isNew, free]
  obtain ⟨before, after, split, ordinary⟩ := exists_split returns result
  refine ⟨?_, ?_, ?_, ?_, ?_⟩
  · rw [method, call]
    rfl
  · simp [method, result, Argument.valueType, free, isNew]
  · rw [method, call]
    rfl
  · refine ⟨before.flatMap (·.parameters r.handleName r.versionName),
      after.flatMap (·.parameters r.handleName r.versionName), ?_, ?_⟩
    · rw [method, parameters, split, List.flatMap_append, List.flatMap_cons, ← List.append_assoc]
      simp only [Argument.parameters, untyped, if_true]
    · rw [← List.flatMap_append]
      intro param member
      obtain ⟨other, inside, added⟩ := List.mem_flatMap.mp member
      refine Argument.passing_of_mem_parameters _ _ ?_ added
      rw [Argument.isUntypedNewObject, ordinary other inside]
      rfl
  · refine ⟨before.flatMap (·.operands r.handleName r.versionName),
      after.flatMap (·.operands r.handleName r.versionName), ?_⟩
    rw [method, operands_call, operands, split, List.flatMap_append, List.flatMap_cons,
      ← List.append_assoc]
    simp only [Argument.operands, untyped, if_true]

theorem coherentWith (returns : r.ReturnsNewObject) : (r.method stem).CoherentWith stem r := by
  have operands : (r.method stem).call.operands = r.operands := r.operands_call stem
  have constructs : (r.method stem).call.isConstruct = r.result.isSome := r.isConstruct_call stem
  have result : (r.method stem).returns.isSome = r.result.isSome := Option.isSome_map
  refine ⟨?_, ?_, rfl, r.opcode_call stem, ?_, ?_, ?_, ?_, ?_⟩
  · rw [operands]
    exact r.filterMap_param?_operands
  · rw [operands]
    exact r.filter_operands
  · rw [operands, constructs]
    exact isSome_result_iff returns
  · rw [operands, result]
    exact isSome_result_iff returns
  · intro made
    rw [constructs] at made
    obtain ⟨arg, result⟩ := Option.isSome_iff_exists.mp made
    rw [operands, count_newObject_operands, returns, result]
    rfl
  · intro arg member isNew interface refers
    exact makesTyped stem returns (result_eq_some returns member isNew) refers
  · intro arg member isNew free
    exact ⟨_, _, makesUntyped stem returns isNew (result_eq_some returns member isNew) free⟩

end Request

theorem Protocol.load_methods_coherent {o : Origin} {text : String} {p : Protocol} {i : Interface}
    (loaded : Protocol.load o text = .ok p) (member : i ∈ p.interfaces) (stem : String)
    (access : Access) :
    List.Forall₂ (fun r m => Method.CoherentWith stem r m) i.requests
      (i.proxy stem access).methods := by
  have returns := Protocol.returnsNewObject_of_load loaded member
  rw [Interface.proxy, List.forall₂_map_right_iff, List.forall₂_same]
  intro r isRequest
  exact Request.coherentWith stem (returns r isRequest)

/-- One request makes an object of any interface and has an argument with the name of the handle;
the other makes an object of a fixed interface. -/
def registryInterface : Interface where
  name := "registry"
  requests :=
    [{ name := "bind", opcode := 0, result := some ⟨"id", .newId, none, false⟩,
       args := [⟨"interface", .string, none, false⟩, ⟨"id", .newId, none, false⟩,
        ⟨"serial", .uint, some "seat", false⟩] },
      { name := "sync", opcode := 1, result := some ⟨"done", .newId, some "callback", false⟩,
        args := [⟨"done", .newId, some "callback", false⟩] }]

def registryProtocol : Protocol where
  name := none
  entries := [("registry", registryInterface)]
  keys_nodup := by decide

theorem Protocol.load_methods_coherent_registry :
    Protocol.load ⟨"registry.xml", "wl_"⟩ (registryProtocol.document "wl_") =
        .ok registryProtocol ∧
      ∃ bind sync version,
        (registryInterface.proxy "wl_" registryProtocol.access).methods = [bind, sync] ∧
        bind.MakesUntyped "interface_" version ∧ sync.MakesTyped "wl_" "callback" := by
  have loaded := Protocol.load_document (p := registryProtocol) ⟨"registry.xml", "wl_"⟩
    (by decide +kernel)
  have coherent := Protocol.load_methods_coherent loaded (i := registryInterface)
    (List.mem_singleton_self _) "wl_" registryProtocol.access
  obtain ⟨bind, rest, first, others, methods⟩ := List.forall₂_cons_left_iff.mp coherent
  obtain ⟨sync, rest, second, following, rfl⟩ := List.forall₂_cons_left_iff.mp others
  obtain rfl := List.forall₂_nil_left_iff.mp following
  obtain ⟨handle, version, made⟩ := first.untyped ⟨"id", .newId, none, false⟩ (by decide) rfl rfl
  have typed := second.typed ⟨"done", .newId, some "callback", false⟩ (by decide) rfl _ rfl
  have filled : bind.call.backfill? = some "interface_" := by
    obtain ⟨rfl, -⟩ := List.cons.inj methods
    decide +kernel
  obtain rfl : handle = "interface_" := by
    have given := made.backfill
    rw [filled, Option.some.injEq] at given
    exact given.symm
  exact ⟨loaded, bind, sync, version, methods, made, typed⟩

end WireProxy
