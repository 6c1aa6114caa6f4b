import WireProxy.Proofs.Calls
import WireProxy.Proofs.FreeName

/-!
# Names of parameters

The parameters of a method are called like the arguments that they are passed for.  Only the two
that an untyped new object needs have names of their own, which are searched for among the names of all
arguments.  The two searches know nothing of each other, but they start from names of which neither
begins the other, and underscores at the end do not bring them together.
-/

namespace WireProxy

/-- The base with the fewest underscores that make it none of the used names. -/
structure FirstFree (base : String) (used : List String) (name : String) : Prop where
  free : name ∉ used
  least : ∃ n, name = underscored base n ∧ ∀ k < n, underscored base k ∈ used

/-- Distinct arguments have distinct parameters, and what is added for an untyped new object is
called like no argument. -/
structure Method.HygienicFor (r : Request) (m : Method) : Prop where
  nodup : r.argNames.Nodup → (m.params.map (·.name)).Nodup
  added : ∀ arg ∈ r.args, arg.kind = .newId → arg.interface = none →
    ∃ handle version before after,
      m.params = before ++ [⟨handle, .anyProxy, .outRef⟩, ⟨version, .uint32, .value⟩] ++ after ∧
      handle ≠ version ∧ FirstFree "interface" r.argNames handle ∧
      FirstFree "version" r.argNames version

theorem firstFree_freeName (base : String) (used : List String) :
    FirstFree base used (freeName base used) := by
  obtain ⟨n, name, free, taken⟩ := freeName_spec base used
  rw [name]
  exact ⟨free, n, rfl, taken⟩

/-- Free names stay apart if neither base begins the other. -/
theorem freeName_ne_freeName {base base' : String} (apart : ¬ base.toList <+: base'.toList)
    (apart' : ¬ base'.toList <+: base.toList) (used used' : List String) :
    freeName base used ≠ freeName base' used' := by
  intro same
  have start := prefix_freeName base used
  rw [same] at start
  rcases List.prefix_or_prefix_of_prefix start (prefix_freeName base' used') with short | short
  · exact apart short
  · exact apart' short

namespace Argument

variable {arg : Argument} (handle version : String)

theorem names_parameters_of_ordinary (ordinary : arg.isNewObject = false) :
    (arg.parameters handle version).map (·.name) = [arg.name] := by
  simp [parameters, isUntypedNewObject, ordinary]

theorem names_parameters_of_isNewObject (isNew : arg.isNewObject = true) :
    (arg.parameters handle version).map (·.name) = [] ∨
      (arg.parameters handle version).map (·.name) = [handle, version] := by
  cases untyped : arg.isUntypedNewObject with
  | true => exact .inr (by simp [parameters, untyped])
  | false => exact .inl (by simp [parameters, untyped, isNew])

theorem names_flatMap_parameters {args : List Argument}
    (ordinary : ∀ arg ∈ args, arg.isNewObject = false) :
    (args.flatMap (·.parameters handle version)).map (·.name) = args.map (·.name) := by
  rw [List.map_flatMap]
  calc args.flatMap (fun arg => (arg.parameters handle version).map (·.name))
      = args.flatMap fun arg => [arg.name] :=
        List.flatMap_congr fun arg member =>
          names_parameters_of_ordinary handle version (ordinary arg member)
    _ = args.map (·.name) := List.flatMap_pure_eq_map _ _

end Argument

namespace Request

variable {r : Request}

theorem handleName_ne_versionName (r : Request) : r.handleName ≠ r.versionName :=
  freeName_ne_freeName (by decide) (by decide) _ _

/-- In the place of the new object, if there is one, stand its two names or none. -/
theorem exists_names_parameters (returns : r.ReturnsNewObject) :
    ∃ before created added after, r.argNames = before ++ created ++ after ∧
      r.parameters.map (·.name) = before ++ added ++ after ∧
      (added = [] ∨ added = [r.handleName, r.versionName]) := by
  cases result : r.result with
  | none =>
      have ordinary : ∀ arg ∈ r.args, arg.isNewObject = false := by
        rw [ReturnsNewObject, result, Option.toList_none, List.filter_eq_nil_iff] at returns
        exact fun arg member => by simpa using returns arg member
      refine ⟨r.argNames, [], [], [], by simp, ?_, .inl rfl⟩
      rw [parameters, Argument.names_flatMap_parameters _ _ ordinary, argNames]
      simp
  | some arg =>
      obtain ⟨before, after, split, ordinary⟩ := exists_split returns result
      obtain ⟨ordinaryBefore, ordinaryAfter⟩ := List.forall_mem_append.mp ordinary
      have isNew := (mem_of_result returns result).2
      refine ⟨before.map (·.name), [arg.name],
        (arg.parameters r.handleName r.versionName).map (·.name), after.map (·.name), ?_, ?_,
        Argument.names_parameters_of_isNewObject _ _ isNew⟩
      · simp [argNames, split]
      · rw [parameters, split, List.flatMap_append, List.flatMap_cons, List.map_append,
          List.map_append, Argument.names_flatMap_parameters _ _ ordinaryBefore,
          Argument.names_flatMap_parameters _ _ ordinaryAfter, List.append_assoc]

theorem nodup_names_parameters (returns : r.ReturnsNewObject) (distinct : r.argNames.Nodup) :
    (r.parameters.map (·.name)).Nodup := by
  obtain ⟨before, created, added, after, names, parameters, isAdded⟩ :=
    exists_names_parameters returns
  have rest : (before ++ after).Sublist r.argNames := by
    rw [names]
    exact (List.sublist_append_left before created).append_right after
  have shown : (r.parameters.map (·.name)).Perm (added ++ (before ++ after)) := by
    rw [parameters, ← List.append_assoc added]
    exact List.perm_append_comm.append_right after
  rw [shown.nodup_iff]
  rcases isAdded with rfl | rfl
  · exact distinct.sublist rest
  · have handle : r.handleName ∉ before ++ after :=
      fun member => freeName_notMem _ _ (rest.subset member)
    have version : r.versionName ∉ before ++ after :=
      fun member => freeName_notMem _ _ (rest.subset member)
    simp only [List.cons_append, List.nil_append, List.nodup_cons, List.mem_cons, not_or]
    exact ⟨⟨r.handleName_ne_versionName, handle⟩, version, distinct.sublist rest⟩

theorem hygienicFor (returns : r.ReturnsNewObject) (stem : String) :
    (r.method stem).HygienicFor r where
  nodup := nodup_names_parameters returns
  added := by
    intro arg member isNew free
    have result := result_eq_some returns member isNew
    obtain ⟨before, after, params, -⟩ := (makesUntyped stem returns isNew result free).params
    exact ⟨r.handleName, r.versionName, before, after, params, r.handleName_ne_versionName,
      firstFree_freeName _ _, firstFree_freeName _ _⟩

end Request

/-- Parameters of loaded requests do not clash, and the search for added names always ends. -/
theorem Protocol.load_parameters_hygienic {o : Origin} {text : String} {p : Protocol}
    {i : Interface} (loaded : Protocol.load o text = .ok p) (member : i ∈ p.interfaces)
    (stem : String) (access : Access) :
    List.Forall₂ (fun r m => Method.HygienicFor r m) i.requests (i.proxy stem access).methods ∧
    ∀ (base : String) (used : List String),
      ∃ steps ≤ used.length, Searches used base steps (freeName base used) := by
  have returns := Protocol.returnsNewObject_of_load loaded member
  refine ⟨?_, searches_freeName⟩
  rw [Interface.proxy, List.forall₂_map_right_iff, List.forall₂_same]
  intro r isRequest
  exact Request.hygienicFor (returns r isRequest) stem

/-- The names that a search tries first are taken, one of them by the new object itself. -/
def createRequest : Request where
  name := "create"
  args :=
    [⟨"version", .uint, none, false⟩, ⟨"interface", .string, none, false⟩,
      ⟨"version_", .newId, none, false⟩, ⟨"interface_", .fd, none, false⟩,
      ⟨"version___", .int, none, false⟩]
  opcode := 0
  result := some ⟨"version_", .newId, none, false⟩

def factoryInterface : Interface where
  name := "factory"
  requests := [createRequest]

def factoryProtocol : Protocol where
  name := none
  entries := [("factory", factoryInterface)]
  keys_nodup := by decide

theorem Protocol.load_parameters_hygienic_factory :
    Protocol.load ⟨"factory.xml", "wl_"⟩ (factoryProtocol.document "wl_") = .ok factoryProtocol ∧
      createRequest.argNames.Nodup ∧
      ((createRequest.method "wl_").params.map (·.name)).Nodup ∧
      (createRequest.method "wl_").params.map (·.name) =
        ["version", "interface", "interface__", "version__", "interface_", "version___"] := by
  have loaded := Protocol.load_document (p := factoryProtocol) ⟨"factory.xml", "wl_"⟩
    (by decide +kernel)
  have distinct : createRequest.argNames.Nodup := by decide
  obtain ⟨hygienic, -⟩ := Protocol.load_parameters_hygienic loaded (i := factoryInterface)
    (List.mem_singleton_self _) "wl_" factoryProtocol.access
  obtain ⟨create, -⟩ := List.forall₂_cons.mp hygienic
  exact ⟨loaded, distinct, create.nodup distinct, by decide +kernel⟩

end WireProxy
