import WireProxy.Proofs.Calls

/-!
# Requests read back from methods

An argument has no, one or two parameters in its method and one or three operands in the call, and
the operands say which it is.  So the arguments can be read back by going through the operands and
using up the parameters on the way, by position and not by name.  The type of a parameter gives its
kind away as long as only references to objects name an interface.  Whether null is allowed is lost,
and so is the name of a new object.
-/

namespace WireProxy

/-- The argument without its permission to be null, and without its name if it is a new object. -/
def Argument.shown (arg : Argument) : Argument :=
  { arg with name := if arg.isNewObject then "" else arg.name, allowNull := false }

def Request.shown (r : Request) : Request :=
  { r with args := r.args.map (·.shown), result := r.result.map (·.shown) }

structure Argument.AgreesWith (a b : Argument) : Prop where
  kind : a.kind = b.kind
  interface : a.interface = b.interface
  name : a.kind ≠ .newId → a.name = b.name

/-- The requests differ at most in permissions to be null and in the names of new objects. -/
structure Request.AgreesWith (r s : Request) : Prop where
  name : r.name = s.name
  opcode : r.opcode = s.opcode
  args : List.Forall₂ Argument.AgreesWith r.args s.args
  result : Option.Rel Argument.AgreesWith r.result s.result

theorem Argument.agreesWith_of_shown_eq {a b : Argument} (same : a.shown = b.shown) :
    a.AgreesWith b := by
  obtain ⟨name, kind, interface, -⟩ := Argument.mk.inj same
  refine ⟨kind, interface, fun ordinary => ?_⟩
  have isOld : a.isNewObject = false := by simpa [isNewObject] using ordinary
  have isOld' : b.isNewObject = false := by simpa [isNewObject, ← kind] using ordinary
  simpa only [isOld, isOld', Bool.false_eq_true, if_false] using name

theorem Request.agreesWith_of_shown_eq {r s : Request} (same : r.shown = s.shown) :
    r.AgreesWith s := by
  obtain ⟨message, opcode, result⟩ := Request.mk.inj same
  obtain ⟨name, args⟩ := Message.mk.inj message
  refine ⟨name, opcode, ?_, ?_⟩
  · rw [← List.forall₂_eq_eq_eq, List.forall₂_map_left_iff, List.forall₂_map_right_iff] at args
    exact args.imp fun _ _ => Argument.agreesWith_of_shown_eq
  · cases made : r.result with
    | none =>
        rw [made, Option.map_none, eq_comm, Option.map_eq_none_iff] at result
        rw [result]
        exact .none
    | some a =>
        rw [made, Option.map_some, eq_comm, Option.map_eq_some_iff] at result
        obtain ⟨b, made', same⟩ := result
        rw [made']
        exact .some (Argument.agreesWith_of_shown_eq same.symm)

namespace ValueType

/-- The kind of the arguments, new objects aside, that have this type. -/
def kind : ValueType → ArgumentKind
  | int32 => .int
  | uint32 => .uint
  | fixed => .fixed
  | text => .string
  | proxy _ | anyProxy => .object
  | fd => .fd
  | bytes => .array
  | raw token => .other token

def interface? : ValueType → Option String
  | proxy interface => some interface
  | _ => none

end ValueType

/-- The argument that a parameter is passed for. -/
def Parameter.argument (param : Parameter) : Argument where
  name := param.name
  kind := param.type.kind
  interface := param.type.interface?

namespace Method

/-- The arguments that the operands stand for, with their parameters and the new object at hand. -/
def readArguments (created : Option Argument) : List Operand → List Parameter → List Argument
  | .newObject :: operands, params => created.toList ++ readArguments created operands params
  | .arg _ :: operands, param :: params => param.argument :: readArguments created operands params
  | .handleName _ :: operands, _ :: params => readArguments created operands params
  | .version _ :: operands, _ :: params => readArguments created operands params
  | _, _ => []

def created (m : Method) : Option Argument :=
  m.returns.map fun type => { name := "", kind := .newId, interface := type.interface? }

/-- The request that a method is made for, as far as the method shows it. -/
def request (m : Method) : Request where
  name := m.name
  args := readArguments m.created m.call.operands m.params
  opcode := m.opcode
  result := m.created

end Method

namespace Argument

variable {arg : Argument}

/-- If the argument names an interface, it is an object. -/
def RefersByObject (arg : Argument) : Prop :=
  arg.interface.isSome = true → arg.kind.isObject = true

instance (arg : Argument) : Decidable arg.RefersByObject :=
  inferInstanceAs (Decidable (_ → _))

theorem interface?_valueType (arg : Argument) : arg.valueType.interface? = arg.interface := by
  unfold valueType
  cases arg.interface with
  | some interface => rfl
  | none => cases arg.kind <;> rfl

theorem kind_valueType (refers : arg.RefersByObject) (ordinary : arg.kind ≠ .newId) :
    arg.valueType.kind = arg.kind := by
  unfold valueType
  cases named : arg.interface with
  | some interface =>
      have isObject : arg.kind.isObject = true := refers (by rw [named]; rfl)
      cases kind : arg.kind <;> simp_all [ArgumentKind.isObject, ValueType.kind]
  | none => cases kind : arg.kind <;> simp_all [ValueType.kind]

theorem argument_parameter (refers : arg.RefersByObject) (ordinary : arg.isNewObject = false) :
    Parameter.argument ⟨arg.name, arg.valueType, .value⟩ = arg.shown := by
  have notNew : arg.kind ≠ .newId := by simpa [isNewObject] using ordinary
  simp only [Parameter.argument, shown, interface?_valueType, kind_valueType refers notNew,
    ordinary, Bool.false_eq_true, if_false]

/-- What an argument adds to the operands and the parameters is read back as that argument. -/
theorem readArguments_append (handle version : String) {created : Option Argument}
    (operands : List Operand) (params : List Parameter) (refers : arg.RefersByObject)
    (isCreated : arg.isNewObject = true → created = some arg.shown) :
    Method.readArguments created (arg.operands handle version ++ operands)
        (arg.parameters handle version ++ params) =
      arg.shown :: Method.readArguments created operands params := by
  unfold Argument.operands Argument.parameters isUntypedNewObject
  cases isNew : arg.isNewObject with
  | true =>
      rw [isCreated isNew]
      cases arg.interface <;> simp [Method.readArguments]
  | false =>
      rw [← argument_parameter refers isNew]
      rfl

theorem readArguments_flatMap (handle version : String) {created : Option Argument}
    {args : List Argument} (refers : ∀ arg ∈ args, arg.RefersByObject)
    (isCreated : ∀ arg ∈ args, arg.isNewObject = true → created = some arg.shown) :
    Method.readArguments created (args.flatMap (·.operands handle version))
      (args.flatMap (·.parameters handle version)) = args.map (·.shown) := by
  induction args with
  | nil => rfl
  | cons arg args ih =>
      obtain ⟨refersFirst, refers⟩ := List.forall_mem_cons.mp refers
      obtain ⟨isFirst, isCreated⟩ := List.forall_mem_cons.mp isCreated
      rw [List.flatMap_cons, List.flatMap_cons, List.map_cons,
        readArguments_append handle version _ _ refersFirst isFirst, ih refers isCreated]

end Argument

namespace Request

variable {r : Request}

theorem created_method (returns : r.ReturnsNewObject) (stem : String) :
    (r.method stem).created = r.result.map (·.shown) := by
  unfold Method.created method
  rw [Option.map_map]
  cases result : r.result with
  | none => rfl
  | some arg =>
      have isNew : arg.isNewObject = true := (mem_of_result returns result).2
      have kind : arg.kind = .newId := arg.isNewObject_iff.mp isNew
      simp [Argument.shown, isNew, kind, Argument.interface?_valueType]

theorem request_method (returns : r.ReturnsNewObject)
    (refers : ∀ arg ∈ r.args, arg.RefersByObject) (stem : String) :
    (r.method stem).request = r.shown := by
  have created := created_method returns stem
  have args : Method.readArguments (r.method stem).created (r.method stem).call.operands
      (r.method stem).params = r.args.map (·.shown) := by
    rw [created, method, operands_call, operands, parameters]
    apply Argument.readArguments_flatMap _ _ refers
    intro arg member isNew
    rw [result_eq_some returns member (arg.isNewObject_iff.mp isNew), Option.map_some]
  rw [Method.request, args, created]
  rfl

end Request

/-- A loaded request is read back from its method, and requests with the same method agree. -/
theorem Protocol.load_request_method {o : Origin} {text : String} {p : Protocol} {i : Interface}
    {r : Request} (loaded : Protocol.load o text = .ok p) (member : i ∈ p.interfaces)
    (isRequest : r ∈ i.requests) (refers : ∀ arg ∈ r.args, arg.RefersByObject) (stem : String) :
    (r.method stem).request = r.shown ∧
    ∀ (o' : Origin) (text' : String) (q : Protocol) (j : Interface) (s : Request),
      Protocol.load o' text' = .ok q → j ∈ q.interfaces → s ∈ j.requests →
      (∀ arg ∈ s.args, arg.RefersByObject) → r.method stem = s.method stem → r.AgreesWith s := by
  have read := Request.request_method (Protocol.returnsNewObject_of_load loaded member r isRequest)
    refers stem
  refine ⟨read, fun o' text' q j s loaded' member' isRequest' refers' same => ?_⟩
  have read' := Request.request_method
    (Protocol.returnsNewObject_of_load loaded' member' s isRequest') refers' stem
  apply Request.agreesWith_of_shown_eq
  rw [← read, ← read', same]

/-- Three arguments have one name, one has a kind of its own, and one is an untyped new object. -/
def bindRequest (made : String) (allowNull : Bool) : Request where
  name := "bind"
  args :=
    [⟨"x", .uint, none, false⟩, ⟨"x", .other "qq", none, false⟩, ⟨made, .newId, none, false⟩,
      ⟨"x", .object, some "seat", allowNull⟩]
  opcode := 0
  result := some ⟨made, .newId, none, false⟩

def bindProtocol (made : String) (allowNull : Bool) : Protocol where
  name := none
  entries := [("registry", { name := "registry", requests := [bindRequest made allowNull] })]
  keys_nodup := List.nodup_singleton _

theorem Protocol.load_request_method_bind :
    Protocol.load ⟨"bind.xml", "wl_"⟩ ((bindProtocol "id" true).document "wl_") =
        .ok (bindProtocol "id" true) ∧
      Protocol.load ⟨"bind.xml", "wl_"⟩ ((bindProtocol "made" false).document "wl_") =
        .ok (bindProtocol "made" false) ∧
      (bindRequest "id" true).method "wl_" = (bindRequest "made" false).method "wl_" ∧
      ((bindRequest "id" true).method "wl_").request = bindRequest "" false ∧
      (bindRequest "id" true).AgreesWith (bindRequest "made" false) := by
  have loaded := Protocol.load_document (p := bindProtocol "id" true) ⟨"bind.xml", "wl_"⟩
    (by decide +kernel)
  have loaded' := Protocol.load_document (p := bindProtocol "made" false) ⟨"bind.xml", "wl_"⟩
    (by decide +kernel)
  have same : (bindRequest "id" true).method "wl_" = (bindRequest "made" false).method "wl_" := by
    decide +kernel
  obtain ⟨read, agrees⟩ := Protocol.load_request_method loaded (List.mem_singleton_self _)
    (List.mem_singleton_self (bindRequest "id" true)) (by decide) "wl_"
  exact ⟨loaded, loaded', same, read, agrees _ _ _ _ _ loaded' (List.mem_singleton_self _)
    (List.mem_singleton_self _) (by decide) same⟩

end WireProxy
