import Mathlib.Data.List.Basic
import WireProxy.Code.Definitions
import WireProxy.Proxy.Lowering
import WireProxy.Text.Numeral

/-!
# Dispatch of events

The slots, the accessors and the branches of a proxy are made apart from each other.  They agree all
the same: event by event they have one index, so each accessor and each branch reaches the slot of
its event and none is lost when the proxy is written out.  Only the types can disagree.  A slot
takes the type of an argument from its interface, if there is one, and a branch takes the wire form
from the kind alone.
-/

namespace WireProxy

/-- A value taken out in a wire form may be handed on as a value of the type. -/
inductive WireForm.Yields : WireForm → ValueType → Prop
  | int32 : Yields .int32 .int32
  | uint32 : Yields .uint32 .uint32
  | fixed : Yields .fixed .fixed
  | text : Yields .text .text
  | typed (interface : String) : Yields .proxy (.proxy interface)
  | untyped : Yields .proxy .anyProxy
  | fd : Yields .fd .fd
  | bytes : Yields .bytes .bytes
  | raw (token : String) : Yields (.raw token) (.raw token)

theorem WireForm.yields_proxy {form : WireForm} {interface : String} :
    form.Yields (.proxy interface) ↔ form = .proxy := by
  constructor
  · rintro ⟨⟩
    rfl
  · rintro rfl
    exact .typed interface

theorem ArgumentKind.wireForm_eq_proxy {kind : ArgumentKind} :
    kind.wireForm = .proxy ↔ kind = .object ∨ kind = .newId := by
  cases kind <;> simp [wireForm]

theorem Argument.valueType_of_interface {arg : Argument} {interface : String}
    (refers : arg.interface = some interface) : arg.valueType = .proxy interface := by
  simp [valueType, refers]

theorem Argument.wireForm_yields_of_no_interface {arg : Argument} (plain : arg.interface = none) :
    arg.kind.wireForm.Yields arg.valueType := by
  simp only [valueType, plain]
  cases arg.kind with
  | int => exact .int32
  | uint => exact .uint32
  | fixed => exact .fixed
  | string => exact .text
  | object => exact .untyped
  | newId => exact .untyped
  | fd => exact .fd
  | array => exact .bytes
  | other token => exact .raw token

/-- The two tables agree unless a plain value refers to an interface. -/
theorem Argument.wireForm_yields_valueType (arg : Argument) :
    arg.kind.wireForm.Yields arg.valueType ↔
      arg.interface = none ∨ arg.kind = .object ∨ arg.kind = .newId := by
  cases refers : arg.interface with
  | none => simp [arg.wireForm_yields_of_no_interface refers]
  | some interface =>
      rw [Argument.valueType_of_interface refers, WireForm.yields_proxy,
        ArgumentKind.wireForm_eq_proxy]
      simp

section Indices

variable {α β : Type}

/-- Members that are looked up by their own positions are paired with what stands there. -/
theorem filterMap_lookup_eq_zip_drop (index : α → Nat) (xs : List α) (ys : List β) (start : Nat)
    (inOrder : xs.map index = List.range' start xs.length) :
    xs.filterMap (fun x => (ys[index x]?).map fun y => (x, y)) = xs.zip (ys.drop start) := by
  induction xs generalizing start with
  | nil => rfl
  | cons x xs ih =>
      rw [List.map_cons, List.length_cons, List.range'_succ, List.cons.injEq] at inOrder
      obtain ⟨first, others⟩ := inOrder
      have rest := ih (start + 1) others
      by_cases inside : start < ys.length
      · rw [List.drop_eq_getElem_cons inside, List.zip_cons_cons, ← rest,
          List.filterMap_cons_some (by rw [first, List.getElem?_eq_getElem inside]; rfl)]
      · have outside : ys.length ≤ start := by omega
        rw [List.filterMap_cons_none (by rw [first, List.getElem?_eq_none outside]; rfl), rest,
          List.drop_eq_nil_of_le outside, List.drop_eq_nil_of_le (by omega)]
        simp

theorem filterMap_lookup_eq_zip (index : α → Nat) (xs : List α) (ys : List β)
    (inOrder : xs.map index = List.range xs.length) :
    xs.filterMap (fun x => (ys[index x]?).map fun y => (x, y)) = xs.zip ys := by
  rw [List.range_eq_range'] at inOrder
  simpa using filterMap_lookup_eq_zip_drop index xs ys 0 inOrder

theorem infix_flatMap {x : α} {xs : List α} (f : α → List β) (member : x ∈ xs) :
    f x <:+: xs.flatMap f := by
  rw [List.flatMap_def]
  exact List.infix_of_mem_flatten (List.mem_map_of_mem member)

end Indices

namespace Interface

variable (i : Interface) (stem : String) (access : Access)

theorem getElem?_slots (k : Nat) :
    (i.proxy stem access).slots[k]? = i.events[k]?.map (·.slot) := by
  simp [proxy]

theorem getElem?_accessors (k : Nat) :
    (i.proxy stem access).accessors[k]? = i.events[k]?.map (·.accessor k) := by
  simp [proxy, Function.comp_def]

theorem getElem?_branches (k : Nat) :
    (i.proxy stem access).branches[k]? = i.events[k]?.map (·.branch (.ofNat k)) := by
  simp [proxy, numberedEvents, Function.comp_def]

theorem length_slots : (i.proxy stem access).slots.length = i.events.length := by
  simp [proxy]

theorem length_accessors : (i.proxy stem access).accessors.length = i.events.length := by
  simp [proxy]

theorem length_branches : (i.proxy stem access).branches.length = i.events.length := by
  simp [proxy, numberedEvents]

theorem map_slot_accessors :
    (i.proxy stem access).accessors.map (·.slot) = List.range i.events.length := by
  apply List.ext_getElem?
  intro k
  rw [List.getElem?_map, i.getElem?_accessors]
  by_cases inside : k < i.events.length
  · simp [inside, Message.accessor]
  · simp [inside]

variable {i}

theorem map_opcode_branches (few : i.events.length < Text.wordLimit) :
    (i.proxy stem access).branches.map (·.opcode.toNat) = List.range i.events.length := by
  apply List.ext_getElem?
  intro k
  rw [List.getElem?_map, i.getElem?_branches]
  by_cases inside : k < i.events.length
  · have fits : (UInt32.ofNat k).toNat = k :=
      UInt32.toNat_ofNat_of_lt (Nat.lt_trans inside few)
    simp [inside, Message.branch, fits]
  · simp [inside]

theorem map_slot_branches (few : i.events.length < Text.wordLimit) :
    (i.proxy stem access).branches.map (·.slot) = List.range i.events.length := by
  rw [← map_opcode_branches stem access few]
  apply List.map_congr_left
  intro branch member
  obtain ⟨⟨number, event⟩, -, rfl⟩ := List.mem_map.mp member
  rfl

end Interface

/-! ## What is written -/

namespace Proxy

/-- The branches that an opcode selects. -/
def selected (p : Proxy) (opcode : Nat) : List Branch :=
  p.branches.filter (·.opcode.toNat = opcode)

theorem selected_of_opcodes {p : Proxy} {count : Nat}
    (opcodes : p.branches.map (·.opcode.toNat) = List.range count) (opcode : Nat) :
    (p.selected opcode).length = if opcode < count then 1 else 0 := by
  calc (p.selected opcode).length
      = (p.branches.map (·.opcode.toNat)).count opcode := by
        rw [List.count_eq_countP, List.countP_map, List.countP_eq_length_filter, selected]
        simp [Function.comp_def, BEq.beq]
    _ = if opcode < count then 1 else 0 := by
        rw [opcodes, List.nodup_range.count]
        simp

theorem accessorLines_infix {p : Proxy} {accessor : Accessor} {slot : Slot}
    (member : (accessor, slot) ∈ p.slotAccessors) :
    p.accessorLines accessor slot <:+: p.definitionLines := by
  have written := infix_flatMap (fun (pair : Accessor × Slot) => p.accessorLines pair.1 pair.2)
    member
  unfold definitionLines
  exact (written.trans (List.suffix_append _ _).isInfix).trans (List.prefix_append _ _).isInfix

theorem slotBranches_infix (p : Proxy) :
    p.slotBranches.flatMap (fun (branch, slot) => branchLines branch slot) <:+:
      p.dispatcherLines := by
  have inSwitch : p.slotBranches.flatMap (fun (branch, slot) => branchLines branch slot) <:+:
      p.switchLines := by
    unfold switchLines
    split
    · next none =>
        rw [slotBranches, List.isEmpty_iff.mp none]
        exact List.nil_infix
    · exact (List.suffix_append _ _).isInfix.trans (List.prefix_append _ _).isInfix
  have inDispatcher : p.switchLines <:+: p.dispatcherLines := by
    unfold dispatcherLines
    exact (List.suffix_append _ _).isInfix.trans (List.prefix_append _ _).isInfix
  exact inSwitch.trans inDispatcher

theorem branchLines_infix {p : Proxy} {branch : Branch} {slot : Slot}
    (member : (branch, slot) ∈ p.slotBranches) :
    branchLines branch slot <:+: p.definitionLines := by
  have written := infix_flatMap (fun (pair : Branch × Slot) => branchLines pair.1 pair.2) member
  unfold definitionLines
  exact (written.trans p.slotBranches_infix).trans (List.suffix_append _ _).isInfix

/-! ## Events and their slots -/

/-- The proxy has these three for the event at an index, and they lead to each other. -/
structure Serves (p : Proxy) (index : Nat) (event : Message) (slot : Slot) (accessor : Accessor)
    (branch : Branch) : Prop where
  slot_at : p.slots[index]? = some slot
  accessor_at : p.accessors[index]? = some accessor
  branch_at : p.branches[index]? = some branch
  named : slot.name = event.name
  accessor_slot : accessor.slot = index
  branch_slot : branch.slot = index
  branch_opcode : branch.opcode.toNat = index
  params_length : slot.params.length = event.args.length
  decoders_length : branch.decoders.length = slot.params.length
  yields_iff : ∀ (j : Nat) (arg : Argument) (form : WireForm) (type : ValueType),
    event.args[j]? = some arg → branch.decoders[j]? = some form → slot.params[j]? = some type →
      (form.Yields type ↔ arg.interface = none ∨ arg.kind = .object ∨ arg.kind = .newId)
  accessor_written :
    [slot.callbackType ++ " &" ++ p.className ++ "::" ++ accessor.name ++ "()",
      Code.openBrace,
      "  return std::static_pointer_cast<events_t>(get_events())->" ++ event.name ++ ";",
      Code.closeBrace,
      ""] <:+: p.definitionLines
  branch_written :
    ["    case " ++ toString index ++ ":",
      "      if(events->" ++ event.name ++ ") events->" ++ event.name ++ "(" ++
        Code.commaSeparated (branch.decoders.zipIdx.map fun (form, j) => decoding form j) ++ ");",
      "      break;"] <:+: p.definitionLines

/-- The proxy has a slot, an accessor and a branch for each of the events, and no others. -/
structure AlignedWith (p : Proxy) (events : List Message) : Prop where
  slots_length : p.slots.length = events.length
  accessors_length : p.accessors.length = events.length
  branches_length : p.branches.length = events.length
  serves : ∀ index event, events[index]? = some event →
    ∃ slot accessor branch, p.Serves index event slot accessor branch
  selects_at_most_one : ∀ opcode, (p.selected opcode).length ≤ 1
  selects_none : ∀ opcode, events.length ≤ opcode → p.selected opcode = []
  accessors_kept : p.slotAccessors.map Prod.fst = p.accessors
  branches_kept : p.slotBranches.map Prod.fst = p.branches
  accessors_written : p.definitionLines =
    p.constructions.flatMap p.constructionLines ++ p.methods.flatMap p.methodLines ++
      (p.accessors.zip p.slots).flatMap (fun (accessor, slot) => p.accessorLines accessor slot) ++
      p.dispatcherLines
  branches_written :
    (p.branches.zip p.slots).flatMap (fun (branch, slot) => branchLines branch slot) <:+:
      p.dispatcherLines

end Proxy

namespace Interface

variable {i : Interface} (stem : String) (access : Access)

theorem slotAccessors_eq_zip :
    (i.proxy stem access).slotAccessors =
      (i.proxy stem access).accessors.zip (i.proxy stem access).slots := by
  apply filterMap_lookup_eq_zip
  rw [map_slot_accessors, length_accessors]

theorem slotBranches_eq_zip (few : i.events.length < Text.wordLimit) :
    (i.proxy stem access).slotBranches =
      (i.proxy stem access).branches.zip (i.proxy stem access).slots := by
  apply filterMap_lookup_eq_zip
  rw [map_slot_branches stem access few, length_branches]

theorem serves_event (few : i.events.length < Text.wordLimit) {index : Nat} {event : Message}
    (found : i.events[index]? = some event) :
    (i.proxy stem access).Serves index event event.slot (event.accessor index)
      (event.branch (.ofNat index)) := by
  have slotAt : (i.proxy stem access).slots[index]? = some event.slot := by
    rw [getElem?_slots, found, Option.map_some]
  have accessorAt : (i.proxy stem access).accessors[index]? = some (event.accessor index) := by
    rw [getElem?_accessors, found, Option.map_some]
  have branchAt : (i.proxy stem access).branches[index]? =
      some (event.branch (.ofNat index)) := by
    rw [getElem?_branches, found, Option.map_some]
  have inside : index < i.events.length := (List.getElem?_eq_some_iff.mp found).1
  have fits : (UInt32.ofNat index).toNat = index :=
    UInt32.toNat_ofNat_of_lt (Nat.lt_trans inside few)
  refine ⟨slotAt, accessorAt, branchAt, rfl, rfl, fits, fits, List.length_map _, ?_, ?_, ?_, ?_⟩
  · rw [Message.branch, Message.slot, List.length_map, List.length_map]
  · intro j arg form type argAt formAt typeAt
    rw [Message.branch, List.getElem?_map, argAt, Option.map_some, Option.some.injEq] at formAt
    rw [Message.slot, List.getElem?_map, argAt, Option.map_some, Option.some.injEq] at typeAt
    rw [← formAt, ← typeAt]
    exact arg.wireForm_yields_valueType
  · have member : (event.accessor index, event.slot) ∈ (i.proxy stem access).slotAccessors := by
      rw [slotAccessors_eq_zip]
      exact List.mem_of_getElem? (List.getElem?_zip_eq_some.mpr ⟨accessorAt, slotAt⟩)
    exact Proxy.accessorLines_infix member
  · have member : (event.branch (.ofNat index), event.slot) ∈
        (i.proxy stem access).slotBranches := by
      rw [slotBranches_eq_zip stem access few]
      exact List.mem_of_getElem? (List.getElem?_zip_eq_some.mpr ⟨branchAt, slotAt⟩)
    have opcode : (event.branch (.ofNat index)).opcode.toNat = index := fits
    have written := Proxy.branchLines_infix member
    rw [Proxy.branchLines, opcode] at written
    exact written

/-- The proxy of an interface is aligned with its events, whatever the interface. -/
theorem proxy_alignedWith_events (few : i.events.length < Text.wordLimit) :
    (i.proxy stem access).AlignedWith i.events := by
  have selects := Proxy.selected_of_opcodes (map_opcode_branches stem access few)
  refine ⟨length_slots .., length_accessors .., length_branches .., ?_, ?_, ?_, ?_, ?_, ?_, ?_⟩
  · intro index event found
    exact ⟨_, _, _, serves_event stem access few found⟩
  · intro opcode
    rw [selects]
    split <;> omega
  · intro opcode outside
    apply List.length_eq_zero_iff.mp
    rw [selects, if_neg (by omega)]
  · rw [slotAccessors_eq_zip]
    apply List.map_fst_zip
    apply Nat.le_of_eq
    rw [length_accessors, length_slots]
  · rw [slotBranches_eq_zip stem access few]
    apply List.map_fst_zip
    apply Nat.le_of_eq
    rw [length_branches, length_slots]
  · rw [Proxy.definitionLines, slotAccessors_eq_zip]
  · rw [← slotBranches_eq_zip stem access few]
    exact Proxy.slotBranches_infix _

end Interface

/-- An event with a number that refers to an interface and an object that refers to none. -/
def misdirectedInterface : Interface where
  name := "a"
  events := [⟨"quiet", []⟩,
    ⟨"moved", [⟨"serial", .uint, some "b", false⟩, ⟨"surface", .object, none, true⟩]⟩]

theorem Interface.proxy_alignedWith_events_misdirected :
    (misdirectedInterface.proxy "wl_" .empty).AlignedWith misdirectedInterface.events ∧
      ¬ WireForm.uint32.Yields (.proxy "b") ∧ WireForm.proxy.Yields .anyProxy := by
  have aligned := Interface.proxy_alignedWith_events (i := misdirectedInterface) "wl_" .empty
    (by decide)
  obtain ⟨slot, accessor, branch, serves⟩ := aligned.serves 1 _ rfl
  obtain rfl := Option.some.inj serves.slot_at
  obtain rfl := Option.some.inj serves.branch_at
  have serial := serves.yields_iff 0 _ .uint32 (.proxy "b") rfl rfl rfl
  have surface := serves.yields_iff 1 _ .proxy .anyProxy rfl rfl rfl
  refine ⟨aligned, ?_, ?_⟩
  · rw [serial]
    decide
  · rw [surface]
    decide

end WireProxy
