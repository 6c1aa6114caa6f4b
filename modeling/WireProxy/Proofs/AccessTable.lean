import Mathlib.Data.List.Basic
import WireProxy.Access

/-!
# What the access table holds

One grant adds one owner to the row of one target and leaves the other rows alone.  Grants that are
made interface by interface therefore add up: a name has access to a target if and only if it is the
name of an interface with an argument that refers to the target.
-/

namespace WireProxy

theorem lookup_eq_none_of_lt {target : String} {rows : AccessRows}
    (below : ∀ x ∈ rows.map Prod.fst, target < x) : rows.lookup target = none := by
  rw [List.lookup_eq_none_iff]
  intro row member
  have later := below row.1 (List.mem_map_of_mem member)
  have different : target ≠ row.1 := by
    intro same
    exact String.lt_irrefl _ (same ▸ later)
  simpa using different

theorem lookup_grantIn_self (target owner : String) (rows : AccessRows)
    (sorted : (rows.map Prod.fst).Pairwise (· < ·)) :
    (grantIn target owner rows).lookup target =
      some (((rows.lookup target).getD .empty).insert owner) := by
  induction rows with
  | nil => simp [grantIn]
  | cons row rest ih =>
      obtain ⟨first, owners⟩ := row
      obtain ⟨firstLeast, restSorted⟩ := List.pairwise_cons.mp sorted
      by_cases before : target < first
      · -- The table has no row for the target, since it would stand before the first one.
        have absent : ((first, owners) :: rest).lookup target = none := by
          apply lookup_eq_none_of_lt
          intro x member
          rcases List.mem_cons.mp member with rfl | inRest
          · exact before
          · exact String.lt_trans before (firstLeast x inRest)
        simp [grantIn, before, absent]
      · by_cases same : target = first
        · subst same
          rw [grantIn, if_neg before, if_pos rfl]
          simp
        · have skips : (target == first) = false := beq_false_of_ne same
          simp [grantIn, before, same, List.lookup_cons, skips, ih restSorted]

theorem lookup_grantIn_of_ne (target owner other : String) (rows : AccessRows)
    (different : other ≠ target) :
    (grantIn target owner rows).lookup other = rows.lookup other := by
  have skips : (other == target) = false := beq_false_of_ne different
  induction rows with
  | nil => simp [grantIn, List.lookup_cons, skips]
  | cons row rest ih =>
      obtain ⟨first, owners⟩ := row
      by_cases before : target < first
      · simp [grantIn, before, List.lookup_cons, skips]
      · by_cases same : target = first
        · subst same
          rw [grantIn, if_neg before, if_pos rfl]
          simp [List.lookup_cons, skips]
        · simp [grantIn, before, same, List.lookup_cons, ih]

/-- An argument of the interface refers to the target. -/
def Interface.RefersTo (i : Interface) (target : String) : Prop :=
  ∃ arg ∈ i.arguments, arg.interface = some target

namespace Access

theorem grantedTo_sorted (a : Access) (target : String) :
    (a.grantedTo target).Pairwise (· < ·) :=
  NameSet.sorted _

@[simp] theorem grantedTo_empty (target : String) : empty.grantedTo target = [] := rfl

theorem mem_grantedTo_grant {a : Access} {target owner other name : String} :
    name ∈ (a.grant target owner).grantedTo other ↔
      (other = target ∧ name = owner) ∨ name ∈ a.grantedTo other := by
  unfold grantedTo grant
  by_cases same : other = target
  · subst same
    rw [lookup_grantIn_self _ _ _ a.sorted, Option.getD_some, ← NameSet.mem_def,
      NameSet.mem_insert]
    simp [NameSet.mem_def]
  · rw [lookup_grantIn_of_ne _ _ _ _ same]
    simp [same]

theorem mem_grantedTo_foldl_grant {a : Access} {targets : List String}
    {owner other name : String} :
    name ∈ (targets.foldl (fun a target => a.grant target owner) a).grantedTo other ↔
      (other ∈ targets ∧ name = owner) ∨ name ∈ a.grantedTo other := by
  induction targets generalizing a with
  | nil => simp
  | cons target targets ih =>
      rw [List.foldl_cons, ih, mem_grantedTo_grant, List.mem_cons, or_and_right, or_assoc,
        or_left_comm]

theorem mem_grantedTo_grantAll {a : Access} {i : Interface} {target name : String} :
    name ∈ (a.grantAll i).grantedTo target ↔
      (i.RefersTo target ∧ name = i.name) ∨ name ∈ a.grantedTo target := by
  rw [grantAll, mem_grantedTo_foldl_grant, List.mem_filterMap]
  exact Iff.rfl

/-- Whatever the table at the start, the interfaces add their own names and nothing else. -/
theorem mem_grantedTo_foldl_grantAll {a : Access} {is : List Interface} {target name : String} :
    name ∈ (is.foldl grantAll a).grantedTo target ↔
      (∃ i ∈ is, i.name = name ∧ i.RefersTo target) ∨ name ∈ a.grantedTo target := by
  induction is generalizing a with
  | nil => simp
  | cons i is ih =>
      rw [List.foldl_cons, ih, mem_grantedTo_grantAll, List.exists_mem_cons_iff, or_assoc,
        or_left_comm, and_comm, eq_comm]

end Access

theorem Protocol.mem_grantedTo {p : Protocol} {target name : String} :
    name ∈ p.access.grantedTo target ↔
      ∃ i ∈ p.interfaces, i.name = name ∧ i.RefersTo target := by
  rw [Protocol.access, Access.mem_grantedTo_foldl_grantAll]
  simp

end WireProxy
