import WireProxy.Proofs.Reordering

/-!
# Access by a nested scan

For a target and an owner, all arguments of a protocol could be searched for one that the owner has
and that refers to the target.  The access table is filled in a single pass instead, and answers
every such question the same way.  So it is determined by its pairs of an owner and a target, in
whatever order and however often they come up.
-/

namespace WireProxy

/-- An interface of this name has a request or an event that refers to the target. -/
def Protocol.Needs (p : Protocol) (owner target : String) : Prop :=
  ∃ i ∈ p.interfaces, i.name = owner ∧
    ((∃ r ∈ i.requests, ∃ arg ∈ r.args, arg.interface = some target) ∨
      ∃ event ∈ i.events, ∃ arg ∈ event.args, arg.interface = some target)

instance (p : Protocol) (owner target : String) : Decidable (p.Needs owner target) :=
  inferInstanceAs (Decidable (∃ i ∈ p.interfaces, i.name = owner ∧
    ((∃ r ∈ i.requests, ∃ arg ∈ r.args, arg.interface = some target) ∨
      ∃ event ∈ i.events, ∃ arg ∈ event.args, arg.interface = some target)))

theorem Protocol.needs_iff_mem_grantedTo {p : Protocol} {owner target : String} :
    p.Needs owner target ↔ owner ∈ p.access.grantedTo target := by
  rw [Protocol.mem_grantedTo]
  simp only [Interface.refersTo_iff, Needs]

namespace Access

/-- Every row has an owner. -/
def Owned (a : Access) : Prop :=
  ∀ target ∈ a.targets, a.grantedTo target ≠ []

theorem owned_empty : empty.Owned := by
  intro target member
  cases member

theorem Owned.grant {a : Access} (owned : a.Owned) (target owner : String) :
    (a.grant target owner).Owned := by
  intro other member
  rcases mem_targets_grantIn.mp member with rfl | old
  · exact List.ne_nil_of_mem (mem_grantedTo_grant.mpr (.inl ⟨rfl, rfl⟩))
  · obtain ⟨name, granted⟩ := List.exists_mem_of_ne_nil _ (owned other old)
    exact List.ne_nil_of_mem (mem_grantedTo_grant.mpr (.inr granted))

theorem Owned.foldl_grant {a : Access} (owned : a.Owned)
    (needs : List (String × String)) :
    (needs.foldl (fun a need => a.grant need.1 need.2) a).Owned := by
  induction needs generalizing a with
  | nil => exact owned
  | cons need needs ih => exact ih (owned.grant need.1 need.2)

theorem mem_targets_iff {a : Access} {target : String} :
    target ∈ a.targets ↔ ∃ owners, a.rows.lookup target = some owners := by
  simp only [lookup_eq_some a.sorted, targets, List.mem_map, Prod.exists, exists_and_right,
    exists_eq_right]

theorem grantedTo_of_lookup {a : Access} {target : String} {owners : NameSet}
    (row : a.rows.lookup target = some owners) : a.grantedTo target = owners.toList := by
  rw [grantedTo, row, Option.getD_some]

theorem grantedTo_of_notMem {a : Access} {target : String} (absent : target ∉ a.targets) :
    a.grantedTo target = [] := by
  cases row : a.rows.lookup target with
  | none =>
      rw [grantedTo, row]
      rfl
  | some owners => exact absurd (mem_targets_iff.mpr ⟨owners, row⟩) absent

theorem Owned.mem_targets {a : Access} (owned : a.Owned) {target : String} :
    target ∈ a.targets ↔ a.grantedTo target ≠ [] := by
  constructor
  · exact owned target
  · intro granted
    by_contra absent
    exact granted (grantedTo_of_notMem absent)

/-- Without empty rows a table is determined by what is granted. -/
theorem Owned.ext {a b : Access} (owned : a.Owned) (owned' : b.Owned)
    (same : ∀ target, a.grantedTo target = b.grantedTo target) : a = b := by
  apply ext_lookup
  intro target
  cases row : a.rows.lookup target with
  | none =>
      have absent : target ∉ b.targets := by
        rw [owned'.mem_targets, ← same, ← owned.mem_targets, mem_targets_iff, row]
        simp
      cases row' : b.rows.lookup target with
      | none => rfl
      | some owners => exact absurd (mem_targets_iff.mpr ⟨owners, row'⟩) absent
  | some owners =>
      have present : target ∈ b.targets := by
        rw [owned'.mem_targets, ← same, ← owned.mem_targets, mem_targets_iff]
        exact ⟨owners, row⟩
      obtain ⟨owners', row'⟩ := mem_targets_iff.mp present
      have members := same target
      rw [grantedTo_of_lookup row, grantedTo_of_lookup row'] at members
      rw [row', Option.some.injEq, NameSet.mk.injEq]
      exact members

end Access

theorem Protocol.owned_access (p : Protocol) : p.access.Owned := by
  rw [Protocol.access, Access.foldl_grantAll_eq]
  exact Access.owned_empty.foldl_grant _

theorem Protocol.grantedTo_congr {p q : Protocol}
    (same : ∀ owner target, p.Needs owner target ↔ q.Needs owner target) (target : String) :
    p.access.grantedTo target = q.access.grantedTo target := by
  refine names_eq_of_sorted (p.access.grantedTo_sorted target) (q.access.grantedTo_sorted target)
    fun owner => ?_
  rw [← Protocol.needs_iff_mem_grantedTo, ← Protocol.needs_iff_mem_grantedTo, same]

/-- The table of a protocol holds what a nested scan finds, and nothing else determines it. -/
theorem Protocol.access_eq_nested_scan (p : Protocol) :
    (∀ target owner, p.access.isGranted target owner = true ↔ p.Needs owner target) ∧
    (∀ target, (p.access.grantedTo target).Pairwise (· < ·) ∧
      ∀ owner, owner ∈ p.access.grantedTo target ↔ p.Needs owner target) ∧
    p.access.targets.Pairwise (· < ·) ∧
    (∀ target, (target ∈ p.access.targets ↔ ∃ owner, p.Needs owner target) ∧
      (target ∈ p.access.targets ↔ p.access.grantedTo target ≠ [])) ∧
    ∀ q : Protocol, p.access = q.access ↔
      ∀ owner target, p.Needs owner target ↔ q.Needs owner target := by
  refine ⟨fun target owner => ?_, fun target => ⟨?_, fun owner => ?_⟩, p.access.sorted,
    fun target => ⟨?_, p.owned_access.mem_targets⟩, fun q => ⟨fun same owner target => ?_,
      fun same => ?_⟩⟩
  · rw [Protocol.needs_iff_mem_grantedTo, Access.isGranted, List.contains_iff_mem]
  · exact p.access.grantedTo_sorted target
  · exact Protocol.needs_iff_mem_grantedTo.symm
  · simp only [p.owned_access.mem_targets, Protocol.needs_iff_mem_grantedTo]
    exact ⟨List.exists_mem_of_ne_nil _, fun ⟨_, granted⟩ => List.ne_nil_of_mem granted⟩
  · rw [Protocol.needs_iff_mem_grantedTo, Protocol.needs_iff_mem_grantedTo, same]
  · exact p.owned_access.ext q.owned_access (Protocol.grantedTo_congr same)

end WireProxy
