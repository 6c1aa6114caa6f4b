import Mathlib.Data.List.Nodup
import Mathlib.Data.List.Perm.Subperm
import WireProxy.Text.FreeName

/-!
# The first free name

Among one more candidate than there are used names one is free, so the search for a free name
always ends, in no more steps than there are used names, and it finds the one with the fewest
underscores.
-/

namespace WireProxy

theorem toList_underscored (base : String) (n : Nat) :
    (underscored base n).toList = base.toList ++ List.replicate n '_' := by
  simp [underscored]

theorem underscored_injective (base : String) : Function.Injective (underscored base) := by
  intro i j same
  have lengths := congrArg (fun name => name.toList.length) same
  simpa [toList_underscored] using lengths

theorem exists_underscored_notMem (base : String) (used : List String) :
    ∃ n ∈ List.range (used.length + 1), underscored base n ∉ used := by
  by_contra allUsed
  push Not at allUsed
  have candidates : ((List.range (used.length + 1)).map (underscored base)).Nodup :=
    List.nodup_range.map (underscored_injective base)
  have inUsed : (List.range (used.length + 1)).map (underscored base) ⊆ used := by
    intro name member
    obtain ⟨n, inRange, rfl⟩ := List.mem_map.mp member
    exact allUsed n inRange
  have crowded := (candidates.subperm inUsed).length_le
  simp only [List.length_map, List.length_range] at crowded
  omega

theorem freeName_spec (base : String) (used : List String) :
    ∃ n, freeName base used = underscored base n ∧ underscored base n ∉ used ∧
      ∀ k < n, underscored base k ∈ used := by
  obtain ⟨m, inRange, free⟩ := exists_underscored_notMem base used
  cases found : (List.range (used.length + 1)).find?
      (fun n => !used.contains (underscored base n)) with
  | none =>
      have taken := List.find?_eq_none.mp found m inRange
      simp [free] at taken
  | some n =>
      obtain ⟨isFree, -, taken⟩ := List.find?_range_eq_some.mp found
      refine ⟨n, ?_, by simpa using isFree, fun k earlier => by simpa using taken k earlier⟩
      simp only [freeName, found, Option.getD_some]

theorem freeName_notMem (base : String) (used : List String) : freeName base used ∉ used := by
  obtain ⟨n, name, free, -⟩ := freeName_spec base used
  rwa [name]

theorem prefix_freeName (base : String) (used : List String) :
    base.toList <+: (freeName base used).toList := by
  obtain ⟨n, name, -⟩ := freeName_spec base used
  rw [name, toList_underscored]
  exact List.prefix_append _ _

/-- A search that puts one more underscore at the end of its name as long as the name is used comes
to an end after some steps, with a result. -/
inductive Searches (used : List String) : String → Nat → String → Prop where
  | done {name : String} (free : name ∉ used) : Searches used name 0 name
  | step {name result : String} {steps : Nat} (taken : name ∈ used)
      (later : Searches used (name.push '_') steps result) : Searches used name (steps + 1) result

theorem underscored_zero (base : String) : underscored base 0 = base := by
  simp [underscored]

theorem underscored_push (base : String) (n : Nat) :
    underscored (base.push '_') n = underscored base (n + 1) := by
  apply String.toList_inj.mp
  rw [toList_underscored, toList_underscored, String.toList_push, List.append_assoc,
    List.replicate_succ]
  rfl

theorem searches_underscored {base : String} {used : List String} {n : Nat}
    (free : underscored base n ∉ used) (taken : ∀ k < n, underscored base k ∈ used) :
    Searches used base n (underscored base n) := by
  induction n generalizing base with
  | zero =>
      rw [underscored_zero] at free ⊢
      exact .done free
  | succ n ih =>
      have first := taken 0 n.succ_pos
      rw [underscored_zero] at first
      simp only [← underscored_push] at free ⊢
      refine .step first (ih free fun k earlier => ?_)
      rw [underscored_push]
      exact taken (k + 1) (Nat.succ_lt_succ earlier)

theorem searches_freeName (base : String) (used : List String) :
    ∃ steps ≤ used.length, Searches used base steps (freeName base used) := by
  obtain ⟨n, name, free, taken⟩ := freeName_spec base used
  obtain ⟨m, inRange, free'⟩ := exists_underscored_notMem base used
  refine ⟨n, ?_, name ▸ searches_underscored free taken⟩
  -- A longer search would pass the candidate that is known to be free.
  have notPassed : ¬ m < n := fun earlier => free' (taken m earlier)
  have bound := List.mem_range.mp inRange
  omega

end WireProxy
