/-!
# Sets of names

A set of names is kept as the list of its members, strictly increasing by code point, so that
equal sets are equal values.
-/

namespace WireProxy

/-- The names with `name` added at its place, unless it is there already. -/
def insertName (name : String) : List String → List String
  | [] => [name]
  | first :: rest =>
      if name < first then name :: first :: rest
      else if name = first then first :: rest
      else first :: insertName name rest

theorem mem_insertName {x name : String} {names : List String} :
    x ∈ insertName name names ↔ x = name ∨ x ∈ names := by
  induction names with
  | nil => simp [insertName]
  | cons first rest ih =>
      by_cases before : name < first
      · simp [insertName, before]
      · by_cases same : name = first
        · simp [insertName, same]
        · simp only [insertName, before, same, if_false, List.mem_cons, ih]
          exact or_left_comm

theorem name_lt_of_not_lt {a b : String} (notBefore : ¬ a < b) (different : a ≠ b) : b < a := by
  refine Decidable.byContradiction fun notAfter => different ?_
  exact String.le_antisymm (String.not_lt.mp notAfter) (String.not_lt.mp notBefore)

theorem insertName_sorted {name : String} {names : List String}
    (sorted : names.Pairwise (· < ·)) : (insertName name names).Pairwise (· < ·) := by
  induction names with
  | nil => simp [insertName]
  | cons first rest ih =>
      obtain ⟨firstLeast, restSorted⟩ := List.pairwise_cons.mp sorted
      by_cases before : name < first
      · simp only [insertName, before, if_true]
        refine List.pairwise_cons.mpr ⟨fun x hx => ?_, sorted⟩
        rcases List.mem_cons.mp hx with rfl | inRest
        · exact before
        · exact String.lt_trans before (firstLeast x inRest)
      · by_cases same : name = first
        · simpa [insertName, same] using sorted
        · simp only [insertName, before, same, if_false]
          refine List.pairwise_cons.mpr ⟨fun x hx => ?_, ih restSorted⟩
          rcases mem_insertName.mp hx with rfl | inRest
          · exact name_lt_of_not_lt before same
          · exact firstLeast x inRest

structure NameSet where
  toList : List String
  sorted : toList.Pairwise (· < ·)
  deriving DecidableEq

namespace NameSet

def empty : NameSet := ⟨[], .nil⟩

instance : Inhabited NameSet := ⟨empty⟩

def insert (s : NameSet) (name : String) : NameSet :=
  ⟨insertName name s.toList, insertName_sorted s.sorted⟩

def contains (s : NameSet) (name : String) : Bool :=
  s.toList.contains name

def ofList (names : List String) : NameSet :=
  names.foldl insert empty

instance : Membership String NameSet := ⟨fun s name => name ∈ s.toList⟩

theorem mem_def {s : NameSet} {name : String} : name ∈ s ↔ name ∈ s.toList := Iff.rfl

@[simp] theorem not_mem_empty {x : String} : x ∉ empty := by simp [mem_def, empty]

@[simp] theorem mem_insert {s : NameSet} {x name : String} :
    x ∈ s.insert name ↔ x = name ∨ x ∈ s :=
  mem_insertName

@[simp] theorem contains_eq_true {s : NameSet} {name : String} :
    s.contains name = true ↔ name ∈ s := by
  simp [contains, mem_def]

theorem mem_foldl_insert {names : List String} {s : NameSet} {x : String} :
    x ∈ names.foldl insert s ↔ x ∈ names ∨ x ∈ s := by
  induction names generalizing s with
  | nil => simp
  | cons name rest ih =>
      simp only [List.foldl_cons, ih, mem_insert, List.mem_cons]
      constructor
      · rintro (h | rfl | h)
        · exact .inl (.inr h)
        · exact .inl (.inl rfl)
        · exact .inr h
      · rintro ((rfl | h) | h)
        · exact .inr (.inl rfl)
        · exact .inl h
        · exact .inr (.inr h)

@[simp] theorem mem_ofList {names : List String} {x : String} : x ∈ ofList names ↔ x ∈ names := by
  simp [ofList, mem_foldl_insert]

end NameSet

end WireProxy
