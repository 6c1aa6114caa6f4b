import Mathlib.Data.List.Basic
import WireProxy.Disk.Volume

/-!
# Volumes after a change

What a volume holds after an item has been put or erased, and which changes undo or pass each
other.  The equations hold between volumes as such, not only between what can be looked up.
-/

namespace WireProxy

namespace Volume

section Items

variable {route other : Route} {item old : Item} {items : List (Route × Item)}

theorem lookup_putIn_self : (putIn route item items).lookup route = some item := by
  induction items with
  | nil => simp [putIn]
  | cons entry items ih =>
      obtain ⟨first, held⟩ := entry
      by_cases same : first = route
      · simp [putIn, same]
      · have different : (route == first) = false := beq_false_of_ne (Ne.symm same)
        simp [putIn, same, List.lookup_cons, different, ih]

theorem lookup_putIn_of_ne (different : other ≠ route) :
    (putIn route item items).lookup other = items.lookup other := by
  have skips : (other == route) = false := beq_false_of_ne different
  induction items with
  | nil => simp [putIn, List.lookup_cons, skips]
  | cons entry items ih =>
      obtain ⟨first, held⟩ := entry
      by_cases same : first = route
      · simp [putIn, same, List.lookup_cons, skips]
      · simp [putIn, same, List.lookup_cons, ih]

theorem putIn_putIn : putIn route item (putIn route old items) = putIn route item items := by
  induction items with
  | nil => simp [putIn]
  | cons entry items ih =>
      obtain ⟨first, held⟩ := entry
      by_cases same : first = route
      · simp [putIn, same]
      · simp [putIn, same, ih]

theorem putIn_of_lookup (held : items.lookup route = some item) :
    putIn route item items = items := by
  induction items with
  | nil => simp at held
  | cons entry items ih =>
      obtain ⟨first, found⟩ := entry
      by_cases same : first = route
      · subst same
        simp only [List.lookup_cons, beq_self_eq_true, Option.some.injEq] at held
        simp [putIn, held]
      · have different : (route == first) = false := beq_false_of_ne (Ne.symm same)
        simp only [List.lookup_cons, different] at held
        simp [putIn, same, ih held]

theorem lookup_filter (keep : Route → Bool) :
    (items.filter fun entry => keep entry.1).lookup route =
      if keep route then items.lookup route else none := by
  induction items with
  | nil => simp
  | cons entry items ih =>
      obtain ⟨first, found⟩ := entry
      by_cases same : route = first
      · subst same
        cases kept : keep route with
        | false =>
            rw [List.filter_cons_of_neg (by simp [kept]), ih]
            simp [kept]
        | true => simp [kept]
      · have different : (route == first) = false := beq_false_of_ne same
        cases kept : keep first <;> simp [kept, List.lookup_cons, different, ih]

theorem filter_putIn (keep : Route → Bool) (kept : keep route = true) :
    (putIn route item items).filter (fun entry => keep entry.1) =
      putIn route item (items.filter fun entry => keep entry.1) := by
  induction items with
  | nil => simp [putIn, kept]
  | cons entry items ih =>
      obtain ⟨first, found⟩ := entry
      by_cases same : first = route
      · simp [putIn, same, kept]
      · cases keptFirst : keep first <;> simp [putIn, same, keptFirst, ih]

/-- What is added at the end and filtered out again leaves no trace. -/
theorem filter_putIn_of_absent (keep : Route → Bool) (dropped : keep route = false)
    (absent : items.lookup route = none) :
    (putIn route item items).filter (fun entry => keep entry.1) =
      items.filter fun entry => keep entry.1 := by
  induction items with
  | nil => simp [putIn, dropped]
  | cons entry items ih =>
      obtain ⟨first, found⟩ := entry
      by_cases same : first = route
      · simp [same] at absent
      · have different : (route == first) = false := beq_false_of_ne (Ne.symm same)
        simp only [List.lookup_cons, different] at absent
        simp [putIn, same, List.filter_cons, ih absent]

theorem filter_of_lookup_eq_none (absent : items.lookup route = none) :
    items.filter (fun entry => decide (entry.1 ≠ route)) = items := by
  rw [List.filter_eq_self]
  intro entry member
  have different := List.lookup_eq_none_iff.mp absent entry member
  have apart : route ≠ entry.1 := by simpa using different
  simpa using Ne.symm apart

end Items

variable {v : Volume} {route other : Route} {item old : Item}

@[simp] theorem item?_nil : v.item? [] = some .directory := rfl

theorem item?_of_ne_nil (nonempty : route ≠ []) : v.item? route = v.items.lookup route := by
  simp [item?, nonempty]

theorem ne_nil_of_item?_eq_none (absent : v.item? route = none) : route ≠ [] := by
  rintro rfl
  simp at absent

theorem item?_put_self (nonempty : route ≠ []) : (v.put route item).item? route = some item := by
  rw [item?_of_ne_nil nonempty]
  exact lookup_putIn_self

theorem item?_put_of_ne (different : other ≠ route) :
    (v.put route item).item? other = v.item? other := by
  by_cases top : other = []
  · simp [top]
  · rw [item?_of_ne_nil top, item?_of_ne_nil top]
    exact lookup_putIn_of_ne different

theorem item?_erase_of_ne (different : other ≠ route) :
    (v.erase route).item? other = v.item? other := by
  by_cases top : other = []
  · simp [top]
  · rw [item?_of_ne_nil top, item?_of_ne_nil top]
    unfold erase
    rw [lookup_filter fun entry => decide (entry ≠ route)]
    simp [different]

@[simp] theorem put_put : (v.put route old).put route item = v.put route item := by
  simp [put, putIn_putIn]

theorem put_of_item? (nonempty : route ≠ []) (held : v.item? route = some item) :
    v.put route item = v := by
  rw [item?_of_ne_nil nonempty] at held
  simp [put, putIn_of_lookup held]

theorem erase_put_of_absent (absent : v.item? route = none) :
    (v.put route item).erase route = v := by
  rw [item?_of_ne_nil (ne_nil_of_item?_eq_none absent)] at absent
  simp only [put, erase]
  rw [filter_putIn_of_absent (fun entry => decide (entry ≠ route)) (by simp) absent,
    filter_of_lookup_eq_none absent]

theorem hasDirectory_eq_true : v.hasDirectory route = true ↔ v.item? route = some .directory := by
  unfold hasDirectory
  cases v.item? route with
  | none => simp
  | some item => cases item <;> simp [Item.isDirectory]

end Volume

end WireProxy
