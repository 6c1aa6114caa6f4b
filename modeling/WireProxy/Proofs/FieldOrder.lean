import Mathlib.Data.List.Perm.Basic
import WireProxy.Json.Protocol
import WireProxy.Json.Settings
import WireProxy.Proofs.Reordering

/-!
# The order of fields

The fields of a JSON object have no order of their own: what is written is read back by others, who
may keep the fields sorted.  A reader finds a field by its name, and so it reads the same from any
arrangement of the fields, at every depth.
-/

namespace WireProxy

namespace Json

/-- The same value with the fields of its objects in another order.  An object in which a name
stands twice is not rearranged, since there the first one counts. -/
inductive Rearranged : Json → Json → Prop where
  | refl (j : Json) : Rearranged j j
  | array {items items' : List Json} (each : List.Forall₂ Rearranged items items') :
      Rearranged (array items) (array items')
  | object {fields moved fields' : List (String × Json)} (distinct : (fields.map Prod.fst).Nodup)
      (perm : fields.Perm moved) (names : moved.map Prod.fst = fields'.map Prod.fst)
      (each : List.Forall₂ Rearranged (moved.map Prod.snd) (fields'.map Prod.snd)) :
      Rearranged (object fields) (object fields')

theorem lookup_perm {α : Type} {rows rows' : List (String × α)}
    (distinct : (rows.map Prod.fst).Nodup) (perm : rows.Perm rows') (name : String) :
    rows.lookup name = rows'.lookup name := by
  have distinct' : (rows'.map Prod.fst).Nodup := (perm.map Prod.fst).nodup distinct
  ext value
  rw [lookup_eq_some_iff_mem distinct, lookup_eq_some_iff_mem distinct', perm.mem_iff]

theorem lookup_rel {R : Json → Json → Prop} {fields fields' : List (String × Json)}
    (names : fields.map Prod.fst = fields'.map Prod.fst)
    (each : List.Forall₂ R (fields.map Prod.snd) (fields'.map Prod.snd)) (name : String) :
    Option.Rel R (fields.lookup name) (fields'.lookup name) := by
  induction fields generalizing fields' with
  | nil =>
      obtain rfl : fields' = [] := by simpa using names.symm
      exact .none
  | cons field fields ih =>
      match fields' with
      | [] => cases names
      | field' :: fields' =>
          obtain ⟨key, value⟩ := field
          obtain ⟨key', value'⟩ := field'
          simp only [List.map_cons, List.cons.injEq] at names
          obtain ⟨rfl, names⟩ := names
          obtain ⟨first, others⟩ := List.forall₂_cons.mp each
          rw [List.lookup_cons, List.lookup_cons]
          cases name == key with
          | true => exact .some first
          | false => exact ih names others

theorem Rearranged.field? {j j' : Json} (moved : j.Rearranged j') (name : String) :
    Option.Rel Rearranged (j.field? name) (j'.field? name) := by
  cases moved with
  | refl =>
      cases j.field? name with
      | none => exact .none
      | some value => exact .some (.refl value)
  | array each => exact .none
  | object distinct perm names each =>
      rw [Json.field?, Json.field?, lookup_perm distinct perm]
      exact lookup_rel names each name

theorem map_fst_zip_take {α β : Type} (as : List α) (bs : List β) :
    (as.zip bs).map Prod.fst = as.take bs.length := by
  induction as generalizing bs with
  | nil => simp
  | cons a as ih =>
      cases bs with
      | nil => rfl
      | cons b bs => simp [ih]

/-- An array that stands for a record is rearranged to one that stands for the record rearranged. -/
theorem Rearranged.record {names others : List String} {j j' : Json}
    (distinct : (names ++ others).Nodup) (moved : j.Rearranged j') :
    (j.record names others).Rearranged (j'.record names others) := by
  cases moved with
  | refl => exact .refl _
  | @array items items' each =>
      have lengths := each.length_eq
      rw [Json.record, Json.record, ← lengths]
      split
      · next fits =>
          have values : ∀ given : List Json, given.length = items.length →
              ((names ++ others).zip given).map Prod.snd = given := fun given same =>
            List.map_snd_zip (same.trans_le fits.2)
          refine .object ?_ (.refl _) ?_ ?_
          · rw [map_fst_zip_take]
            exact distinct.sublist (List.take_sublist _ _)
          · rw [map_fst_zip_take, map_fst_zip_take, lengths]
          · rw [values items rfl, values items' lengths.symm]
            exact each
      · exact .array each
  | object distinct perm names each => exact .object distinct perm names each

/-- A reader that does not depend on how fields are arranged. -/
def Unordered {α : Type} (decode : Json → Option α) : Prop :=
  ∀ ⦃j j' : Json⦄, j.Rearranged j' → decode j' = decode j

section Readers

variable {α β : Type} {decode : Json → Option α}

theorem unordered_pure (a : α) : Unordered fun _ => some a :=
  fun _ _ _ => rfl

theorem Unordered.bind {next : α → Json → Option β} (first : Unordered decode)
    (others : ∀ a, Unordered (next a)) : Unordered fun j => decode j >>= fun a => next a j := by
  intro j j' moved
  simp only [first moved, fun a => others a moved]

theorem Unordered.map (f : α → β) (unordered : Unordered decode) :
    Unordered fun j => (decode j).map f := by
  intro j j' moved
  simp only [unordered moved]

theorem unordered_string? : Unordered string? := by
  intro j j' moved
  cases moved <;> rfl

theorem unordered_bool? : Unordered bool? := by
  intro j j' moved
  cases moved <;> rfl

theorem unordered_word? : Unordered word? := by
  intro j j' moved
  cases moved <;> rfl

theorem mapM_congr_rel {R : Json → Json → Prop} {items items' : List Json}
    (each : List.Forall₂ R items items')
    (same : ∀ j j', R j j' → decode j' = decode j) : items'.mapM decode = items.mapM decode := by
  induction each with
  | nil => rfl
  | cons first _ ih => rw [List.mapM_cons, List.mapM_cons, same _ _ first, ih]

theorem Unordered.list? (unordered : Unordered decode) : Unordered (list? decode) := by
  intro j j' moved
  cases moved with
  | refl => rfl
  | array each => exact mapM_congr_rel each fun _ _ moved => unordered moved
  | object _ _ _ _ => rfl

theorem Unordered.record? {names others : List String} (distinct : (names ++ others).Nodup)
    (unordered : Unordered decode) : Unordered (record? names others decode) := by
  intro j j' moved
  exact unordered (moved.record distinct)

theorem Unordered.required? (unordered : Unordered decode) (name : String) :
    Unordered (required? decode name) := by
  intro j j' moved
  have found := moved.field? name
  rw [Json.required?, Json.required?]
  generalize j.field? name = given, j'.field? name = given' at found
  cases found with
  | none => rfl
  | some value => exact unordered value

theorem Unordered.defaulted? (unordered : Unordered decode) (default : α) (name : String) :
    Unordered (defaulted? default decode name) := by
  intro j j' moved
  have found := moved.field? name
  rw [Json.defaulted?, Json.defaulted?]
  generalize j.field? name = given, j'.field? name = given' at found
  cases found with
  | none => rfl
  | some value => exact unordered value

theorem Unordered.optional? (unordered : Unordered decode) (name : String) :
    Unordered (optional? decode name) := by
  intro j j' moved
  have found := moved.field? name
  rw [Json.optional?, Json.optional?]
  generalize j.field? name = given, j'.field? name = given' at found
  cases found with
  | none => rfl
  | some value =>
      -- Null is no object and no array, so it is rearranged to itself only.
      cases value with
      | refl => rfl
      | array each => exact congrArg (Option.map some) (unordered (.array each))
      | object distinct perm names each =>
          exact congrArg (Option.map some) (unordered (.object distinct perm names each))

end Readers

end Json

open Json

theorem Argument.unordered_ofJson? : Unordered Argument.ofJson? :=
  .record? (by decide) <| .bind (unordered_string?.required? _) fun _ =>
    .bind ((unordered_string?.map _).required? _) fun _ =>
      .bind (unordered_string?.optional? _) fun _ =>
        .bind (unordered_bool?.defaulted? _ _) fun _ => unordered_pure _

theorem Message.unordered_ofFields? : Unordered Message.ofFields? :=
  .bind (unordered_string?.required? _) fun _ =>
    .bind (Argument.unordered_ofJson?.list?.required? _) fun _ => unordered_pure _

theorem Message.unordered_ofJson? : Unordered Message.ofJson? :=
  unordered_ofFields?.record? (by decide)

theorem Request.unordered_ofJson? : Unordered Request.ofJson? :=
  .bind Message.unordered_ofFields? fun _ =>
    .bind (unordered_word?.required? _) fun _ =>
      .bind (Argument.unordered_ofJson?.optional? _) fun _ => unordered_pure _

theorem EnumEntry.unordered_ofJson? : Unordered EnumEntry.ofJson? :=
  .record? (by decide) <| .bind (unordered_string?.required? _) fun _ =>
    .bind (unordered_string?.required? _) fun _ => unordered_pure _

theorem Enumeration.unordered_ofJson? : Unordered Enumeration.ofJson? :=
  .record? (by decide) <| .bind (unordered_string?.required? _) fun _ =>
    .bind (EnumEntry.unordered_ofJson?.list?.required? _) fun _ => unordered_pure _

theorem Interface.unordered_ofJson? : Unordered Interface.ofJson? :=
  .record? (by decide) <| .bind (unordered_string?.required? _) fun _ =>
    .bind (unordered_word?.required? _) fun _ =>
      .bind (unordered_word?.optional? _) fun _ =>
        .bind (Request.unordered_ofJson?.list?.required? _) fun _ =>
          .bind (Message.unordered_ofJson?.list?.required? _) fun _ =>
            .bind (Enumeration.unordered_ofJson?.list?.required? _) fun _ => unordered_pure _

theorem OutputStyle.unordered_ofJson? : Unordered OutputStyle.ofJson? :=
  .record? (by decide) <| .bind (unordered_string?.required? _) fun _ =>
    .bind (unordered_string?.list?.required? _) fun _ =>
      .bind (unordered_string?.required? _) fun _ =>
        .bind (unordered_string?.required? _) fun _ => unordered_pure _

theorem Settings.unordered_ofJson? : Unordered Settings.ofJson? :=
  .record? (by decide) <| .bind (unordered_string?.required? _) fun _ =>
    .bind (unordered_string?.list?.required? _) fun _ =>
      .bind (OutputStyle.unordered_ofJson?.required? _) fun _ => unordered_pure _

end WireProxy
