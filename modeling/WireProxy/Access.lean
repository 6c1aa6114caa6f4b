import WireProxy.Protocol.Basic
import WireProxy.Text.NameSet

/-!
# Access between interfaces

An interface with an argument that refers to another one needs access to that one's proxy.  The
table lists, for every interface that is referred to, those that are granted access to it.
-/

namespace WireProxy

/-- Rows of a target and the interfaces granted access to it, targets strictly increasing. -/
abbrev AccessRows := List (String × NameSet)

def grantIn (target owner : String) : AccessRows → AccessRows
  | [] => [(target, NameSet.empty.insert owner)]
  | (first, owners) :: rest =>
      if target < first then (target, NameSet.empty.insert owner) :: (first, owners) :: rest
      else if target = first then (first, owners.insert owner) :: rest
      else (first, owners) :: grantIn target owner rest

theorem mem_targets_grantIn {x target owner : String} {rows : AccessRows} :
    x ∈ (grantIn target owner rows).map Prod.fst ↔ x = target ∨ x ∈ rows.map Prod.fst := by
  induction rows with
  | nil => simp [grantIn]
  | cons row rest ih =>
      obtain ⟨first, owners⟩ := row
      by_cases before : target < first
      · simp [grantIn, before]
      · by_cases same : target = first
        · simp [grantIn, same]
        · simp only [grantIn, before, same, if_false, List.map_cons, List.mem_cons, ih]
          exact or_left_comm

theorem grantIn_sorted {target owner : String} {rows : AccessRows}
    (sorted : (rows.map Prod.fst).Pairwise (· < ·)) :
    ((grantIn target owner rows).map Prod.fst).Pairwise (· < ·) := by
  induction rows with
  | nil => simp [grantIn]
  | cons row rest ih =>
      obtain ⟨first, owners⟩ := row
      obtain ⟨firstLeast, restSorted⟩ := List.pairwise_cons.mp sorted
      by_cases before : target < first
      · simp only [grantIn, before, if_true, List.map_cons]
        refine List.pairwise_cons.mpr ⟨fun x hx => ?_, sorted⟩
        rcases List.mem_cons.mp hx with rfl | inRest
        · exact before
        · exact String.lt_trans before (firstLeast x inRest)
      · by_cases same : target = first
        · simpa [grantIn, same] using sorted
        · simp only [grantIn, before, same, if_false, List.map_cons]
          refine List.pairwise_cons.mpr ⟨fun x hx => ?_, ih restSorted⟩
          rcases mem_targets_grantIn.mp hx with rfl | inRest
          · exact name_lt_of_not_lt before same
          · exact firstLeast x inRest

theorem noRows_sorted : (([] : AccessRows).map Prod.fst).Pairwise (· < ·) :=
  List.Pairwise.nil

structure Access where
  rows : AccessRows
  sorted : (rows.map Prod.fst).Pairwise (· < ·)
  deriving DecidableEq

namespace Access

def empty : Access := ⟨[], noRows_sorted⟩

instance : Inhabited Access := ⟨empty⟩

def grant (a : Access) (target owner : String) : Access :=
  ⟨grantIn target owner a.rows, grantIn_sorted a.sorted⟩

def targets (a : Access) : List String :=
  a.rows.map Prod.fst

def grantedTo (a : Access) (target : String) : List String :=
  ((a.rows.lookup target).getD .empty).toList

def isGranted (a : Access) (target owner : String) : Bool :=
  (a.grantedTo target).contains owner

/-- Grants the owner access to every interface that one of its arguments refers to. -/
def grantAll (a : Access) (owner : Interface) : Access :=
  (owner.arguments.filterMap (·.interface)).foldl (fun a target => a.grant target owner.name) a

end Access

def Protocol.access (p : Protocol) : Access :=
  p.interfaces.foldl Access.grantAll .empty

def Protocol.argumentCount (p : Protocol) : Nat :=
  (p.interfaces.flatMap (·.arguments)).length

end WireProxy
