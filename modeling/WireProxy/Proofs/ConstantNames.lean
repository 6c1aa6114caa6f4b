import WireProxy.Proofs.Grants

/-!
# Names of constants

All constants of a header share one scope, and the name of each is made of the names of its
interface, its enumeration and its entry with underscores between them.  The three parts may have
underscores of their own, so a name does not always tell its parts.  Two constants have the same
name just when what one of them has after an underscore the other has before it.
-/

namespace WireProxy

def joined (first second : String) : String :=
  first ++ "_" ++ second

/-- Some text begins the second part here and ends the first part there. -/
def Overlaps (first second first' second' : String) : Prop :=
  ∃ shared, first' = joined first shared ∧ second = joined shared second'

variable {first second first' second' : String}

theorem toList_joined (first second : String) :
    (joined first second).toList = first.toList ++ '_' :: second.toList := by
  simp [joined]

theorem joined_assoc (first second third : String) :
    joined (joined first second) third = joined first (joined second third) := by
  simp only [joined, String.append_assoc]

theorem count_underscore_joined (first second : String) :
    (joined first second).toList.count '_' =
      first.toList.count '_' + second.toList.count '_' + 1 := by
  rw [toList_joined, List.count_append, List.count_cons_self, Nat.add_assoc]

theorem Overlaps.joined_eq (overlaps : Overlaps first second first' second') :
    joined first second = joined first' second' := by
  obtain ⟨shared, rfl, rfl⟩ := overlaps
  exact (joined_assoc first shared second').symm

theorem overlaps_of_toList {rest : List Char}
    (longer : first'.toList = first.toList ++ rest)
    (shorter : '_' :: second.toList = rest ++ '_' :: second'.toList) :
    (first = first' ∧ second = second') ∨ Overlaps first second first' second' := by
  cases rest with
  | nil =>
      rw [List.append_nil] at longer
      rw [List.nil_append, List.cons.injEq] at shorter
      exact .inl ⟨String.toList_inj.mp longer.symm, String.toList_inj.mp shorter.2⟩
  | cons c shared =>
      obtain ⟨rfl, behind⟩ := List.cons.inj shorter
      refine .inr ⟨String.ofList shared, String.toList_inj.mp ?_, String.toList_inj.mp ?_⟩
      · rw [toList_joined, String.toList_ofList, longer]
      · rw [toList_joined, String.toList_ofList]
        exact behind

theorem joined_eq_joined_iff :
    joined first second = joined first' second' ↔
      (first = first' ∧ second = second') ∨ Overlaps first second first' second' ∨
        Overlaps first' second' first second := by
  constructor
  · intro same
    have lists := congrArg String.toList same
    rw [toList_joined, toList_joined, List.append_eq_append_iff] at lists
    -- The first underscore that joins stands here or there, whichever first part is shorter.
    obtain ⟨rest, longer, shorter⟩ | ⟨rest, longer, shorter⟩ := lists
    · exact (overlaps_of_toList longer shorter).imp id .inl
    · refine (overlaps_of_toList longer shorter).imp ?_ .inr
      rintro ⟨rfl, rfl⟩
      exact ⟨rfl, rfl⟩
  · rintro (⟨rfl, rfl⟩ | overlaps | overlaps)
    · rfl
    · exact overlaps.joined_eq
    · exact overlaps.joined_eq.symm

theorem Overlaps.count_lt (overlaps : Overlaps first second first' second') :
    first.toList.count '_' < first'.toList.count '_' := by
  obtain ⟨shared, rfl, -⟩ := overlaps
  rw [count_underscore_joined]
  omega

/-! ## Three parts -/

/-- The names that a constant comes from. -/
structure ConstantPath where
  interface : String
  enumeration : String
  entry : String
  deriving DecidableEq, Repr

namespace ConstantPath

def group (c : ConstantPath) : String :=
  joined c.interface c.enumeration

def name (c : ConstantPath) : String :=
  joined c.group c.entry

/-- The names agree since the group of `d` goes on where the entry of `c` begins, or since the
interface of `d` goes on where the enumeration of `c` begins. -/
def ClashesWith (c d : ConstantPath) : Prop :=
  Overlaps c.group c.entry d.group d.entry ∨
    c.entry = d.entry ∧ Overlaps c.interface c.enumeration d.interface d.enumeration

variable {c d : ConstantPath}

theorem ClashesWith.name_eq (clash : c.ClashesWith d) : c.name = d.name := by
  obtain overlaps | ⟨entry, overlaps⟩ := clash
  · exact overlaps.joined_eq
  · rw [name, name, group, group, overlaps.joined_eq, entry]

theorem ClashesWith.ne (clash : c.ClashesWith d) : c ≠ d := by
  rintro rfl
  obtain overlaps | ⟨-, overlaps⟩ := clash
  · exact Nat.lt_irrefl _ overlaps.count_lt
  · exact Nat.lt_irrefl _ overlaps.count_lt

theorem name_eq_name_iff : c.name = d.name ↔ c = d ∨ c.ClashesWith d ∨ d.ClashesWith c := by
  constructor
  · intro same
    obtain ⟨groups, entry⟩ | overlaps | overlaps := joined_eq_joined_iff.mp same
    · obtain ⟨interface, enumeration⟩ | overlaps | overlaps := joined_eq_joined_iff.mp groups
      · left
        cases c
        cases d
        simp_all
      · exact .inr (.inl (.inr ⟨entry, overlaps⟩))
      · exact .inr (.inr (.inr ⟨entry.symm, overlaps⟩))
    · exact .inr (.inl (.inl overlaps))
    · exact .inr (.inr (.inl overlaps))
  · rintro (rfl | clash | clash)
    · rfl
    · exact clash.name_eq
    · exact clash.name_eq.symm

theorem not_clashesWith (interface : '_' ∉ d.interface.toList)
    (enumeration : '_' ∉ d.enumeration.toList) : ¬ c.ClashesWith d := by
  rw [← List.count_eq_zero] at interface enumeration
  rintro (overlaps | ⟨-, overlaps⟩)
  · have fewer := overlaps.count_lt
    rw [group, group, count_underscore_joined, count_underscore_joined] at fewer
    omega
  · have fewer := overlaps.count_lt
    omega

theorem nodup_map_name_iff {paths : List ConstantPath} (distinct : paths.Nodup) :
    (paths.map (·.name)).Nodup ↔ ∀ c ∈ paths, ∀ d ∈ paths, ¬ c.ClashesWith d := by
  rw [List.nodup_map_iff_inj_on distinct]
  constructor
  · intro injective c member d member' clash
    exact clash.ne (injective c member d member' clash.name_eq)
  · intro apart c member d member' same
    obtain equal | clash | clash := name_eq_name_iff.mp same
    · exact equal
    · exact absurd clash (apart c member d member')
    · exact absurd clash (apart d member' c member)

end ConstantPath

/-! ## Constants of a protocol -/

def Enumeration.paths (enumeration : Enumeration) (interface : String) : List ConstantPath :=
  enumeration.entries.map fun entry => ⟨interface, enumeration.name, entry.name⟩

def Interface.constantPaths (i : Interface) : List ConstantPath :=
  i.enums.flatMap (·.paths i.name)

def Protocol.constantPaths (p : Protocol) (settings : Settings) : List ConstantPath :=
  (p.generated settings).flatMap (·.constantPaths)

def Proxy.constantNames (p : Proxy) : List String :=
  p.groups.flatMap fun group => group.constants.map (·.name)

def Binding.constantNames (b : Binding) : List String :=
  b.proxies.flatMap (·.constantNames)

theorem Enumeration.names_group (enumeration : Enumeration) (interface : String) :
    (enumeration.group interface).constants.map (·.name) =
      (enumeration.paths interface).map (·.name) := by
  simp [group, paths, ConstantPath.name, ConstantPath.group, joined]

theorem Interface.constantNames_proxy (i : Interface) (stem : String) (access : Access) :
    (i.proxy stem access).constantNames = i.constantPaths.map (·.name) := by
  rw [Proxy.constantNames, proxy, List.flatMap_map, constantPaths, List.map_flatMap]
  simp only [Enumeration.names_group]

theorem Protocol.constantNames_binding (p : Protocol) (settings : Settings) :
    (p.binding settings).constantNames = (p.constantPaths settings).map (·.name) := by
  rw [Binding.constantNames, binding, Binding.ofProxies, List.flatMap_map, constantPaths,
    List.map_flatMap]
  simp only [Interface.constantNames_proxy]

/-- Enumerations differ in their names within each interface, and so do entries within each
enumeration. -/
@[mk_iff] structure Protocol.DistinctConstants (p : Protocol) : Prop where
  enums : ∀ i ∈ p.interfaces, (i.enums.map (·.name)).Nodup
  entries : ∀ i ∈ p.interfaces, ∀ enumeration ∈ i.enums, (enumeration.entries.map (·.name)).Nodup

instance (p : Protocol) : Decidable p.DistinctConstants :=
  decidable_of_iff' _ p.distinctConstants_iff

theorem Enumeration.enumeration_of_mem_paths {enumeration : Enumeration} {interface : String}
    {c : ConstantPath} (member : c ∈ enumeration.paths interface) :
    c.interface = interface ∧ c.enumeration = enumeration.name := by
  obtain ⟨entry, -, rfl⟩ := List.mem_map.mp member
  exact ⟨rfl, rfl⟩

theorem Interface.interface_of_mem_constantPaths {i : Interface} {c : ConstantPath}
    (member : c ∈ i.constantPaths) : c.interface = i.name := by
  obtain ⟨enumeration, -, member⟩ := List.mem_flatMap.mp member
  exact (Enumeration.enumeration_of_mem_paths member).1

theorem Interface.nodup_constantPaths {i : Interface} (enums : (i.enums.map (·.name)).Nodup)
    (entries : ∀ enumeration ∈ i.enums, (enumeration.entries.map (·.name)).Nodup) :
    i.constantPaths.Nodup := by
  rw [constantPaths, List.nodup_flatMap]
  constructor
  · intro enumeration member
    refine List.Nodup.of_map (·.entry) ?_
    rw [Enumeration.paths, List.map_map]
    exact entries enumeration member
  · refine (List.pairwise_map.mp enums).imp fun {e f} differ c inFirst inSecond => differ ?_
    rw [← (Enumeration.enumeration_of_mem_paths inFirst).2,
      (Enumeration.enumeration_of_mem_paths inSecond).2]

namespace Protocol

variable {o : Origin} {text : String} {p : Protocol}

theorem nodup_constantPaths (loaded : Protocol.load o text = .ok p)
    (distinct : p.DistinctConstants) (settings : Settings) :
    (p.constantPaths settings).Nodup := by
  have isInterface {i : Interface} (member : i ∈ p.generated settings) : i ∈ p.interfaces :=
    List.mem_of_mem_filter member
  have names : ((p.generated settings).map (·.name)).Nodup :=
    (nodup_names_of_load loaded).sublist (List.filter_sublist.map _)
  rw [constantPaths, List.nodup_flatMap]
  constructor
  · intro i member
    exact Interface.nodup_constantPaths (distinct.enums i (isInterface member))
      (distinct.entries i (isInterface member))
  · refine (List.pairwise_map.mp names).imp fun {i j} differ c inFirst inSecond => differ ?_
    rw [← Interface.interface_of_mem_constantPaths inFirst,
      Interface.interface_of_mem_constantPaths inSecond]

/-- Constants have names of their own unless two of them clash, which takes an underscore in the
name of an interface or of an enumeration. -/
theorem load_constantNames_nodup_iff (loaded : Protocol.load o text = .ok p)
    (distinct : p.DistinctConstants) (settings : Settings) :
    ((p.binding settings).constantNames.Nodup ↔
      ∀ c ∈ p.constantPaths settings, ∀ d ∈ p.constantPaths settings, ¬ c.ClashesWith d) ∧
    ((∀ c ∈ p.constantPaths settings, '_' ∉ c.interface.toList ∧ '_' ∉ c.enumeration.toList) →
      (p.binding settings).constantNames.Nodup) := by
  have exact := ConstantPath.nodup_map_name_iff (nodup_constantPaths loaded distinct settings)
  rw [constantNames_binding]
  refine ⟨exact, fun plain => exact.mpr ?_⟩
  intro c _ d member
  obtain ⟨interface, enumeration⟩ := plain d member
  exact ConstantPath.not_clashesWith interface enumeration

end Protocol

/-- Both enumerations have a constant `mode_set_flag_on`. -/
def modeInterface : Interface where
  name := "mode"
  enums := [⟨"set_flag", [⟨"on", "0"⟩]⟩, ⟨"set", [⟨"flag_on", "1"⟩]⟩]

def modeProtocol : Protocol where
  name := none
  entries := [("mode", modeInterface)]
  keys_nodup := by decide

theorem Protocol.constantNames_not_nodup :
    Protocol.load ⟨"mode.xml", "wl_"⟩ (modeProtocol.document "wl_") = .ok modeProtocol ∧
      modeProtocol.DistinctConstants ∧ ¬ (modeProtocol.binding {}).constantNames.Nodup :=
  ⟨Protocol.load_document ⟨"mode.xml", "wl_"⟩ (by decide +kernel), by decide, by decide +kernel⟩

/-- The names have underscores, and the second group even begins like the first one. -/
def shellProtocol : Protocol where
  name := none
  entries :=
    [("shell", { name := "shell", enums := [⟨"edge", [⟨"top_left", "5"⟩, ⟨"top", "1"⟩]⟩] }),
      ("shell_edge", { name := "shell_edge", enums := [⟨"top", [⟨"right", "9"⟩]⟩] })]
  keys_nodup := by decide

theorem Protocol.load_constantNames_nodup_iff_shell :
    Protocol.load ⟨"shell.xml", "wl_"⟩ (shellProtocol.document "wl_") = .ok shellProtocol ∧
      shellProtocol.DistinctConstants ∧
      (shellProtocol.binding {}).constantNames =
        ["shell_edge_top_left", "shell_edge_top", "shell_edge_top_right"] ∧
      ∀ c ∈ shellProtocol.constantPaths {}, ∀ d ∈ shellProtocol.constantPaths {},
        ¬ c.ClashesWith d := by
  have loaded := Protocol.load_document (p := shellProtocol) ⟨"shell.xml", "wl_"⟩
    (by decide +kernel)
  have distinct : shellProtocol.DistinctConstants := by decide
  obtain ⟨exact, -⟩ := Protocol.load_constantNames_nodup_iff loaded distinct {}
  exact ⟨loaded, distinct, by decide +kernel, exact.mp (by decide +kernel)⟩

end WireProxy
