import WireProxy.Proofs.Success
import WireProxy.Proofs.Volume

/-!
# Routes of paths

Where a path leads depends on the directories of a volume alone, among them the working directory.
So a path keeps its route as long as no directory comes or goes, and every operation on a path is
told by its route and the item there.
-/

namespace WireProxy

namespace Volume

theorem notMem_of_mem_splitOn {c : Char} {cs part : List Char} (member : part ∈ cs.splitOn c) :
    c ∉ part := by
  induction cs generalizing part with
  | nil =>
      rw [List.splitOn_nil, List.mem_singleton] at member
      simp [member]
  | cons first cs ih =>
      rw [List.splitOn_cons_eq_if_modifyHead] at member
      by_cases separates : first = c
      · rw [if_pos (by simp [separates]), List.mem_cons] at member
        rcases member with rfl | member
        · simp
        · exact ih member
      · rw [if_neg (by simp [separates])] at member
        obtain ⟨head, tail, parts⟩ := List.exists_cons_of_ne_nil (List.splitOn_ne_nil c cs)
        rw [parts, List.modifyHead_cons, List.mem_cons] at member
        rw [parts] at ih
        rcases member with rfl | member
        · have inHead : c ∉ head := ih (by simp)
          simp [Ne.symm separates, inHead]
        · exact ih (by simp [member])

theorem notMem_of_mem_pathParts {path name : String} (member : name ∈ pathParts path) :
    '/' ∉ name.toList := by
  obtain ⟨part, inParts, rfl⟩ := List.mem_map.mp member
  rw [String.toList_ofList]
  exact notMem_of_mem_splitOn inParts

variable {v w : Volume} {here target : Route} {parts : List String} {path : String}

theorem walk_cons_eq_ok {part : String} :
    v.walk here (part :: parts) = .ok target ↔
      v.item? here = some .directory ∧
        if part = "" ∨ part = "." then v.walk here parts = .ok target
        else if part = ".." then v.walk here.dropLast parts = .ok target
        else part.utf8ByteSize ≤ nameLimit ∧ v.walk (here ++ [part]) parts = .ok target := by
  rw [walk]
  cases v.item? here with
  | none => simp
  | some item =>
      cases item with
      | file content => simp
      | directory =>
          simp only [true_and]
          split
          · rfl
          · split
            · rfl
            · split
              · rename_i tooLong
                simp only [reduceCtorEq, false_iff, not_and]
                omega
              · rename_i fits
                rw [Nat.not_lt] at fits
                simp [fits]

theorem walk_append_eq_ok {more : List String} :
    v.walk here (parts ++ more) = .ok target ↔
      ∃ between, v.walk here parts = .ok between ∧ v.walk between more = .ok target := by
  induction parts generalizing here with
  | nil => simp [walk]
  | cons part parts ih =>
      simp only [List.cons_append, walk_cons_eq_ok, ih]
      split
      · simp [and_assoc]
      · split
        · simp [and_assoc]
        · simp [and_assoc]

/-- All names on the way are from the beginning or from the path. -/
theorem mem_of_walk (walked : v.walk here parts = .ok target) {name : String}
    (member : name ∈ target) : name ∈ here ∨ name ∈ parts := by
  induction parts generalizing here with
  | nil =>
      obtain rfl : here = target := by simpa [walk] using walked
      exact .inl member
  | cons part parts ih =>
      obtain ⟨-, walked⟩ := walk_cons_eq_ok.mp walked
      split at walked
      · exact (ih walked).imp_right (List.mem_cons_of_mem _)
      · split at walked
        · refine (ih walked).imp ?_ (List.mem_cons_of_mem _)
          exact fun inRest => (List.dropLast_sublist here).subset inRest
        · rcases ih walked.2 with before | after
          · rcases List.mem_append.mp before with inHere | isPart
            · exact .inl inHere
            · exact .inr (List.mem_cons.mpr (.inl (List.mem_singleton.mp isPart)))
          · exact .inr (List.mem_cons_of_mem _ after)

/-- The two volumes have the same directories and the same working directory. -/
structure SameDirectories (v w : Volume) : Prop where
  home : v.home = w.home
  directory : ∀ route, v.item? route = some .directory ↔ w.item? route = some .directory

theorem SameDirectories.symm (same : SameDirectories v w) : SameDirectories w v :=
  ⟨same.home.symm, fun route => (same.directory route).symm⟩

theorem SameDirectories.start (same : SameDirectories v w) (path : String) :
    w.start path = v.start path := by
  rw [Volume.start, Volume.start, same.home]

theorem SameDirectories.walk (same : SameDirectories v w)
    (walked : v.walk here parts = .ok target) : w.walk here parts = .ok target := by
  induction parts generalizing here with
  | nil => simpa [Volume.walk] using walked
  | cons part parts ih =>
      rw [walk_cons_eq_ok] at walked ⊢
      obtain ⟨isDirectory, walked⟩ := walked
      refine ⟨(same.directory here).mp isDirectory, ?_⟩
      split at walked
      · rename_i idle
        rw [if_pos idle]
        exact ih walked
      · rename_i notIdle
        rw [if_neg notIdle]
        split at walked
        · rename_i up
          rw [if_pos up]
          exact ih walked
        · rename_i notUp
          rw [if_neg notUp]
          exact ⟨walked.1, ih walked.2⟩

/-! ## Routes -/

theorem route_eq_ok :
    v.route path = .ok target ↔
      checkPath path = .ok () ∧ v.walk (v.start path) (pathParts path) = .ok target := by
  simp only [route, bind_eq_ok]
  constructor
  · rintro ⟨⟨⟩, checked, walked⟩
    exact ⟨checked, walked⟩
  · rintro ⟨checked, walked⟩
    exact ⟨(), checked, walked⟩

theorem SameDirectories.route (same : SameDirectories v w) (leads : v.route path = .ok target) :
    w.route path = .ok target := by
  rw [route_eq_ok] at leads ⊢
  rw [same.start]
  exact ⟨leads.1, same.walk leads.2⟩

theorem mem_of_route (leads : v.route path = .ok target) {name : String} (member : name ∈ target) :
    name ∈ v.home ∨ '/' ∉ name.toList := by
  refine (mem_of_walk (route_eq_ok.mp leads).2 member).imp ?_ notMem_of_mem_pathParts
  intro inStart
  unfold start at inStart
  split at inStart
  · cases inStart
  · exact inStart

theorem find_eq_ok {item : Item} :
    v.find path = .ok (target, item) ↔
      v.route path = .ok target ∧ v.item? target = some item := by
  simp only [find, bind_eq_ok]
  constructor
  · rintro ⟨reached, leads, found⟩
    cases held : v.item? reached with
    | none => simp [held] at found
    | some there =>
        simp only [held, pure_eq_ok, Prod.mk.injEq] at found
        obtain ⟨rfl, rfl⟩ := found
        exact ⟨leads, held⟩
  · rintro ⟨leads, held⟩
    exact ⟨target, leads, by simp [held]⟩

theorem findDirectory_eq_ok :
    v.findDirectory path = .ok target ↔
      v.route path = .ok target ∧ v.item? target = some .directory := by
  rw [← find_eq_ok]
  simp only [findDirectory, bind_eq_ok]
  constructor
  · rintro ⟨⟨reached, item⟩, found, isDirectory⟩
    cases item with
    | file content => simp at isDirectory
    | directory =>
        obtain rfl : reached = target := by simpa using isDirectory
        exact found
  · intro found
    exact ⟨_, found, by simp⟩

theorem contentAt_eq_ok {content : ByteArray} :
    v.contentAt path = .ok content ↔
      ∃ target, v.route path = .ok target ∧ v.item? target = some (.file content) := by
  simp only [← find_eq_ok, contentAt, bind_eq_ok]
  constructor
  · rintro ⟨⟨reached, item⟩, found, isFile⟩
    cases item with
    | file there =>
        obtain rfl : there = content := by simpa using isFile
        exact ⟨reached, found⟩
    | directory => simp at isFile
  · rintro ⟨target, found⟩
    exact ⟨_, found, by simp⟩

theorem hasFile_eq_true :
    v.hasFile path = true ↔ ∃ content, v.contentAt path = .ok content := by
  unfold hasFile
  cases v.contentAt path with
  | error fault => simp [Except.isOk, Except.toBool]
  | ok content => simp [Except.isOk, Except.toBool]

theorem deleteAt_eq_ok :
    v.deleteAt path = .ok w ↔
      ∃ target content, v.route path = .ok target ∧ v.item? target = some (.file content) ∧
        w = v.erase target := by
  simp only [deleteAt, bind_eq_ok]
  constructor
  · rintro ⟨⟨reached, item⟩, found, erased⟩
    obtain ⟨leads, held⟩ := find_eq_ok.mp found
    cases item with
    | file content =>
        obtain rfl : v.erase reached = w := by simpa using erased
        exact ⟨reached, content, leads, held, rfl⟩
    | directory => simp at erased
  · rintro ⟨target, content, leads, held, rfl⟩
    exact ⟨_, find_eq_ok.mpr ⟨leads, held⟩, by simp⟩

/-! ## Destinations -/

/-- The path ends in a name: no slash follows, and the last part is no way to a directory. -/
def EndsInName (path : String) : Prop :=
  withoutEndSlashes path = path.toList ∧ (pathParts path).getLastD "" ∉ ["", ".", ".."]

theorem withoutEndSlashes_eq (unslashed : ¬ (withoutEndSlashes path).length < path.toList.length) :
    withoutEndSlashes path = path.toList := by
  unfold withoutEndSlashes at unslashed ⊢
  have suffix : path.toList.reverse.dropWhile (· == '/') <:+ path.toList.reverse :=
    List.dropWhile_suffix _
  have whole : path.toList.reverse.length ≤
      (path.toList.reverse.dropWhile (· == '/')).length := by
    simpa using unslashed
  rw [suffix.eq_of_length_le whole, List.reverse_reverse]

theorem pathParts_eq_append :
    pathParts path = (pathParts path).dropLast ++ [(pathParts path).getLastD ""] := by
  have nonempty : pathParts path ≠ [] := by
    simp [pathParts]
  rw [List.getLastD_eq_getLast?, List.getLast?_eq_some_getLast nonempty, Option.getD_some,
    List.dropLast_concat_getLast nonempty]

theorem walk_dot_eq_ok : v.walk here ["."] = .ok target ↔
    v.item? here = some .directory ∧ here = target := by
  rw [walk_cons_eq_ok]
  simp [walk]

theorem walk_name_eq_ok {name : String} (isName : name ∉ ["", ".", ".."]) :
    v.walk here [name] = .ok target ↔
      v.item? here = some .directory ∧ name.utf8ByteSize ≤ nameLimit ∧ here ++ [name] = target := by
  simp only [List.mem_cons, List.not_mem_nil, or_false, not_or] at isName
  rw [walk_cons_eq_ok]
  simp [walk, isName]

theorem leaf_eq_ok (unslashed : withoutEndSlashes path = path.toList) {leaf : Leaf} :
    v.leaf path = .ok leaf ↔
      checkPath path = .ok () ∧
        v.walk (v.start path) (pathParts path).dropLast = .ok leaf.directory ∧
        v.item? leaf.directory = some .directory ∧
        leaf.name = (pathParts path).getLastD "" ∧ leaf.slashed = false := by
  simp only [Volume.leaf, bind_eq_ok, pure_eq_ok, unslashed, walk_append_eq_ok, walk_dot_eq_ok,
    Nat.lt_irrefl, decide_false]
  constructor
  · rintro ⟨⟨⟩, checked, directory, ⟨between, walked, isDirectory, rfl⟩, rfl⟩
    exact ⟨checked, walked, isDirectory, rfl, rfl⟩
  · rintro ⟨checked, walked, isDirectory, name, slashed⟩
    refine ⟨(), checked, leaf.directory, ⟨leaf.directory, walked, isDirectory, rfl⟩, ?_⟩
    cases leaf
    simp_all [pathParts]

theorem whole_of_leaf {leaf : Leaf} (found : v.leaf path = .ok leaf)
    (unslashed : leaf.slashed = false) : withoutEndSlashes path = path.toList := by
  simp only [Volume.leaf, bind_eq_ok, pure_eq_ok] at found
  obtain ⟨-, -, directory, -, rfl⟩ := found
  exact withoutEndSlashes_eq (of_decide_eq_false unslashed)

theorem isStep_eq_false {leaf : Leaf} : leaf.isStep = false ↔ leaf.name ∉ ["", ".", ".."] := by
  simp [Leaf.isStep, and_assoc]

theorem isTooLong_eq_false {leaf : Leaf} :
    leaf.isTooLong = false ↔ leaf.name.utf8ByteSize ≤ nameLimit := by
  simp [Leaf.isTooLong]

/-- The leaf is refused for nothing, and its route is the target. -/
theorem destination_eq_ok_of_leaf :
    v.destination path = .ok target ↔
      ∃ leaf, v.leaf path = .ok leaf ∧ leaf.isStep = false ∧ leaf.isTooLong = false ∧
        leaf.slashed = false ∧ v.item? leaf.route ≠ some .directory ∧ leaf.route = target := by
  simp only [destination, bind_eq_ok]
  refine exists_congr fun leaf => and_congr_right fun _ => ?_
  cases leaf.isStep with
  | true => simp
  | false =>
      cases leaf.isTooLong with
      | true => simp
      | false =>
          cases leaf.slashed with
          | true => simp
          | false =>
              by_cases taken : v.item? leaf.route = some .directory
              · simp [hasDirectory_eq_true, taken]
              · simp [hasDirectory_eq_true, taken]

/-- A file can be moved to a path that ends in a name, unless a directory is there. -/
theorem destination_eq_ok :
    v.destination path = .ok target ↔
      EndsInName path ∧ v.route path = .ok target ∧ v.item? target ≠ some .directory := by
  rw [destination_eq_ok_of_leaf]
  constructor
  · rintro ⟨leaf, found, isName, fits, unslashed, free, rfl⟩
    have whole := whole_of_leaf found unslashed
    obtain ⟨checked, walked, isDirectory, name, -⟩ := (leaf_eq_ok whole).mp found
    rw [isStep_eq_false, name] at isName
    rw [isTooLong_eq_false, name] at fits
    refine ⟨⟨whole, isName⟩, route_eq_ok.mpr ⟨checked, ?_⟩, free⟩
    rw [pathParts_eq_append, walk_append_eq_ok]
    refine ⟨leaf.directory, walked, (walk_name_eq_ok isName).mpr ⟨isDirectory, fits, ?_⟩⟩
    rw [Leaf.route, name]
  · rintro ⟨⟨whole, isName⟩, leads, free⟩
    obtain ⟨checked, walked⟩ := route_eq_ok.mp leads
    rw [pathParts_eq_append, walk_append_eq_ok] at walked
    obtain ⟨directory, walked, last⟩ := walked
    obtain ⟨isDirectory, fits, rfl⟩ := (walk_name_eq_ok isName).mp last
    refine ⟨⟨directory, (pathParts path).getLastD "", false⟩,
      (leaf_eq_ok whole).mpr ⟨checked, walked, isDirectory, rfl, rfl⟩,
      isStep_eq_false.mpr isName, isTooLong_eq_false.mpr fits, rfl, free, rfl⟩

end Volume

end WireProxy
