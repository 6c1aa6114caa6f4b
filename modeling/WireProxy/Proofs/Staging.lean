import WireProxy.Proofs.FreeName
import WireProxy.Proofs.Routes

/-!
# Staged files

While a run works, its volume is the one it began with, or that one with a destination replaced,
and some staged files besides.  `Staged` says so, and each operation of the run keeps it.
-/

namespace WireProxy

namespace Volume

variable {v w w' : Volume} {own : List String} {path : String} {route staged target : Route}
  {content : ByteArray}

theorem SameDirectories.trans {u : Volume} (first : SameDirectories u v)
    (second : SameDirectories v w) : SameDirectories u w :=
  ⟨first.home.trans second.home,
    fun route => (first.directory route).trans (second.directory route)⟩

theorem ne_nil_of_not_directory (free : v.item? route ≠ some .directory) : route ≠ [] := by
  rintro rfl
  exact free rfl

/-- A file in a place that is no directory changes no directory. -/
theorem sameDirectories_put (free : v.item? route ≠ some .directory) :
    SameDirectories v (v.put route (.file content)) := by
  refine ⟨rfl, fun other => ?_⟩
  by_cases same : other = route
  · subst same
    rw [item?_put_self (ne_nil_of_not_directory free)]
    simp [free]
  · rw [item?_put_of_ne same]

theorem ne_nil_of_destination (found : v.destination path = .ok target) : target ≠ [] :=
  ne_nil_of_not_directory (destination_eq_ok.mp found).2.2

theorem sameDirectories_of_destination (found : v.destination path = .ok target)
    (content : ByteArray) : SameDirectories v (v.put target (.file content)) :=
  sameDirectories_put (destination_eq_ok.mp found).2.2

theorem SameDirectories.destination (same : SameDirectories v w)
    (found : v.destination path = .ok target) : w.destination path = .ok target := by
  obtain ⟨named, leads, free⟩ := destination_eq_ok.mp found
  exact destination_eq_ok.mpr
    ⟨named, same.route leads, fun taken => free ((same.directory target).mpr taken)⟩

/-! ## New staged files -/

/-- A file can be staged for the path: its directory is there, and the full path is not too long. -/
def Stageable (v : Volume) (path : String) : Prop :=
  checkPath (v.stagedPath (stagingDirectory path)) = .ok () ∧
    ∃ directory, v.findDirectory (stagingDirectory path) = .ok directory

theorem SameDirectories.stageable (same : SameDirectories v w) (able : Stageable v path) :
    Stageable w path := by
  obtain ⟨checked, directory, found⟩ := able
  obtain ⟨leads, isDirectory⟩ := findDirectory_eq_ok.mp found
  refine ⟨?_, directory, findDirectory_eq_ok.mpr
    ⟨same.route leads, (same.directory directory).mp isDirectory⟩⟩
  rw [stagedPath, ← same.home]
  exact checked

theorem slash_mem_stagingName : '/' ∈ v.stagingName.toList := by
  obtain ⟨n, name, -⟩ := freeName_spec "/" (v.home ++ v.items.flatMap (·.1))
  rw [stagingName, name, toList_underscored]
  simp

theorem stagingName_notMem :
    v.stagingName ∉ v.home ∧ ∀ entry ∈ v.items, v.stagingName ∉ entry.1 := by
  have fresh := freeName_notMem "/" (v.home ++ v.items.flatMap (·.1))
  rw [List.mem_append, not_or] at fresh
  refine ⟨fresh.1, fun entry member inRoute => fresh.2 ?_⟩
  exact List.mem_flatMap.mpr ⟨entry, member, inRoute⟩

theorem item?_stagingName (directory : Route) : v.item? (directory ++ [v.stagingName]) = none := by
  rw [item?_of_ne_nil (by simp), List.lookup_eq_none_iff]
  intro entry member
  rw [bne_iff_ne]
  intro same
  apply stagingName_notMem.2 entry member
  rw [← same]
  simp

/-- No path leads to where files are staged. -/
theorem route_ne_stagingName (path : String) (directory : Route) :
    v.route path ≠ .ok (directory ++ [v.stagingName]) := by
  intro leads
  rcases mem_of_route leads (List.mem_append_right _ List.mem_cons_self) with inHome | spelled
  · exact stagingName_notMem.1 inHome
  · exact spelled slash_mem_stagingName

theorem stagingRoute_eq_ok :
    v.stagingRoute path = .ok staged ↔
      checkPath (v.stagedPath (stagingDirectory path)) = .ok () ∧
        ∃ directory, v.findDirectory (stagingDirectory path) = .ok directory ∧
          directory ++ [v.stagingName] = staged := by
  simp only [stagingRoute, bind_eq_ok, pure_eq_ok]
  constructor
  · rintro ⟨⟨⟩, checked, directory, found, rfl⟩
    exact ⟨checked, directory, found, rfl⟩
  · rintro ⟨checked, directory, found, rfl⟩
    exact ⟨(), checked, directory, found, rfl⟩

theorem createFor_eq_ok :
    v.createFor path = .ok (staged, w) ↔
      v.stagingRoute path = .ok staged ∧ v.put staged (.file .empty) = w := by
  simp only [createFor, bind_eq_ok, pure_eq_ok, Prod.mk.injEq]
  constructor
  · rintro ⟨route, found, rfl, written⟩
    exact ⟨found, written⟩
  · rintro ⟨found, written⟩
    exact ⟨staged, found, rfl, written⟩

/-- The second volume is the first with a new file staged for the path, where nothing was before and
where none of the run's own paths leads to. -/
structure StagesAt (own : List String) (v : Volume) (path : String) (content : ByteArray)
    (staged : Route) (w : Volume) : Prop where
  able : Stageable v path
  absent : v.item? staged = none
  apart : ∀ other ∈ own, v.route other ≠ .ok staged
  written : v.put staged (.file content) = w

theorem stagesAt_of_createFor (created : v.createFor path = .ok (staged, w)) :
    StagesAt own v path .empty staged w := by
  obtain ⟨found, written⟩ := createFor_eq_ok.mp created
  obtain ⟨checked, directory, isThere, rfl⟩ := stagingRoute_eq_ok.mp found
  exact ⟨⟨checked, directory, isThere⟩, item?_stagingName directory,
    fun other _ => route_ne_stagingName other directory, written⟩

theorem exists_createFor (able : Stageable v path) :
    ∃ staged w, v.createFor path = .ok (staged, w) := by
  obtain ⟨checked, directory, found⟩ := able
  exact ⟨_, _, createFor_eq_ok.mpr
    ⟨stagingRoute_eq_ok.mpr ⟨checked, directory, found, rfl⟩, rfl⟩⟩

theorem moveTo_eq_ok :
    v.moveTo staged path = .ok w ↔
      ∃ target item, v.destination path = .ok target ∧ v.item? staged = some item ∧
        w = (v.erase staged).put target item := by
  simp only [moveTo, bind_eq_ok]
  cases v.item? staged with
  | none => simp
  | some item =>
      simp only [pure_eq_ok, Option.some.injEq, exists_eq_left', exists_and_left]
      refine exists_congr fun target => and_congr_right fun _ => ?_
      exact eq_comm

/-! ## A volume and its staged files -/

/-- The volume without the items at some routes. -/
def without (v : Volume) (routes : List Route) : Volume :=
  { v with items := v.items.filter fun entry => decide (entry.1 ∉ routes) }

theorem without_nil : v.without [] = v := by
  simp [without]

theorem without_erase {routes : List Route} :
    (v.erase route).without routes = v.without (route :: routes) := by
  simp only [without, erase, List.filter_filter, Volume.mk.injEq, and_true]
  apply List.filter_congr
  intro entry _
  rw [Bool.eq_iff_iff]
  simp [and_comm]

theorem item?_without {routes : List Route} (kept : route ∉ routes) :
    (v.without routes).item? route = v.item? route := by
  by_cases top : route = []
  · simp [top]
  · rw [item?_of_ne_nil top, item?_of_ne_nil top, without]
    rw [lookup_filter fun other => decide (other ∉ routes)]
    simp [kept]

theorem item?_without_of_mem {routes : List Route} (nonempty : route ≠ [])
    (dropped : route ∈ routes) : (v.without routes).item? route = none := by
  rw [item?_of_ne_nil nonempty, without]
  rw [lookup_filter fun other => decide (other ∉ routes)]
  simp [dropped]

theorem without_put {routes : List Route} {item : Item} (kept : route ∉ routes) :
    (v.put route item).without routes = (v.without routes).put route item := by
  simp only [without, put, Volume.mk.injEq, and_true]
  exact filter_putIn (fun other => decide (other ∉ routes)) (by simp [kept])

theorem without_put_of_absent {routes : List Route} {item : Item} (absent : v.item? route = none) :
    (v.put route item).without (routes ++ [route]) = v.without routes := by
  rw [item?_of_ne_nil (ne_nil_of_item?_eq_none absent)] at absent
  simp only [without, put, Volume.mk.injEq, and_true]
  rw [filter_putIn_of_absent (fun other => decide (other ∉ routes ++ [route])) (by simp) absent]
  apply List.filter_congr
  intro entry member
  have different := List.lookup_eq_none_iff.mp absent entry member
  have apart : entry.1 ≠ route := by
    intro same
    simp [same] at different
  simp [apart]

/-- The second volume is the first with these files besides, where none of the run's own paths leads
to. -/
structure Staged (own : List String) (v : Volume) (files : List (Route × ByteArray))
    (w : Volume) : Prop where
  base : w.without (files.map Prod.fst) = v
  held : ∀ file ∈ files, w.item? file.1 = some (.file file.2)
  apart : ∀ file ∈ files, ∀ path ∈ own, v.route path ≠ .ok file.1
  distinct : (files.map Prod.fst).Nodup

namespace Staged

variable {files : List (Route × ByteArray)}

theorem refl (own : List String) (v : Volume) : Staged own v [] v :=
  ⟨without_nil, by simp, by simp, by simp⟩

theorem eq_of_nil (besides : Staged own v [] w) : w = v := by
  rw [← besides.base, List.map_nil, without_nil]

theorem sameDirectories (besides : Staged own v files w) : SameDirectories v w := by
  have home : v.home = w.home := by rw [← besides.base, without]
  refine ⟨home, fun route => ?_⟩
  by_cases member : route ∈ files.map Prod.fst
  · obtain ⟨file, inFiles, rfl⟩ := List.mem_map.mp member
    have held := besides.held file inFiles
    have nonempty : file.1 ≠ [] := ne_nil_of_not_directory (v := w) (by simp [held])
    rw [← besides.base, item?_without_of_mem nonempty member, held]
    simp
  · rw [← besides.base, item?_without member]

theorem notMem_of_route (besides : Staged own v files w) (mine : path ∈ own)
    (leads : v.route path = .ok target) : target ∉ files.map Prod.fst := by
  intro member
  obtain ⟨file, inFiles, rfl⟩ := List.mem_map.mp member
  exact besides.apart file inFiles path mine leads

theorem item?_eq (besides : Staged own v files w) (mine : path ∈ own)
    (leads : v.route path = .ok target) : w.item? target = v.item? target := by
  rw [← besides.base, item?_without (besides.notMem_of_route mine leads)]

theorem contentAt_eq_ok (besides : Staged own v files w) (mine : path ∈ own) :
    w.contentAt path = .ok content ↔ v.contentAt path = .ok content := by
  rw [Volume.contentAt_eq_ok, Volume.contentAt_eq_ok]
  constructor
  · rintro ⟨target, leads, isFile⟩
    have leads := besides.sameDirectories.symm.route leads
    rw [besides.item?_eq mine leads] at isFile
    exact ⟨target, leads, isFile⟩
  · rintro ⟨target, leads, isFile⟩
    rw [← besides.item?_eq mine leads] at isFile
    exact ⟨target, besides.sameDirectories.route leads, isFile⟩

theorem hasFile_eq (besides : Staged own v files w) (mine : path ∈ own) :
    w.hasFile path = v.hasFile path := by
  rw [Bool.eq_iff_iff, hasFile_eq_true, hasFile_eq_true]
  simp only [besides.contentAt_eq_ok mine]

theorem stage (besides : Staged own v files w) (new : StagesAt own w path content staged w') :
    Staged own v (files ++ [(staged, content)]) w' := by
  have same := besides.sameDirectories
  obtain ⟨-, absent, apart, rfl⟩ := new
  have fresh : ∀ file ∈ files, file.1 ≠ staged := by
    intro file member same
    have held := besides.held file member
    rw [same, absent] at held
    cases held
  refine ⟨?_, ?_, ?_, ?_⟩
  · rw [List.map_append, List.map_singleton, without_put_of_absent absent, besides.base]
  · intro file member
    rcases List.mem_append.mp member with earlier | new
    · rw [item?_put_of_ne (fresh file earlier)]
      exact besides.held file earlier
    · obtain rfl : file = (staged, content) := by simpa using new
      exact item?_put_self (ne_nil_of_item?_eq_none absent)
  · intro file member other mine
    rcases List.mem_append.mp member with earlier | new
    · exact besides.apart file earlier other mine
    · obtain rfl : file = (staged, content) := by simpa using new
      exact fun leads => apart other mine (same.route leads)
  · rw [List.map_append, List.nodup_append]
    refine ⟨besides.distinct, by simp, ?_⟩
    intro other earlier last new
    obtain ⟨file, member, rfl⟩ := List.mem_map.mp earlier
    obtain rfl : last = staged := by simpa using new
    exact fresh file member

theorem discard (besides : Staged own v ((staged, content) :: files) w) :
    Staged own v files (w.erase staged) := by
  obtain ⟨notAgain, distinct⟩ := List.nodup_cons.mp besides.distinct
  refine ⟨?_, ?_, ?_, distinct⟩
  · rw [without_erase]
    exact besides.base
  · intro file member
    have apart : file.1 ≠ staged :=
      ne_of_mem_of_not_mem (List.mem_map_of_mem member) notAgain
    rw [item?_erase_of_ne apart]
    exact besides.held file (by simp [member])
  · intro file member
    exact besides.apart file (by simp [member])

/-- A staged file that is moved to its destination is there and no longer staged. -/
theorem move (besides : Staged own v ((staged, content) :: files) w) (mine : path ∈ own)
    (moved : w.moveTo staged path = .ok w') :
    ∃ target, v.destination path = .ok target ∧
      Staged own (v.put target (.file content)) files w' := by
  obtain ⟨target, item, found, there, rfl⟩ := moveTo_eq_ok.mp moved
  have held := besides.held (staged, content) (by simp)
  obtain rfl : item = .file content := by
    rw [there] at held
    exact Option.some.inj held
  have found := besides.sameDirectories.symm.destination found
  have replaced := sameDirectories_of_destination found content
  have rest := besides.discard
  have notStaged : target ∉ files.map Prod.fst :=
    rest.notMem_of_route mine (destination_eq_ok.mp found).2.1
  refine ⟨target, found, ?_, ?_, ?_, rest.distinct⟩
  · rw [without_put notStaged, rest.base]
  · intro file member
    have different : file.1 ≠ target :=
      ne_of_mem_of_not_mem (List.mem_map_of_mem member) notStaged
    rw [item?_put_of_ne different]
    exact rest.held file member
  · intro file member other mine leads
    exact rest.apart file member other mine (replaced.symm.route leads)

theorem exists_move (besides : Staged own v ((staged, content) :: files) w)
    (found : v.destination path = .ok target) : ∃ w', w.moveTo staged path = .ok w' :=
  ⟨_, moveTo_eq_ok.mpr ⟨target, .file content, besides.sameDirectories.destination found,
    besides.held (staged, content) (by simp), rfl⟩⟩

end Staged

end Volume

end WireProxy
