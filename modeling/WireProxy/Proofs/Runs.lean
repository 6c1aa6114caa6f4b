import WireProxy.Generation
import WireProxy.Proofs.Staging

/-!
# Runs on atomic disks

A disk is atomic when each of its operations does what it does on a volume, or fails and leaves
everything as it was; only the content of a staged file may be written in part.  `Atomic.generate`
says what a run on such a disk has done when it ends: it has written both files, or it has changed
nothing, or the rollback was refused.
-/

namespace WireProxy

variable {S : Type}

theorem run_bind_eq {α β : Type} {x : StateM S α} {f : α → StateM S β} {s s' : S} {b : β} :
    (x >>= f).run s = (b, s') ↔
      ∃ a between, x.run s = (a, between) ∧ (f a).run between = (b, s') := by
  constructor
  · intro ran
    exact ⟨(x.run s).1, (x.run s).2, rfl, ran⟩
  · rintro ⟨a, between, first, second⟩
    change (f (x.run s).1).run (x.run s).2 = (b, s')
    rw [first]
    exact second

theorem run_pure_eq {α : Type} {a b : α} {s s' : S} :
    (pure a : StateM S α).run s = (b, s') ↔ a = b ∧ s = s' := by
  change (a, s) = (b, s') ↔ _
  simp

/-! ## Atomic disks -/

/-- The action makes a change and gives a result that belong together, or it fails and leaves the
volume as it is. -/
structure Wholly {α : Type} (volume : S → Volume) (action : StateM S (Except DiskFault α))
    (change : Volume → α → Volume → Prop) : Prop where
  failed : ∀ {s s' : S} {fault : DiskFault}, action.run s = (.error fault, s') →
    volume s' = volume s
  done : ∀ {s s' : S} {a : α}, action.run s = (.ok a, s') → change (volume s) a (volume s')

def Paths.all (paths : Paths) : List String :=
  [paths.input, paths.declarations, paths.definitions]

theorem Paths.declarations_mem (paths : Paths) : paths.declarations ∈ paths.all := by
  simp [all]

theorem Paths.definitions_mem (paths : Paths) : paths.definitions ∈ paths.all := by
  simp [all]

namespace Disk

/-- Each operation happens wholly or not at all, or writes a part of a staged file, and it may fail
for reasons of its own.  Three things are assumed besides: a staged file can always be discarded,
`isFile` is always right, and a new staged file is where nothing was and where none of the paths in
`own` leads to. -/
structure Atomic (disk : Disk (StateM S) Route) (volume : S → Volume) (own : List String) :
    Prop where
  read : ∀ path, Wholly volume (disk.read path) fun v content w =>
    v.contentAt path = .ok content ∧ w = v
  isFile : ∀ {path s s' found}, (disk.isFile path).run s = (found, s') →
    found = (volume s).hasFile path ∧ volume s' = volume s
  create : ∀ path, Wholly volume (disk.create path) fun v staged w =>
    v.StagesAt own path .empty staged w
  fill : ∀ {staged content old s s' result}, (volume s).item? staged = some (.file old) →
    (disk.fill staged content).run s = (result, s') →
    ∃ written, volume s' = (volume s).put staged (.file written) ∧
      (result = .ok () → written = content)
  sync : ∀ {staged s s' result}, (disk.sync staged).run s = (result, s') → volume s' = volume s
  commit : ∀ staged path, Wholly volume (disk.commit staged path) fun v _ w =>
    v.moveTo staged path = .ok w
  discard : ∀ {staged s s'}, (disk.discard staged).run s = ((), s') →
    volume s' = (volume s).erase staged
  remove : ∀ path, Wholly volume (disk.remove path) fun v _ w => v.deleteAt path = .ok w

/-- The disk fails to put a file at the path, or to take it away, though the volume allows it. -/
def Refuses (disk : Disk (StateM S) Route) (volume : S → Volume) (path : String)
    (cause : DiskFault) : Prop :=
  (∃ staged s s' w, (volume s).moveTo staged path = .ok w ∧
      (disk.commit staged path).run s = (.error cause, s')) ∨
    ∃ s s' w, (volume s).deleteAt path = .ok w ∧
      (disk.remove path).run s = (.error cause, s')

variable {disk : Disk (StateM S) Route} {volume : S → Volume} {own : List String} {v : Volume}
  {s s' : S}

theorem toUTF8_of_fromUTF8? {content : ByteArray} {text : String}
    (decoded : String.fromUTF8? content = some text) : text.toUTF8 = content := by
  unfold String.fromUTF8? at decoded
  split at decoded
  · cases decoded
    rfl
  · cases decoded

theorem Atomic.readText (atomic : disk.Atomic volume own) {path : String}
    {result : Except DiskFault String} (ran : (disk.readText path).run s = (result, s')) :
    volume s' = volume s ∧
      ∀ text, result = .ok text → (volume s).contentAt path = .ok text.toUTF8 := by
  simp only [Disk.readText, run_bind_eq] at ran
  obtain ⟨content, between, read, ran⟩ := ran
  cases content with
  | error fault =>
      obtain ⟨rfl, rfl⟩ := run_pure_eq.mp ran
      exact ⟨(atomic.read path).failed read, by simp⟩
  | ok content =>
      obtain ⟨held, same⟩ := (atomic.read path).done read
      cases decoded : String.fromUTF8? content with
      | none =>
          simp only [decoded] at ran
          obtain ⟨rfl, rfl⟩ := run_pure_eq.mp ran
          exact ⟨same, by simp⟩
      | some text =>
          simp only [decoded] at ran
          obtain ⟨rfl, rfl⟩ := run_pure_eq.mp ran
          refine ⟨same, ?_⟩
          rintro _ ⟨⟩
          rw [held, toUTF8_of_fromUTF8? decoded]

theorem Atomic.load (atomic : disk.Atomic volume own) {settings : Settings} {path : String}
    {report : Reported Protocol} (ran : (disk.load settings path).run s = (report, s')) :
    volume s' = volume s ∧ ∀ p, report.result = .ok p →
      ∃ text, (volume s).contentAt path = .ok text.toUTF8 ∧
        Protocol.load ⟨path, settings.stem⟩ text = .ok p := by
  simp only [Disk.load, run_bind_eq] at ran
  obtain ⟨result, between, read, ran⟩ := ran
  obtain ⟨same, held⟩ := atomic.readText read
  cases result with
  | error fault =>
      obtain ⟨rfl, rfl⟩ := run_pure_eq.mp ran
      exact ⟨same, by simp⟩
  | ok text =>
      obtain ⟨rfl, rfl⟩ := run_pure_eq.mp ran
      exact ⟨same, fun p loaded => ⟨text, held text rfl, loaded⟩⟩

/-! ## Staging -/

/-- A file that cannot be finished is discarded, whatever has been written of it. -/
theorem Atomic.run_stage (atomic : disk.Atomic volume own) {path : String} {content : ByteArray}
    {result : Except DiskFault Route} (ran : (disk.stage path content).run s = (result, s')) :
    match result with
    | .error _ => volume s' = volume s
    | .ok staged => (volume s).StagesAt own path content staged (volume s') := by
  simp only [Disk.stage, run_bind_eq] at ran
  obtain ⟨created, empty, create, ran⟩ := ran
  cases created with
  | error fault =>
      obtain ⟨rfl, rfl⟩ := run_pure_eq.mp ran
      exact (atomic.create path).failed create
  | ok staged =>
      obtain ⟨able, absent, apart, made⟩ := (atomic.create path).done create
      have held : (volume empty).item? staged = some (.file .empty) := by
        rw [← made, Volume.item?_put_self (Volume.ne_nil_of_item?_eq_none absent)]
      obtain ⟨filled, written, fill, ran⟩ := run_bind_eq.mp ran
      obtain ⟨text, now, whole⟩ := atomic.fill held fill
      rw [← made, Volume.put_put] at now
      have cleared : ∀ {t t' : S}, volume t = volume written →
          (disk.discard staged).run t = ((), t') → volume t' = volume s := by
        intro t t' same discarded
        rw [atomic.discard discarded, same, now, Volume.erase_put_of_absent absent]
      cases filled with
      | error fault =>
          obtain ⟨⟨⟩, dropped, discarded, ran⟩ := run_bind_eq.mp ran
          obtain ⟨rfl, rfl⟩ := run_pure_eq.mp ran
          exact cleared rfl discarded
      | ok =>
          obtain ⟨flushed, synced, sync, ran⟩ := run_bind_eq.mp ran
          have same := atomic.sync sync
          cases flushed with
          | error fault =>
              obtain ⟨⟨⟩, dropped, discarded, ran⟩ := run_bind_eq.mp ran
              obtain ⟨rfl, rfl⟩ := run_pure_eq.mp ran
              exact cleared same discarded
          | ok =>
              obtain ⟨rfl, rfl⟩ := run_pure_eq.mp ran
              exact ⟨able, absent, apart, by rw [same, now, whole rfl]⟩

theorem Atomic.stage (atomic : disk.Atomic volume own) (path : String) (content : ByteArray) :
    Wholly volume (disk.stage path content) fun v staged w =>
      v.StagesAt own path content staged w :=
  ⟨atomic.run_stage, atomic.run_stage⟩

theorem Atomic.discard_staged (atomic : disk.Atomic volume own) {staged : Route}
    {content : ByteArray} {files : List (Route × ByteArray)}
    (besides : Volume.Staged own v ((staged, content) :: files) (volume s))
    (ran : (disk.discard staged).run s = ((), s')) : Volume.Staged own v files (volume s') := by
  rw [atomic.discard ran]
  exact besides.discard

/-- Discarding all staged files leaves what was there without them. -/
theorem Atomic.discardAll (atomic : disk.Atomic volume own) {files : List (Route × ByteArray)}
    (besides : Volume.Staged own v files (volume s))
    (ran : (disk.discardAll (files.map Prod.fst)).run s = ((), s')) : volume s' = v := by
  induction files generalizing s with
  | nil =>
      obtain ⟨-, rfl⟩ := run_pure_eq.mp ran
      exact besides.eq_of_nil
  | cons file files ih =>
      simp only [List.map_cons, Disk.discardAll, run_bind_eq] at ran
      obtain ⟨⟨⟩, between, discarded, ran⟩ := ran
      exact ih (atomic.discard_staged besides discarded) ran

/-- What a run has put aside of the file at a path: a copy if there is one, and nothing if there
is none. -/
def Saved (v : Volume) (path : String) : Option (Route × ByteArray) → Prop
  | some (_, content) => v.contentAt path = .ok content
  | none => v.hasFile path = false

theorem Atomic.backup (atomic : disk.Atomic volume own) {path : String} (mine : path ∈ own)
    {files : List (Route × ByteArray)} (besides : Volume.Staged own v files (volume s))
    {result : Except DiskFault (Option (Route × ByteArray))}
    (ran : (disk.backup path).run s = (result, s')) :
    match result with
    | .error _ => volume s' = volume s
    | .ok previous => Saved v path previous ∧
        Volume.Staged own v (files ++ previous.toList) (volume s') := by
  simp only [Disk.backup, run_bind_eq] at ran
  obtain ⟨found, asked, isFile, ran⟩ := ran
  obtain ⟨rfl, same⟩ := atomic.isFile isFile
  rw [besides.hasFile_eq mine] at ran
  cases there : v.hasFile path with
  | false =>
      simp only [there, Bool.false_eq_true, if_false] at ran
      obtain ⟨rfl, rfl⟩ := run_pure_eq.mp ran
      refine ⟨there, ?_⟩
      rw [same]
      simpa using besides
  | true =>
      simp only [there, if_true, run_bind_eq] at ran
      obtain ⟨content, taken, read, ran⟩ := ran
      cases content with
      | error fault =>
          obtain ⟨rfl, rfl⟩ := run_pure_eq.mp ran
          exact ((atomic.read path).failed read).trans same
      | ok content =>
          obtain ⟨held, unchanged⟩ := (atomic.read path).done read
          rw [same, besides.contentAt_eq_ok mine] at held
          simp only [run_bind_eq] at ran
          obtain ⟨staged, copied, stage, ran⟩ := ran
          cases staged with
          | error fault =>
              obtain ⟨rfl, rfl⟩ := run_pure_eq.mp ran
              exact ((atomic.stage path content).failed stage).trans (unchanged.trans same)
          | ok staged =>
              obtain ⟨rfl, rfl⟩ := run_pure_eq.mp ran
              have new := (atomic.stage path content).done stage
              rw [unchanged, same] at new
              exact ⟨held, besides.stage new⟩

/-! ## Rolling back -/

section Destination

variable {path : String} {target : Route}

theorem item?_of_saved {copy : Route} {content : ByteArray}
    (found : v.destination path = .ok target) (saved : Saved v path (some (copy, content))) :
    v.item? target = some (.file content) := by
  obtain ⟨-, leads, -⟩ := Volume.destination_eq_ok.mp found
  obtain ⟨other, leads', held⟩ := Volume.contentAt_eq_ok.mp saved
  rw [leads] at leads'
  cases leads'
  exact held

theorem item?_of_not_saved (found : v.destination path = .ok target)
    (saved : Saved v path none) : v.item? target = none := by
  obtain ⟨-, leads, free⟩ := Volume.destination_eq_ok.mp found
  cases held : v.item? target with
  | none => rfl
  | some item =>
      cases item with
      | directory => exact absurd held free
      | file content =>
          have there : v.hasFile path = true :=
            Volume.hasFile_eq_true.mpr
              ⟨content, Volume.contentAt_eq_ok.mpr ⟨target, leads, held⟩⟩
          rw [Saved, there] at saved
          cases saved

end Destination

/-- Nothing has changed, or the rollback has been refused and the journal says so. -/
def Undone (disk : Disk (StateM S) Route) (volume : S → Volume) (v : Volume) (path : String)
    (journal : Journal) (w : Volume) : Prop :=
  w = v ∨ ∃ cause, notRolledBackEntry path cause ∈ journal ∧ disk.Refuses volume path cause

/-- After the file at a path has been replaced, the rollback puts back what was there, unless the
disk refuses it. -/
theorem Atomic.rollback (atomic : disk.Atomic volume own) {path : String} (mine : path ∈ own)
    {target : Route} {written : ByteArray} {previous : Option (Route × ByteArray)}
    (found : v.destination path = .ok target) (saved : Saved v path previous)
    (besides : Volume.Staged own (v.put target (.file written)) previous.toList (volume s))
    {journal : Journal} (ran : (disk.rollback previous path).run s = (journal, s')) :
    Undone disk volume v path journal (volume s') := by
  have nonempty := Volume.ne_nil_of_destination found
  have replaced := Volume.sameDirectories_of_destination found written
  cases previous with
  | some copy =>
      obtain ⟨copy, content⟩ := copy
      have held := item?_of_saved found saved
      simp only [Disk.rollback, run_bind_eq] at ran
      obtain ⟨result, committed, commit, ran⟩ := ran
      cases result with
      | ok =>
          obtain ⟨-, rfl⟩ := run_pure_eq.mp ran
          obtain ⟨again, found', besides⟩ :=
            besides.move mine ((atomic.commit copy path).done commit)
          rw [replaced.destination found] at found'
          cases found'
          -- The copy goes where the new file went, and it holds what was there before.
          left
          rw [besides.eq_of_nil, Volume.put_put, Volume.put_of_item? nonempty held]
      | error fault =>
          obtain ⟨-, -, -, ran⟩ := run_bind_eq.mp ran
          obtain ⟨rfl, -⟩ := run_pure_eq.mp ran
          obtain ⟨allowed, moves⟩ := besides.exists_move (replaced.destination found)
          exact .inr ⟨fault, by simp, .inl ⟨copy, s, committed, allowed, moves, commit⟩⟩
  | none =>
      have absent := item?_of_not_saved found saved
      have now := besides.eq_of_nil
      have leadsNow := replaced.route (Volume.destination_eq_ok.mp found).2.1
      have heldNow : (v.put target (.file written)).item? target = some (.file written) :=
        Volume.item?_put_self nonempty
      rw [← now] at leadsNow heldNow
      simp only [Disk.rollback, run_bind_eq] at ran
      obtain ⟨result, removed, remove, ran⟩ := ran
      cases result with
      | ok =>
          obtain ⟨-, rfl⟩ := run_pure_eq.mp ran
          obtain ⟨other, -, leads', -, erased⟩ :=
            Volume.deleteAt_eq_ok.mp ((atomic.remove path).done remove)
          rw [leadsNow] at leads'
          cases leads'
          left
          rw [erased, now, Volume.erase_put_of_absent absent]
      | error fault =>
          obtain ⟨rfl, -⟩ := run_pure_eq.mp ran
          exact .inr ⟨fault, by simp, .inr ⟨s, removed, _,
            Volume.deleteAt_eq_ok.mpr ⟨target, written, leadsNow, heldNow, rfl⟩, remove⟩⟩

/-! ## Writing both files -/

/-- The volume after both texts have been put in place. -/
def Wrote (v : Volume) (paths : Paths) (declarations definitions : ByteArray) (w : Volume) :
    Prop :=
  ∃ first second, v.destination paths.declarations = .ok first ∧
    (v.put first (.file declarations)).destination paths.definitions = .ok second ∧
    w = (v.put first (.file declarations)).put second (.file definitions)

theorem Atomic.commitBoth {paths : Paths} (atomic : disk.Atomic volume paths.all)
    {declarations definitions : Route} {first second : ByteArray}
    {previous : Option (Route × ByteArray)} (saved : Saved v paths.declarations previous)
    (besides : Volume.Staged paths.all v
      ((declarations, first) :: (definitions, second) :: previous.toList) (volume s))
    {report : Reported Unit}
    (ran : (disk.commitBoth paths declarations definitions previous).run s = (report, s')) :
    match report.result with
    | .ok () => Wrote v paths first second (volume s')
    | .error _ => Undone disk volume v paths.declarations report.journal (volume s') := by
  simp only [Disk.commitBoth, run_bind_eq] at ran
  obtain ⟨result, committed, commit, ran⟩ := ran
  cases result with
  | error fault =>
      obtain ⟨⟨⟩, cleared, discarded, ran⟩ := run_bind_eq.mp ran
      obtain ⟨rfl, rfl⟩ := run_pure_eq.mp ran
      left
      rw [← (atomic.commit declarations paths.declarations).failed commit] at besides
      exact atomic.discardAll besides discarded
  | ok =>
      obtain ⟨target, found, besides⟩ :=
        besides.move paths.declarations_mem
          ((atomic.commit declarations paths.declarations).done commit)
      obtain ⟨result, finished, commit, ran⟩ := run_bind_eq.mp ran
      cases result with
      | error fault =>
          simp only [run_bind_eq] at ran
          obtain ⟨⟨⟩, discarded, discard, journal, restored, rollback, ran⟩ := ran
          obtain ⟨rfl, rfl⟩ := run_pure_eq.mp ran
          rw [← (atomic.commit definitions paths.definitions).failed commit] at besides
          have rest := atomic.discard_staged besides discard
          exact atomic.rollback paths.declarations_mem found saved rest rollback
      | ok =>
          obtain ⟨other, found', besides⟩ :=
            besides.move paths.definitions_mem
              ((atomic.commit definitions paths.definitions).done commit)
          obtain ⟨⟨⟩, cleared, discarded, ran⟩ := run_bind_eq.mp ran
          obtain ⟨rfl, rfl⟩ := run_pure_eq.mp ran
          exact ⟨target, other, found, found', atomic.discardAll besides discarded⟩

theorem Undone.within {path : String} {journal journal' : Journal} {w : Volume}
    (undone : Undone disk volume v path journal w) (within : journal ⊆ journal') :
    Undone disk volume v path journal' w := by
  rcases undone with same | ⟨cause, logged, refuses⟩
  · exact .inl same
  · exact .inr ⟨cause, within logged, refuses⟩

theorem Atomic.write {paths : Paths} (atomic : disk.Atomic volume paths.all) {rendered : Rendered}
    {report : Reported Unit} (ran : (disk.write paths rendered).run s = (report, s')) :
    match report.result with
    | .ok () => (volume s).Stageable paths.declarations ∧
        (volume s).Stageable paths.definitions ∧
        Wrote (volume s) paths rendered.declarations.toUTF8 rendered.definitions.toUTF8
          (volume s')
    | .error _ => Undone disk volume (volume s) paths.declarations report.journal (volume s') := by
  simp only [Disk.write, run_bind_eq] at ran
  obtain ⟨result, first, stage, ran⟩ := ran
  cases result with
  | error fault =>
      obtain ⟨rfl, rfl⟩ := run_pure_eq.mp ran
      exact .inl ((atomic.stage paths.declarations _).failed stage)
  | ok declarations =>
      have new := (atomic.stage paths.declarations _).done stage
      have besides := (Volume.Staged.refl paths.all (volume s)).stage new
      simp only [run_bind_eq] at ran
      obtain ⟨result, second, stage, ran⟩ := ran
      cases result with
      | error fault =>
          simp only [run_bind_eq] at ran
          obtain ⟨⟨⟩, discarded, discard, ran⟩ := ran
          obtain ⟨rfl, rfl⟩ := run_pure_eq.mp ran
          rw [← (atomic.stage paths.definitions _).failed stage] at besides
          exact .inl (atomic.discard_staged besides discard).eq_of_nil
      | ok definitions =>
          have other := (atomic.stage paths.definitions _).done stage
          have able := besides.sameDirectories.symm.stageable other.able
          have besides := besides.stage other
          simp only [run_bind_eq] at ran
          obtain ⟨result, third, backup, ran⟩ := ran
          have copied := atomic.backup paths.declarations_mem besides backup
          cases result with
          | error fault =>
              simp only [run_bind_eq] at ran
              obtain ⟨⟨⟩, discarded, discard, ran⟩ := ran
              obtain ⟨rfl, rfl⟩ := run_pure_eq.mp ran
              rw [← copied] at besides
              exact .inl (atomic.discardAll besides discard)
          | ok previous =>
              obtain ⟨saved, besides⟩ := copied
              simp only [run_bind_eq] at ran
              obtain ⟨committed, fourth, commit, ran⟩ := ran
              obtain ⟨rfl, rfl⟩ := run_pure_eq.mp ran
              have finished := atomic.commitBoth saved besides commit
              obtain ⟨result, journal⟩ := committed
              cases result with
              | error fault => exact finished.within (List.subset_append_right _ _)
              | ok => exact ⟨new.able, able, finished⟩

theorem Atomic.generate {paths : Paths} (atomic : disk.Atomic volume paths.all)
    {settings : Settings} {report : Reported Summary}
    (ran : (disk.generate settings paths).run s = (report, s')) :
    match report.result with
    | .ok summary => ∃ text p, (volume s).contentAt paths.input = .ok text.toUTF8 ∧
        Protocol.load ⟨paths.input, settings.stem⟩ text = .ok p ∧
        summary = p.summary settings ∧
        (volume s).Stageable paths.declarations ∧ (volume s).Stageable paths.definitions ∧
        Wrote (volume s) paths (p.render settings).declarations.toUTF8
          (p.render settings).definitions.toUTF8 (volume s')
    | .error _ => Undone disk volume (volume s) paths.declarations report.journal (volume s') := by
  simp only [Disk.generate, run_bind_eq] at ran
  obtain ⟨loaded, read, load, ran⟩ := ran
  obtain ⟨same, held⟩ := atomic.load load
  cases result : loaded.result with
  | error fault =>
      simp only [result] at ran
      obtain ⟨rfl, rfl⟩ := run_pure_eq.mp ran
      exact .inl same
  | ok p =>
      obtain ⟨text, input, parsed⟩ := held p result
      simp only [result, run_bind_eq] at ran
      obtain ⟨⟨result, journal⟩, finished, write, ran⟩ := ran
      have written := atomic.write write
      rw [same] at written
      cases result with
      | error fault =>
          obtain ⟨rfl, rfl⟩ := run_pure_eq.mp ran
          exact written.within (List.subset_append_right _ _)
      | ok =>
          obtain ⟨rfl, rfl⟩ := run_pure_eq.mp ran
          exact ⟨text, p, input, parsed, rfl, written⟩

end Disk

/-! ## The disk of a volume -/

namespace Volume

variable {α : Type} {v w : Volume} {path : String} {fault : DiskFault}

/-- The outcome of an attempt to change a volume: one that fails leaves it as it is. -/
def settle (v : Volume) : Except DiskFault (α × Volume) → Except DiskFault α × Volume
  | .ok (a, w) => (.ok a, w)
  | .error fault => (.error fault, v)

theorem settle_eq_ok {attempt : Except DiskFault (α × Volume)} {a : α} :
    v.settle attempt = (.ok a, w) ↔ attempt = .ok (a, w) := by
  cases attempt <;> simp [settle, Prod.ext_iff]

theorem settle_eq_error {attempt : Except DiskFault (α × Volume)} :
    v.settle attempt = (.error fault, w) ↔ attempt = .error fault ∧ v = w := by
  cases attempt <;> simp [settle]

theorem map_unit_eq_ok {changed : Except DiskFault Volume} :
    changed.map ((), ·) = .ok ((), w) ↔ changed = .ok w := by
  cases changed <;> simp [Except.map]

theorem run_read : (disk.read path).run v = v.settle ((v.contentAt path).map (·, v)) := by
  cases read : v.contentAt path <;> simp [disk, settle, read, Except.map] <;> rfl

theorem run_read_of_contentAt {content : ByteArray} (held : v.contentAt path = .ok content) :
    (disk.read path).run v = (.ok content, v) := by
  rw [run_read, held]
  rfl

theorem run_create : (disk.create path).run v = v.settle (v.createFor path) := by
  cases created : v.createFor path <;> simp [disk, settle, created] <;> rfl

theorem run_fill {staged : Route} {content : ByteArray} :
    (disk.fill staged content).run v = (.ok (), v.put staged (.file content)) := rfl

theorem run_commit {staged : Route} :
    (disk.commit staged path).run v = v.settle ((v.moveTo staged path).map ((), ·)) := by
  cases moved : v.moveTo staged path <;> simp [disk, settle, moved, Except.map] <;> rfl

theorem run_remove : (disk.remove path).run v = v.settle ((v.deleteAt path).map ((), ·)) := by
  cases deleted : v.deleteAt path <;> simp [disk, settle, deleted, Except.map] <;> rfl

theorem wholly_of_settle {action : StateM Volume (Except DiskFault α)}
    {attempt : Volume → Except DiskFault (α × Volume)} {change : Volume → α → Volume → Prop}
    (runs : ∀ v : Volume, action.run v = v.settle (attempt v))
    (changes : ∀ {v a w}, attempt v = .ok (a, w) → change v a w) : Wholly id action change where
  failed := by
    intro v w fault ran
    rw [runs, settle_eq_error] at ran
    exact ran.2.symm
  done := by
    intro v w a ran
    rw [runs, settle_eq_ok] at ran
    exact changes ran

theorem disk_atomic (own : List String) : disk.Atomic id own where
  read path := wholly_of_settle (fun _ => run_read) (by
    intro v content w read
    cases held : v.contentAt path with
    | error fault => simp [held, Except.map] at read
    | ok there =>
        simp only [held, Except.map, Except.ok.injEq, Prod.mk.injEq] at read
        exact ⟨by rw [read.1], read.2.symm⟩)
  isFile := by
    intro path v w found ran
    cases ran
    exact ⟨rfl, rfl⟩
  create path := wholly_of_settle (fun _ => run_create) stagesAt_of_createFor
  fill := by
    intro staged content old v w result _ ran
    rw [run_fill] at ran
    cases ran
    exact ⟨content, rfl, fun _ => rfl⟩
  sync := by
    intro staged v w result ran
    cases ran
    rfl
  commit staged path := wholly_of_settle (fun _ => run_commit) map_unit_eq_ok.mp
  discard := by
    intro staged v w ran
    cases ran
    rfl
  remove path := wholly_of_settle (fun _ => run_remove) map_unit_eq_ok.mp

/-- The disk of a volume fails only where the volume does not allow the operation. -/
theorem disk_not_refuses : ¬ disk.Refuses id path fault := by
  rintro (⟨staged, v, w, allowed, moved, ran⟩ | ⟨v, w, allowed, deleted, ran⟩)
  · rw [id_eq] at moved
    rw [run_commit, settle_eq_error, map_unit_eq_ok.mpr moved] at ran
    cases ran.1
  · rw [id_eq] at deleted
    rw [run_remove, settle_eq_error, map_unit_eq_ok.mpr deleted] at ran
    cases ran.1

end Volume

end WireProxy
