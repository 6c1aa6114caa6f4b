import WireProxy.Proofs.Runs

/-!
# Failed runs

A run that fails leaves the volume as it was, wherever it stops: while it reads, loads, stages
either file, copies the old declarations, or moves either file into place.  On the disk of a volume
this holds without exception.  On a disk whose operations may fail for reasons of their own it holds
unless the rollback itself is refused, which the journal then says.
-/

namespace WireProxy

/-- A volume and what becomes of the next operations on it: each that can fail takes an entry of the
plan, and fails if that is a fault. -/
structure Faulty where
  volume : Volume
  plan : List (Option DiskFault)

namespace Faulty

variable {α : Type}

def attempt (action : StateM Volume (Except DiskFault α)) : StateM Faulty (Except DiskFault α) :=
  fun s =>
    match s.plan with
    | some fault :: plan => (.error fault, ⟨s.volume, plan⟩)
    | plan => ((action.run s.volume).1, ⟨(action.run s.volume).2, plan.tail⟩)

def disk : Disk (StateM Faulty) Route where
  read path := attempt (Volume.disk.read path)
  isFile path := fun s => (s.volume.hasFile path, s)
  create path := attempt (Volume.disk.create path)
  -- A write that fails has come half way.
  fill staged content := fun s =>
    match s.plan with
    | some fault :: plan =>
        (.error fault,
          ⟨s.volume.put staged (.file (content.extract 0 (content.size / 2))), plan⟩)
    | plan => (.ok (), ⟨s.volume.put staged (.file content), plan.tail⟩)
  sync staged := attempt (Volume.disk.sync staged)
  commit staged path := attempt (Volume.disk.commit staged path)
  discard staged := fun s => ((), { s with volume := s.volume.erase staged })
  remove path := attempt (Volume.disk.remove path)

/-- An attempt fails by the plan, or ends as the action does. -/
theorem run_attempt {action : StateM Volume (Except DiskFault α)} {s s' : Faulty}
    {result : Except DiskFault α} (ran : (attempt action).run s = (result, s')) :
    (∃ fault, result = .error fault ∧ s'.volume = s.volume) ∨
      action.run s.volume = (result, s'.volume) := by
  obtain ⟨v, plan⟩ := s
  match plan with
  | some fault :: plan =>
      cases ran
      exact .inl ⟨fault, rfl, rfl⟩
  | none :: plan =>
      cases ran
      exact .inr rfl
  | [] =>
      cases ran
      exact .inr rfl

theorem wholly_attempt {action : StateM Volume (Except DiskFault α)}
    {change : Volume → α → Volume → Prop} (wholly : Wholly id action change) :
    Wholly Faulty.volume (attempt action) change where
  failed := by
    intro s s' fault ran
    rcases run_attempt ran with ⟨_, -, same⟩ | acted
    · exact same
    · exact wholly.failed acted
  done := by
    intro s s' a ran
    rcases run_attempt ran with ⟨fault, failed, -⟩ | acted
    · cases failed
    · exact wholly.done acted

theorem disk_atomic (own : List String) : disk.Atomic Faulty.volume own where
  read path := wholly_attempt ((Volume.disk_atomic own).read path)
  isFile := by
    intro path s s' found ran
    cases ran
    exact ⟨rfl, rfl⟩
  create path := wholly_attempt ((Volume.disk_atomic own).create path)
  fill := by
    rintro staged content old ⟨v, plan⟩ s' result - ran
    match plan with
    | some fault :: plan =>
        cases ran
        exact ⟨_, rfl, nofun⟩
    | none :: plan =>
        cases ran
        exact ⟨content, rfl, fun _ => rfl⟩
    | [] =>
        cases ran
        exact ⟨content, rfl, fun _ => rfl⟩
  sync := by
    intro staged s s' result ran
    rcases run_attempt ran with ⟨_, -, same⟩ | acted
    · exact same
    · exact (Volume.disk_atomic own).sync acted
  commit staged path := wholly_attempt ((Volume.disk_atomic own).commit staged path)
  discard := by
    intro staged s s' ran
    cases ran
    rfl
  remove path := wholly_attempt ((Volume.disk_atomic own).remove path)

end Faulty

/-- A run that fails changes nothing, unless the journal says that the rollback was refused.  What
this asks of a disk is in `Disk.Atomic`: beyond operations that happen wholly or not at all, a
staged file can always be discarded, `isFile` is right, and a staged file gets a place where nothing
is and where none of the three paths of the run leads to.  A write may also fail half way.  The disk
of a volume has all this, and it refuses no rollback. -/
theorem Disk.generate_error_unchanged :
    (∀ {S : Type} {disk : Disk (StateM S) Route} {volume : S → Volume} {paths : Paths},
      disk.Atomic volume paths.all →
      ∀ {settings s report s' fault},
        (disk.generate settings paths).run s = (report, s') →
        report.result = .error fault →
        (∀ cause, notRolledBackEntry paths.declarations cause ∉ report.journal) →
        volume s' = volume s) ∧
    ∀ {settings paths v report w fault},
      (Volume.disk.generate settings paths).run v = (report, w) →
      report.result = .error fault → w = v := by
  constructor
  · intro S disk volume paths atomic settings s report s' fault ran failed restored
    have undone := atomic.generate ran
    rw [failed] at undone
    rcases undone with same | ⟨cause, logged, -⟩
    · exact same
    · exact absurd logged (restored cause)
  · intro settings paths v report w fault ran failed
    have undone := (Volume.disk_atomic paths.all).generate ran
    rw [failed] at undone
    rcases undone with same | ⟨cause, -, refuses⟩
    · exact same
    · exact absurd refuses Volume.disk_not_refuses

def plainPaths : Paths := ⟨"in.xml", "out.hpp", "../out.cpp"⟩

def emptyProtocolVolume : Volume where
  items := [(["work"], .directory),
    (["work", "in.xml"], .file "<protocol name=\"empty\"/>".toUTF8)]
  home := ["work"]

def oldDeclarations : Volume := emptyProtocolVolume.put ["work", "out.hpp"] (.file "old".toUTF8)

-- The operations before the refused one read the input, stage the declarations and create the file
-- for the definitions.
def secondWriteRefused : Faulty where
  volume := oldDeclarations
  plan := List.replicate 5 none ++ [some (.other "No space left on device")]

-- Here both files are staged, the old declarations are read and copied, and the new ones are moved
-- into place.
def secondMoveRefused : Faulty where
  volume := oldDeclarations
  plan := List.replicate 12 none ++ [some .busy]

def fullDiskRun : Reported Summary × Faulty :=
  (Faulty.disk.generate {} plainPaths).run secondWriteRefused

def refusedRun : Reported Summary × Faulty :=
  (Faulty.disk.generate {} plainPaths).run secondMoveRefused

def directoryInPlace : Volume := emptyProtocolVolume.put ["out.cpp"] .directory

def blockedRun : Reported Summary × Volume :=
  (Volume.disk.generate {} plainPaths).run directoryInPlace

theorem Disk.generate_error_unchanged_after_replacement :
    (fullDiskRun.1.result =
          .error (.unwritable "../out.cpp" (.other "No space left on device")) ∧
        fullDiskRun.2.volume = oldDeclarations) ∧
      (refusedRun.1.result = .error (.unwritable "../out.cpp" .busy) ∧
        rolledBackEntry "out.hpp" ∈ refusedRun.1.journal ∧
        refusedRun.2.volume = oldDeclarations) ∧
      blockedRun.1.result = .error (.unwritable "../out.cpp" .isDirectory) ∧
        rolledBackEntry "out.hpp" ∈ blockedRun.1.journal ∧ blockedRun.2 = directoryInPlace := by
  have unchanged : ∀ {s : Faulty} {fault : Fault},
      ((Faulty.disk.generate {} plainPaths).run s).1.result = .error fault →
      (∀ entry ∈ ((Faulty.disk.generate {} plainPaths).run s).1.journal, entry.level ≠ .warn) →
      ((Faulty.disk.generate {} plainPaths).run s).2.volume = s.volume := by
    intro s fault failed calm
    refine Disk.generate_error_unchanged.1 (Faulty.disk_atomic plainPaths.all) rfl failed ?_
    intro cause logged
    exact calm _ logged rfl
  refine ⟨?_, ?_, ?_⟩
  · have failed : fullDiskRun.1.result =
        .error (.unwritable "../out.cpp" (.other "No space left on device")) := by
      decide +kernel
    exact ⟨failed, unchanged failed (by decide +kernel)⟩
  · have failed : refusedRun.1.result = .error (.unwritable "../out.cpp" .busy) := by
      decide +kernel
    exact ⟨failed, by decide +kernel, unchanged failed (by decide +kernel)⟩
  · have ran : (Volume.disk.generate {} plainPaths).run directoryInPlace =
        (blockedRun.1, blockedRun.2) := by rw [blockedRun, Prod.eta]
    have failed : blockedRun.1.result = .error (.unwritable "../out.cpp" .isDirectory) := by
      decide +kernel
    exact ⟨failed, by decide +kernel, Disk.generate_error_unchanged.2 ran failed⟩

end WireProxy
