import Mathlib.Logic.Function.Basic
import Bgpgg.Lib.Runs

namespace Bgpgg.Shell

open Lib Function

-- What a shell has done with the lock file it holds the lock of. The session lock is there from
-- holding on; in leaving the name is gone already, and the lock is not.
inductive Stage where
  | locked
  | truncated
  | holding
  | configure
  | leaving
deriving DecidableEq

inductive Phase where
  | root
  | opened (inode : Nat)
  | owns (stage : Stage) (inode : Nat)
  | unparsed
deriving DecidableEq

-- A lock is on an inode; path is the inode that the name of the lock file stands for.
structure Disk (Uuid : Type) where
  path : Option Nat
  next : Nat
  holder : Nat → Option Nat
  content : Nat → Option Uuid
  phase : Nat → Phase

-- fail is an error on the way into configure mode, or a shared lock in the way of try_lock.
inductive Call where
  | openLockFile
  | tryLock
  | setLen
  | write
  | parse (accepted : Bool)
  | fail
  | removeFile
  | close

namespace Disk

variable {Uuid : Type}

def start : Disk Uuid := ⟨none, 0, fun _ => none, fun _ => none, fun _ => .root⟩

section

variable (uuid : Nat → Uuid) (disk : Disk Uuid)

def enters (shell : Nat) (phase : Phase) : Disk Uuid := { disk with phase := update disk.phase shell phase }

def release (inode : Nat) : Disk Uuid := { disk with holder := update disk.holder inode none }

def step : Nat × Call → Disk Uuid
  | (shell, call) =>
    match call, disk.phase shell with
    | .openLockFile, .root =>
      match disk.path with
      | some inode => disk.enters shell (.opened inode)
      | none => { disk with path := some disk.next, next := disk.next + 1 }.enters shell (.opened disk.next)
    | .tryLock, .opened inode =>
      if disk.holder inode = none then
        { disk with holder := update disk.holder inode (some shell) }.enters shell (.owns .locked inode)
      else disk.enters shell .root
    | .setLen, .owns .locked inode =>
      { disk with content := update disk.content inode none }.enters shell (.owns .truncated inode)
    | .write, .owns .truncated inode =>
      { disk with content := update disk.content inode (some (uuid shell)) }.enters shell (.owns .holding inode)
    | .parse true, .owns .holding inode => disk.enters shell (.owns .configure inode)
    | .parse false, .owns .holding inode => (disk.release inode).enters shell .unparsed
    | .fail, .opened _ => disk.enters shell .root
    | .fail, .owns .locked inode | .fail, .owns .truncated inode | .fail, .owns .holding inode =>
      (disk.release inode).enters shell .root
    | .removeFile, .owns .configure inode => { disk with path := none }.enters shell (.owns .leaving inode)
    | .removeFile, .unparsed => { disk with path := none }.enters shell .root
    | .close, .owns .leaving inode => (disk.release inode).enters shell .root
    | _, _ => disk

-- The file that is locked still has its name, and a shell that could not read its configuration
-- removes no file that another has locked by then.
def undisturbed : Nat × Call → Bool
  | (shell, call) =>
    match call, disk.phase shell with
    | .tryLock, .opened inode => disk.path = some inode
    | .removeFile, .unparsed => disk.path.all fun inode => (disk.holder inode).isNone
    | _, _ => true

def InSession (shell inode : Nat) : Prop :=
  ∃ stage, disk.phase shell = .owns stage inode ∧ (stage = .holding ∨ stage = .configure ∨ stage = .leaving)

-- No shell stands between the removal of the lock file and the release of its lock, where exit
-- and commit pass.
def Settled : Prop := ∀ shell inode, disk.phase shell ≠ .owns .leaving inode

def Entitled (shell : Nat) : Phase → Prop
  | .owns stage inode => disk.holder inode = some shell ∧ (stage ≠ .leaving → disk.path = some inode) ∧
      (stage = .holding ∨ stage = .configure → disk.content inode = some (uuid shell))
  | _ => True

def Guarded : Prop := ∀ shell, Entitled uuid disk shell (disk.phase shell)

end

variable {uuid : Nat → Uuid} {disk after : Disk Uuid} {shell inode : Nat} {phase : Phase}

theorem Guarded.enters (guarded : Guarded uuid disk) (same : after.phase = disk.phase)
    (spared : ∀ other inode, other ≠ shell → disk.holder inode = some other → after.holder inode = some other ∧
      (disk.path = some inode → after.path = some inode) ∧ after.content inode = disk.content inode)
    (own : Entitled uuid after shell phase) : Guarded uuid (after.enters shell phase) := by
  intro other
  by_cases acting : other = shell
  · subst acting
    rw [show (after.enters other phase).phase other = phase from update_self ..]
    exact own
  · have entitled := guarded other
    rw [show (after.enters shell phase).phase other = disk.phase other from (update_of_ne acting ..).trans (by rw [same])]
    cases held : disk.phase other with
    | owns stage inode =>
      rw [held] at entitled
      obtain ⟨holds, named, told⟩ := entitled
      obtain ⟨kept, path, content⟩ := spared other inode acting holds
      exact ⟨kept, fun stays => path (named stays), fun session => content.trans (told session)⟩
    | root | opened inode | unparsed => trivial

section

variable (guarded : Guarded uuid disk)

include guarded

variable {stage : Stage}

theorem Guarded.owns (held : disk.phase shell = .owns stage inode) : Entitled uuid disk shell (.owns stage inode) := held ▸ guarded shell

theorem Guarded.apart {other another : Nat} (held : disk.phase shell = .owns stage inode)
    (different : other ≠ shell) (holds : disk.holder another = some other) : another ≠ inode := by
  rintro rfl
  exact different (Option.some.inj (holds.symm.trans (guarded.owns held).1))

theorem Guarded.stay (own : Entitled uuid disk shell phase) : Guarded uuid (disk.enters shell phase) :=
  guarded.enters rfl (fun _ _ _ holds => ⟨holds, id, rfl⟩) own

theorem Guarded.release (held : disk.phase shell = .owns stage inode)
    (free : Entitled uuid (disk.release inode) shell phase) : Guarded uuid ((disk.release inode).enters shell phase) := by
  refine guarded.enters rfl (fun other another different holds => ⟨?_, id, rfl⟩) free
  exact (update_of_ne (guarded.apart held different holds) ..).trans holds

theorem Guarded.write {text : Option Uuid} (held : disk.phase shell = .owns stage inode)
    (own : Entitled uuid { disk with content := update disk.content inode text } shell phase) :
    Guarded uuid ({ disk with content := update disk.content inode text }.enters shell phase) :=
  guarded.enters rfl (fun _ _ different holds => ⟨holds, id, update_of_ne (guarded.apart held different holds) ..⟩) own

theorem Guarded.remove (unlocked : ∀ other inode, other ≠ shell → disk.holder inode = some other → disk.path ≠ some inode)
    (own : Entitled uuid { disk with path := none } shell phase) : Guarded uuid ({ disk with path := none }.enters shell phase) :=
  guarded.enters rfl (fun other inode different holds =>
    ⟨holds, fun named => absurd named (unlocked other inode different holds), rfl⟩) own

theorem Guarded.step (call : Nat × Call) (allowed : disk.undisturbed call = true) : Guarded uuid (disk.step uuid call) := by
  obtain ⟨shell, call⟩ := call
  unfold Disk.step
  dsimp only
  split
  · split
    · exact guarded.stay trivial
    · rename_i absent
      exact guarded.enters rfl (fun _ _ _ holds => ⟨holds, by simp [absent], rfl⟩) trivial
  · rename_i inode held
    split
    · rename_i free
      refine guarded.enters rfl (fun other another _ holds => ⟨(update_of_ne ?_ ..).trans holds, id, rfl⟩) ?_
      · rintro rfl
        rw [free] at holds
        cases holds
      · exact ⟨update_self .., fun _ => by simpa [undisturbed, held] using allowed, by simp⟩
    · exact guarded.stay trivial
  · rename_i inode held
    obtain ⟨holds, named, -⟩ := guarded.owns held
    exact guarded.write held ⟨holds, fun _ => named (by decide), by simp⟩
  · rename_i inode held
    obtain ⟨holds, named, -⟩ := guarded.owns held
    exact guarded.write held ⟨holds, fun _ => named (by decide), fun _ => update_self ..⟩
  · rename_i inode held
    obtain ⟨holds, named, told⟩ := guarded.owns held
    exact guarded.stay ⟨holds, fun _ => named (by decide), fun _ => told (.inl rfl)⟩
  · exact guarded.release ‹_› trivial
  · exact guarded.stay trivial
  · exact guarded.release ‹_› trivial
  · exact guarded.release ‹_› trivial
  · exact guarded.release ‹_› trivial
  · rename_i inode held
    obtain ⟨holds, named, -⟩ := guarded.owns held
    refine guarded.remove (fun other another different locked path => ?_) ⟨holds, by simp, by simp⟩
    exact guarded.apart held different locked (Option.some.inj (path.symm.trans (named (by decide))))
  · rename_i held
    refine guarded.remove (fun other inode _ locked path => ?_) trivial
    simp [undisturbed, held, path, locked] at allowed
  · exact guarded.release ‹_› trivial
  · exact guarded

end

-- One shell is in configure mode at a time, and the lock file tells which, in every settled state
-- of a run in which no lock is taken on a removed file and no locked file is removed by another shell.
theorem configure_mode_exclusive {first second another : Nat} (run : Reaches (step uuid) (undisturbed · · = true) start disk)
    (settled : disk.Settled) (session : disk.InSession first inode) :
    (disk.InSession second another → second = first) ∧ disk.path = some inode ∧ disk.content inode = some (uuid first) := by
  have guarded : Guarded uuid disk := by
    refine run.invariant (Guarded uuid) (fun shell => ?_) fun _ call before allowed => before.step call allowed
    exact trivial
  have entitled : ∀ {shell inode}, disk.InSession shell inode →
      disk.holder inode = some shell ∧ disk.path = some inode ∧ disk.content inode = some (uuid shell) := by
    rintro shell inode ⟨stage, held, session⟩
    have stays : stage ≠ .leaving := fun leaving => settled shell inode (leaving ▸ held)
    obtain ⟨holds, named, told⟩ := guarded.owns held
    exact ⟨holds, named stays, told (by simpa [stays] using session)⟩
  obtain ⟨holds, path, content⟩ := entitled session
  refine ⟨fun other => ?_, path, content⟩
  obtain ⟨otherHolds, otherPath, -⟩ := entitled other
  cases otherPath.symm.trans path
  exact Option.some.inj (otherHolds.symm.trans holds)

def enterConfigure (shell : Nat) : List (Nat × Call) := [(shell, .tryLock), (shell, .setLen), (shell, .write), (shell, .parse true)]

def inTurn : List (Nat × Call) :=
  (0, .openLockFile) :: enterConfigure 0 ++ [(1, .openLockFile), (1, .tryLock), (0, .removeFile), (0, .close), (1, .openLockFile)] ++
    enterConfigure 1

theorem second_shell_configures : (inTurn.foldl (step id) start : Disk Nat).content 1 = some 1 := by
  refine (@configure_mode_exclusive Nat id _ 1 1 0 0 (.of_permits _ _ (by decide)) (fun shell inode => ?_)
    ⟨.configure, rfl, by decide⟩).2.2
  by_cases second : shell = 1
  · subst second
    rintro ⟨⟩
  · by_cases first : shell = 0
    · subst first
      rintro ⟨⟩
    · simp [inTurn, enterConfigure, step, enters, release, start, second, first]

-- The lock file is opened before a shell that leaves removes it, and locked after.
def openedBeforeRemoval : List (Nat × Call) :=
  (0, .openLockFile) :: enterConfigure 0 ++ [(1, .openLockFile), (0, .removeFile), (0, .close)] ++ enterConfigure 1 ++
    (2, .openLockFile) :: enterConfigure 2

-- A shell that cannot read the configuration gives up the lock, and then removes the next one's file.
def removedAfterUnlock : List (Nat × Call) :=
  [(0, .openLockFile), (0, .tryLock), (0, .setLen), (0, .write), (0, .parse false), (1, .openLockFile)] ++ enterConfigure 1 ++
    (0, .removeFile) :: (2, .openLockFile) :: enterConfigure 2

-- A shell that exits has removed the file and not yet released its lock.
def enteredDuringExit : List (Nat × Call) :=
  (0, .openLockFile) :: enterConfigure 0 ++ (0, .removeFile) :: (1, .openLockFile) :: enterConfigure 1

def BothConfigure (run : List (Nat × Call)) (first second : Nat) : Prop :=
  (run.foldl (step id) start : Disk Nat).InSession first 0 ∧ (run.foldl (step id) start : Disk Nat).InSession second 1

theorem two_shells_configure : BothConfigure openedBeforeRemoval 1 2 ∧ BothConfigure removedAfterUnlock 1 2 ∧
    BothConfigure enteredDuringExit 0 1 :=
  ⟨⟨⟨.configure, rfl, by decide⟩, .configure, rfl, by decide⟩, ⟨⟨.configure, rfl, by decide⟩, .configure, rfl, by decide⟩,
    ⟨.leaving, rfl, by decide⟩, .configure, rfl, by decide⟩

end Disk

end Bgpgg.Shell
