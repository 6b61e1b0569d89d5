import RwRbuf.Innodb.VictimAccess

/-! # Buffer fixes while a page is replaced

The invariant that excludes readers from a victim: the fix count of every block is the
number of threads that have it fixed, and it is zero on the block that the replacing
thread has marked.  The steps of the accessing threads keep it as long as nobody fixes a
marked block.
-/

namespace RwRbuf.Innodb.VictimAccess

open Function

section Fixes

variable {Block : Type}

/-- The block on which a thread at this place has a buffer fix. -/
def Place.fixedBlock : Place Block → Option Block
  | .idle => none
  | .fixed block _ => some block
  | .latched block _ _ => some block
  | .holding block _ => some block
  | .unfixing block => some block

@[simp] theorem Place.fixedBlock_idle : (Place.idle : Place Block).fixedBlock = none := rfl

def Replacer.Working : Replacer Block → Block → Prop
  | .selected block, candidate => block = candidate
  | .written block, candidate => block = candidate
  | .overwritten block, candidate => block = candidate
  | .completed block, candidate => block = candidate
  | _, _ => False

def Replacer.Saved : Replacer Block → Prop
  | .written _ => True
  | .overwritten _ => True
  | .completed _ => True
  | _ => False

def Replacer.Overwrote : Replacer Block → Block → Prop
  | .overwritten block, candidate => block = candidate
  | .completed block, candidate => block = candidate
  | _, _ => False

theorem Replacer.working_of_saved {replacer : Replacer Block} (saved : replacer.Saved) :
    ∃ block, replacer.Working block := by
  cases replacer with
  | written block | overwritten block | completed block => exact ⟨block, rfl⟩
  | _ => exact saved.elim

theorem Replacer.working_of_overwrote {replacer : Replacer Block} {block : Block}
    (overwrote : replacer.Overwrote block) : replacer.Working block := by
  cases replacer with
  | overwritten _ => exact overwrote
  | completed _ => exact overwrote
  | _ => exact overwrote.elim

end Fixes

namespace Pool

variable {Block Tid : Type} [DecidableEq Block] [Fintype Tid]

def fixCount (pool : Pool Block Tid) (block : Block) : Nat :=
  ThreadCount.count (fun thread : Thread Block => thread.place.fixedBlock = some block)
    pool.thread

/-- A block and a modify clock that were stored while the block held the victim page:
as long as the clock has not moved, the block still holds it. -/
def Remembered (pool : Pool Block Tid) (block : Block) (clock : Nat) : Prop :=
  clock ≤ (pool.block block).modifyClock ∧
    (clock = (pool.block block).modifyClock → pool.hashCell = some block)

/-- What a thread at this place may rely on. -/
def Placed (pool : Pool Block Tid) : Place Block → Prop
  | .idle => True
  | .fixed block (.optimisticGet _ clock) => pool.Remembered block clock
  | .fixed block _ => pool.hashCell = some block
  | .latched block _ clock => pool.Remembered block clock
  | .holding block _ => pool.hashCell = some block
  | .unfixing _ => True

/-- The replacing thread is about to begin, no thread has a fix, a latch or a stored
position, and the victim page is either in the pool or newest on storage. -/
structure Initial (victim : PageId) (pool : Pool Block Tid) : Prop where
  replacer : pool.replacer = .idle
  idle : ∀ tid, (pool.thread tid).place = .idle ∧ (pool.thread tid).stored = none
  unused : ∀ block, (pool.block block).bufFixCount = 0 ∧
    (pool.block block).targetRwCmd = false
  hashed : ∀ block, pool.hashCell = some block →
    (pool.block block).state = .filePage ∧ (pool.block block).frame = ⟨victim, pool.newest⟩
  absent : pool.hashCell = none → pool.storage victim = pool.newest

/-- The fix counts are exact, and every thread is where its function may be. -/
structure Accounted (pool : Pool Block Tid) : Prop where
  fixes : ∀ block, (pool.block block).bufFixCount = pool.fixCount block
  filePage : ∀ tid block, (pool.thread tid).place.fixedBlock = some block →
    (pool.block block).state = .filePage
  placed : ∀ tid, pool.Placed (pool.thread tid).place
  stored : ∀ tid block clock, (pool.thread tid).stored = some (block, clock) →
    pool.Remembered block clock

/-- The invariant of every run in which the access functions respect the mark. -/
structure Sound (victim : PageId) (pool : Pool Block Tid) : Prop extends Accounted pool where
  hashed : ∀ block, pool.hashCell = some block → (pool.block block).state = .filePage
  frame : ∀ block, pool.hashCell = some block → ¬pool.replacer.Overwrote block →
    (pool.block block).frame = ⟨victim, pool.newest⟩
  absent : pool.hashCell = none → pool.storage victim = pool.newest
  saved : pool.replacer.Saved → pool.storage victim = pool.newest
  marked : ∀ block, (pool.block block).targetRwCmd = true → pool.replacer.Working block
  working : ∀ block, pool.replacer.Working block →
    pool.hashCell = some block ∧ (pool.block block).bufFixCount = 0 ∧
      (pool.block block).targetRwCmd = true
  completed : ∀ block, pool.replacer = .completed block →
    (pool.block block).ioFix = .none ∧ (pool.block block).oldestModification = 0
  removed : ∀ block, pool.replacer = .removed block →
    (pool.block block).state = .readyForUse

theorem Initial.sound {victim : PageId} {pool : Pool Block Tid}
    (initial : pool.Initial victim) : pool.Sound victim where
  fixes := by
    intro block
    rw [(initial.unused block).1, fixCount, eq_comm, ThreadCount.count_eq_zero]
    intro tid
    simp [(initial.idle tid).1]
  filePage := by
    intro tid block fixed
    simp [(initial.idle tid).1] at fixed
  placed := by
    intro tid
    simp [(initial.idle tid).1, Placed]
  stored := by
    intro tid block clock position
    simp [(initial.idle tid).2] at position
  hashed := fun block present => (initial.hashed block present).1
  frame := fun block present _ => (initial.hashed block present).2
  absent := initial.absent
  saved := by simp [initial.replacer, Replacer.Saved]
  marked := by
    intro block mark
    simp [(initial.unused block).2] at mark
  working := by simp [initial.replacer, Replacer.Working]
  completed := by simp [initial.replacer]
  removed := by simp [initial.replacer]

theorem Sound.setHashIndex {victim : PageId} {pool : Pool Block Tid} (sound : pool.Sound victim)
    (hashIndex index : Block → Bool) :
    Sound victim { pool with hashIndex := hashIndex, index := index } :=
  ⟨⟨sound.fixes, sound.filePage, sound.placed, sound.stored⟩, sound.hashed, sound.frame,
    sound.absent, sound.saved, sound.marked, sound.working, sound.completed, sound.removed⟩

section Accounted

variable {pool pool' : Pool Block Tid} {block : Block}

theorem Accounted.not_fixed (accounted : pool.Accounted)
    (unfixed : (pool.block block).bufFixCount = 0) (tid : Tid) :
    (pool.thread tid).place.fixedBlock ≠ some block := by
  rw [accounted.fixes block, fixCount, ThreadCount.count_eq_zero] at unfixed
  exact unfixed tid

/-- The clauses about the threads after a step that leaves every thread where it is,
given what the threads rely on. -/
theorem Accounted.transfer (accounted : pool.Accounted) (thread : pool'.thread = pool.thread)
    (fixes : ∀ block, (pool'.block block).bufFixCount = pool.fixCount block)
    (filePage : ∀ tid block, (pool.thread tid).place.fixedBlock = some block →
      (pool'.block block).state = .filePage)
    (hashCell : ∀ tid block, (pool.thread tid).place.fixedBlock = some block →
      pool.hashCell = some block → pool'.hashCell = some block)
    (remembered : ∀ block clock, pool.Remembered block clock → pool'.Remembered block clock) :
    pool'.Accounted := by
  refine ⟨?_, ?_, ?_, ?_⟩
  · intro block
    rw [fixes block, fixCount, fixCount, thread]
  · intro tid block fixed
    rw [thread] at fixed
    exact filePage tid block fixed
  · intro tid
    have before := accounted.placed tid
    have cell := hashCell tid
    rw [thread]
    revert before cell
    cases (pool.thread tid).place with
    | idle | unfixing block => exact fun _ _ => trivial
    | fixed block access =>
      cases access with
      | optimisticGet latch clock => exact fun before _ => remembered block clock before
      | getGen latch | knownNowait latch | tryGet => exact fun before cell => cell block rfl before
    | latched block latch clock => exact fun before _ => remembered block clock before
    | holding block latch => exact fun before cell => cell block rfl before
  · intro tid block clock position
    rw [thread] at position
    exact remembered block clock (accounted.stored tid block clock position)

/-- The clauses about the threads depend on the blocks by three fields only. -/
theorem Accounted.congr (accounted : pool.Accounted) (thread : pool'.thread = pool.thread)
    (hashCell : pool'.hashCell = pool.hashCell)
    (blocks : ∀ block, (pool'.block block).bufFixCount = (pool.block block).bufFixCount ∧
      (pool'.block block).state = (pool.block block).state ∧
      (pool'.block block).modifyClock = (pool.block block).modifyClock) :
    pool'.Accounted := by
  refine accounted.transfer thread ?_ ?_ ?_ ?_
  · intro block
    rw [(blocks block).1, accounted.fixes]
  · intro tid block fixed
    rw [(blocks block).2.1]
    exact accounted.filePage tid block fixed
  · intro tid block _ found
    rw [hashCell, found]
  · intro block clock before
    rwa [Remembered, hashCell, (blocks block).2.2]

end Accounted

variable [DecidableEq Tid] {victim : PageId} {pool pool' : Pool Block Tid}

/-! ## Steps of the accessing threads -/

section ThreadSteps

variable {tid : Tid} {block : Block} {value : BufBlock} {place : Place Block}

structure SameButFix (before after : BufBlock) : Prop where
  state : after.state = before.state
  ioFix : after.ioFix = before.ioFix
  oldestModification : after.oldestModification = before.oldestModification
  targetRwCmd : after.targetRwCmd = before.targetRwCmd
  modifyClock : after.modifyClock = before.modifyClock
  frame : after.frame = before.frame

omit [Fintype Tid] [DecidableEq Tid] in
private theorem sameButFix_update (same : SameButFix (pool.block block) value) (candidate : Block) :
    SameButFix (pool.block candidate) (update pool.block block value candidate) := by
  by_cases which : candidate = block
  · subst which
    rwa [update_self]
  · rw [update_of_ne which]
    exact ⟨rfl, rfl, rfl, rfl, rfl, rfl⟩

omit [Fintype Tid] in
theorem placed_setBlock_setPlace (same : SameButFix (pool.block block) value)
    (asked : Place Block) :
    ((pool.setBlock block value).setPlace tid place).Placed asked ↔ pool.Placed asked := by
  have clocks := fun candidate => (sameButFix_update same candidate).modifyClock
  unfold Placed Remembered
  simp only [setPlace_block, setPlace_hashCell, setBlock_block, setBlock_hashCell, clocks]

section

variable (sound : pool.Sound victim)
include sound

/-- A thread takes an operation on one block, with the fix counts still exact after it. -/
theorem Sound.threadStep (same : SameButFix (pool.block block) value)
    (fixes : ∀ candidate, (update pool.block block value candidate).bufFixCount =
      ((pool.setBlock block value).setPlace tid place).fixCount candidate)
    (filePage : ∀ candidate, place.fixedBlock = some candidate →
      (pool.block candidate).state = .filePage)
    (placed : pool.Placed place) (unmarked : pool.replacer.Working block → value.bufFixCount = 0) :
    ((pool.setBlock block value).setPlace tid place).Sound victim := by
  have fields := sameButFix_update same
  refine ⟨⟨fixes, ?_, ?_, ?_⟩, ?_, ?_, sound.absent, sound.saved, ?_, ?_, ?_, ?_⟩
  · intro other candidate fixed
    refine (fields candidate).state.trans ?_
    by_cases which : other = tid
    · subst which
      exact filePage candidate (by simpa using fixed)
    · exact sound.filePage other candidate (by simpa [which] using fixed)
  · intro other
    rw [placed_setBlock_setPlace same]
    by_cases which : other = tid
    · subst which
      simpa using placed
    · simpa [which] using sound.placed other
  · intro other candidate clock position
    have before : (pool.thread other).stored = some (candidate, clock) := by
      by_cases which : other = tid
      · subst which
        simpa using position
      · simpa [which] using position
    have remembered := sound.stored other candidate clock before
    simpa [Remembered, (fields candidate).modifyClock] using remembered
  · intro candidate present
    exact (fields candidate).state.trans (sound.hashed candidate present)
  · intro candidate present intact
    exact (fields candidate).frame.trans (sound.frame candidate present intact)
  · intro candidate mark
    exact sound.marked candidate ((fields candidate).targetRwCmd.symm.trans mark)
  · intro candidate work
    obtain ⟨present, unfixed, mark⟩ := sound.working candidate work
    refine ⟨present, ?_, (fields candidate).targetRwCmd.trans mark⟩
    by_cases which : candidate = block
    · subst which
      simpa using unmarked work
    · simpa [which] using unfixed
  · intro candidate finished
    obtain ⟨unfixed, clean⟩ := sound.completed candidate finished
    exact ⟨(fields candidate).ioFix.trans unfixed,
      (fields candidate).oldestModification.trans clean⟩
  · intro candidate gone
    exact (fields candidate).state.trans (sound.removed candidate gone)

/-- A thread takes or gives back the latch of a block that it keeps fixed. -/
theorem Sound.move (lock : RwLock) (before : (pool.thread tid).place.fixedBlock = some block)
    (after : place.fixedBlock = some block) (placed : pool.Placed place) :
    ((pool.setBlock block { pool.block block with lock := lock }).setPlace tid place).Sound
      victim := by
  refine sound.threadStep ⟨rfl, rfl, rfl, rfl, rfl, rfl⟩ ?_ ?_ placed ?_
  · intro candidate
    have counted : (pool.setPlace tid place).fixCount candidate = pool.fixCount candidate :=
      ThreadCount.count_update_stay (by rw [before, after])
    have unchanged : (update pool.block block
        { pool.block block with lock := lock } candidate).bufFixCount =
          (pool.block candidate).bufFixCount := by
      by_cases which : candidate = block
      · subst which
        simp
      · simp [which]
    exact unchanged.trans ((sound.fixes candidate).trans counted.symm)
  · intro candidate fixed
    have same : candidate = block := by
      rw [after] at fixed
      exact (Option.some.inj fixed).symm
    rw [same]
    exact sound.filePage tid block before
  · intro work
    exact (sound.working block work).2.1

theorem Sound.fix (idle : (pool.thread tid).place = .idle)
    (after : place.fixedBlock = some block) (placed : pool.Placed place)
    (filePage : (pool.block block).state = .filePage)
    (unmarked : (pool.block block).targetRwCmd = false) :
    ((pool.setBlock block (pool.block block).fix).setPlace tid place).Sound victim := by
  refine sound.threadStep ⟨rfl, rfl, rfl, rfl, rfl, rfl⟩ ?_ ?_ placed ?_
  · intro candidate
    by_cases which : candidate = block
    · subst which
      have counted : (pool.setPlace tid place).fixCount candidate =
          pool.fixCount candidate + 1 :=
        ThreadCount.count_update_enter (by simp [idle]) after
      rw [update_self]
      exact (congrArg (· + 1) (sound.fixes candidate)).trans counted.symm
    · have counted : (pool.setPlace tid place).fixCount candidate =
          pool.fixCount candidate :=
        ThreadCount.count_update_stay (by simp [idle, after, Ne.symm which])
      rw [update_of_ne which]
      exact (sound.fixes candidate).trans counted.symm
  · intro candidate fixed
    rw [after] at fixed
    rwa [← Option.some.inj fixed]
  · intro work
    have mark := (sound.working block work).2.2
    simp [unmarked] at mark

theorem Sound.unfix (before : (pool.thread tid).place.fixedBlock = some block) :
    ((pool.setBlock block (pool.block block).unfix).setPlace tid .idle).Sound victim := by
  refine sound.threadStep ⟨rfl, rfl, rfl, rfl, rfl, rfl⟩ ?_ ?_ trivial ?_
  · intro candidate
    by_cases which : candidate = block
    · subst which
      have counted : (pool.setPlace tid .idle).fixCount candidate + 1 =
          pool.fixCount candidate :=
        ThreadCount.count_update_leave before (by simp)
      have exact_ := sound.fixes candidate
      rw [update_self]
      show (pool.block candidate).bufFixCount - 1 = (pool.setPlace tid .idle).fixCount candidate
      omega
    · have counted : (pool.setPlace tid .idle).fixCount candidate =
          pool.fixCount candidate :=
        ThreadCount.count_update_stay (by rw [before]; simp [Ne.symm which])
      rw [update_of_ne which]
      exact (sound.fixes candidate).trans counted.symm
  · intro candidate fixed
    simp at fixed
  · intro work
    have unfixed := (sound.working block work).2.1
    show (pool.block block).bufFixCount - 1 = 0
    omega

theorem Sound.moveOnly (before : (pool.thread tid).place.fixedBlock = some block)
    (after : place.fixedBlock = some block) (placed : pool.Placed place) :
    (pool.setPlace tid place).Sound victim := by
  have moved := sound.move (pool.block block).lock before after placed
  rwa [show { pool.block block with lock := (pool.block block).lock } = pool.block block
    from rfl, setBlock_self] at moved

end

omit [Fintype Tid] in
private theorem latchNowait_eq {before after : BufBlock} {latch : RwLatch}
    (taken : before.latchNowait latch = some after) :
    after = { before with lock := after.lock } := by
  unfold BufBlock.latchNowait at taken
  split at taken
  · rw [← Option.some.inj taken]
  · cases taken

private theorem tryGetLatch_eq {before after : BufBlock} {latch : RwLatch}
    (taken : before.tryGetLatch = some (latch, after)) :
    after = { before with lock := after.lock } := by
  unfold BufBlock.tryGetLatch at taken
  split at taken
  next shared =>
    cases taken
    exact latchNowait_eq shared
  · split at taken
    next exclusive =>
      cases taken
      exact latchNowait_eq exclusive
    · cases taken

theorem Sound.proceed (sound : pool.Sound victim) (moved : pool.proceed tid = some pool') :
    pool'.Sound victim := by
  have placed := sound.placed tid
  have latching : ∀ {block : Block} {value : BufBlock} {place : Place Block},
      (pool.thread tid).place.fixedBlock = some block →
      value = { pool.block block with lock := value.lock } →
      place.fixedBlock = some block → pool.Placed place →
      ((pool.setBlock block value).setPlace tid place).Sound victim := by
    intro block value place before same after kept
    rw [same]
    exact sound.move value.lock before after kept
  unfold Pool.proceed at moved
  split at moved
  -- `buf_page_get_gen` without a latch
  next block position =>
    rw [position] at placed
    cases moved
    exact sound.moveOnly (by rw [position]; rfl) rfl placed
  -- `buf_page_get_gen` with a latch
  next block latch position =>
    rw [position] at placed
    split at moved
    next value taken =>
      cases moved
      exact latching (by rw [position]; rfl) (latchNowait_eq taken) rfl placed
    · cases moved
  next block latch clock position =>
    rw [position] at placed
    split at moved
    next value taken =>
      cases moved
      exact latching (by rw [position]; rfl) (latchNowait_eq taken) rfl placed
    · cases moved
      exact sound.moveOnly (by rw [position]; rfl) rfl trivial
  next block latch position =>
    rw [position] at placed
    split at moved
    next value taken =>
      cases moved
      exact latching (by rw [position]; rfl) (latchNowait_eq taken) rfl placed
    · cases moved
      exact sound.moveOnly (by rw [position]; rfl) rfl trivial
  next block position =>
    rw [position] at placed
    split at moved
    next latch value taken =>
      cases moved
      exact latching (by rw [position]; rfl) (tryGetLatch_eq taken) rfl placed
    · cases moved
      exact sound.moveOnly (by rw [position]; rfl) rfl trivial
  -- an optimistic get compares the modify clocks
  next block latch clock position =>
    rw [position] at placed
    split at moved
    next agree =>
      cases moved
      exact sound.moveOnly (by rw [position]; rfl) rfl (placed.2 agree)
    · cases moved
      exact sound.move _ (by rw [position]; rfl) rfl trivial
  · cases moved

omit [DecidableEq Tid] in
theorem Sound.modify (sound : pool.Sound victim)
    (position : (pool.thread tid).place = .holding block (some .x)) (clockInc : Bool) :
    Sound victim { pool.setBlock block
        ((pool.block block).modify (pool.newest + 1) clockInc) with
      newest := pool.newest + 1 } := by
  have fixed : (pool.thread tid).place.fixedBlock = some block := by rw [position]; rfl
  have present : pool.hashCell = some block := by
    have placed := sound.placed tid
    rwa [position] at placed
  have idle : ∀ candidate, ¬pool.replacer.Working candidate := by
    intro candidate working
    obtain ⟨found, unfixed, _⟩ := sound.working candidate working
    obtain rfl : block = candidate := Option.some.inj (present.symm.trans found)
    exact sound.not_fixed unfixed tid fixed
  have accounted : Accounted { pool.setBlock block
        ((pool.block block).modify (pool.newest + 1) clockInc) with
      newest := pool.newest + 1 } := by
    refine sound.toAccounted.transfer rfl ?_ ?_ (fun _ _ _ found => found) ?_
    · intro candidate
      by_cases which : candidate = block
      · subst which
        simpa [BufBlock.modify] using sound.fixes candidate
      · simpa [which] using sound.fixes candidate
    · intro other candidate held
      by_cases which : candidate = block
      · subst which
        simpa [BufBlock.modify] using sound.filePage other candidate held
      · simpa [which] using sound.filePage other candidate held
    · intro candidate stored before
      by_cases which : candidate = block
      · subst which
        refine ⟨?_, fun _ => present⟩
        have early := before.1
        simp only [setBlock_block, update_self, BufBlock.modify]
        split <;> omega
      · simpa [Remembered, which] using before
  refine ⟨accounted, ?_, ?_, ?_, ?_, ?_, ?_, ?_, ?_⟩
  · intro candidate found
    obtain rfl : block = candidate := Option.some.inj (present.symm.trans found)
    simpa [BufBlock.modify] using sound.hashed block present
  · intro candidate found intact
    obtain rfl : block = candidate := Option.some.inj (present.symm.trans found)
    have image := sound.frame block present intact
    simp [BufBlock.modify, image]
  · intro absent
    exact absurd (present.symm.trans absent) nofun
  · intro saved
    obtain ⟨candidate, working⟩ := Replacer.working_of_saved saved
    exact absurd working (idle candidate)
  · intro candidate mark
    by_cases which : candidate = block
    · subst which
      exact sound.marked candidate (by simpa [BufBlock.modify] using mark)
    · exact sound.marked candidate (by simpa [which] using mark)
  · intro candidate working
    exact absurd working (idle candidate)
  · intro candidate finished
    have working : pool.replacer.Working candidate := by
      rw [show pool.replacer = .completed candidate from finished]
      exact rfl
    exact absurd working (idle candidate)
  · intro candidate gone
    have state := sound.removed candidate gone
    by_cases which : candidate = block
    · subst which
      simpa [BufBlock.modify] using state
    · simpa [which] using state

theorem Sound.storePosition (sound : pool.Sound victim) {latch : Option RwLatch}
    (position : (pool.thread tid).place = .holding block latch) :
    Sound victim { pool with
      thread := update pool.thread tid
        { pool.thread tid with stored := some (block, (pool.block block).modifyClock) } } := by
  have present : pool.hashCell = some block := by
    have placed := sound.placed tid
    rwa [position] at placed
  have places : ∀ other, (update pool.thread tid
      { pool.thread tid with
        stored := some (block, (pool.block block).modifyClock) } other).place =
          (pool.thread other).place := by
    intro other
    by_cases which : other = tid
    · subst which
      simp
    · simp [which]
  have counted : ∀ candidate,
      ThreadCount.count (fun thread : Thread Block => thread.place.fixedBlock = some candidate)
        (update pool.thread tid
          { pool.thread tid with stored := some (block, (pool.block block).modifyClock) }) =
      pool.fixCount candidate :=
    fun candidate => ThreadCount.count_update_stay Iff.rfl
  refine ⟨⟨?_, ?_, ?_, ?_⟩, sound.hashed, sound.frame, sound.absent, sound.saved,
    sound.marked, sound.working, sound.completed, sound.removed⟩
  · intro candidate
    exact (sound.fixes candidate).trans (counted candidate).symm
  · intro other candidate fixed
    rw [places] at fixed
    exact sound.filePage other candidate fixed
  · intro other
    have placed := sound.placed other
    rw [places]
    exact placed
  · intro other candidate clock kept
    by_cases which : other = tid
    · subst which
      obtain ⟨rfl, rfl⟩ : block = candidate ∧ (pool.block block).modifyClock = clock := by
        simpa using kept
      exact ⟨le_rfl, fun _ => present⟩
    · exact sound.stored other candidate clock (by simpa [which] using kept)

end ThreadSteps

end Pool
end RwRbuf.Innodb.VictimAccess
