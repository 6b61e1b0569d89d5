import RwRbuf.Innodb.VictimInvariant

/-! # What a thread sees of a page that is being replaced

The exclusion of readers from a victim rests on `target_rw_cmd`, and `buf_page_get_gen`
is the only access function that tests it.  If the other three find the flag clear
whenever they fix a block, and the adaptive hash index leads only to the block that still
has the page, then every thread that is given the block of the victim page sees that page,
and the victim has no buffer fix when it is removed from the page hash.  The last theorem
runs the functions without these tests: an optimistic get on a marked block returns a frame
that already holds another page, and the removal then stops the server; and the hash index
leads to the frame of the other page after the removal, which drops no node.
-/

namespace RwRbuf.Innodb.VictimAccess.Pool

open Function Fallible Relation

variable {Block Tid : Type} [DecidableEq Block] [Fintype Tid] {victim other : PageId}
  {pool pool' : Pool Block Tid}

/-! ## Steps of the replacing thread -/

section ReplacerSteps

variable {block : Block} {value : BufBlock}

private theorem flushPageWithRwCmd_eq {before after : BufBlock}
    (selected : before.flushPageWithRwCmd = some after) :
    before.bufFixCount = 0 ∧
      after = { before with targetRwCmd := true, lock := after.lock, ioFix := .write } := by
  unfold BufBlock.flushPageWithRwCmd at selected
  split at selected
  next ready =>
    split at selected
    · rw [← Option.some.inj selected]
      simp only [Bool.and_eq_true, beq_iff_eq] at ready
      exact ⟨ready.1, rfl⟩
    · cases selected
  · cases selected

section

variable (sound : pool.Sound victim)
include sound

theorem Sound.select (idle : pool.replacer = .idle) (present : pool.hashCell = some block)
    (selected : (pool.block block).flushPageWithRwCmd = some value) :
    Sound victim { pool.setBlock block value with replacer := .selected block } := by
  obtain ⟨unfixed, same⟩ := flushPageWithRwCmd_eq selected
  have others : ∀ candidate, (pool.block candidate).targetRwCmd ≠ true := by
    intro candidate mark
    have work := sound.marked candidate mark
    simp [idle, Replacer.Working] at work
  have fields : ∀ candidate, (update pool.block block value candidate).bufFixCount =
        (pool.block candidate).bufFixCount ∧
      (update pool.block block value candidate).state = (pool.block candidate).state ∧
      (update pool.block block value candidate).modifyClock = (pool.block candidate).modifyClock ∧
      (update pool.block block value candidate).frame = (pool.block candidate).frame := by
    intro candidate
    by_cases which : candidate = block
    · subst which
      rw [update_self, same]
      exact ⟨rfl, rfl, rfl, rfl⟩
    · rw [update_of_ne which]
      exact ⟨rfl, rfl, rfl, rfl⟩
  have accounted : Accounted { pool.setBlock block value with replacer := .selected block } :=
    sound.toAccounted.congr rfl rfl fun candidate =>
    ⟨(fields candidate).1, (fields candidate).2.1, (fields candidate).2.2.1⟩
  refine ⟨accounted, ?_, ?_, sound.absent, False.elim, ?_, ?_, ?_, ?_⟩
  · intro candidate found
    exact (fields candidate).2.1.trans (sound.hashed candidate found)
  · intro candidate found _
    refine (fields candidate).2.2.2.trans (sound.frame candidate found ?_)
    simp [idle, Replacer.Overwrote]
  · intro candidate mark
    by_contra different
    have apart : candidate ≠ block := fun same => different same.symm
    exact others candidate (by simpa [apart] using mark)
  · rintro candidate rfl
    refine ⟨present, (fields block).1.trans unfixed, ?_⟩
    show (update pool.block block value block).targetRwCmd = true
    rw [update_self, same]
  · intro candidate finished
    cases finished
  · intro candidate gone
    cases gone

theorem Sound.deviceWrite (position : pool.replacer = .selected block) :
    Sound victim { pool with
      storage := update pool.storage victim (pool.block block).frame.version
      replacer := .written block } := by
  have work : pool.replacer.Working block := by rw [position]; exact rfl
  have present := (sound.working block work).1
  have image : (pool.block block).frame = ⟨victim, pool.newest⟩ :=
    sound.frame block present (by simp [position, Replacer.Overwrote])
  have written : update pool.storage victim (pool.block block).frame.version victim =
      pool.newest := by
    rw [update_self, image]
  refine ⟨sound.toAccounted.congr rfl rfl fun _ => ⟨rfl, rfl, rfl⟩, sound.hashed, ?_,
    fun _ => written, fun _ => written, ?_, ?_, ?_, ?_⟩
  · intro candidate found _
    exact sound.frame candidate found (by simp [position, Replacer.Overwrote])
  · intro candidate mark
    have before := sound.marked candidate mark
    rwa [position] at before
  · rintro candidate rfl
    exact sound.working block work
  · intro candidate finished
    cases finished
  · intro candidate gone
    cases gone

/-- The replacing thread goes on with its victim after the victim page is on storage. -/
theorem Sound.overwrite {next : Replacer Block}
    (work : pool.replacer.Working block) (saved : pool.replacer.Saved)
    (nextOf : next = .overwritten block ∨ next = .completed block)
    (fields : value.bufFixCount = (pool.block block).bufFixCount ∧
      value.state = (pool.block block).state ∧
      value.modifyClock = (pool.block block).modifyClock ∧
      value.targetRwCmd = (pool.block block).targetRwCmd)
    (finished : next = .completed block →
      value.ioFix = .none ∧ value.oldestModification = 0) :
    Sound victim { pool.setBlock block value with replacer := next } := by
  have fields' : ∀ candidate, (update pool.block block value candidate).bufFixCount =
        (pool.block candidate).bufFixCount ∧
      (update pool.block block value candidate).state = (pool.block candidate).state ∧
      (update pool.block block value candidate).modifyClock = (pool.block candidate).modifyClock ∧
      (update pool.block block value candidate).targetRwCmd =
        (pool.block candidate).targetRwCmd := by
    intro candidate
    by_cases which : candidate = block
    · subst which
      rwa [update_self]
    · rw [update_of_ne which]
      exact ⟨rfl, rfl, rfl, rfl⟩
  have accounted : Accounted { pool.setBlock block value with replacer := next } :=
    sound.toAccounted.congr rfl rfl fun candidate =>
      ⟨(fields' candidate).1, (fields' candidate).2.1, (fields' candidate).2.2.1⟩
  obtain ⟨present, unfixed, mark⟩ := sound.working block work
  have works : ∀ candidate, next.Working candidate ↔ block = candidate := by
    intro candidate
    rcases nextOf with rfl | rfl <;> rfl
  refine ⟨accounted, ?_, ?_, sound.absent, fun _ => sound.saved saved, ?_, ?_, ?_, ?_⟩
  · intro candidate found
    exact (fields' candidate).2.1.trans (sound.hashed candidate found)
  · intro candidate found intact
    have same : block = candidate := Option.some.inj (present.symm.trans found)
    rcases nextOf with rfl | rfl <;> exact absurd same intact
  · intro candidate markedNow
    have before := sound.working candidate
      (sound.marked candidate ((fields' candidate).2.2.2.symm.trans markedNow))
    rw [works]
    exact Option.some.inj (present.symm.trans before.1)
  · intro candidate working
    obtain rfl := (works candidate).1 working
    exact ⟨present, (fields' block).1.trans unfixed, (fields' block).2.2.2.trans mark⟩
  · intro candidate reached
    have same : block = candidate := by
      rcases nextOf with rfl | rfl
      · cases reached
      · cases reached
        rfl
    subst same
    show (update pool.block block value block).ioFix = _ ∧
      (update pool.block block value block).oldestModification = 0
    rw [update_self]
    exact finished reached
  · intro candidate gone
    rcases nextOf with rfl | rfl <;> cases gone

/-- The removal finds nothing to stop on: nobody has the victim fixed. -/
theorem Sound.removeHashed_eq (position : pool.replacer = .completed block) :
    (pool.block block).lruBlockRemoveHashedForRwCmd (decide (pool.hashCell = some block)) =
      .ok { pool.block block with
        targetRwCmd := false, useRwCmd := true
        modifyClock := (pool.block block).modifyClock + 1
        state := .readyForUse } := by
  have work : pool.replacer.Working block := by rw [position]; exact rfl
  obtain ⟨present, unfixed, _⟩ := sound.working block work
  obtain ⟨noIo, clean⟩ := sound.completed block position
  simp [BufBlock.lruBlockRemoveHashedForRwCmd, present, unfixed, noIo, clean,
    sound.hashed block present]

/-- The victim leaves the page hash; its modify clock moves, so that stored positions
no longer lead to it. -/
theorem Sound.removeHashed
    (position : pool.replacer = .completed block) (clock : value.modifyClock =
      (pool.block block).modifyClock + 1) (state : value.state = .readyForUse)
    (fixCount : value.bufFixCount = (pool.block block).bufFixCount)
    (unmarked : value.targetRwCmd = false) :
    Sound victim { pool.setBlock block value with
      hashCell := none
      replacer := .removed block } := by
  have work : pool.replacer.Working block := by rw [position]; exact rfl
  obtain ⟨present, unfixed, _⟩ := sound.working block work
  have elsewhere : ∀ tid candidate, (pool.thread tid).place.fixedBlock = some candidate →
      candidate ≠ block := by
    rintro tid candidate fixed rfl
    exact sound.not_fixed unfixed tid fixed
  have accounted : Accounted { pool.setBlock block value with
      hashCell := none
      replacer := .removed block } := by
    refine sound.toAccounted.transfer rfl ?_ ?_ ?_ ?_
    · intro candidate
      by_cases which : candidate = block
      · subst which
        simpa [fixCount] using sound.fixes candidate
      · simpa [which] using sound.fixes candidate
    · intro tid candidate fixed
      simpa [elsewhere tid candidate fixed] using sound.filePage tid candidate fixed
    · intro tid candidate fixed found
      have same : block = candidate := Option.some.inj (present.symm.trans found)
      exact absurd same.symm (elsewhere tid candidate fixed)
    · intro candidate stored before
      by_cases which : candidate = block
      · subst which
        refine ⟨?_, ?_⟩
        · simpa [clock] using Nat.le_succ_of_le before.1
        · intro now
          have late : stored = (pool.block candidate).modifyClock + 1 := by
            simpa [clock] using now
          have early := before.1
          omega
      · refine ⟨by simpa [which] using before.1, ?_⟩
        intro now
        have found := before.2 (by simpa [which] using now)
        exact absurd (Option.some.inj (present.symm.trans found)).symm which
  refine ⟨accounted, ?_, ?_, fun _ => sound.saved ?_, False.elim, ?_, ?_, ?_, ?_⟩
  · intro candidate found
    cases found
  · intro candidate found
    cases found
  · rw [position]
    trivial
  · intro candidate mark
    by_cases which : candidate = block
    · subst which
      simp [unmarked] at mark
    · have before := sound.marked candidate (by simpa [which] using mark)
      rw [position] at before
      exact absurd before.symm which
  · intro candidate working
    exact working.elim
  · intro candidate completed
    cases completed
  · rintro candidate ⟨⟩
    simp [state]

end

/-- A block that is not a file page gets new fields: nobody has it fixed, and if it
becomes the block of the victim page then that page was in no block before. -/
theorem Accounted.reset (accounted : pool.Accounted) (thread : pool'.thread = pool.thread)
    (blocks : pool'.block = update pool.block block value)
    (free : (pool.block block).state ≠ .filePage) (unfixed : value.bufFixCount = 0 ∨
      value.bufFixCount = (pool.block block).bufFixCount)
    (clock : value.modifyClock = (pool.block block).modifyClock)
    (cell : pool'.hashCell = pool.hashCell ∨ pool.hashCell = none) : pool'.Accounted := by
  have elsewhere : ∀ tid candidate, (pool.thread tid).place.fixedBlock = some candidate →
      candidate ≠ block := by
    rintro tid candidate fixed rfl
    exact free (accounted.filePage tid candidate fixed)
  have kept : ∀ candidate, pool.hashCell = some candidate → pool'.hashCell = some candidate := by
    intro candidate found
    rcases cell with same | absent
    · rw [same, found]
    · rw [absent] at found
      cases found
  refine accounted.transfer thread ?_ ?_ (fun _ candidate _ => kept candidate) ?_
  · intro candidate
    rw [blocks]
    by_cases which : candidate = block
    · subst which
      have none : pool.fixCount candidate = 0 :=
        ThreadCount.count_eq_zero.2 fun tid fixed => elsewhere tid candidate fixed rfl
      have before := accounted.fixes candidate
      rw [update_self]
      omega
    · rw [update_of_ne which]
      exact accounted.fixes candidate
  · intro tid candidate fixed
    rw [blocks, update_of_ne (elsewhere tid candidate fixed)]
    exact accounted.filePage tid candidate fixed
  · intro candidate stored before
    have clocks : (pool'.block candidate).modifyClock = (pool.block candidate).modifyClock := by
      rw [blocks]
      by_cases which : candidate = block
      · subst which
        rw [update_self, clock]
      · rw [update_of_ne which]
    rw [Remembered, clocks]
    exact ⟨before.1, fun now => kept candidate (before.2 now)⟩

/-- The removed block is given to another page or to the free list. -/
theorem Sound.recycle (sound : pool.Sound victim) (position : pool.replacer = .removed block)
    (unfixed : value.bufFixCount = 0 ∨ value.bufFixCount = (pool.block block).bufFixCount)
    (clock : value.modifyClock = (pool.block block).modifyClock)
    (mark : value.targetRwCmd = true → (pool.block block).targetRwCmd = true) :
    Sound victim { pool.setBlock block value with replacer := .idle } := by
  have state := sound.removed block position
  have free : (pool.block block).state ≠ .filePage := by simp [state]
  have other : ∀ candidate, pool.hashCell = some candidate → candidate ≠ block := by
    rintro candidate found rfl
    exact free (sound.hashed candidate found)
  refine ⟨sound.toAccounted.reset rfl rfl free unfixed clock (.inl rfl), ?_, ?_,
    sound.absent, False.elim, ?_, ?_, nofun, nofun⟩
  · intro candidate found
    simpa [other candidate found] using sound.hashed candidate found
  · intro candidate found _
    have image := sound.frame candidate found (by simp [position, Replacer.Overwrote])
    simpa [other candidate found] using image
  · intro candidate marked
    have before : (pool.block candidate).targetRwCmd = true := by
      by_cases which : candidate = block
      · subst which
        exact mark (by simpa using marked)
      · simpa [which] using marked
    have working := sound.marked candidate before
    rw [position] at working
    exact working.elim
  · intro candidate working
    exact working.elim

theorem Sound.readVictim (sound : pool.Sound victim) (absent : pool.hashCell = none)
    (free : (pool.block block).state = .notUsed) :
    Sound victim { pool.setBlock block
        { (pool.block block).pageInit false with
          frame := ⟨victim, pool.storage victim⟩ } with
      hashCell := some block } := by
  have idle : ∀ candidate, ¬pool.replacer.Working candidate := by
    intro candidate working
    have found := (sound.working candidate working).1
    rw [absent] at found
    cases found
  have notFile : (pool.block block).state ≠ .filePage := by simp [free]
  refine ⟨sound.toAccounted.reset rfl rfl notFile (.inl rfl) rfl (.inr absent), ?_, ?_,
    nofun, sound.saved, ?_, ?_, ?_, ?_⟩
  · rintro candidate ⟨⟩
    simp [BufBlock.pageInit]
  · rintro candidate ⟨⟩ _
    simp [sound.absent absent]
  · intro candidate mark
    by_cases which : candidate = block
    · subst which
      simp [BufBlock.pageInit] at mark
    · exact sound.marked candidate (by simpa [which] using mark)
  · intro candidate working
    exact absurd working (idle candidate)
  · intro candidate finished
    have working : pool.replacer.Working candidate := by
      rw [show pool.replacer = .completed candidate from finished]
      exact rfl
    exact absurd working (idle candidate)
  · intro candidate gone
    have state := sound.removed candidate gone
    have apart : candidate ≠ block := by
      rintro rfl
      simp [free] at state
    simpa [apart] using state

end ReplacerSteps

/-! ## Runs -/

section Runs

variable [DecidableEq Tid]

/-- The access functions that do not test `target_rw_cmd` themselves find it clear, and a
block known from the adaptive hash index is still the one the page hash finds. -/
def RespectsMark (pool : Pool Block Tid) : Action Block Tid → Prop
  | .optimisticGet tid _ => ∀ block clock, (pool.thread tid).stored = some (block, clock) →
      (pool.block block).targetRwCmd = false
  | .knownNowait _ _ block => pool.hashCell = some block ∧
      (pool.block block).targetRwCmd = false
  | .tryGet _ => ∀ block, pool.hashCell = some block →
      (pool.block block).targetRwCmd = false
  | _ => True

/-- One action of a run in which every action is allowed where it is taken. -/
def Step (victim other : PageId) (allowed : Pool Block Tid → Action Block Tid → Prop)
    (pool pool' : Pool Block Tid) : Prop :=
  EventStep (Pool.step victim other) allowed pool pool'

theorem Sound.enter {tid : Tid} {block : Block} {fixed : Option BufBlock} {access : Access}
    (sound : pool.Sound victim) (idle : (pool.thread tid).place = .idle)
    (placed : pool.Placed (.fixed block access))
    (fixes : ∀ value, fixed = some value → value = (pool.block block).fix ∧
      (pool.block block).state = .filePage ∧ (pool.block block).targetRwCmd = false) :
    (pool.enter tid block fixed access).Sound victim := by
  cases fixed with
  | none => exact sound
  | some value =>
    obtain ⟨rfl, filePage, unmarked⟩ := fixes value rfl
    exact sound.fix idle rfl placed filePage unmarked

omit [DecidableEq Tid] in
theorem Sound.replace {action : Action Block Tid} (sound : pool.Sound victim)
    (taken : pool.replace victim other action = some pool') : pool'.Sound victim := by
  unfold Pool.replace at taken
  split at taken
  -- the victim is selected
  next block =>
    split at taken
    next guard =>
      split at taken
      next value selected =>
        cases taken
        exact sound.select guard.1 guard.2 selected
      · cases taken
    · cases taken
  · split at taken
    next block position =>
      cases taken
      exact sound.deviceWrite position
    · cases taken
  · split at taken
    next block position =>
      cases taken
      exact sound.overwrite (by rw [position]; rfl) (by rw [position]; trivial) (.inl rfl)
        ⟨rfl, rfl, rfl, rfl⟩ (by intro completed; cases completed)
    · cases taken
  · split at taken
    next block position =>
      cases taken
      exact sound.overwrite (by rw [position]; rfl) (by rw [position]; trivial) (.inr rfl)
        ⟨rfl, rfl, rfl, rfl⟩ fun _ => ⟨rfl, rfl⟩
    · cases taken
  -- the victim leaves the page hash
  · split at taken
    next block position =>
      rw [sound.removeHashed_eq position] at taken
      cases taken
      exact sound.removeHashed position rfl rfl rfl rfl
    · cases taken
  · split at taken
    next block position =>
      split at taken
      · cases taken
      · cases taken
        have recycled : Sound victim { pool.setBlock block ((pool.block block).pageInit true)
            with replacer := .idle } :=
          sound.recycle position (.inl rfl) rfl (by intro marked; cases marked)
        exact recycled.setHashIndex _ _
    · cases taken
  · split at taken
    next block position =>
      cases taken
      exact sound.recycle position (.inr rfl) rfl id
    · cases taken
  · cases taken

private theorem pageOptimisticGet_eq {before after : BufBlock}
    (fixed : before.pageOptimisticGet = some after) :
    after = before.fix ∧ before.state = .filePage := by
  unfold BufBlock.pageOptimisticGet at fixed
  split at fixed
  · cases fixed
  next state =>
    simp only [bne_iff_ne, ne_eq, Decidable.not_not] at state
    exact ⟨(Option.some.inj fixed).symm, state⟩

theorem Sound.step {action : Action Block Tid} (sound : pool.Sound victim)
    (respects : pool.RespectsMark action)
    (taken : pool.step victim other action = some pool') : pool'.Sound victim := by
  unfold Pool.step at taken
  split at taken
  next block =>
    split at taken
    next guard =>
      cases taken
      exact (sound.readVictim guard.1 guard.2).setHashIndex _ _
    · cases taken
  -- `buf_page_get_gen` tests the mark itself
  next tid latch =>
    split at taken
    next block idle found =>
      cases taken
      refine sound.enter idle found fun value fixed => ?_
      unfold BufBlock.pageGetGen at fixed
      split at fixed
      · cases fixed
      next clear =>
        simp only [Bool.or_eq_true, not_or, Bool.not_eq_true] at clear
        exact ⟨(Option.some.inj fixed).symm, sound.hashed block found, clear.1⟩
    · cases taken
  next tid latch =>
    split at taken
    next block clock idle position =>
      cases taken
      refine sound.enter idle (sound.stored tid block clock position) fun value fixed => ?_
      obtain ⟨same, state⟩ := pageOptimisticGet_eq fixed
      exact ⟨same, state, respects block clock position⟩
    · cases taken
  next tid latch block =>
    obtain ⟨found, unmarked⟩ := respects
    split at taken
    next guard =>
      split at taken
      next fixed known =>
        cases taken
        refine sound.enter guard.1 found fun value got => ?_
        have state := sound.hashed block found
        simp [BufBlock.pageGetKnownNowait, state, got] at known
        exact ⟨known.symm, state, unmarked⟩
      · cases taken
    · cases taken
  next tid =>
    split at taken
    next block idle found =>
      cases taken
      refine sound.enter idle found fun value fixed => ?_
      obtain ⟨same, state⟩ := pageOptimisticGet_eq fixed
      exact ⟨same, state, respects block found⟩
    · cases taken
  · exact sound.proceed taken
  · split at taken
    · cases taken
      exact sound.setHashIndex _ _
    · cases taken
  · split at taken
    · split at taken
      · cases taken
        exact sound.setHashIndex _ _
      · cases taken
        exact sound
    · cases taken
  · split at taken
    next block latch position =>
      cases taken
      exact sound.storePosition position
    · cases taken
  next tid clockInc =>
    split at taken
    next block position =>
      cases taken
      exact sound.modify position clockInc
    · cases taken
  · split at taken
    next block latch position =>
      cases taken
      exact sound.move _ (by rw [position]; rfl) rfl trivial
    next block position =>
      cases taken
      exact sound.moveOnly (by rw [position]; rfl) rfl trivial
    · cases taken
  · split at taken
    next block position =>
      cases taken
      exact sound.unfix (by rw [position]; rfl)
    · cases taken
  · exact sound.replace taken

/-- In every run in which no access function fixes a marked block and the adaptive hash
index leads only to the page's own block, a thread that has been given the block of the
victim page sees the newest contents of that page, and when the victim is about to be
removed from the page hash nobody has it fixed and the removal succeeds. -/
theorem victim_seen_of_run {start final : Pool Block Tid} (initial : start.Initial victim)
    (run : Relation.ReflTransGen (Step victim other RespectsMark) start final) :
    (∀ tid block latch, (final.thread tid).place = .holding block latch →
      (final.block block).frame = ⟨victim, final.newest⟩) ∧
    ∀ block, final.replacer = .completed block →
      (∀ tid, (final.thread tid).place.fixedBlock ≠ some block) ∧
      (final.block block).bufFixCount = 0 ∧
      ∃ value, (final.block block).lruBlockRemoveHashedForRwCmd
        (decide (final.hashCell = some block)) = .ok value := by
  have sound : final.Sound victim :=
    run_invariant (Sound victim) initial.sound
      (fun _ _ before ⟨_, respects, taken⟩ => before.step respects taken) run
  constructor
  · intro tid block latch position
    have present : final.hashCell = some block := by
      have placed := sound.placed tid
      rwa [position] at placed
    refine sound.frame block present fun overwrote => ?_
    have working : final.replacer.Working block := Replacer.working_of_overwrote overwrote
    exact sound.not_fixed (sound.working block working).2.1 tid (by rw [position]; rfl)
  · intro block position
    have working : final.replacer.Working block := by rw [position]; exact rfl
    have unfixed := (sound.working block working).2.1
    exact ⟨sound.not_fixed unfixed, unfixed, _, sound.removeHashed_eq position⟩

end Runs

/-- A pool of one block that holds a changed page, and one idle thread. -/
def onePage (victim : PageId) : Pool Unit Unit where
  block := fun _ =>
    { state := .filePage, bufFixCount := 0, ioFix := .none, oldestModification := 1
      targetRwCmd := false, useRwCmd := false, modifyClock := 0, lock := ⟨0, false⟩
      frame := ⟨victim, 1⟩ }
  hashCell := some ()
  storage := fun _ => 0
  newest := 1
  hashIndex := fun _ => false
  index := fun _ => false
  replacer := .idle
  thread := fun _ => ⟨.idle, none⟩

theorem onePage_initial (victim : PageId) : (onePage victim).Initial victim where
  replacer := rfl
  idle := fun _ => ⟨rfl, rfl⟩
  unused := fun _ => ⟨rfl, rfl⟩
  hashed := fun _ _ => ⟨rfl, rfl⟩
  absent := nofun

/-- A thread gets the page by `buf_page_get_gen` and puts its records into the adaptive
hash index, gets the block again from there, and later the page is replaced. -/
theorem victim_seen_of_getGen :
    ∃ indexed known completed,
      Fallible.runEvents (step ⟨50, 4⟩ ⟨51, 9⟩)
        [.getGen () (some .s), .proceed (), .buildPageHashIndex (), .release (), .unfix ()]
        (onePage ⟨50, 4⟩) = some indexed ∧
      Fallible.runEvents (step ⟨50, 4⟩ ⟨51, 9⟩)
        [.knownNowait () .s (), .proceed ()] indexed = some known ∧
      (known.thread ()).place = .holding () (some .s) ∧
      (known.block ()).frame = ⟨⟨50, 4⟩, known.newest⟩ ∧
      Fallible.runEvents (step ⟨50, 4⟩ ⟨51, 9⟩)
        [.release (), .unfix (), .flushPageWithRwCmd (), .deviceWrite, .deviceRead,
          .ioComplete] known = some completed ∧
      completed.replacer = .completed () ∧ (completed.block ()).bufFixCount = 0 := by
  obtain ⟨indexed, known, completed, taken, respects, found, place, later, position⟩ :
      ∃ indexed known completed,
        runEvents (step ⟨50, 4⟩ ⟨51, 9⟩)
          [.getGen () (some .s), .proceed (), .buildPageHashIndex (), .release (), .unfix ()]
          (onePage ⟨50, 4⟩) = some indexed ∧
        indexed.RespectsMark (.knownNowait () .s ()) ∧
        runEvents (step ⟨50, 4⟩ ⟨51, 9⟩)
          [.knownNowait () .s (), .proceed ()] indexed = some known ∧
        (known.thread ()).place = .holding () (some .s) ∧
        runEvents (step ⟨50, 4⟩ ⟨51, 9⟩)
          [.release (), .unfix (), .flushPageWithRwCmd (), .deviceWrite, .deviceRead,
            .ioComplete] known = some completed ∧
        completed.replacer = .completed () :=
    ⟨_, _, _, rfl, ⟨rfl, rfl⟩, rfl, rfl, rfl, rfl⟩
  have first : ReflTransGen (Step ⟨50, 4⟩ ⟨51, 9⟩ RespectsMark)
      (onePage ⟨50, 4⟩) indexed := reaches_of_runEvents _ (by simp [RespectsMark]) taken
  obtain ⟨fixed, fixing, latching⟩ := Option.bind_eq_some_iff.1 found
  have second : ReflTransGen (Step ⟨50, 4⟩ ⟨51, 9⟩ RespectsMark)
      (onePage ⟨50, 4⟩) known :=
    (first.tail ⟨_, respects, fixing⟩).trans
      (reaches_of_runEvents [.proceed ()] (by simp [RespectsMark]) latching)
  have third : ReflTransGen (Step ⟨50, 4⟩ ⟨51, 9⟩ RespectsMark)
      (onePage ⟨50, 4⟩) completed :=
    second.trans (reaches_of_runEvents _ (by simp [RespectsMark]) later)
  exact ⟨indexed, known, completed, taken, found, place,
    (victim_seen_of_run (onePage_initial _) second).1 () () (some .s) place, later, position,
    ((victim_seen_of_run (onePage_initial _) third).2 () position).2.1⟩

/-- Two runs from a page that one thread has read before.  An optimistic get on the marked
block: the thread has stored its position on the page, the page becomes a victim and the
device reads the other page into its frame, and then the thread gets the block back.  It
holds the latch of a frame with another page in it, and the removal of the victim stops on
the buffer fix.  And a search through the adaptive hash index: the nodes of the records stay
when the page is replaced, and lead a thread to the block of the other page. -/
theorem victim_overwritten_under_reader :
    ∃ (victim other : PageId) (start stored known : Pool Unit Unit),
      victim ≠ other ∧ start.Initial victim ∧
      Relation.ReflTransGen (Step victim other fun _ _ => True) start stored ∧
      (stored.thread ()).place = .holding () (some .s) ∧
      (stored.block ()).frame.page = other ∧
      stored.replacer = .completed () ∧
      (stored.block ()).lruBlockRemoveHashedForRwCmd (decide (stored.hashCell = some ())) =
        .error .bufferFixed ∧
      Relation.ReflTransGen (Step victim other fun _ _ => True) start known ∧
      (known.thread ()).place = .holding () (some .s) ∧
      (known.block ()).frame.page = other ∧ (known.block ()).targetRwCmd = false := by
  refine ⟨⟨50, 4⟩, ⟨51, 9⟩, onePage ⟨50, 4⟩, _, _, by decide, onePage_initial _,
    reaches_of_runEvents
      [.getGen () (some .s), .proceed (), .storePosition (), .release (), .unfix (),
        .flushPageWithRwCmd (), .deviceWrite, .deviceRead,
        .optimisticGet () .s, .proceed (), .proceed (), .ioComplete]
      (fun _ _ _ => trivial) rfl, rfl, rfl, rfl, rfl,
    reaches_of_runEvents
      [.getGen () (some .s), .proceed (), .buildPageHashIndex (), .release (), .unfix (),
        .flushPageWithRwCmd (), .deviceWrite, .deviceRead, .ioComplete, .removeHashed,
        .initForOther, .knownNowait () .s (), .proceed ()]
      (fun _ _ _ => trivial) rfl, rfl, rfl, rfl⟩

end RwRbuf.Innodb.VictimAccess.Pool
