import RwRbuf.Innodb.BlockPlaces

/-! # No block is lost

`buf_page_init_for_read` leaves a block that carries an RW flag where it is if the page
turns out to be in the pool or its tablespace to be gone; nobody holds the block any more,
and it is in no list.  This is the only way to lose a block.
-/

namespace RwRbuf.Innodb.FreeBlocks

open Function Fallible Relation

variable {Block Zip Index Thread : Type}
variable [DecidableEq Block] [DecidableEq Zip] [DecidableEq Index] [DecidableEq Thread]

/-! ## Reading a page into a block -/

/-- An RW flag is set, by the current or an earlier use of the block. -/
def Flagged (block : PoolBlock Zip Index) : Prop :=
  block.useRwCmd = true ∨ block.targetRwCmd = true

/-- The page is in the pool, or its tablespace is deleted or being deleted. -/
def Refused (threads : Threads Block Zip Index Thread) (page : PageId) : Prop :=
  (∃ ref, threads.pool.pageHash page = some (.page ref)) ∨ threads.deleted page.space = true

/-- The block is in the LRU list and the page hash as the page, or it is free again. -/
def Kept (threads : Threads Block Zip Index Thread) (page : PageId) (block : Block) : Prop :=
  (.block block ∈ threads.pool.lru ∧
      threads.pool.pageHash page = some (.page (.block block))) ∨
    block ∈ threads.pool.free

section InitForRead

variable {threads after : Threads Block Zip Index Thread} {place : Block → Place Thread}
variable {thread : Thread} {block : Block} {page : PageId} {pool : BufPool Block Zip Index}
variable {compressed : Option (Nat × Zip)} {position : Nat}

omit [DecidableEq Zip] [DecidableEq Index] [DecidableEq Thread] in
theorem Lists.forget (lists : Lists pool place) (held : place block = .held thread) :
    Lists pool (update place block (.lost : Place Thread)) := by
  refine ⟨lists.free_nodup, lists.lru_nodup, ?_, ?_, ?_⟩
  · intro other
    by_cases same : other = block
    · simp [same, lists.free, held]
    · rw [update_of_ne same, lists.free]
  · intro other
    by_cases same : other = block
    · simp [same, lists.resident, held]
    · rw [update_of_ne same, lists.resident]
  · intro name other
    by_cases same : other = block
    · simp [same, lists.hashed, held]
    · rw [update_of_ne same, lists.hashed]

omit [DecidableEq Zip] [DecidableEq Index] [DecidableEq Thread] in
theorem initErrExit_place (lists : Lists threads.pool place) (held : place block = .held thread)
    (ready : (threads.pool.block block).state = .readyForUse)
    (left : threads.pool.initErrExit block = .ok pool) :
    (∀ other, other ≠ block → pool.block other = threads.pool.block other) ∧
      ((¬ Flagged (threads.pool.block block) ∧
          Lists pool (update place block (.free : Place Thread))) ∨
        (Flagged (threads.pool.block block) ∧
          Lists pool (update place block (.lost : Place Thread)))) := by
  unfold BufPool.initErrExit at left
  split at left
  next clear =>
    simp only [Bool.and_eq_true, Bool.not_eq_true', ← Bool.not_eq_true] at clear
    obtain ⟨freed, freedEq, placed, others⟩ := lists.freeNonFilePage held (.inr ready)
    cases freedEq.symm.trans left
    exact ⟨others, .inl ⟨not_or.2 clear, placed⟩⟩
  next set =>
    cases left
    simp only [Bool.and_eq_true, Bool.not_eq_true', ← Bool.not_eq_true, not_and_or,
      not_not] at set
    exact ⟨fun _ _ => rfl, .inr ⟨set, lists.forget held⟩⟩

omit [DecidableEq Zip] [DecidableEq Index] [DecidableEq Thread] in
/-- Where the block is after `buf_page_init_for_read`. -/
theorem initForRead_place (placed : Placed threads place)
    (hand : threads.hand thread = .reading page block)
    (entered : threads.pool.pageInitForRead threads.deleted page compressed position block =
      .ok pool) :
    ∃ goal, (∀ other, goal ≠ .held other) ∧ Lists pool (update place block goal) ∧
      (∀ other, other ≠ block → pool.block other = threads.pool.block other) ∧
      (goal = .lost ↔ Flagged (threads.pool.block block) ∧ Refused threads page) ∧
      (goal = .resident → (pool.block block).page = some page) := by
  have held : place block = .held thread := placed.held_block hand rfl
  have ready := placed.reading thread page block hand
  rcases BufPool.pageInitForRead_ok entered with
    ⟨refused, left⟩ | ⟨absent, alive, zipSize, value⟩
  · obtain ⟨others, ⟨clear, lists⟩ | ⟨flagged, lists⟩⟩ :=
      initErrExit_place placed.lists held ready left
    · exact ⟨.free, by simp, lists, others, by simp [clear], by simp⟩
    · exact ⟨.lost, by simp, lists, others, ⟨fun _ => ⟨flagged, refused⟩, fun _ => rfl⟩, by simp⟩
  · have notRefused : ¬ Refused threads page := by
      rintro (⟨ref, found⟩ | gone)
      · exact absent ref found
      · exact absurd gone (by simp [alive])
    have kept : ∀ other, other ≠ block → pool.block other = threads.pool.block other := by
      intro other different
      simp [value, BufPool.startInput, BufPool.initialised, different]
    have name : (pool.block block).page = some page := by
      simp [value, BufPool.startInput, BufPool.initialised, PoolBlock.initLow]
    refine ⟨.resident, by simp, ?_, kept, by simp [notRefused], fun _ => name⟩
    subst value
    refine placed.lists.enter held absent rfl ?_ rfl name kept
    unfold BufPool.startInput
    dsimp only
    split
    · exact List.Perm.refl _
    · exact lruBlocks_insert position

end InitForRead

/-! ## Runs -/

/-- A block with an RW flag is handed to `buf_page_init_for_read` only for a page that is
absent and whose tablespace is there. -/
def Calm (threads : Threads Block Zip Index Thread) (event : Event Block Zip Index Thread) : Prop :=
  ∀ thread compressed position, event = .initForRead thread compressed position →
    ∀ page block, threads.hand thread = .reading page block →
      Flagged (threads.pool.block block) → ¬ Refused threads page

def Step (allowed : Threads Block Zip Index Thread → Event Block Zip Index Thread → Prop)
    (threads after : Threads Block Zip Index Thread) : Prop :=
  EventStep Threads.step allowed threads after

section Runs

variable {threads after start final : Threads Block Zip Index Thread}
variable {place : Block → Place Thread} {event : Event Block Zip Index Thread}

omit [DecidableEq Thread] in
/-- A move of one block to a place that is not `lost` loses no block. -/
theorem lost_of_update {block other : Block} {goal : Place Thread} (found : goal ≠ .lost)
    (lost : update place block goal other = .lost) : place other = .lost := by
  by_cases same : other = block
  · rw [same, update_self] at lost
    exact absurd lost found
  · rwa [update_of_ne same] at lost

omit [DecidableEq Index] in
theorem Placed.exchange (placed : Placed threads place)
    (taken : threads.exchange event = some after) :
    ∃ place', Placed after place' ∧
      (Calm threads event → ∀ block, place' block = .lost → place block = .lost) := by
  unfold Threads.exchange at taken
  split at taken
  next thread page =>
    split at taken
    next block rest empty free =>
      cases taken
      obtain ⟨inFree, lists, state, others⟩ := placed.lists.getFreeOnly free thread
      exact ⟨_, placed.get others empty (by simp [inFree]) lists state page,
        fun _ _ => lost_of_update nofun⟩
    · cases taken
  next thread page block =>
    split at taken
    next ready =>
      split at taken
      next removed removedEq =>
        cases taken
        obtain ⟨resident, lists, state, others⟩ :=
          placed.lists.removedForRwCmd removedEq thread
        exact ⟨_, placed.get others ready.1 (by simp [resident]) lists state page,
          fun _ _ => lost_of_update nofun⟩
      · cases taken
    · cases taken
  next thread compressed position =>
    split at taken
    next page block hand =>
      split at taken
      next entered enteredEq =>
        cases taken
        obtain ⟨goal, notGiven, lists, others, lost, _⟩ :=
          initForRead_place placed hand enteredEq
        refine ⟨_, placed.give others (by rw [hand]; rfl) notGiven lists, ?_⟩
        intro calm other
        refine lost_of_update fun gone => ?_
        obtain ⟨flagged, refused⟩ := lost.1 gone
        exact calm thread compressed position rfl page block hand flagged refused
      · cases taken
    · cases taken
  next thread =>
    split at taken
    next page block hand =>
      cases taken
      exact ⟨place, placed.toMemory hand, fun _ _ lost => lost⟩
    · cases taken
  next thread =>
    split at taken
    next block hand =>
      obtain ⟨freed, freedEq, lists, others⟩ := placed.lists.freeNonFilePage
        (placed.held_block hand rfl) (.inl (placed.memory thread block hand))
      rw [freedEq] at taken
      cases taken
      refine ⟨_, placed.give others (by rw [hand]; rfl) ?_ lists,
        fun _ _ => lost_of_update nofun⟩
      nofun
    · cases taken
  · cases taken

private theorem state_of_marked {value marked : BufBlock}
    (selected : value.flushPageWithRwCmd = some marked) : marked.state = value.state := by
  unfold BufBlock.flushPageWithRwCmd at selected
  split at selected
  · split at selected
    · cases selected
      rfl
    · cases selected
  · cases selected

/-- Every event leaves each block at one place, and a calm one loses none. -/
theorem Placed.step (placed : Placed threads place) (taken : threads.step event = some after) :
    ∃ place', Placed after place' ∧
      (Calm threads event → ∀ block, place' block = .lost → place block = .lost) := by
  unfold Threads.step at taken
  split at taken
  next block =>
    split at taken
    · split at taken
      next marked markedEq =>
        cases taken
        exact ⟨place, placed.modify rfl (state_of_marked markedEq), fun _ _ lost => lost⟩
      · cases taken
    · cases taken
  next block image contents =>
    split at taken
    · cases taken
      exact ⟨place, placed.modify rfl rfl, fun _ _ lost => lost⟩
    · cases taken
  next block =>
    split at taken
    · cases taken
      exact ⟨place, placed.modify rfl rfl, fun _ _ lost => lost⟩
    · cases taken
  next block =>
    split at taken
    · split at taken
      next freed freedEq =>
        cases taken
        obtain ⟨resident, lists, others⟩ := placed.lists.readPageHandleError freedEq
        exact ⟨_, placed.setPool lists (by simp [resident]) nofun others,
          fun _ _ => lost_of_update nofun⟩
      · cases taken
    · cases taken
  next block zip =>
    split at taken
    next freed freedEq =>
      cases taken
      obtain ⟨resident, lists, others⟩ := placed.lists.freePage freedEq
      exact ⟨_, placed.setPool lists (by simp [resident]) nofun others,
        fun _ _ => lost_of_update nofun⟩
    · cases taken
  next block value =>
    dsimp only at taken
    split at taken
    next used =>
      cases taken
      exact ⟨place, placed.modify used.2.2 (used.2.1.trans used.1.symm),
        fun _ _ lost => lost⟩
    · cases taken
  next space =>
    cases taken
    exact ⟨place, ⟨placed.lists, placed.held, placed.reading, placed.memory⟩,
      fun _ _ lost => lost⟩
  · exact placed.exchange taken

theorem Placed.run (placed : Placed start place)
    (run : ReflTransGen (Step fun _ _ => True) start final) :
    ∃ place', Placed final place' :=
  run_invariant (fun threads => ∃ place', Placed threads place') ⟨place, placed⟩
    (fun _ _ ⟨_, before⟩ ⟨_, _, taken⟩ =>
      let ⟨place', after, _⟩ := before.step taken
      ⟨place', after⟩) run

theorem Placed.calmRun (placed : Placed start place) (whole : ∀ block, place block ≠ .lost)
    (run : ReflTransGen (Step Calm) start final) :
    ∃ place', Placed final place' ∧ ∀ block, place' block ≠ .lost :=
  run_invariant
    (fun threads => ∃ place', Placed threads place' ∧ ∀ block, place' block ≠ .lost)
    ⟨place, placed, whole⟩
    (fun _ _ ⟨_, before, intact⟩ ⟨_, calm, taken⟩ =>
      let ⟨place', after, kept⟩ := before.step taken
      ⟨place', after, fun block lost => intact block (kept calm block lost)⟩) run

/-- What `buf_page_init_for_read` did with the block of its thread. -/
theorem kept_iff (placed : Placed threads place) {thread : Thread} {page : PageId}
    {block : Block} {compressed : Option (Nat × Zip)} {position : Nat}
    (hand : threads.hand thread = .reading page block)
    (taken : threads.step (.initForRead thread compressed position) = some after) :
    Kept after page block ↔
      ¬ (Flagged (threads.pool.block block) ∧ Refused threads page) := by
  have taken : threads.exchange (.initForRead thread compressed position) = some after := taken
  unfold Threads.exchange at taken
  simp only [hand] at taken
  split at taken
  next entered enteredEq =>
    cases taken
    obtain ⟨goal, notGiven, lists, others, lost, named⟩ :=
      initForRead_place placed hand enteredEq
    have free := lists.free block
    have resident := lists.resident block
    have hashed := lists.hashed page block
    rw [update_self] at free resident hashed
    rw [← lost]
    change (.block block ∈ entered.lru ∧ entered.pageHash page = some (.page (.block block))) ∨
      block ∈ entered.free ↔ _
    rw [← mem_lruBlocks, free, resident, hashed]
    cases goal with
    | free => simp
    | resident => simp [named rfl]
    | held other => exact absurd rfl (notGiven other)
    | lost => simp
  · cases taken

/-- In every run from a pool with each block at one place, `buf_page_init_for_read` keeps
the block that it was handed exactly if the block has no RW flag, or the page is absent and
its tablespace is there; and if this is so at each of its calls, then every block is on the
free list, in the LRU list, or in the hand of a thread. -/
theorem blocks_kept (placed : Placed start place) (whole : ∀ block, place block ≠ .lost) :
    (∀ final thread page block compressed position after,
      Relation.ReflTransGen (Step fun _ _ => True) start final →
      final.hand thread = .reading page block →
      final.step (.initForRead thread compressed position) = some after →
      (Kept after page block ↔
        ¬ (Flagged (final.pool.block block) ∧ Refused final page))) ∧
    (∀ final block, Relation.ReflTransGen (Step Calm) start final →
      block ∈ final.pool.free ∨ .block block ∈ final.pool.lru ∨
        ∃ thread, (final.hand thread).block = some block) := by
  constructor
  · intro final thread page block compressed position after run hand taken
    obtain ⟨_, reached⟩ := placed.run run
    exact kept_iff reached hand taken
  · intro final block run
    obtain ⟨place', reached, intact⟩ := placed.calmRun whole run
    rw [← mem_lruBlocks, reached.lists.free, reached.lists.resident]
    cases found : place' block with
    | free => exact .inl rfl
    | resident => exact .inr (.inl rfl)
    | held thread => exact .inr (.inr ⟨thread, (reached.held thread block).2 found⟩)
    | lost => exact absurd found (intact block)

end Runs

/-- A pool of two blocks and an empty free list: the first block holds a dirty page and the
second a clean one. -/
def twoPages : Threads Bool Unit Unit Bool where
  pool :=
    { block := fun second =>
        { state := .filePage
          bufFixCount := 0
          ioFix := .none
          oldestModification := if second then 0 else 5
          targetRwCmd := false
          useRwCmd := false
          modifyClock := 0
          lock := ⟨0, false⟩
          frame := ⟨⟨51, if second then 11 else 9⟩, 5⟩
          page := some ⟨51, if second then 11 else 9⟩
          contents := ⟨.index, []⟩
          zip := none
          zipSize := 0
          index := none
          accessTime := 1
          newestModification := 5 }
      zipPage := fun _ => ⟨none, ⟨.other, []⟩, 0⟩
      free := []
      lru := [.block true, .block false]
      unzipLru := []
      flushList := [.block false]
      pageHash := fun page =>
        if page = ⟨51, 9⟩ then some (.page (.block false))
        else if page = ⟨51, 11⟩ then some (.page (.block true))
        else none
      buddyFree := []
      hashIndex := []
      refCount := fun _ => 0
      freedPageClock := 0
      flushRbt := false }
  deleted := fun _ => false
  hand := fun _ => .empty

theorem twoPages_placed : Placed twoPages fun _ => .resident where
  lists :=
    { free_nodup := by decide
      lru_nodup := by decide
      free := by decide
      resident := by decide
      hashed := by
        intro page block
        simp only [twoPages]
        cases block with
        | false =>
          by_cases first : page = ⟨51, 9⟩
          · simp [first]
          · by_cases second : page = ⟨51, 11⟩
            · simp [second]
            · simp [first, second, eq_comm]
        | true =>
          by_cases first : page = ⟨51, 9⟩
          · simp [first]
          · by_cases second : page = ⟨51, 11⟩
            · simp [second]
            · simp [first, second, eq_comm] }
  held := by decide
  reading := nofun
  memory := nofun

/-- A thread replaces the dirty page by the one that its RW command has read. -/
theorem blocks_kept_undisturbed : ∃ middle after : Threads Bool Unit Unit Bool,
    Fallible.runEvents Threads.step
        [.markVictim false, .rwComplete false ⟨⟨51, 10⟩, 3⟩ ⟨.index, []⟩,
          .takeVictim false ⟨51, 10⟩ false] twoPages = some middle ∧
      Flagged (middle.pool.block false) ∧
      middle.step (.initForRead false none 0) = some after ∧ Kept after ⟨51, 10⟩ false ∧
      ∀ block, block ∈ after.pool.free ∨ .block block ∈ after.pool.lru ∨
        ∃ thread, (after.hand thread).block = some block := by
  obtain ⟨middle, after, taken, hand, flagged, accepted, entered⟩ :
      ∃ middle after : Threads Bool Unit Unit Bool,
        runEvents Threads.step
          [.markVictim false, .rwComplete false ⟨⟨51, 10⟩, 3⟩ ⟨.index, []⟩,
            .takeVictim false ⟨51, 10⟩ false] twoPages = some middle ∧
        middle.hand false = .reading ⟨51, 10⟩ false ∧ Flagged (middle.pool.block false) ∧
        ¬ Refused middle ⟨51, 10⟩ ∧ middle.step (.initForRead false none 0) = some after :=
    ⟨_, _, rfl, rfl, .inl rfl, by rintro (⟨_, ⟨⟩⟩ | ⟨⟨⟩⟩), rfl⟩
  have kept := blocks_kept twoPages_placed (by simp)
  refine ⟨middle, after, taken, flagged, entered, ?_, ?_⟩
  · refine (kept.1 middle false ⟨51, 10⟩ false none 0 after ?_ hand entered).2 ?_
    · exact reaches_of_runEvents _ (fun _ _ _ => trivial) taken
    · exact fun both => accepted both.2
  · intro block
    refine kept.2 after block (.tail (reaches_of_runEvents _ (by simp [Calm]) taken)
      ⟨.initForRead false none 0, ?_, entered⟩)
    rintro thread compressed position ⟨⟩ page block handed _
    cases hand.symm.trans handed
    exact accepted

/-- Another thread reads the page while the RW command of a thread reads it: the block of
the victim is lost. -/
theorem victim_block_lost : ∃ (place : Bool → Place Bool)
      (start final after : Threads Bool Unit Unit Bool),
    Placed start place ∧ (∀ block, place block ≠ .lost) ∧
      Relation.ReflTransGen (Step fun _ _ => True) start final ∧
      final.hand false = .reading ⟨51, 10⟩ false ∧
      final.step (.initForRead false none 0) = some after ∧
      ¬ Kept after ⟨51, 10⟩ false ∧ ∀ thread, (after.hand thread).block ≠ some false := by
  refine ⟨fun _ => .resident, twoPages, _, _, twoPages_placed, by simp,
    reaches_of_runEvents
      [.markVictim false, .rwComplete false ⟨⟨51, 10⟩, 3⟩ ⟨.index, []⟩,
        .takeVictim false ⟨51, 10⟩ false, .freePage true true, .getFree true ⟨51, 10⟩,
        .initForRead true none 0] (fun _ _ _ => trivial) rfl, rfl, rfl, ?_, ?_⟩
  · unfold Kept
    rintro (⟨listed, _⟩ | free)
    · exact absurd listed (by decide)
    · exact absurd free (by decide)
  · decide

end RwRbuf.Innodb.FreeBlocks
