import RwRbuf.Innodb.FreeBlocks

/-! # The place of each block

The free list, the LRU list with the page hash, and the hands of the threads never share a
block.  So a function gives each block its place, and each operation on the pool moves at
most one block from one place to another.
-/

namespace RwRbuf.Innodb.FreeBlocks

open Function Fallible

inductive Place (Thread : Type)
  | free
  | resident
  | held (thread : Thread)
  | lost
deriving DecidableEq, Repr

def lruBlocks {Block Zip : Type} (lru : List (BufPageRef Block Zip)) : List Block :=
  lru.filterMap fun ref =>
    match ref with
    | .block block => some block
    | .zip _ => none

section LruBlocks

variable {Block Zip : Type} {lru : List (BufPageRef Block Zip)} {block : Block}

theorem mem_lruBlocks : block ∈ lruBlocks lru ↔ .block block ∈ lru := by
  unfold lruBlocks
  rw [List.mem_filterMap]
  constructor
  · rintro ⟨ref, listed, same⟩
    cases ref with
    | block other =>
      cases same
      exact listed
    | zip copy => cases same
  · intro listed
    exact ⟨_, listed, rfl⟩

variable [DecidableEq Block] [DecidableEq Zip]

theorem lruBlocks_erase : lruBlocks (lru.erase (.block block)) = (lruBlocks lru).erase block := by
  induction lru with
  | nil => rfl
  | cons ref rest ih =>
    cases ref with
    | zip copy => simpa [lruBlocks, List.erase_cons] using ih
    | block other =>
      by_cases same : other = block
      · simp [lruBlocks, same]
      · simpa [lruBlocks, List.erase_cons, same] using ih

theorem lruBlocks_replace {copy : Zip} :
    lruBlocks (lru.map fun ref => if ref = .block block then .zip copy else ref) =
      (lruBlocks lru).filter fun other => other != block := by
  induction lru with
  | nil => rfl
  | cons ref rest ih =>
    cases ref with
    | zip other => simpa [lruBlocks] using ih
    | block other =>
      by_cases same : other = block <;> simpa [lruBlocks, same] using ih

omit [DecidableEq Block] [DecidableEq Zip] in
theorem lruBlocks_insert (position : Nat) :
    (lruBlocks (lru.take position ++ .block block :: lru.drop position)).Perm
      (block :: lruBlocks lru) := by
  have split : lruBlocks lru = lruBlocks (lru.take position) ++ lruBlocks (lru.drop position) := by
    unfold lruBlocks
    rw [← List.filterMap_append, List.take_append_drop]
  rw [split]
  unfold lruBlocks
  rw [List.filterMap_append]
  exact List.perm_middle

end LruBlocks

variable {Block Zip Index Thread : Type}
variable [DecidableEq Block] [DecidableEq Zip] [DecidableEq Index] [DecidableEq Thread]

/-- The lists and the page hash of a pool have each block at its place. -/
structure Lists (pool : BufPool Block Zip Index) (place : Block → Place Thread) : Prop where
  free_nodup : pool.free.Nodup
  lru_nodup : (lruBlocks pool.lru).Nodup
  free : ∀ block, block ∈ pool.free ↔ place block = .free
  resident : ∀ block, block ∈ lruBlocks pool.lru ↔ place block = .resident
  hashed : ∀ page block, pool.pageHash page = some (.page (.block block)) ↔
    place block = .resident ∧ (pool.block block).page = some page

namespace Lists

variable {pool after : BufPool Block Zip Index} {place : Block → Place Thread} {block : Block}

section

variable (lists : Lists pool place)
include lists

omit [DecidableEq Zip] [DecidableEq Index] [DecidableEq Thread] in
theorem modify {change : PoolBlock Zip Index → PoolBlock Zip Index}
    (named : (change (pool.block block)).page = (pool.block block).page) :
    Lists (pool.modify block change) place := by
  refine ⟨lists.free_nodup, lists.lru_nodup, lists.free, lists.resident, ?_⟩
  intro page other
  have same : ((pool.modify block change).block other).page = (pool.block other).page := by
    by_cases this : other = block
    · rw [this]
      simpa [BufPool.modify] using named
    · simp [BufPool.modify, this]
  rw [same]
  exact lists.hashed page other

omit [DecidableEq Zip] [DecidableEq Index] [DecidableEq Thread] in
theorem getFreeOnly {rest : BufPool Block Zip Index}
    (taken : pool.lruGetFreeOnly = some (block, rest)) (thread : Thread) :
    place block = .free ∧ Lists rest (update place block (.held thread)) ∧
      (rest.block block).state = .readyForUse ∧
      ∀ other, other ≠ block → rest.block other = pool.block other := by
  unfold BufPool.lruGetFreeOnly at taken
  split at taken
  · cases taken
  next first tail free =>
    cases taken
    have nodup := lists.free_nodup
    rw [free] at nodup
    have inFree : place block = .free := (lists.free block).1 (by simp [free])
    refine ⟨inFree, ⟨(List.nodup_cons.1 nodup).2, lists.lru_nodup, ?_, ?_, ?_⟩, ?_, ?_⟩
    · intro other
      by_cases same : other = block
      · subst same
        simpa [BufPool.modify] using (List.nodup_cons.1 nodup).1
      · rw [update_of_ne same, ← lists.free other, free]
        simp [BufPool.modify, same]
    · intro other
      by_cases same : other = block
      · subst same
        simp [BufPool.modify, lists.resident, inFree]
      · rw [update_of_ne same, ← lists.resident other]
        rfl
    · intro page other
      by_cases same : other = block
      · subst same
        simp [BufPool.modify, lists.hashed, inFree]
      · rw [update_of_ne same]
        simpa [BufPool.modify, same] using lists.hashed page other
    · simp [BufPool.modify, BufBlock.lruGetFreeOnly]
    · intro other different
      simp [BufPool.modify, different]

omit [DecidableEq Zip] [DecidableEq Index] in
/-- A resident block leaves the LRU list and the page hash for another place. -/
theorem leave (goal : Place Thread) {page : PageId} (named : (pool.block block).page = some page)
    (hashed : pool.pageHash page = some (.page (.block block))) (notResident : goal ≠ .resident)
    (free : after.free = if goal = .free then block :: pool.free else pool.free)
    (lru : lruBlocks after.lru = (lruBlocks pool.lru).erase block)
    (pageHash : ∀ other found, after.pageHash other = some (.page (.block found)) ↔
      other ≠ page ∧ pool.pageHash other = some (.page (.block found)))
    (others : ∀ other, other ≠ block → after.block other = pool.block other) :
    place block = .resident ∧ Lists after (update place block goal) := by
  have resident : place block = .resident := ((lists.hashed page block).1 hashed).1
  refine ⟨resident, ?_, ?_, ?_, ?_, ?_⟩
  · rw [free]
    split
    · refine List.nodup_cons.2 ⟨?_, lists.free_nodup⟩
      rw [lists.free, resident]
      nofun
    · exact lists.free_nodup
  · rw [lru]
    exact lists.lru_nodup.erase block
  · intro other
    rw [free]
    by_cases same : other = block
    · subst same
      rw [update_self]
      split
      next freed => simp [freed]
      next kept => simp [kept, lists.free, resident]
    · rw [update_of_ne same, ← lists.free other]
      split
      · simp [same]
      · rfl
  · intro other
    rw [lru, lists.lru_nodup.mem_erase_iff]
    by_cases same : other = block
    · subst same
      simp [notResident]
    · simp [same, lists.resident]
  · intro other found
    rw [pageHash other found, lists.hashed other found]
    by_cases same : found = block
    · subst same
      rw [update_self]
      constructor
      · rintro ⟨different, _, name⟩
        exact absurd (Option.some.inj (name.symm.trans named)) different
      · rintro ⟨impossible, _⟩
        exact absurd impossible notResident
    · rw [update_of_ne same, others found same]
      constructor
      · exact fun facts => facts.2
      · rintro ⟨there, name⟩
        refine ⟨?_, there, name⟩
        rintro rfl
        have other := (lists.hashed other found).2 ⟨there, name⟩
        rw [hashed] at other
        cases other
        exact same rfl

omit [DecidableEq Index] in
theorem removedForRwCmd
    (removed : pool.lruBlockRemoveHashedForRwCmd block false = .ok after) (thread : Thread) :
    place block = .resident ∧ Lists after (update place block (.held thread)) ∧
      (after.block block).state = .readyForUse ∧
      ∀ other, other ≠ block → after.block other = pool.block other := by
  obtain ⟨page, out⟩ := BufPool.removed_of_removeHashedWith PoolBlock.unhashForRwCmd removed
  obtain ⟨_, _, _, value, _⟩ := out.value
  have others : ∀ other, other ≠ block → after.block other = pool.block other := by
    intro other different
    rw [out.others other different]
    simp [BufPool.modify, different]
  have left := lists.leave (.held thread) (by simpa [BufPool.modify] using out.named) out.hashed
    (by intro same; cases same) (by simpa [BufPool.modify] using out.free)
    (by rw [out.lru, lruBlocks_erase]; rfl)
    (by
      intro other found
      rw [out.pageHash]
      by_cases same : other = page
      · simp [same]
      · simp [same, BufPool.modify]) others
  exact ⟨left.1, left.2, by rw [value]; rfl, others⟩

omit [DecidableEq Zip] [DecidableEq Index] [DecidableEq Thread] in
theorem freeNonFilePage {thread : Thread} (held : place block = .held thread)
    (ready : (pool.block block).state = .memory ∨ (pool.block block).state = .readyForUse) :
    ∃ freed, pool.lruBlockFreeNonFilePage block = .ok freed ∧
      Lists freed (update place block .free) ∧
      ∀ other, other ≠ block → freed.block other = pool.block other := by
  obtain ⟨released, copy, size, freedEq⟩ := BufPool.lruBlockFreeNonFilePage_eq ready
  refine ⟨_, freedEq, ⟨?_, lists.lru_nodup, ?_, ?_, ?_⟩, ?_⟩
  · refine List.nodup_cons.2 ⟨?_, lists.free_nodup⟩
    rw [lists.free, held]
    nofun
  · intro other
    by_cases same : other = block
    · subst same
      simp
    · simp [same, lists.free]
  · intro other
    by_cases same : other = block
    · subst same
      simp [lists.resident, held]
    · simp [same, lists.resident]
  · intro page other
    by_cases same : other = block
    · subst same
      simp [lists.hashed, held]
    · simpa [same] using lists.hashed page other
  · intro other different
    simp [different]

omit [DecidableEq Zip] [DecidableEq Index] [DecidableEq Thread] in
theorem enter {thread : Thread} {page : PageId} (held : place block = .held thread)
    (absent : ∀ ref, pool.pageHash page ≠ some (.page ref)) (free : after.free = pool.free)
    (lru : (lruBlocks after.lru).Perm (block :: lruBlocks pool.lru))
    (pageHash : after.pageHash = update pool.pageHash page (some (.page (.block block))))
    (named : (after.block block).page = some page)
    (others : ∀ other, other ≠ block → after.block other = pool.block other) :
    Lists after (update place block .resident) := by
  refine ⟨?_, ?_, ?_, ?_, ?_⟩
  · rw [free]
    exact lists.free_nodup
  · refine lru.nodup_iff.2 (List.nodup_cons.2 ⟨?_, lists.lru_nodup⟩)
    rw [lists.resident, held]
    nofun
  · intro other
    rw [free]
    by_cases same : other = block
    · subst same
      simp [lists.free, held]
    · simp [same, lists.free]
  · intro other
    rw [lru.mem_iff]
    by_cases same : other = block
    · subst same
      simp
    · simp [same, lists.resident]
  · intro other found
    rw [pageHash]
    by_cases same : found = block
    · subst same
      rw [update_self, named]
      by_cases this : other = page
      · simp [this]
      · rw [update_of_ne this]
        constructor
        · intro earlier
          have resident := ((lists.hashed other found).1 earlier).1
          rw [held] at resident
          cases resident
        · rintro ⟨_, name⟩
          exact absurd (Option.some.inj name).symm this
    · rw [update_of_ne same, others found same]
      by_cases this : other = page
      · subst this
        rw [update_self, ← lists.hashed other found]
        constructor
        · intro impossible
          cases impossible
          exact absurd rfl same
        · intro impossible
          exact absurd impossible (absent _)
      · rw [update_of_ne this]
        exact lists.hashed other found

omit [DecidableEq Zip] [DecidableEq Index] in
/-- The block of a page that has been taken out goes to the free list. -/
theorem freeHashedPage {page : PageId}
    {removed : BufPool Block Zip Index} (named : (pool.block block).page = some page)
    (hashed : pool.pageHash page = some (.page (.block block))) (free : removed.free = pool.free)
    (lru : lruBlocks removed.lru = (lruBlocks pool.lru).erase block)
    (pageHash : ∀ other found, removed.pageHash other = some (.page (.block found)) ↔
      other ≠ page ∧ pool.pageHash other = some (.page (.block found)))
    (others : ∀ other, other ≠ block → removed.block other = pool.block other)
    (freed : removed.lruBlockFreeHashedPage block = .ok after) :
    place block = .resident ∧ Lists after (update place block .free) ∧
      ∀ other, other ≠ block → after.block other = pool.block other := by
  obtain ⟨freedFree, freedLru, freedHash, _, freedOthers⟩ :=
    BufPool.lruBlockFreeHashedPage_ok freed
  have kept : ∀ other, other ≠ block → after.block other = pool.block other :=
    fun other different => (freedOthers other different).trans (others other different)
  obtain ⟨resident, placed⟩ := lists.leave .free named hashed nofun
    (by rw [if_pos rfl, freedFree, free]) (by rw [freedLru, lru])
    (by rw [freedHash]; exact pageHash) kept
  exact ⟨resident, placed, kept⟩

end

omit [DecidableEq Block] [DecidableEq Zip] [DecidableEq Index] in
theorem pageHash_removed {removed : BufPool Block Zip Index} {page : PageId}
    (pageHash : removed.pageHash = update pool.pageHash page none) (other : PageId)
    (found : Block) : removed.pageHash other = some (.page (.block found)) ↔
      other ≠ page ∧ pool.pageHash other = some (.page (.block found)) := by
  rw [pageHash]
  by_cases same : other = page <;> simp [same]

omit [DecidableEq Index] [DecidableEq Thread] in
/-- The compressed copy takes the place of its block in the LRU list and the page hash, or
it goes too. -/
theorem keepZip (lists : Lists pool place) {removed : BufPool Block Zip Index} {page : PageId}
    (named : (pool.block block).page = some page)
    (lru : lruBlocks removed.lru = (lruBlocks pool.lru).erase block)
    (pageHash : removed.pageHash = update pool.pageHash page none) (zip : Bool) :
    lruBlocks (pool.keepZip removed block zip).lru = (lruBlocks pool.lru).erase block ∧
      ∀ other found, (pool.keepZip removed block zip).pageHash other =
          some (.page (.block found)) ↔
        other ≠ page ∧ pool.pageHash other = some (.page (.block found)) := by
  unfold BufPool.keepZip
  split
  next copy name hasZip hasName =>
    cases hasName.symm.trans named
    constructor
    · rw [lists.lru_nodup.erase_eq_filter]
      exact lruBlocks_replace
    · intro other found
      rw [BufPool.reinsertZip, pageHash]
      by_cases same : other = page <;> simp [same]
  · exact ⟨lru, pageHash_removed pageHash⟩

/-- `buf_LRU_free_page` puts the block of a resident page on the free list, whether or not
its compressed copy stays. -/
theorem freePage (lists : Lists pool place) {zip : Bool}
    (freed : pool.lruFreePage block zip = .ok (some after)) :
    place block = .resident ∧ Lists after (update place block .free) ∧
      ∀ other, other ≠ block → after.block other = pool.block other := by
  unfold BufPool.lruFreePage at freed
  split at freed
  · obtain ⟨removed, removedEq, freed⟩ := bind_eq_ok.1 freed
    obtain ⟨dropped, droppedEq, freed⟩ := bind_eq_ok.1 freed
    obtain ⟨listed, listedEq, freed⟩ := bind_eq_ok.1 freed
    cases freed
    obtain ⟨page, out⟩ := BufPool.removed_of_removeHashedWith PoolBlock.unhash removedEq
    obtain ⟨keptLru, keptHash⟩ := lists.keepZip out.named
      (by rw [out.lru, lruBlocks_erase]) out.pageHash zip
    obtain ⟨keptFree, _, _, keptOthers⟩ := BufPool.keepZip_fields pool removed block zip
    obtain ⟨droppedFree, droppedLru, droppedHash, droppedOthers⟩ :=
      BufPool.searchDropPageHashIndex_lists droppedEq
    refine lists.freeHashedPage out.named out.hashed ?_ ?_ ?_ ?_ listedEq
    · rw [droppedFree, keptFree, out.free]
    · rw [droppedLru, keptLru]
    · rw [droppedHash]
      exact keptHash
    · intro other different
      rw [droppedOthers other different, keptOthers other different, out.others other different]
  · cases freed

omit [DecidableEq Index] in
theorem readPageHandleError (lists : Lists pool place)
    (handled : pool.readPageHandleError block = .ok after) :
    place block = .resident ∧ Lists after (update place block .free) ∧
      ∀ other, other ≠ block → after.block other = pool.block other := by
  obtain ⟨removed, removedEq, handled⟩ := bind_eq_ok.1 handled
  obtain ⟨freed, freedEq, handled⟩ := bind_eq_ok.1 handled
  cases handled
  obtain ⟨page, out⟩ := BufPool.removed_of_removeHashedWith PoolBlock.unhash removedEq
  obtain ⟨resident, placed, others⟩ := lists.freeHashedPage
    (by simpa [BufPool.modify] using out.named) out.hashed out.free
    (by rw [out.lru, lruBlocks_erase]; rfl) (pageHash_removed out.pageHash)
    (by
      intro other different
      rw [out.others other different]
      simp [BufPool.modify, different]) freedEq
  refine ⟨resident, placed.modify rfl, ?_⟩
  intro other different
  simp [BufPool.modify, different, others]

end Lists

/-- The pool and the hands of the threads have each block at its place, and a block in a
hand is in the state that `buf_LRU_get_free_block` left it in. -/
structure Placed (threads : Threads Block Zip Index Thread) (place : Block → Place Thread) :
    Prop where
  lists : Lists threads.pool place
  held : ∀ thread block, (threads.hand thread).block = some block ↔ place block = .held thread
  reading : ∀ thread page block, threads.hand thread = .reading page block →
    (threads.pool.block block).state = .readyForUse
  memory : ∀ thread block, threads.hand thread = .memory block →
    (threads.pool.block block).state = .memory

namespace Placed

variable {threads : Threads Block Zip Index Thread} {place : Block → Place Thread}
variable {thread : Thread} {block : Block} {pool : BufPool Block Zip Index}

section

variable (placed : Placed threads place)
include placed

omit [DecidableEq Block] [DecidableEq Zip] [DecidableEq Index] [DecidableEq Thread] in
theorem held_block {held : Hand Block}
    (hand : threads.hand thread = held) {own : Block} (owns : held.block = some own) :
    place own = .held thread := by
  rw [← placed.held, hand, owns]

omit [DecidableEq Zip] [DecidableEq Index] [DecidableEq Thread] in
/-- A block that no thread holds changes or moves, and no thread gets it. -/
theorem setPool {goal : Place Thread} (lists : Lists pool (update place block goal))
    (notHeld : ∀ other, place block ≠ .held other) (notGiven : ∀ other, goal ≠ .held other)
    (others : ∀ other, other ≠ block → pool.block other = threads.pool.block other) :
    Placed (threads.setPool pool) (update place block goal) := by
  have different : ∀ {other own}, (threads.hand other).block = some own → own ≠ block := by
    rintro other own owns rfl
    exact notHeld other ((placed.held other own).1 owns)
  refine ⟨lists, ?_, ?_, ?_⟩
  · intro other own
    by_cases same : own = block
    · subst same
      rw [update_self]
      constructor
      · intro owns
        exact absurd rfl (different owns)
      · intro given
        exact absurd given (notGiven other)
    · rw [update_of_ne same]
      exact placed.held other own
  · intro other page own hand
    rw [Threads.setPool,
      others own (different (by rw [show threads.hand other = _ from hand]; rfl))]
    exact placed.reading other page own hand
  · intro other own hand
    rw [Threads.setPool,
      others own (different (by rw [show threads.hand other = _ from hand]; rfl))]
    exact placed.memory other own hand

section SetHand

variable {goal : Place Thread}
  (others : ∀ other, other ≠ block → pool.block other = threads.pool.block other)
include others

omit [DecidableEq Zip] [DecidableEq Index] in
/-- A block that no other thread holds changes or moves, and the hand of the thread with it. -/
theorem setHand {hand : Hand Block} (lists : Lists pool (update place block goal))
    (notHeld : ∀ other, other ≠ thread → place block ≠ .held other ∧ goal ≠ .held other)
    (holds : ∀ own, hand.block = some own ↔ update place block goal own = .held thread)
    (reading : ∀ page own, hand = .reading page own → (pool.block own).state = .readyForUse)
    (memory : ∀ own, hand = .memory own → (pool.block own).state = .memory) :
    Placed ((threads.setPool pool).setHand thread hand) (update place block goal) := by
  have kept : ∀ {other own}, other ≠ thread → (threads.hand other).block = some own →
      pool.block own = threads.pool.block own := by
    intro other own self owns
    apply others
    rintro rfl
    exact (notHeld other self).1 ((placed.held other own).1 owns)
  refine ⟨lists, ?_, ?_, ?_⟩ <;> intro other
  · intro own
    simp only [Threads.setHand, Threads.setPool]
    by_cases self : other = thread
    · rw [self, update_self]
      exact holds own
    · rw [update_of_ne self, placed.held other own]
      by_cases same : own = block
      · simp [same, notHeld other self]
      · rw [update_of_ne same]
  · intro name own held
    simp only [Threads.setHand, Threads.setPool] at held ⊢
    by_cases self : other = thread
    · rw [self, update_self] at held
      exact reading name own held
    · rw [update_of_ne self] at held
      rw [kept self (by rw [held]; rfl)]
      exact placed.reading other name own held
  · intro own held
    simp only [Threads.setHand, Threads.setPool] at held ⊢
    by_cases self : other = thread
    · rw [self, update_self] at held
      exact memory own held
    · rw [update_of_ne self] at held
      rw [kept self (by rw [held]; rfl)]
      exact placed.memory other own held

omit [DecidableEq Zip] [DecidableEq Index] in
/-- A thread with an empty hand gets a block that no thread holds. -/
theorem get (empty : threads.hand thread = .empty) (notHeld : ∀ other, place block ≠ .held other)
    (lists : Lists pool (update place block (.held thread)))
    (state : (pool.block block).state = .readyForUse) (page : PageId) :
    Placed ((threads.setPool pool).setHand thread (.reading page block))
      (update place block (.held thread)) := by
  refine placed.setHand others lists ?_ ?_ ?_ (by simp)
  · intro other self
    simp [notHeld, Ne.symm self]
  · intro own
    by_cases same : own = block
    · simp [same, Hand.block]
    · rw [update_of_ne same, ← placed.held thread own, empty]
      simp [Hand.block, Ne.symm same]
  · rintro _ _ ⟨⟩
    exact state

omit [DecidableEq Zip] [DecidableEq Index] in
theorem give (held : (threads.hand thread).block = some block)
    (notGiven : ∀ other, goal ≠ .held other) (lists : Lists pool (update place block goal)) :
    Placed ((threads.setPool pool).setHand thread .empty) (update place block goal) := by
  refine placed.setHand others lists ?_ ?_ (by simp) (by simp)
  · intro other self
    simp [(placed.held thread block).1 held, notGiven, Ne.symm self]
  · intro own
    by_cases same : own = block
    · simp [same, Hand.block, notGiven]
    · rw [update_of_ne same, ← placed.held thread own, held]
      simp [Hand.block, Ne.symm same]

end SetHand

omit [DecidableEq Zip] [DecidableEq Index] [DecidableEq Thread] in
theorem modify {change : PoolBlock Zip Index → PoolBlock Zip Index}
    (named : (change (threads.pool.block block)).page = (threads.pool.block block).page)
    (state : (change (threads.pool.block block)).state = (threads.pool.block block).state) :
    Placed (threads.setPool (threads.pool.modify block change)) place := by
  have same : ∀ other, ((threads.pool.modify block change).block other).state =
      (threads.pool.block other).state := by
    intro other
    by_cases this : other = block
    · rw [this]
      simpa [BufPool.modify] using state
    · simp [BufPool.modify, this]
  refine ⟨placed.lists.modify named, placed.held, ?_, ?_⟩
  · intro other page own hand
    exact (same own).trans (placed.reading other page own hand)
  · intro other own hand
    exact (same own).trans (placed.memory other own hand)

omit [DecidableEq Zip] [DecidableEq Index] in
theorem toMemory {page : PageId} (hand : threads.hand thread = .reading page block) :
    Placed ((threads.setPool (threads.pool.modify block fun value =>
      { value with state := .memory })).setHand thread (.memory block)) place := by
  have owner : place block = .held thread := placed.held_block hand rfl
  have here : update place block (.held thread) = place := update_eq_self_iff.2 owner.symm
  rw [← here]
  refine placed.setHand ?_ ?_ ?_ ?_ (by simp) ?_
  · intro other different
    simp [BufPool.modify, different]
  · rw [here]
    apply placed.lists.modify
    rfl
  · intro other self
    simp [owner, Ne.symm self]
  · intro own
    rw [here, ← placed.held thread own, hand]
    rfl
  · rintro _ ⟨⟩
    simp [BufPool.modify]

end

end Placed

end RwRbuf.Innodb.FreeBlocks
