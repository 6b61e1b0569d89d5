import RwRbuf.Innodb.BufPool

/-! # Where the blocks of the pool are

Any number of threads get blocks from `buf_LRU_get_free_block`: from the free list, or
from the victim of an RW command.  A thread that reads a page hands its block to
`buf_page_init_for_read`, which puts it into the LRU list and the page hash, or finds
that another thread was faster or that the tablespace is gone.  Other threads use, flush
and free the pages of the pool and drop tablespaces in between.

A block is on the free list, resident, or in the hand of one thread; otherwise it is lost.
-/

namespace RwRbuf.Innodb

open Function

namespace BufPool

variable {Block Zip Index : Type} [DecidableEq Block] [DecidableEq Zip] [DecidableEq Index]
variable (pool : BufPool Block Zip Index)

/-- The error exit of `buf_page_init_for_read`: a block with an RW flag is not freed. -/
def initErrExit (block : Block) : Except PoolStop (BufPool Block Zip Index) :=
  if !(pool.block block).useRwCmd && !(pool.block block).targetRwCmd then
    pool.lruBlockFreeNonFilePage block
  else .ok pool

/-- The block of a page that is read: it is fixed for input and latched, it gets the memory
of its compressed copy, and it enters the LRU list at the head if an RW command has read
it, else among the old blocks. -/
def startInput (block : Block) (compressed : Option (Nat × Zip)) (position : Nat) :
    BufPool Block Zip Index :=
  let value := pool.block block
  { pool with
    block := update pool.block block { value with
      ioFix := .read
      lock := { value.lock with writer := true }
      zip := match compressed with
        | some (_, copy) => some copy
        | none => value.zip }
    lru :=
      if value.useRwCmd then .block block :: pool.lru
      else pool.lru.take position ++ .block block :: pool.lru.drop position
    unzipLru := if compressed.isSome then pool.unzipLru ++ [block] else pool.unzipLru }

/-- The section of `buf_page_init_for_read` under the pool mutex, for the block that it was
given; `deleted` are the tablespaces that are deleted or being deleted. -/
def pageInitForRead (deleted : Nat → Bool) (page : PageId) (compressed : Option (Nat × Zip))
    (position : Nat) (block : Block) : Except PoolStop (BufPool Block Zip Index) :=
  match pool.pageHash page with
  | some (.page _) => pool.initErrExit block
  | _ =>
    if deleted page.space then pool.initErrExit block
    else do
      let zipSize := match compressed with
        | some (size, _) => size
        | none => 0
      let entered ← pool.pageInitBlock page zipSize block
      .ok (entered.startInput block compressed position)

/-- `buf_page_hash_get_low` finds the page, and not the sentinel of a watch. -/
def hasPage (page : PageId) : Bool :=
  match pool.pageHash page with
  | some (.page _) => true
  | _ => false

section

variable {pool} {after : BufPool Block Zip Index} {deleted : Nat → Bool} {page : PageId}
  {compressed : Option (Nat × Zip)} {position : Nat} {block : Block}
  (entered : pool.pageInitForRead deleted page compressed position block = .ok after)
include entered

omit [DecidableEq Zip] [DecidableEq Index] in
/-- The block is refused, or it is initialised for the page. -/
theorem pageInitForRead_ok :
    (((∃ ref, pool.pageHash page = some (.page ref)) ∨ deleted page.space = true) ∧
        pool.initErrExit block = .ok after) ∨
      ((∀ ref, pool.pageHash page ≠ some (.page ref)) ∧ deleted page.space = false ∧
        ∃ zipSize, after = (pool.initialised page zipSize block ((pool.block block).useRwCmd &&
          decide ((pool.block block).frame.page = page))).startInput block compressed position) := by
  unfold pageInitForRead at entered
  split at entered
  next ref found => exact .inl ⟨.inl ⟨ref, found⟩, entered⟩
  next absent =>
    split at entered
    next gone => exact .inl ⟨.inr gone, entered⟩
    next present =>
      obtain ⟨initialised, init, entered⟩ := Fallible.bind_eq_ok.1 entered
      cases entered
      exact .inr ⟨absent, Bool.eq_false_iff.2 present, _, by rw [pageInitBlock_ok init]⟩

omit [DecidableEq Zip] [DecidableEq Index] in
/-- What happens to the block in the pool is what happens to the block alone, but that it takes
over the fix count of a watch. -/
theorem pageInitForRead_toBufBlock :
    match (pool.block block).toBufBlock.pageInitForRead page (pool.hasPage page)
        (deleted page.space) with
    | .refused _ freed =>
      if freed then pool.lruBlockFreeNonFilePage block = .ok after else after = pool
    | .inserted value =>
      (after.block block).toBufBlock = { value with bufFixCount := pool.watchCount page } := by
  have found : pool.hasPage page = true ↔ ∃ ref, pool.pageHash page = some (.page ref) := by
    unfold hasPage
    split
    next ref found => simp [found]
    next absent => simpa using absent
  rcases pageInitForRead_ok entered with ⟨refused, exited⟩ | ⟨absent, present, zipSize, rfl⟩
  · have freed : if !(pool.block block).useRwCmd && !(pool.block block).targetRwCmd then
        pool.lruBlockFreeNonFilePage block = .ok after else after = pool := by
      unfold initErrExit at exited
      split_ifs at exited ⊢
      · exact exited
      · exact (Except.ok.inj exited).symm
    rw [← found] at refused
    by_cases inPool : pool.hasPage page = true
    · simp only [BufBlock.pageInitForRead, inPool, if_true]
      exact freed
    · simp only [BufBlock.pageInitForRead, if_neg inPool, refused.resolve_left inPool, if_true]
      exact freed
  · have notFound : pool.hasPage page = false :=
      Bool.eq_false_iff.2 fun inPool => (found.1 inPool).elim absent
    simp only [BufBlock.pageInitForRead, notFound, present, Bool.false_eq_true, if_false]
    cases (pool.block block).useRwCmd <;>
      by_cases read : (pool.block block).frame.page = page <;>
      simp [startInput, initialised, PoolBlock.initLow, BufBlock.pageInit, read]

end

/-- `buf_read_page_handle_error`, and the reset of the RW flag after it. -/
def readPageHandleError (block : Block) : Except PoolStop (BufPool Block Zip Index) := do
  let unlocked := pool.modify block fun value =>
    { value with toBufBlock := value.toBufBlock.readComplete }
  let removed ← unlocked.lruBlockRemoveHashed block true
  let freed ← removed.lruBlockFreeHashedPage block
  .ok (freed.modify block fun value => { value with useRwCmd := false })

end BufPool

namespace FreeBlocks

/-- The block that a thread got from `buf_LRU_get_free_block` and still has: for a page
that it reads, or for memory of its own. -/
inductive Hand (Block : Type)
  | empty
  | reading (page : PageId) (block : Block)
  | memory (block : Block)
deriving DecidableEq, Repr

def Hand.block {Block : Type} : Hand Block → Option Block
  | .empty => none
  | .reading _ block => some block
  | .memory block => some block

structure Threads (Block Zip Index Thread : Type) where
  pool : BufPool Block Zip Index
  /-- The tablespaces that are deleted or being deleted. -/
  deleted : Nat → Bool
  hand : Thread → Hand Block

inductive Event (Block Zip Index Thread : Type)
  /-- `buf_LRU_get_free_block` takes the first block of the free list. -/
  | getFree (thread : Thread) (page : PageId)
  | markVictim (block : Block)
  | rwComplete (block : Block) (image : PageImage) (contents : PageContents)
  /-- `buf_LRU_get_free_block` takes the block of the victim of its RW command. -/
  | takeVictim (thread : Thread) (page : PageId) (block : Block)
  | initForRead (thread : Thread) (compressed : Option (Nat × Zip)) (position : Nat)
  | readComplete (block : Block)
  | readFailed (block : Block)
  | freePage (block : Block) (zip : Bool)
  | allocMemory (thread : Thread)
  | freeMemory (thread : Thread)
  /-- A page is fixed, latched, changed, flushed or indexed. -/
  | use (block : Block) (value : PoolBlock Zip Index)
  | dropTablespace (space : Nat)

namespace Threads

variable {Block Zip Index Thread : Type}
variable [DecidableEq Block] [DecidableEq Zip] [DecidableEq Index] [DecidableEq Thread]
variable (threads : Threads Block Zip Index Thread)

def setPool (pool : BufPool Block Zip Index) : Threads Block Zip Index Thread :=
  { threads with pool := pool }

def setHand (thread : Thread) (hand : Hand Block) : Threads Block Zip Index Thread :=
  { threads with hand := update threads.hand thread hand }

def exchange : Event Block Zip Index Thread → Option (Threads Block Zip Index Thread)
  | .getFree thread page =>
    match threads.hand thread, threads.pool.lruGetFreeOnly with
    | .empty, some (block, rest) =>
      some ((threads.setPool rest).setHand thread (.reading page block))
    | _, _ => none
  | .takeVictim thread page block =>
    if threads.hand thread = .empty ∧ (threads.pool.block block).targetRwCmd = true then
      match threads.pool.lruBlockRemoveHashedForRwCmd block false with
      | .ok removed => some ((threads.setPool removed).setHand thread (.reading page block))
      | .error _ => none
    else none
  | .initForRead thread compressed position =>
    match threads.hand thread with
    | .reading page block =>
      match threads.pool.pageInitForRead threads.deleted page compressed position block with
      | .ok entered => some ((threads.setPool entered).setHand thread .empty)
      | .error _ => none
    | _ => none
  -- the block was for a page, or `buf_block_alloc` asked for it
  | .allocMemory thread =>
    match threads.hand thread with
    | .reading _ block =>
      some ((threads.setPool (threads.pool.modify block fun value =>
        { value with state := .memory })).setHand thread (.memory block))
    | _ => none
  | .freeMemory thread =>
    match threads.hand thread with
    | .memory block =>
      match threads.pool.lruBlockFreeNonFilePage block with
      | .ok freed => some ((threads.setPool freed).setHand thread .empty)
      | .error _ => none
    | _ => none
  | _ => none

/-- One event. -/
def step : Event Block Zip Index Thread → Option (Threads Block Zip Index Thread)
  | .markVictim block =>
    if .block block ∈ threads.pool.lru then
      match (threads.pool.block block).toBufBlock.flushPageWithRwCmd with
      | some marked => some (threads.setPool (threads.pool.modify block fun value =>
        { value with toBufBlock := marked }))
      | none => none
    else none
  | .rwComplete block image contents =>
    if (threads.pool.block block).targetRwCmd = true ∧
        (threads.pool.block block).ioFix = .write then
      some (threads.setPool (threads.pool.modify block fun value =>
        { value with
          toBufBlock := { value.toBufBlock.ioComplete with frame := image }
          contents := contents }))
    else none
  | .readComplete block =>
    if (threads.pool.block block).ioFix = .read then
      some (threads.setPool (threads.pool.modify block fun value =>
        { value with toBufBlock := { value.toBufBlock.readComplete with useRwCmd := false } }))
    else none
  | .readFailed block =>
    if (threads.pool.block block).ioFix = .read then
      match threads.pool.readPageHandleError block with
      | .ok freed => some (threads.setPool freed)
      | .error _ => none
    else none
  | .freePage block zip =>
    match threads.pool.lruFreePage block zip with
    | .ok (some freed) => some (threads.setPool freed)
    | _ => none
  | .use block value =>
    let before := threads.pool.block block
    if before.state = .filePage ∧ value.state = .filePage ∧ value.page = before.page then
      some (threads.setPool (threads.pool.modify block fun _ => value))
    else none
  | .dropTablespace space =>
    some { threads with deleted := update threads.deleted space true }
  | event => threads.exchange event

end Threads

end FreeBlocks
end RwRbuf.Innodb
