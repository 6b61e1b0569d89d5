import Mathlib.Data.List.Basic

/-! # Buffer control blocks

A buffer block of the pool with the fields that the replacement of a page by one RW
command and the functions that give access to a page read or write.  Each function is
one section of the source that runs under the pool mutex, the page hash lock or the
block mutex, or one operation on the block's latch.
-/

namespace RwRbuf.Innodb

structure PageId where
  space : Nat
  offset : Nat
deriving DecidableEq, Repr

/-- What a frame or a place on storage holds: a page after some number of changes. -/
structure PageImage where
  page : PageId
  version : Nat
deriving DecidableEq, Repr

/-- The states of an uncompressed page (`buf_page_state`). -/
inductive BufPageState
  | notUsed
  | readyForUse
  | filePage
  | memory
  | removeHash
deriving DecidableEq, Repr

inductive BufIoFix
  | none
  | read
  | write
deriving DecidableEq, Repr

/-- The latch modes `RW_S_LATCH` and `RW_X_LATCH`. -/
inductive RwLatch
  | s
  | x
deriving DecidableEq, Repr

/-- The latch of a frame: how many shared holders, and whether there is an exclusive one. -/
structure RwLock where
  readers : Nat
  writer : Bool
deriving DecidableEq, Repr

namespace RwLock

/-- `rw_lock_s_lock_nowait` and `rw_lock_x_lock_func_nowait` of a thread that holds no
latch of the frame. -/
def lockNowait (lock : RwLock) : RwLatch → Option RwLock
  | .s => if lock.writer then none else some { lock with readers := lock.readers + 1 }
  | .x => if lock.writer || lock.readers != 0 then none else some { lock with writer := true }

def unlock (lock : RwLock) : RwLatch → RwLock
  | .s => { lock with readers := lock.readers - 1 }
  | .x => { lock with writer := false }

end RwLock

structure BufBlock where
  state : BufPageState
  bufFixCount : Nat
  ioFix : BufIoFix
  oldestModification : Nat
  targetRwCmd : Bool
  useRwCmd : Bool
  modifyClock : Nat
  lock : RwLock
  frame : PageImage
deriving DecidableEq, Repr

inductive UtAssert
  | ioFixed
  | bufferFixed
  | wrongState
  | stillDirty
  | notHashed
deriving DecidableEq, Repr

namespace BufBlock

variable (block : BufBlock)

/-! ## Replacing the page -/

/-- `buf_flush_ready_for_flush` for a single-page flush. -/
def flushReadyForFlush : Bool :=
  if block.useRwCmd || block.targetRwCmd || block.state == .memory then false
  else if block.oldestModification == 0 || block.ioFix != .none then false
  else true

/-- The part of `buf_flush_single_page_with_rw_cmd` and `buf_flush_page_with_rw_cmd` that
runs under the pool and block mutexes.  If the latch is not free then `target_rw_cmd` is
reset before the mutexes are released, so the block is unchanged and is no victim. -/
def flushPageWithRwCmd : Option BufBlock :=
  if block.bufFixCount == 0 && block.flushReadyForFlush then
    match block.lock.lockNowait .s with
    | some lock => some { block with targetRwCmd := true, lock := lock, ioFix := .write }
    | none => none
  else none

/-- `buf_page_io_complete` for a written page: the page is clean and its latch is free. -/
def ioComplete : BufBlock :=
  { block with ioFix := .none, oldestModification := 0, lock := block.lock.unlock .s }

/-- `buf_LRU_block_remove_hashed_for_rw_cmd`; `hashed` says that the page hash finds this
block under the block's own page. -/
def lruBlockRemoveHashedForRwCmd (hashed : Bool) : Except UtAssert BufBlock :=
  let block := { block with targetRwCmd := false, useRwCmd := true }
  if block.ioFix != .none then .error .ioFixed
  else if block.bufFixCount != 0 then .error .bufferFixed
  else if block.state != .filePage then .error .wrongState
  else
    let block := { block with modifyClock := block.modifyClock + 1 }
    if block.oldestModification != 0 then .error .stillDirty
    else if !hashed then .error .notHashed
    else .ok { block with state := .readyForUse }

/-- The fields that `buf_page_init` and `buf_page_init_with_rw_cmd` set; the second keeps
`use_rw_cmd` and the first clears it. -/
def pageInit (useRwCmd : Bool) : BufBlock :=
  { block with
    state := .filePage
    ioFix := .none
    bufFixCount := 0
    oldestModification := 0
    targetRwCmd := false
    useRwCmd := useRwCmd }

/-- The page number and space that `buf_LRU_block_free_non_file_page` leaves in a frame. -/
def wipedPage : PageId := ⟨0xfefefefe, 0xfefefefe⟩

/-- `buf_LRU_block_free_non_file_page`; the flags of an RW command stay as they are. -/
def lruBlockFreeNonFilePage : BufBlock :=
  { block with state := .notUsed, frame := { block.frame with page := wipedPage } }

/-- `buf_LRU_get_free_only` on the first block of the free list. -/
def lruGetFreeOnly : BufBlock := { block with state := .readyForUse }

/-- What `buf_page_init_for_read` does with the block it has been given. -/
inductive InitForRead
  /-- The page is in the pool, or its tablespace is gone; `freed` says whether the block
  goes back to the free list. -/
  | refused (tablespaceDeleted freed : Bool)
  | inserted (block : BufBlock)

/-- The section of `buf_page_init_for_read` under the pool mutex and the page hash lock. -/
def pageInitForRead (page : PageId) (inPool tablespaceDeleted : Bool) : InitForRead :=
  if inPool then .refused false (!block.useRwCmd && !block.targetRwCmd)
  else if tablespaceDeleted then .refused true (!block.useRwCmd && !block.targetRwCmd)
  else
    let initialised :=
      if block.useRwCmd then
        if block.frame.page = page then block.pageInit true else block.pageInit false
      else block.pageInit false
    .inserted { initialised with
      ioFix := .read
      lock := { initialised.lock with writer := true } }

/-- `buf_page_io_complete` for a page that has been read. -/
def readComplete : BufBlock :=
  { block with ioFix := .none, lock := block.lock.unlock .x }

/-! ## Getting access to the page -/

/-- `buf_block_fix` and `buf_block_buf_fix_inc`. -/
def fix : BufBlock := { block with bufFixCount := block.bufFixCount + 1 }

/-- `buf_block_unfix` and `buf_block_buf_fix_dec`. -/
def unfix : BufBlock := { block with bufFixCount := block.bufFixCount - 1 }

/-- The section of `buf_page_get_gen` under the page hash lock, on the block that the
lookup found.  A block that an RW command is working on counts as absent. -/
def pageGetGen : Option BufBlock :=
  if block.targetRwCmd || block.useRwCmd then none else some block.fix

/-- The section of `buf_page_optimistic_get` under the block mutex. -/
def pageOptimisticGet : Option BufBlock :=
  if block.state != .filePage then none else some block.fix

/-- The section of `buf_page_get_known_nowait` under the block mutex. -/
def pageGetKnownNowait : Except UtAssert (Option BufBlock) :=
  if block.state == .removeHash then .ok none
  else if block.state != .filePage then .error .wrongState
  else .ok (some block.fix)

/-- The sections of `buf_page_try_get_func` under the page hash lock and the block mutex,
on the block that the lookup found. -/
def pageTryGet : Option BufBlock :=
  if block.state != .filePage then none else some block.fix

def latchNowait (latch : RwLatch) : Option BufBlock :=
  match block.lock.lockNowait latch with
  | some lock => some { block with lock := lock }
  | none => none

/-- The latch of `buf_page_try_get_func`: shared, or else exclusive. -/
def tryGetLatch : Option (RwLatch × BufBlock) :=
  match block.latchNowait .s with
  | some latched => some (.s, latched)
  | none =>
    match block.latchNowait .x with
    | some latched => some (.x, latched)
    | none => none

def unlatch (latch : RwLatch) : BufBlock :=
  { block with lock := block.lock.unlock latch }

/-- A change of the page by the holder of its exclusive latch, and whether the change
advances the modify clock. -/
def modify (version : Nat) (clockInc : Bool) : BufBlock :=
  { block with
    frame := { block.frame with version := version }
    oldestModification :=
      if block.oldestModification == 0 then version else block.oldestModification
    modifyClock := if clockInc then block.modifyClock + 1 else block.modifyClock }

end BufBlock
end RwRbuf.Innodb
