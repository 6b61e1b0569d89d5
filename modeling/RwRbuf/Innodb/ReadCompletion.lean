import RwRbuf.Innodb.RwRead
import RwRbuf.Innodb.FileSystem

/-! # Completing a page read

`buf_read_page_low` fixes a page for input and latches it exclusively.  The input is then
completed by the same call, or by an I/O handler thread if the read went to `fil_io` as an
asynchronous request.  A block that an RW command has filled takes neither way by itself: the
flag `use_rw_cmd` says that there is nothing to read, and the argument `sync` says who
completes.

The block comes from `buf_LRU_get_free_block`: from the free list, with whatever RW flags a
former use has left, or as the victim of an RW command that has read a page into its frame.
-/

namespace RwRbuf.Innodb.ReadPageLow

/-- The settings of the server that a read consults. -/
structure Server where
  univPageSize : Nat
  /-- `buf_dblwr->block1` and `buf_dblwr->block2`, if there is a doublewrite buffer. -/
  dblwr : Option (Nat × Nat)
  /-- `recv_recovery_is_on` -/
  recoveryOn : Bool

/-- `TRX_SYS_DOUBLEWRITE_BLOCK_SIZE` -/
def Server.doublewriteBlockSize (server : Server) : Nat := 1048576 / server.univPageSize

/-- `buf_dblwr_page_inside` -/
def Server.dblwrPageInside (server : Server) (pageNo : Nat) : Bool :=
  match server.dblwr with
  | none => false
  | some (block1, block2) =>
    (block1 ≤ pageNo && pageNo < block1 + server.doublewriteBlockSize) ||
      (block2 ≤ pageNo && pageNo < block2 + server.doublewriteBlockSize)

/-- `ibuf_bitmap_page` -/
def Server.ibufBitmapPage (server : Server) (zipSize pageNo : Nat) : Bool :=
  if zipSize = 0 then pageNo &&& (server.univPageSize - 1) == 1
  else pageNo &&& (zipSize - 1) == 1

/-- `trx_sys_hdr_page` -/
def trxSysHdrPage (page : PageId) : Bool := page.space == 0 && page.offset == 5

structure Request where
  page : PageId
  sync : Bool
  zipSize : Nat
  unzip : Bool
  ignoreNonexistentPages : Bool

structure RwVictim where
  victim : BufBlock
  block : BufBlock
  removed : victim.lruBlockRemoveHashedForRwCmd true = .ok block

inductive BlockSource
  | freeList (block : BufBlock)
  | rwRead (victim : RwVictim)

/-- What the call finds in memory and on the device. -/
structure Surroundings where
  source : BlockSource
  device : PageId → PageImage
  /-- The memory behind the descriptor of a compressed page, where `use_rw_cmd` would be. -/
  stray : Bool

/-- The block that `buf_LRU_get_free_block` returns. -/
def Surroundings.lruGetFreeBlock (surroundings : Surroundings) (requested : PageId) : BufBlock :=
  match surroundings.source with
  | .freeList block => block.lruGetFreeOnly
  | .rwRead victim => { victim.block with frame := surroundings.device requested }

inductive PageCheck
  | intact
  /-- The page is corrupt; its table has been marked and the page removed. -/
  | markedCorrupt
  | corrupt
deriving DecidableEq, Repr

structure Answers where
  /-- Only pages of the insert buffer are wanted, and this is none. -/
  notIbufPage : Bool
  inPool : Bool
  tablespaceDeleted : Bool
  /-- Another thread has read the page while memory for a compressed page was allocated. -/
  addedMeanwhile : Bool
  /-- The result of `fil_io`; `none` is `DB_SUCCESS`. -/
  filIo : Option DbErr
  check : PageCheck

/-- The control block of a page: a buffer block, or the descriptor of a page that is only in
compressed form. -/
inductive Bpage
  | block (block : BufBlock)
  | descriptor (ioFix : BufIoFix) (stray : Bool)

namespace Bpage

/-- `((buf_block_t*) bpage)->use_rw_cmd` -/
def useRwCmd : Bpage → Bool
  | .block buffer => buffer.useRwCmd
  | .descriptor _ stray => stray

def clearRwCmd : Bpage → Bpage
  | .block buffer => .block { buffer with useRwCmd := false }
  | .descriptor ioFix _ => .descriptor ioFix false

def ioFix : Bpage → BufIoFix
  | .block buffer => buffer.ioFix
  | .descriptor ioFix _ => ioFix

def xLatched : Bpage → Bool
  | .block buffer => buffer.lock.writer
  | .descriptor _ _ => false

def readComplete : Bpage → Bpage
  | .block buffer => .block buffer.readComplete
  | .descriptor _ stray => .descriptor .none stray

def Complete (bpage : Bpage) : Prop :=
  bpage.ioFix = .none ∧ bpage.xLatched = false ∧ bpage.useRwCmd = false

end Bpage

/-- The two ways in which `ut_error` stops the server. -/
inductive UtError
  | failedRead
  | corruptPage
deriving DecidableEq, Repr

/-- `buf_page_io_complete` on a page that has been read; `none` is the result `false`, after
which the page is no longer in the pool. -/
def bufPageIoComplete (bpage : Bpage) : PageCheck → Except UtError (Option Bpage)
  | .intact => .ok (some bpage.readComplete)
  | .markedCorrupt => .ok none
  | .corrupt => .error .corruptPage

inductive InitResult
  | null (err : Option DbErr)
  | fixed (bpage : Bpage)

inductive ReadResult
  /-- Returned 0: the page is not in the pool on account of this call. -/
  | zero (err : Option DbErr)
  /-- Returned 1, and whether the page went to `fil_io` and to `buf_page_io_complete`. -/
  | one (bpage : Bpage) (toFilIo ioCompleted : Bool)

section Call

variable (server : Server) (request : Request) (surroundings : Surroundings)
  (answers : Answers)

/-- The argument `sync` after the pages that are always read synchronously. -/
def syncNow : Bool :=
  request.sync || server.ibufBitmapPage request.zipSize request.page.offset ||
    trxSysHdrPage request.page

def zipOnly : Bool := request.zipSize != 0 && !request.unzip && !server.recoveryOn

/-- `buf_page_init_for_read` -/
def bufPageInitForRead : InitResult :=
  if answers.notIbufPage then .null none
  else if zipOnly server request then
    if answers.inPool then .null none
    else if answers.tablespaceDeleted then .null (some .tablespaceDeleted)
    else if answers.addedMeanwhile then .null none
    else .fixed (.descriptor .read surroundings.stray)
  else
    match (surroundings.lruGetFreeBlock
        (RwRead.requestedPage request.page (syncNow server request))).pageInitForRead
          request.page answers.inPool answers.tablespaceDeleted with
    | .refused tablespaceDeleted _ =>
      .null (if tablespaceDeleted then some .tablespaceDeleted else none)
    | .inserted block => .fixed (.block block)

/-- `buf_read_page_low` after the read; an error removes the page again. -/
def afterRead (bpage : Bpage) (toFilIo : Bool) (err : Option DbErr) : Except UtError ReadResult :=
  match err with
  | some err =>
    if request.ignoreNonexistentPages || err == .tablespaceDeleted then .ok (.zero (some err))
    else .error .failedRead
  | none =>
    if syncNow server request then
      match bufPageIoComplete bpage.clearRwCmd answers.check with
      | .ok (some completed) => .ok (.one completed toFilIo true)
      | .ok none => .ok (.zero none)
      | .error stop => .error stop
    else .ok (.one bpage toFilIo false)

def bufReadPageLow : Except UtError ReadResult :=
  if request.page.space == 0 && server.dblwrPageInside request.page.offset then
    .ok (.zero none)
  else
    match bufPageInitForRead server request surroundings answers with
    | .null err => .ok (.zero err)
    | .fixed bpage =>
      if bpage.useRwCmd then afterRead server request answers bpage false none
      else afterRead server request answers bpage true answers.filIo

end Call

/-! ## Who completes the page -/

/-- Whatever the call learns: if it returns 1 then the page has gone to `fil_io` or has been
completed, and nothing of the read is left after the completion, by the call or by a handler
thread. -/
def Completes (server : Server) (request : Request) (surroundings : Surroundings) : Prop :=
  ∀ answers bpage toFilIo ioCompleted,
    bufReadPageLow server request surroundings answers = .ok (.one bpage toFilIo ioCompleted) →
      (toFilIo = true ∨ ioCompleted = true) ∧
        (ioCompleted = true → bpage.Complete) ∧
        (ioCompleted = false → ∀ check completed,
          bufPageIoComplete bpage check = .ok (some completed) → completed.Complete)

/-- An asynchronous request is given a block whose frame passes for the page: left over in the
free list with its RW flag, or filled with the page that an RW command reads when no page is
named. -/
def BlockSource.Filled (device : PageId → PageImage) (page : PageId) : BlockSource → Prop
  | .freeList block => block.useRwCmd = true ∧ block.frame.page = page
  | .rwRead _ => (device ⟨0, 0⟩).page = page

/-- The call refuses the page, completes it itself, or has to read it. -/
def Answered (server : Server) (request : Request) (surroundings : Surroundings) : Prop :=
  (request.page.space = 0 ∧ server.dblwrPageInside request.page.offset = true) ∨
    syncNow server request = true ∨
    if zipOnly server request then surroundings.stray = false
    else ¬ surroundings.source.Filled surroundings.device request.page

section Completion

variable {server : Server} {request : Request} {surroundings : Surroundings}
  {answers : Answers} {bpage : Bpage}

theorem RwVictim.useRwCmd_block (victim : RwVictim) : victim.block.useRwCmd = true :=
  (RwRead.PageCache.removeHashed_fields victim.removed).2

theorem filled_iff :
    ((surroundings.lruGetFreeBlock ⟨0, 0⟩).useRwCmd = true ∧
        (surroundings.lruGetFreeBlock ⟨0, 0⟩).frame.page = request.page) ↔
      surroundings.source.Filled surroundings.device request.page := by
  unfold Surroundings.lruGetFreeBlock BlockSource.Filled
  cases surroundings.source with
  | freeList block => exact Iff.rfl
  | rwRead victim => simp [victim.useRwCmd_block]

theorem complete_clearRwCmd (bpage : Bpage) : bpage.clearRwCmd.readComplete.Complete := by
  cases bpage with
  | block buffer | descriptor ioFix stray => exact ⟨rfl, rfl, rfl⟩

theorem complete_readComplete (cleared : bpage.useRwCmd = false) : bpage.readComplete.Complete := by
  cases bpage with
  | block buffer | descriptor ioFix stray => exact ⟨rfl, rfl, cleared⟩

/-- `buf_page_io_complete` that succeeds has released the page. -/
theorem eq_readComplete {check : PageCheck} {completed : Bpage}
    (success : bufPageIoComplete bpage check = .ok (some completed)) :
    completed = bpage.readComplete := by
  cases check with
  | intact => exact (Option.some.inj (Except.ok.inj success)).symm
  | markedCorrupt => cases success
  | corrupt => cases success

/-- A page that an asynchronous request fixes skips the read only if its block is filled. -/
theorem not_useRwCmd_of_answered (answered : Answered server request surroundings)
    (outside : ¬ (request.page.space = 0 ∧ server.dblwrPageInside request.page.offset = true))
    (async : syncNow server request = false)
    (fixed : bufPageInitForRead server request surroundings answers = .fixed bpage) :
    bpage.useRwCmd = false := by
  have empty : if zipOnly server request then surroundings.stray = false
      else ¬ surroundings.source.Filled surroundings.device request.page := by
    obtain inside | sync | empty := answered
    · exact absurd inside outside
    · rw [async] at sync
      cases sync
    · exact empty
  unfold bufPageInitForRead at fixed
  rw [async] at fixed
  split_ifs at fixed with _ zip
  · rw [if_pos zip] at empty
    cases fixed
    exact empty
  · rw [if_neg zip] at empty
    split at fixed
    · cases fixed
    next block inserted =>
      cases fixed
      obtain ⟨_, _, _, flag⟩ := RwRead.PageCache.inserted_cases inserted
      apply Bool.eq_false_iff.mpr
      intro used
      exact empty (filled_iff.mp (flag used))

/-- How a call returns 1: a synchronous one has completed the page, an asynchronous one leaves
it as it was fixed. -/
theorem afterRead_eq_one {final : Bpage} {err : Option DbErr} {toFilIo went ioCompleted : Bool}
    (returned : afterRead server request answers bpage toFilIo err =
      .ok (.one final went ioCompleted)) :
    went = toFilIo ∧
      ((syncNow server request = true ∧ ioCompleted = true ∧
          final = bpage.clearRwCmd.readComplete) ∨
        (syncNow server request = false ∧ ioCompleted = false ∧ final = bpage)) := by
  unfold afterRead at returned
  cases err with
  | some err =>
    dsimp only at returned
    split_ifs at returned
    cases returned
  | none =>
    dsimp only at returned
    split_ifs at returned with sync
    · split at returned
      next completed success =>
        obtain ⟨rfl, rfl, rfl⟩ := ReadResult.one.inj (Except.ok.inj returned)
        exact ⟨rfl, .inl ⟨sync, rfl, eq_readComplete success⟩⟩
      · cases returned
      · cases returned
    · obtain ⟨rfl, rfl, rfl⟩ := ReadResult.one.inj (Except.ok.inj returned)
      exact ⟨rfl, .inr ⟨Bool.eq_false_iff.mpr sync, rfl, rfl⟩⟩

theorem bufReadPageLow_eq_one {final : Bpage} {went ioCompleted : Bool}
    (returned : bufReadPageLow server request surroundings answers =
      .ok (.one final went ioCompleted)) :
    ¬ (request.page.space = 0 ∧ server.dblwrPageInside request.page.offset = true) ∧
      ∃ bpage, bufPageInitForRead server request surroundings answers = .fixed bpage ∧
        went = !bpage.useRwCmd ∧
        ((syncNow server request = true ∧ ioCompleted = true ∧
            final = bpage.clearRwCmd.readComplete) ∨
          (syncNow server request = false ∧ ioCompleted = false ∧ final = bpage)) := by
  unfold bufReadPageLow at returned
  split at returned
  · cases returned
  next outside =>
    refine ⟨by simpa using outside, ?_⟩
    split at returned
    · cases returned
    next bpage fixed =>
      refine ⟨bpage, fixed, ?_⟩
      split_ifs at returned with skips
      · obtain ⟨rfl, ending⟩ := afterRead_eq_one returned
        exact ⟨by rw [skips]; rfl, ending⟩
      · obtain ⟨rfl, ending⟩ := afterRead_eq_one returned
        exact ⟨by rw [Bool.eq_false_iff.mpr skips]; rfl, ending⟩

/-- The call that finds its page absent and its tablespace in place. -/
def Answers.absentPage : Answers where
  notIbufPage := false
  inPool := false
  tablespaceDeleted := false
  addedMeanwhile := false
  filIo := none
  check := .intact

theorem pageInitForRead_filled {block : BufBlock} {page : PageId}
    (filled : block.useRwCmd = true ∧ block.frame.page = page) :
    block.pageInitForRead page false false = .inserted { block.pageInit true with
      ioFix := .read
      lock := { block.lock with writer := true } } := by
  simp [BufBlock.pageInitForRead, filled.1, filled.2, BufBlock.pageInit]

/-- An asynchronous request fixes a page whose block is filled and keeps its flag. -/
theorem bufPageInitForRead_of_filled (async : syncNow server request = false)
    (filled : ¬ if zipOnly server request then surroundings.stray = false
      else ¬ surroundings.source.Filled surroundings.device request.page) :
    ∃ bpage, bufPageInitForRead server request surroundings .absentPage = .fixed bpage ∧
      bpage.ioFix = .read ∧ bpage.useRwCmd = true := by
  unfold bufPageInitForRead
  rw [async, if_neg (by decide)]
  by_cases zip : zipOnly server request = true
  · rw [if_pos zip] at filled ⊢
    refine ⟨.descriptor .read surroundings.stray, rfl, rfl, ?_⟩
    exact Bool.eq_true_of_not_eq_false filled
  · rw [if_neg zip, not_not, ← filled_iff] at filled
    have placeholder : RwRead.requestedPage request.page false = ⟨0, 0⟩ := rfl
    rw [if_neg zip, placeholder]
    dsimp only [Answers.absentPage]
    rw [pageInitForRead_filled filled]
    exact ⟨_, rfl, rfl, rfl⟩

/-- The page that an asynchronous request leaves behind if its block is filled. -/
theorem bufReadPageLow_of_filled (unanswered : ¬ Answered server request surroundings) :
    ∃ bpage, bufReadPageLow server request surroundings .absentPage =
        .ok (.one bpage false false) ∧
      bpage.ioFix = .read ∧ bpage.useRwCmd = true := by
  unfold Answered at unanswered
  obtain ⟨outside, rest⟩ := not_or.mp unanswered
  obtain ⟨notSync, filled⟩ := not_or.mp rest
  have async : syncNow server request = false := Bool.eq_false_iff.mpr notSync
  obtain ⟨bpage, fixed, reading, flag⟩ := bufPageInitForRead_of_filled async filled
  refine ⟨bpage, ?_, reading, flag⟩
  unfold bufReadPageLow
  rw [if_neg (by simpa using outside), fixed]
  simp [flag, afterRead, async]

/-- A call is sure to leave no page behind if and only if it refuses the page, is or is made
synchronous, or is not given a block that passes for the page. -/
theorem completes_iff_answered (server : Server) (request : Request) (surroundings : Surroundings) :
    Completes server request surroundings ↔ Answered server request surroundings := by
  constructor
  · intro completes
    by_contra unanswered
    obtain ⟨bpage, returned, _⟩ := bufReadPageLow_of_filled unanswered
    obtain ⟨went | done, _⟩ := completes _ _ _ _ returned
    · cases went
    · cases done
  · intro answered answers final went ioCompleted returned
    obtain ⟨outside, bpage, fixed, rfl, ending⟩ := bufReadPageLow_eq_one returned
    obtain ⟨_, rfl, rfl⟩ | ⟨async, rfl, rfl⟩ := ending
    · refine ⟨.inr rfl, fun _ => complete_clearRwCmd bpage, ?_⟩
      intro impossible
      cases impossible
    · have cleared := not_useRwCmd_of_answered answered outside async fixed
      refine ⟨.inl (by rw [cleared]; rfl), ?_, ?_⟩
      · intro impossible
        cases impossible
      · intro _ check completed success
        rw [eq_readComplete success]
        exact complete_readComplete cleared

end Completion

def cleanVictim : RwVictim where
  victim :=
    { state := .filePage, bufFixCount := 0, ioFix := .none, oldestModification := 0
      targetRwCmd := true, useRwCmd := false, modifyClock := 0, lock := ⟨0, false⟩
      frame := ⟨⟨5, 7⟩, 1⟩ }
  block :=
    { state := .readyForUse, bufFixCount := 0, ioFix := .none, oldestModification := 0
      targetRwCmd := false, useRwCmd := true, modifyClock := 1, lock := ⟨0, false⟩
      frame := ⟨⟨5, 7⟩, 1⟩ }
  removed := rfl

/-- The read-ahead of an area that begins with the first page of the system tablespace. -/
def headerReadAhead : Request where
  page := ⟨0, 0⟩
  sync := false
  zipSize := 0
  unzip := false
  ignoreNonexistentPages := false

def rwSurroundings : Surroundings where
  source := .rwRead cleanVictim
  device := fun page => ⟨page, 1⟩
  stray := false

/-- The RW command reads page (0,0) in place of a page that it was not told, and if this is
the page to read ahead then nobody completes it. -/
theorem readAhead_leaves_headerPage :
    ¬ Completes ⟨16384, some (64, 128), false⟩ headerReadAhead rwSurroundings ∧
      ∃ block, bufReadPageLow ⟨16384, some (64, 128), false⟩ headerReadAhead rwSurroundings
          .absentPage = .ok (.one (.block block) false false) ∧
        block.ioFix = .read ∧ block.lock.writer = true ∧ block.useRwCmd = true := by
  have leaves : ∃ block, bufReadPageLow ⟨16384, some (64, 128), false⟩ headerReadAhead
      rwSurroundings .absentPage = .ok (.one (.block block) false false) ∧
        block.ioFix = .read ∧ block.lock.writer = true ∧ block.useRwCmd = true :=
    ⟨_, rfl, rfl, rfl, rfl⟩
  refine ⟨?_, leaves⟩
  intro completes
  obtain ⟨block, returned, _⟩ := leaves
  obtain ⟨went | done, _⟩ := completes _ _ _ _ returned
  · cases went
  · cases done

end RwRbuf.Innodb.ReadPageLow
