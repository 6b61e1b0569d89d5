import RwRbuf.Firmware.RowAddrDepOrder

/-! # A write that overtakes an erase

The first write of a block is held back by its buffer entry while the rest of the block
is allocated, the block is erased and its first page is allocated again.  The table still
permits page 0, so the new write passes at once; the writes and the erase parked before
it follow, and the old write comes last.
-/

namespace RwRbuf.Firmware.RowDepQueues

open Fallible Relation

variable {geo : Geometry} {queues : RowDepQueues}

/-! ## The walk over a row queue -/

theorem recheck_row (req : NandRequest) (before after : List NandRequest)
    (split : queues.blockedByRowAddrDepReqQ (req.dieNo geo) = before ++ req :: after) :
    (queues.recheck geo req before after).blockedByRowAddrDepReqQ (req.dieNo geo) =
      if (queues.entryOf geo req).Passes geo req then before ++ after
      else before ++ req :: after := by
  unfold recheck RowAddrDepEntry.checkRowAddrDep
  by_cases passes : (queues.entryOf geo req).Passes geo req
  · simp [passes, putToNandReqQ, getFromBlockedByRowAddrDepReqQ]
  · simpa [passes, setEntry] using split

/-- `ReleaseBlockedByRowAddrDepReq` is a sequence of single checks. -/
theorem releaseBlockedByRowAddrDepReq_run {dieNo : Nat} (before after : List NandRequest)
    (split : queues.blockedByRowAddrDepReqQ dieNo = before ++ after)
    (onDie : ∀ req ∈ after, req.dieNo geo = dieNo) :
    ReflTransGen (Step geo fun _ _ => True) queues
      (releaseBlockedByRowAddrDepReq geo before after queues) := by
  induction after generalizing before queues with
  | nil => exact .refl
  | cons req after ih =>
    have here : req.dieNo geo = dieNo := onDie req List.mem_cons_self
    subst here
    have rest : ∀ other ∈ after, other.dieNo geo = req.dieNo geo :=
      fun other member => onDie other (List.mem_cons_of_mem _ member)
    have step : Step geo (fun _ _ => True) queues (queues.recheck geo req before after) :=
      .releaseRow req before after split trivial
    have row := recheck_row req before after split
    unfold releaseBlockedByRowAddrDepReq
    simp only
    split
    · rename_i passes
      rw [if_pos passes] at row
      exact .head step (ih before row rest)
    · rename_i held
      rw [if_neg held] at row
      exact .head step (ih (before ++ [req]) (by simpa using row) rest)

/-! ## The run -/

@[simp] theorem blockWrite_dieNo (generation pageNo : Nat) :
    (blockWrite geo generation pageNo).dieNo geo = 0 := by
  simp [blockWrite, NandRequest.dieNo, geo.userDies_pos]

@[simp] theorem blockErase_dieNo : (blockErase geo).dieNo geo = 0 := by
  simp [blockErase, NandRequest.dieNo, geo.userDies_pos]

@[simp] theorem blockErase_blockNo : (blockErase geo).blockNo geo = 0 := by
  simp [blockErase, NandRequest.blockNo, geo.userDies_pos, geo.pages_pos]

section BlockWrite

variable {generation pageNo : Nat} (pageBound : pageNo < geo.userPagesPerBlock)
include pageBound

theorem blockWrite_blockNo : (blockWrite geo generation pageNo).blockNo geo = 0 := by
  simp [blockWrite, NandRequest.blockNo, geo.userDies_pos, pageBound]

theorem blockWrite_pageNo : (blockWrite geo generation pageNo).pageNo geo = pageNo := by
  simp [blockWrite, NandRequest.pageNo, geo.userDies_pos, pageBound]

theorem blockWrite_passes (entry : RowAddrDepEntry) :
    entry.Passes geo (blockWrite geo generation pageNo) ↔ pageNo = entry.permittedProgPage := by
  have page := @blockWrite_pageNo geo generation pageNo pageBound
  simp only [RowAddrDepEntry.Passes]
  simp only [blockWrite] at page ⊢
  rw [page]

end BlockWrite

structure View (geo : Geometry) (queues : RowDepQueues) (entry : RowAddrDepEntry)
    (buf row log : List NandRequest) (generated : Nat × Nat) : Prop where
  run : ReflTransGen (Step geo fun _ _ => True) initial queues
  idle : queues.waiting = none
  buf : queues.blockedByBufDepReqQ = buf
  row : queues.blockedByRowAddrDepReqQ 0 = row
  otherRows : ∀ dieNo ≠ 0, queues.blockedByRowAddrDepReqQ dieNo = []
  log : queues.nandReqQ 0 = log
  entry : queues.table 0 0 = entry
  generated : queues.generated 0 0 = generated

section View

variable {entry : RowAddrDepEntry} {buf row log : List NandRequest} {generated : Nat × Nat}
  {req : NandRequest}

section

variable (view : View geo queues entry buf row log generated)
include view

theorem View.slotLeft (room : buf.length + row.length < availableOutstandingReqCount geo) :
    queues.SlotLeft geo := by
  intro dieNo
  rw [view.buf]
  by_cases same : dieNo = 0
  · rw [same, view.row]
    exact room
  · rw [view.otherRows dieNo same, List.length_nil]
    omega

theorem View.legal (onDie : req.dieNo geo = 0) (onBlock : req.blockNo geo = 0)
    (newest : req.generation = generated.1)
    (nextPage : req.reqCode = .write → req.pageNo geo = generated.2)
    (lastPage : req.reqCode = .erase → generated.2 = geo.userPagesPerBlock ∧
      req.programmedPageCnt = geo.userPagesPerBlock) (notRead : req.reqCode ≠ .read) :
    queues.Legal geo req := by
  unfold Legal
  rw [onDie, onBlock, view.generated]
  refine ⟨newest, ?_⟩
  cases code : req.reqCode with
  | read => exact absurd code notRead
  | write => exact nextPage code
  | erase => exact lastPage code
  | rxDma => exact req.nand.1 code
  | txDma => exact req.nand.2 code

theorem View.select (room : buf.length + row.length < availableOutstandingReqCount geo)
    (legal : queues.Legal geo req) (onDie : req.dieNo geo = 0) (onBlock : req.blockNo geo = 0)
    (notRead : req.reqCode ≠ .read) :
    ∃ queues', View geo queues' (entry.checkRowAddrDep geo req .select).1 buf
      (if entry.Passes geo req then row else row ++ [req])
      (if entry.Passes geo req then log ++ [req] else log) (advance req generated) := by
  have noWait : ¬ (queues.generate geo req).MustWait geo req := fun wait => notRead wait.1
  refine ⟨(queues.generate geo req).selectLowLevelReqQ geo req false,
    view.run.tail (.select req false view.idle (view.slotLeft room) legal fun _ _ => trivial),
    ?_, ?_, ?_, ?_, ?_, ?_, ?_⟩ <;>
    rw [selectLowLevelReqQ, if_neg noWait, selectNow, if_neg Bool.false_ne_true]
  · rw [checkAndPut_waiting]
    exact view.idle
  all_goals
    unfold checkAndPut RowAddrDepEntry.checkRowAddrDep
    have entryEq : (queues.generate geo req).entryOf geo req = entry := by
      rw [← view.entry, entryOf, onDie, onBlock]
      rfl
    rw [entryEq]
    by_cases passes : entry.Passes geo req
  · simpa [passes, putToNandReqQ, setEntry, generate] using view.buf
  · simpa [passes, putToBlockedByRowAddrDepReqQ, setEntry, generate] using view.buf
  · simpa [passes, putToNandReqQ, setEntry, generate] using view.row
  · simp [passes, putToBlockedByRowAddrDepReqQ, setEntry, generate, onDie, view.row]
  · simpa [passes, putToNandReqQ, setEntry, generate] using view.otherRows
  · intro dieNo different
    simpa [passes, putToBlockedByRowAddrDepReqQ, setEntry, generate, onDie, different] using
      view.otherRows dieNo different
  · simp [passes, putToNandReqQ, setEntry, generate, onDie, view.log]
  · simpa [passes, putToBlockedByRowAddrDepReqQ, setEntry, generate] using view.log
  · simp [passes, putToNandReqQ, setEntry, onDie, onBlock]
  · simp [passes, putToBlockedByRowAddrDepReqQ, setEntry, onDie, onBlock]
  · simp [passes, putToNandReqQ, setEntry, generate, onDie, onBlock, view.generated]
  · simp [passes, putToBlockedByRowAddrDepReqQ, setEntry, generate, onDie, onBlock,
      view.generated]

end

theorem View.recheck {rest : List NandRequest}
    (view : View geo queues entry buf (req :: rest) log generated)
    (onDie : req.dieNo geo = 0) (onBlock : req.blockNo geo = 0) (passes : entry.Passes geo req) :
    ∃ queues', View geo queues' (entry.passed req .release) buf rest (log ++ [req]) generated := by
  have entryEq : queues.entryOf geo req = entry := by
    rw [← view.entry, entryOf, onDie, onBlock]
  have split : queues.blockedByRowAddrDepReqQ (req.dieNo geo) = [] ++ req :: rest := by
    rw [onDie]
    exact view.row
  refine ⟨queues.recheck geo req [] rest,
    view.run.tail (.releaseRow req [] rest split trivial), ?_, ?_, ?_, ?_, ?_, ?_, ?_⟩
  · rw [recheck_waiting]
    exact view.idle
  all_goals
    unfold RowDepQueues.recheck RowAddrDepEntry.checkRowAddrDep
    rw [entryEq]
    simp only [if_pos passes, if_true, putToNandReqQ, getFromBlockedByRowAddrDepReqQ, setEntry]
  · exact view.buf
  · simp [onDie]
  · intro dieNo different
    simpa [onDie, different] using view.otherRows dieNo different
  · simp [onDie, view.log]
  · simp [onDie, onBlock]
  · exact view.generated

/-- The buffer entry lets go of its only request, and the table lets it pass. -/
theorem View.releaseBuf (view : View geo queues entry [req] row log generated)
    (onDie : req.dieNo geo = 0) (onBlock : req.blockNo geo = 0) (passes : entry.Passes geo req) :
    ∃ queues', View geo queues' (entry.passed req .release) [] row (log ++ [req]) generated := by
  have entryEq : (queues.getFromBlockedByBufDepReqQ [] []).entryOf geo req = entry := by
    rw [← view.entry, entryOf, onDie, onBlock]
    rfl
  refine ⟨queues.releaseBlockedByBufDepReq geo req [] [],
    view.run.tail (.releaseBuf req [] [] view.buf trivial), ?_, ?_, ?_, ?_, ?_, ?_, ?_⟩
  · rw [releaseBlockedByBufDepReq, checkAndPut_waiting]
    exact view.idle
  all_goals
    unfold releaseBlockedByBufDepReq checkAndPut RowAddrDepEntry.checkRowAddrDep
    rw [entryEq]
    simp only [if_pos passes, if_true, putToNandReqQ, getFromBlockedByBufDepReqQ, setEntry]
  · rfl
  · exact view.row
  · exact view.otherRows
  · simp [onDie, view.log]
  · simp [onDie, onBlock]
  · exact view.generated

end View

/-- The first write of the block is held back by its buffer entry. -/
theorem view_held (room : 0 < availableOutstandingReqCount geo) :
    ∃ queues, View geo queues ⟨0, 0, false⟩ [blockWrite geo 0 0] [] [] (0, 1) := by
  have onDie := @blockWrite_dieNo geo 0 0
  have onBlock := @blockWrite_blockNo geo 0 0 geo.pages_pos
  have legal : initial.Legal geo (blockWrite geo 0 0) :=
    ⟨rfl, @blockWrite_pageNo geo 0 0 geo.pages_pos⟩
  have noWait : ¬ (initial.generate geo (blockWrite geo 0 0)).MustWait geo
      (blockWrite geo 0 0) := fun wait => by cases wait.1
  refine ⟨(initial.generate geo (blockWrite geo 0 0)).selectLowLevelReqQ geo
      (blockWrite geo 0 0) true,
    .single (.select _ true rfl (fun _ => room) legal (by simp)), ?_, ?_, ?_, ?_, ?_, ?_, ?_⟩ <;>
    rw [selectLowLevelReqQ, if_neg noWait, selectNow, if_pos rfl]
  · rfl
  · rfl
  · rfl
  · intro dieNo _
    rfl
  · rfl
  · rw [RowAddrDepEntry.updateRowAddrDepTableForBufBlockedReq]
    change ((initial.generate geo (blockWrite geo 0 0)).setEntry geo _ _).table 0 0 = _
    rw [setEntry_table, if_pos ⟨onDie, onBlock⟩]
    rfl
  · change (initial.generate geo (blockWrite geo 0 0)).generated 0 0 = _
    rw [generate_generated, if_pos ⟨onDie, onBlock⟩]
    rfl

/-- The writes of pages `first`, `first + 1`, and so on of the first generation. -/
def laterWrites (geo : Geometry) (first count : Nat) : List NandRequest :=
  (List.range' first count).map (blockWrite geo 0)

/-- The other pages are allocated while the first write is held back. -/
theorem view_allocated (count : Nat) (pages : count < geo.userPagesPerBlock)
    (room : count < availableOutstandingReqCount geo) :
    ∃ queues, View geo queues ⟨0, 0, false⟩ [blockWrite geo 0 0] (laterWrites geo 1 count) []
      (0, count + 1) := by
  induction count with
  | zero => exact view_held (by omega)
  | succ count ih =>
    obtain ⟨queues, view⟩ := ih (by omega) (by omega)
    have onDie := @blockWrite_dieNo geo 0 (count + 1)
    have onBlock := @blockWrite_blockNo geo 0 (count + 1) pages
    have held : ¬ (⟨0, 0, false⟩ : RowAddrDepEntry).Passes geo (blockWrite geo 0 (count + 1)) := by
      rw [blockWrite_passes pages]
      simp
    have legal := view.legal onDie onBlock rfl
      (fun _ => @blockWrite_pageNo geo 0 (count + 1) pages)
      (fun code => by cases code) (fun code => by cases code)
    obtain ⟨queues', view'⟩ := view.select (by simp [laterWrites]; omega) legal onDie onBlock
      (fun code => by cases code)
    refine ⟨queues', ?_⟩
    rw [RowAddrDepEntry.checkRowAddrDep, if_neg held, if_neg held, if_neg held] at view'
    simpa [laterWrites, List.range'_concat, RowAddrDepEntry.blocked, blockWrite, advance,
      Nat.add_comm] using view'

/-- With page 0 permitted for the new write, the table lets the rest of the old generation
pass, and the erase after it. -/
theorem view_released (count : Nat) : ∀ (queues : RowDepQueues) (first : Nat)
    (log : List NandRequest) (generated : Nat × Nat),
    first + count = geo.userPagesPerBlock →
    View geo queues ⟨first, 0, true⟩ [blockWrite geo 0 0]
      (laterWrites geo first count ++ [blockErase geo]) log generated →
    ∃ queues', View geo queues' ⟨0, 0, false⟩ [blockWrite geo 0 0] []
      (log ++ laterWrites geo first count ++ [blockErase geo]) generated := by
  induction count with
  | zero =>
    intro queues first log generated total view
    have passes : (⟨first, 0, true⟩ : RowAddrDepEntry).Passes geo (blockErase geo) :=
      ⟨by simp only [blockErase]; omega, rfl⟩
    obtain ⟨queues', view'⟩ := View.recheck (by simpa [laterWrites] using view)
      blockErase_dieNo blockErase_blockNo passes
    exact ⟨queues', by simpa [laterWrites, RowAddrDepEntry.passed, blockErase] using view'⟩
  | succ count ih =>
    intro queues first log generated total view
    have pages : first < geo.userPagesPerBlock := by omega
    have pagesFit := geo.pages_fit
    have passes : (⟨first, 0, true⟩ : RowAddrDepEntry).Passes geo (blockWrite geo 0 first) := by
      rw [blockWrite_passes pages]
    obtain ⟨queues', view'⟩ := View.recheck
      (by simpa [laterWrites, List.range'_succ] using view) (blockWrite_dieNo _ _)
      (blockWrite_blockNo pages) passes
    have nextEntry : (⟨first, 0, true⟩ : RowAddrDepEntry).passed (blockWrite geo 0 first)
        .release = ⟨first + 1, 0, true⟩ := by
      have : (first + 1) % 2 ^ 12 = first + 1 := Nat.mod_eq_of_lt (by omega)
      simp only [RowAddrDepEntry.passed, blockWrite, this]
    rw [nextEntry] at view'
    obtain ⟨queues'', view''⟩ := ih queues' (first + 1) _ generated (by omega)
      (by simpa [laterWrites] using view')
    exact ⟨queues'', by simpa [laterWrites, List.range'_succ] using view''⟩

/-- The whole run, for any device with enough request slots for a block. -/
theorem view_overtaken (room : geo.userPagesPerBlock + 1 < availableOutstandingReqCount geo) :
    ∃ queues, View geo queues ⟨1, 0, false⟩ [] []
      ([blockWrite geo 1 0] ++ laterWrites geo 1 (geo.userPagesPerBlock - 1) ++
        [blockErase geo] ++ [blockWrite geo 0 0]) (1, 1) := by
  have pagesPos := geo.pages_pos
  obtain ⟨allocated, view⟩ := @view_allocated geo (geo.userPagesPerBlock - 1) (by omega) (by omega)
  rw [show geo.userPagesPerBlock - 1 + 1 = geo.userPagesPerBlock by omega] at view
  have rowLength : (laterWrites geo 1 (geo.userPagesPerBlock - 1)).length =
      geo.userPagesPerBlock - 1 := by simp [laterWrites]
  -- The erase is parked: no page of the block was programmed yet.
  have eraseHeld : ¬ (⟨0, 0, false⟩ : RowAddrDepEntry).Passes geo (blockErase geo) := by
    simp only [RowAddrDepEntry.Passes, blockErase]
    omega
  obtain ⟨erased, view⟩ := view.select (by simp only [List.length_singleton, rowLength]; omega)
    (view.legal blockErase_dieNo blockErase_blockNo rfl (fun code => by cases code)
      (fun _ => ⟨rfl, rfl⟩) (fun code => by cases code))
    blockErase_dieNo blockErase_blockNo (fun code => by cases code)
  rw [RowAddrDepEntry.checkRowAddrDep, if_neg eraseHeld, if_neg eraseHeld, if_neg eraseHeld] at view
  -- The first write of the next generation passes at once.
  have onBlock := @blockWrite_blockNo geo 1 0 pagesPos
  have page := @blockWrite_pageNo geo 1 0 pagesPos
  have passes : ((⟨0, 0, false⟩ : RowAddrDepEntry).blocked (blockErase geo) .select).Passes geo
      (blockWrite geo 1 0) := by
    rw [blockWrite_passes pagesPos]
    rfl
  obtain ⟨overtaken, view⟩ := view.select
    (by simp only [List.length_append, List.length_singleton, rowLength]; omega)
    (view.legal (blockWrite_dieNo _ _) onBlock rfl (fun _ => page) (fun code => by cases code)
      (fun code => by cases code))
    (blockWrite_dieNo _ _) onBlock (fun code => by cases code)
  rw [RowAddrDepEntry.checkRowAddrDep, if_pos passes, if_pos passes, if_pos passes] at view
  obtain ⟨released, view⟩ := view_released (geo.userPagesPerBlock - 1) overtaken 1 _ _ (by omega)
    view
  have passesHeld : (⟨0, 0, false⟩ : RowAddrDepEntry).Passes geo (blockWrite geo 0 0) := by
    rw [blockWrite_passes pagesPos]
  obtain ⟨final, view⟩ := view.releaseBuf (blockWrite_dieNo _ _)
    (blockWrite_blockNo pagesPos) passesHeld
  exact ⟨final, by simpa [RowAddrDepEntry.passed, advance, blockWrite, blockErase] using view⟩

/-- On the configured device, the erase of block 0 reaches the flash after the first write of
the next generation and before the first write of its own. -/
theorem erase_overtaken :
    ∃ final, Relation.ReflTransGen (Step .cosmos fun _ _ => True) initial final ∧
      final.nandReqQ 0 = [blockWrite .cosmos 1 0] ++ laterWrites .cosmos 1 127 ++
        [blockErase .cosmos] ++ [blockWrite .cosmos 0 0] ∧
      ¬ final.FlashOrder .cosmos := by
  obtain ⟨final, view⟩ := @view_overtaken .cosmos (by decide)
  refine ⟨final, view.run, view.log, ?_⟩
  intro order
  obtain ⟨pos, replayed, _⟩ := order 0 0
  have onBlock := @blockWrite_blockNo .cosmos 1 0 Geometry.cosmos.pages_pos
  have onHere : (blockWrite .cosmos 1 0).On .cosmos 0 0 := ⟨blockWrite_dieNo 1 0, onBlock⟩
  rw [blockLog, view.log, List.append_assoc, List.append_assoc, List.singleton_append,
    List.filter_cons_of_pos (by simpa using onHere)] at replayed
  simp [replay, flashStep, blockWrite] at replayed

end RwRbuf.Firmware.RowDepQueues
