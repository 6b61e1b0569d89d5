import RwRbuf.Firmware.RowAddrDepOrder

/-! # The counter of blocked reads

`blockedReadReqCnt` holds back the erase of a block while reads of the block wait.  It is
raised where a read is parked and lowered where a parked read passes the table, so it is the
number of parked reads, whatever the stream of requests looks like.
-/

namespace RwRbuf.Firmware.RowDepQueues

open Fallible

variable {geo : Geometry} {queues : RowDepQueues} {req : NandRequest}

/-- Selections and releases in any order, of any requests. -/
abbrev TableStep (geo : Geometry) : RowDepQueues → RowDepQueues → Prop :=
  StreamStep geo (fun _ _ => True) fun _ _ => True

/-- Every counter is the number of parked reads of its block, with the request `inHand`
counted as parked. -/
structure Counted (geo : Geometry) (queues : RowDepQueues) (inHand : Option NandRequest) :
    Prop where
  reads : ∀ dieNo blockNo, (queues.table dieNo blockNo).blockedReadReqCnt =
    (inHand.toList.filter (fun req => req.On geo dieNo blockNo) ++
      queues.pendingOf geo dieNo blockNo).countP isRead
  rowDie : ∀ dieNo, ∀ req ∈ queues.blockedByRowAddrDepReqQ dieNo, req.dieNo geo = dieNo

/-! ## One request -/

theorem Counted.lt {inHand : Option NandRequest} (counted : queues.Counted geo inHand)
    (fits : queues.Fits geo inHand.toList.length) (dieNo blockNo : Nat) :
    (queues.table dieNo blockNo).blockedReadReqCnt + 1 < 2 ^ 16 := by
  have room : queues.Fits geo 0 := fun dieNo => (Nat.le_add_right _ _).trans (fits dieNo)
  rw [counted.reads]
  exact room.countP_lt inHand dieNo blockNo

theorem Counted.enter (counted : queues.Counted geo none) (req : NandRequest)
    (fits : queues.Fits geo 0) :
    (queues.setEntry geo req ((queues.entryOf geo req).blocked req .select)).Counted geo
      (some req) := by
  refine ⟨?_, counted.rowDie⟩
  intro dieNo blockNo
  have reads : (queues.table dieNo blockNo).blockedReadReqCnt =
      (queues.pendingOf geo dieNo blockNo).countP isRead := counted.reads dieNo blockNo
  have bound := counted.lt fits dieNo blockNo
  change _ = (_ ++ queues.pendingOf geo dieNo blockNo).countP isRead
  rw [setEntry_table, filter_toList_some]
  by_cases on : req.On geo dieNo blockNo
  · have entryEq : queues.entryOf geo req = queues.table dieNo blockNo := by
      rw [entryOf, on.1, on.2]
    rw [if_pos on, if_pos on, entryEq, RowAddrDepEntry.blocked_blockedReadReqCnt bound, reads,
      Nat.add_comm, List.countP_append, List.countP_singleton]
    simp [isRead]
  · rw [if_neg on, if_neg on]
    exact reads

section

variable (counted : queues.Counted geo (some req))
include counted

theorem Counted.parkRow : (queues.putToBlockedByRowAddrDepReqQ geo req).Counted geo none := by
  refine ⟨?_, rowDie_putToBlockedByRow counted.rowDie⟩
  intro dieNo blockNo
  have reads := counted.reads dieNo blockNo
  rw [filter_toList_some, List.countP_append, Nat.add_comm, ← List.countP_append] at reads
  rw [pendingOf_putToBlockedByRow]
  exact reads

theorem Counted.parkBuf : (queues.putToBlockedByBufDepReqQ req).Counted geo none := by
  refine ⟨?_, counted.rowDie⟩
  intro dieNo blockNo
  have reads := counted.reads dieNo blockNo
  rw [filter_toList_some] at reads
  exact reads.trans ((pendingOf_putToBlockedByBuf dieNo blockNo).countP_eq _).symm

/-- A read that was counted is uncounted when it passes; the count was not zero. -/
theorem Counted.issue (bound : (queues.entryOf geo req).blockedReadReqCnt < 2 ^ 16) :
    ((queues.setEntry geo req ((queues.entryOf geo req).passed req .release)).putToNandReqQ geo
      req).Counted geo none := by
  refine ⟨?_, counted.rowDie⟩
  intro dieNo blockNo
  have reads := counted.reads dieNo blockNo
  rw [filter_toList_some] at reads
  change ((queues.setEntry geo req _).table dieNo blockNo).blockedReadReqCnt =
    (queues.pendingOf geo dieNo blockNo).countP isRead
  rw [setEntry_table]
  by_cases on : req.On geo dieNo blockNo
  · have entryEq : queues.entryOf geo req = queues.table dieNo blockNo := by
      rw [entryOf, on.1, on.2]
    rw [if_pos on, List.countP_append, List.countP_singleton] at reads
    rw [if_pos on, entryEq]
    rw [entryEq] at bound
    cases code : req.reqCode with
    | read =>
      simp only [isRead, code, decide_true, if_true] at reads
      simp only [RowAddrDepEntry.passed, code]
      omega
    | write | erase => simpa [RowAddrDepEntry.passed, isRead, code] using reads
    | rxDma => exact absurd code req.nand.1
    | txDma => exact absurd code req.nand.2
  · rw [if_neg on] at reads
    rw [if_neg on]
    exact reads

end

theorem Counted.takeBuf {before after : List NandRequest} (counted : queues.Counted geo none)
    (split : queues.blockedByBufDepReqQ = before ++ req :: after) :
    (queues.getFromBlockedByBufDepReqQ before after).Counted geo (some req) := by
  refine ⟨?_, counted.rowDie⟩
  intro dieNo blockNo
  rw [filter_toList_some]
  exact (counted.reads dieNo blockNo).trans ((pendingOf_takeBuf split dieNo blockNo).countP_eq _)

theorem Counted.takeRow {before after : List NandRequest} (counted : queues.Counted geo none)
    (split : queues.blockedByRowAddrDepReqQ (req.dieNo geo) = before ++ req :: after) :
    (queues.getFromBlockedByRowAddrDepReqQ geo req before after).Counted geo (some req) := by
  refine ⟨?_, rowDie_takeRow counted.rowDie split⟩
  intro dieNo blockNo
  rw [filter_toList_some]
  exact (counted.reads dieNo blockNo).trans ((pendingOf_takeRow split dieNo blockNo).countP_eq _)

theorem Counted.checkAndPut_release (counted : queues.Counted geo (some req))
    (fits : queues.Fits geo 1) : (queues.checkAndPut geo req .release).Counted geo none := by
  have bound := counted.lt fits (req.dieNo geo) (req.blockNo geo)
  unfold checkAndPut RowAddrDepEntry.checkRowAddrDep
  by_cases passes : (queues.entryOf geo req).Passes geo req
  · simp only [if_pos passes, if_true]
    exact counted.issue (Nat.lt_of_succ_lt bound)
  · simp only [if_neg passes, Bool.false_eq_true, if_false, RowAddrDepEntry.blocked_release,
      setEntry_self]
    exact counted.parkRow

/-- A new request is checked, or parked at once because of its buffer entry. -/
theorem Counted.selectNow (counted : queues.Counted geo none) (fits : queues.Fits geo 0)
    (bufBlocked : Bool) : (queues.selectNow geo req bufBlocked).Counted geo none := by
  have entered := counted.enter req fits
  unfold RowDepQueues.selectNow
  cases bufBlocked with
  | true =>
    rw [if_pos rfl, RowAddrDepEntry.updateRowAddrDepTableForBufBlockedReq]
    exact entered.parkBuf
  | false =>
    rw [if_neg Bool.false_ne_true]
    unfold checkAndPut RowAddrDepEntry.checkRowAddrDep
    by_cases passes : (queues.entryOf geo req).Passes geo req
    · -- passing at once is the same as being counted and then passing
      have bound : (queues.entryOf geo req).blockedReadReqCnt + 1 < 2 ^ 16 :=
        counted.lt fits (req.dieNo geo) (req.blockNo geo)
      have newEntry : (queues.setEntry geo req
          ((queues.entryOf geo req).blocked req .select)).entryOf geo req =
            (queues.entryOf geo req).blocked req .select := by
        rw [entryOf, setEntry_table, if_pos ⟨rfl, rfl⟩]
      have newBound : ((queues.entryOf geo req).blocked req .select).blockedReadReqCnt <
          2 ^ 16 := by
        rw [RowAddrDepEntry.blocked_blockedReadReqCnt bound]
        split <;> omega
      have issued := entered.issue (by rwa [newEntry])
      rw [newEntry, RowAddrDepEntry.passed_blocked (Nat.lt_of_succ_lt bound),
        setEntry_setEntry] at issued
      simp only [if_pos passes, if_true]
      exact issued
    · simp only [if_neg passes, Bool.false_eq_true, if_false]
      exact entered.parkRow

/-! ## Runs -/

/-- The invariant of runs: the counters are right, and all parked requests and the waiting one
hold slots of the pool. -/
structure CountedRun (geo : Geometry) (queues : RowDepQueues) : Prop where
  counted : queues.Counted geo none
  fits : queues.Fits geo (if queues.waiting.isSome then 1 else 0)

theorem countedRun_initial : initial.CountedRun geo := by
  refine ⟨⟨fun _ _ => rfl, ?_⟩, ?_⟩
  · intro dieNo req member
    cases member
  · intro dieNo
    simp [initial]

theorem CountedRun.step {queues' : RowDepQueues} (sound : queues.CountedRun geo)
    (step : TableStep geo queues queues') : queues'.CountedRun geo := by
  have fits : queues.Fits geo 0 := sound.fits.mono (Nat.zero_le _)
  cases step with
  | select req bufBlocked idle slotLeft =>
    have fitsOne : (queues.generate geo req).Fits geo 1 := slotLeft
    have generated : (queues.generate geo req).Counted geo none :=
      ⟨sound.counted.reads, sound.counted.rowDie⟩
    have still : (queues.generate geo req).waiting = none := idle
    unfold selectLowLevelReqQ
    split
    · exact ⟨⟨sound.counted.reads, sound.counted.rowDie⟩, fitsOne⟩
    · refine ⟨generated.selectNow (fitsOne.mono (Nat.zero_le _)) bufBlocked, ?_⟩
      rw [selectNow_waiting, still]
      exact fitsOne.selectNow bufBlocked
  | resume req wasBlocked bufBlocked isWaiting =>
    have fitsOne : { queues with waiting := none }.Fits geo 1 := by
      have := sound.fits
      rwa [isWaiting] at this
    have resumed : { queues with waiting := none }.Counted geo none :=
      ⟨sound.counted.reads, sound.counted.rowDie⟩
    refine ⟨resumed.selectNow (fitsOne.mono (Nat.zero_le _)) bufBlocked, ?_⟩
    rw [selectNow_waiting]
    exact fitsOne.selectNow bufBlocked
  | releaseBuf req before after split =>
    refine ⟨(sound.counted.takeBuf split).checkAndPut_release (fits.takeBuf split), ?_⟩
    unfold releaseBlockedByBufDepReq
    rw [checkAndPut_waiting]
    exact (sound.fits.takeBuf split).checkAndPut .release
  | releaseRow req before after split =>
    refine ⟨?_, ?_⟩
    · have bound := sound.counted.lt fits (req.dieNo geo) (req.blockNo geo)
      have taken := sound.counted.takeRow split
      unfold recheck RowAddrDepEntry.checkRowAddrDep
      by_cases passes : (queues.entryOf geo req).Passes geo req
      · simp only [if_pos passes, if_true]
        exact taken.issue (Nat.lt_of_succ_lt bound)
      · simp only [if_neg passes, Bool.false_eq_true, if_false,
          RowAddrDepEntry.blocked_release, setEntry_self]
        exact sound.counted
    · rw [recheck_waiting]
      exact sound.fits.recheck split

/-- In every run of selections and releases, the counter of a block is the number of parked
reads of the block.  A read about to be released finds it above zero, and raising it does not
wrap. -/
theorem blockedReadReqCnt_of_run (geo : Geometry) (final : RowDepQueues)
    (run : Relation.ReflTransGen (TableStep geo) initial final) :
    (∀ dieNo blockNo, (final.table dieNo blockNo).blockedReadReqCnt =
      (final.pendingOf geo dieNo blockNo).countP isRead) ∧
    (∀ req, (req ∈ final.blockedByBufDepReqQ ∨
        req ∈ final.blockedByRowAddrDepReqQ (req.dieNo geo)) → req.reqCode = .read →
      0 < (final.entryOf geo req).blockedReadReqCnt) ∧
    ∀ dieNo blockNo, (final.table dieNo blockNo).blockedReadReqCnt + 1 < 2 ^ 16 := by
  have sound := run_invariant (CountedRun geo) countedRun_initial
    (fun _ _ sound step => sound.step step) run
  have fits : final.Fits geo 0 := sound.fits.mono (Nat.zero_le _)
  refine ⟨sound.counted.reads, ?_, sound.counted.lt fits⟩
  intro req parked code
  have reads : (final.entryOf geo req).blockedReadReqCnt = _ :=
    sound.counted.reads (req.dieNo geo) (req.blockNo geo)
  have pending : req ∈ final.pendingOf geo (req.dieNo geo) (req.blockNo geo) :=
    List.mem_filter.mpr ⟨List.mem_append.mpr parked, by simp [NandRequest.On]⟩
  rw [reads]
  exact List.countP_pos_iff.mpr ⟨req, by simpa using pending, by simp [isRead, code]⟩

/-- A read of a page that is not programmed yet is parked because of its buffer entry, checked
when the entry is released, and parked again because of the table. -/
theorem blockedReadReqCnt_of_parked_read :
    ∃ final, Relation.ReflTransGen (TableStep .tiny) initial final ∧
      final.blockedByRowAddrDepReqQ 0 = [⟨0, .read, 0, 0, 0, by decide⟩] ∧
      (final.table 0 0).blockedReadReqCnt = (final.pendingOf .tiny 0 0).countP isRead := by
  obtain ⟨final, run, parked⟩ : ∃ final,
      Relation.ReflTransGen (TableStep .tiny) initial final ∧
        final.blockedByRowAddrDepReqQ 0 = [⟨0, .read, 0, 0, 0, by decide⟩] :=
    ⟨_, .tail (.single (.select ⟨0, .read, 0, 0, 0, by decide⟩ true rfl
        (fun _ => show 0 < availableOutstandingReqCount .tiny by decide) trivial
        fun _ _ => trivial)) (.releaseBuf _ [] [] rfl trivial), rfl⟩
  exact ⟨final, run, parked, (blockedReadReqCnt_of_run .tiny final run).1 0 0⟩

end RwRbuf.Firmware.RowDepQueues
