import Mathlib.Data.List.Count
import RwRbuf.Firmware.RowAddrDep

/-! # The order of flash requests

Every block goes through generations: its pages are programmed in order, then it is
erased.  `replay` follows the requests that were put on the queue of a die through these
generations.  As long as no request overtakes an older erase of its block, the
dependency table keeps the requests in order; a write can overtake one, because its
check ignores the erase flag that the check of a read respects.
-/

namespace RwRbuf.Firmware

open Fallible

/-! ## What the flash has to see -/

/-- One request on a block at generation `pos.1` with `pos.2` pages programmed. -/
def flashStep (geo : Geometry) (pos : Nat × Nat) (req : NandRequest) : Option (Nat × Nat) :=
  if req.generation = pos.1 then
    match req.reqCode with
    | .read => if req.pageNo geo < pos.2 then some pos else none
    | .write => if req.pageNo geo = pos.2 then some (pos.1, pos.2 + 1) else none
    | .erase => if pos.2 = geo.userPagesPerBlock then some (pos.1 + 1, 0) else none
    | _ => none
  else none

def replay (geo : Geometry) (reqs : List NandRequest) : Option (Nat × Nat) :=
  reqs.foldlM (flashStep geo) (0, 0)

namespace RowDepQueues

variable (geo : Geometry) (queues : RowDepQueues)

def blockLog (dieNo blockNo : Nat) : List NandRequest :=
  (queues.nandReqQ dieNo).filter fun req => req.On geo dieNo blockNo

def pendingOf (dieNo blockNo : Nat) : List NandRequest :=
  (queues.blockedByBufDepReqQ ++ queues.blockedByRowAddrDepReqQ dieNo).filter fun req =>
    req.On geo dieNo blockNo

/-- What was put on the queues keeps the order of generations, and no erase left a parked
request of its own or an earlier generation behind. -/
def FlashOrder : Prop :=
  ∀ dieNo blockNo, ∃ pos, replay geo (queues.blockLog geo dieNo blockNo) = some pos ∧
    ∀ req ∈ queues.pendingOf geo dieNo blockNo, pos.1 ≤ req.generation

/-- An erase of the same block that was generated before the request is still parked. -/
def OlderErasePending (req : NandRequest) : Prop :=
  ∃ erase ∈ queues.pendingOf geo (req.dieNo geo) (req.blockNo geo),
    erase.reqCode = .erase ∧ erase.generation < req.generation

instance (req : NandRequest) : Decidable (queues.OlderErasePending geo req) :=
  inferInstanceAs (Decidable (∃ erase ∈ _, _ ∧ _))

/-- The table does not let the request overtake an older erase. -/
def NotOvertaking (req : NandRequest) : Prop :=
  (queues.entryOf geo req).Passes geo req → ¬ queues.OlderErasePending geo req

instance (req : NandRequest) : Decidable (queues.NotOvertaking geo req) :=
  inferInstanceAs (Decidable (_ → _))

end RowDepQueues

/-! ## One block -/

def isRead (req : NandRequest) : Bool := req.reqCode = .read

def isErase (generation : Nat) (req : NandRequest) : Bool :=
  req.reqCode = .erase ∧ req.generation = generation

def isWrite (geo : Geometry) (generation pageNo : Nat) (req : NandRequest) : Bool :=
  req.reqCode = .write ∧ req.generation = generation ∧ req.pageNo geo = pageNo

/-- A block at position `pos` of its own history, with the requests in `pending` on the way
to it.  Of every generation up to the newest, exactly the pages not programmed yet are
pending, and the erase that ends it. -/
structure BlockInvariant (geo : Geometry) (permittedProgPage blockedReadReqCnt : Nat)
    (generated pos : Nat × Nat) (pending : List NandRequest) : Prop where
  permitted : permittedProgPage = pos.2
  reads : blockedReadReqCnt = pending.countP isRead
  pos_le : pos.2 ≤ geo.userPagesPerBlock
  generated_le : generated.2 ≤ geo.userPagesPerBlock
  behind : pos.1 < generated.1 ∨ (pos.1 = generated.1 ∧ pos.2 ≤ generated.2)
  readGeneration : ∀ req ∈ pending, req.reqCode = .read →
    pos.1 ≤ req.generation ∧ req.generation ≤ generated.1
  erases : ∀ generation, pending.countP (isErase generation) =
    if pos.1 ≤ generation ∧ generation < generated.1 then 1 else 0
  eraseCount : ∀ req ∈ pending, req.reqCode = .erase →
    req.programmedPageCnt = geo.userPagesPerBlock
  writes : ∀ generation pageNo, pending.countP (isWrite geo generation pageNo) =
    if (pos.1 < generation ∨ (pos.1 = generation ∧ pos.2 ≤ pageNo)) ∧
        ((generation < generated.1 ∧ pageNo < geo.userPagesPerBlock) ∨
          (generation = generated.1 ∧ pageNo < generated.2)) then 1 else 0

section Block

variable {geo : Geometry} {permitted readCnt : Nat} {generated pos : Nat × Nat}
  {pending : List NandRequest} {req : NandRequest}

theorem NandRequest.pageNo_lt (geo : Geometry) (req : NandRequest) :
    req.pageNo geo < geo.userPagesPerBlock :=
  Nat.mod_lt _ geo.pages_pos

section

variable (invariant : BlockInvariant geo permitted readCnt generated pos pending)
include invariant

theorem BlockInvariant.perm {pending' : List NandRequest} (same : pending.Perm pending') :
    BlockInvariant geo permitted readCnt generated pos pending' := by
  refine ⟨invariant.permitted, ?_, invariant.pos_le, invariant.generated_le, invariant.behind,
    ?_, ?_, ?_, ?_⟩
  · rw [invariant.reads]
    exact same.countP_eq _
  · intro req member
    exact invariant.readGeneration req (same.mem_iff.mpr member)
  · intro generation
    rw [← invariant.erases]
    exact (same.countP_eq _).symm
  · intro req member
    exact invariant.eraseCount req (same.mem_iff.mpr member)
  · intro generation pageNo
    rw [← invariant.writes]
    exact (same.countP_eq _).symm

/-- Every pending request belongs to a generation between the two positions. -/
theorem BlockInvariant.generation_bounds
    (member : req ∈ pending) : pos.1 ≤ req.generation ∧ req.generation ≤ generated.1 := by
  cases code : req.reqCode with
  | read => exact invariant.readGeneration req member code
  | write =>
    have counted := invariant.writes req.generation (req.pageNo geo)
    have positive : 0 < pending.countP (isWrite geo req.generation (req.pageNo geo)) :=
      List.countP_pos_iff.mpr ⟨req, member, by simp [isWrite, code]⟩
    split at counted <;> omega
  | erase =>
    have counted := invariant.erases req.generation
    have positive : 0 < pending.countP (isErase req.generation) :=
      List.countP_pos_iff.mpr ⟨req, member, by simp [isErase, code]⟩
    split at counted <;> omega
  | rxDma => exact absurd code req.nand.1
  | txDma => exact absurd code req.nand.2

theorem BlockInvariant.enter (newest : req.generation = generated.1)
    (nextPage : req.reqCode = .write → req.pageNo geo = generated.2)
    (lastPage : req.reqCode = .erase → generated.2 = geo.userPagesPerBlock ∧
      req.programmedPageCnt = geo.userPagesPerBlock) :
    BlockInvariant geo permitted (readCnt + if req.reqCode = .read then 1 else 0)
      (RowDepQueues.advance req generated) pos (req :: pending) := by
  have pageLt := req.pageNo_lt geo
  have behind := invariant.behind
  have generatedLe := invariant.generated_le
  have reads := invariant.reads
  have readGeneration : ∀ other ∈ req :: pending, other.reqCode = .read →
      pos.1 ≤ other.generation ∧ other.generation ≤ generated.1 :=
    List.forall_mem_cons.2 ⟨fun _ => by omega, invariant.readGeneration⟩
  have eraseCount : ∀ other ∈ req :: pending, other.reqCode = .erase →
      other.programmedPageCnt = geo.userPagesPerBlock :=
    List.forall_mem_cons.2 ⟨fun code => (lastPage code).2, invariant.eraseCount⟩
  cases code : req.reqCode with
  | read =>
    simp only [RowDepQueues.advance, code, if_true]
    refine ⟨invariant.permitted, ?_, invariant.pos_le, generatedLe, behind, readGeneration, ?_,
      eraseCount, ?_⟩
    · rw [List.countP_cons_of_pos (by simp [isRead, code]), reads]
    · intro generation
      rw [List.countP_cons_of_neg (by simp [isErase, code])]
      exact invariant.erases generation
    · intro generation pageNo
      rw [List.countP_cons_of_neg (by simp [isWrite, code])]
      exact invariant.writes generation pageNo
  | write =>
    have page := nextPage code
    simp only [RowDepQueues.advance, code, reduceCtorEq, if_false, Nat.add_zero]
    refine ⟨invariant.permitted, ?_, invariant.pos_le, by simp only; omega,
      by simp only; omega, readGeneration, ?_, eraseCount, ?_⟩
    · rw [List.countP_cons_of_neg (by simp [isRead, code]), reads]
    · intro generation
      rw [List.countP_cons_of_neg (by simp [isErase, code])]
      exact invariant.erases generation
    · intro generation pageNo
      have old := invariant.writes generation pageNo
      by_cases here : generation = generated.1 ∧ pageNo = generated.2
      · rw [List.countP_cons_of_pos (by simp [isWrite, code, newest, page, here]), old,
          if_neg (by omega), if_pos (by simp only; omega)]
      · rw [List.countP_cons_of_neg (by simp [isWrite, code, newest, page]; omega), old]
        refine if_congr ?_ rfl rfl
        simp only
        omega
  | erase =>
    obtain ⟨allPages, count⟩ := lastPage code
    simp only [RowDepQueues.advance, code, reduceCtorEq, if_false, Nat.add_zero]
    refine ⟨invariant.permitted, ?_, invariant.pos_le, Nat.zero_le _,
      by simp only; omega, ?_, ?_, eraseCount, ?_⟩
    · rw [List.countP_cons_of_neg (by simp [isRead, code]), reads]
    · intro other member isReadCode
      have := readGeneration other member isReadCode
      simp only
      omega
    · intro generation
      have old := invariant.erases generation
      by_cases here : generation = generated.1
      · rw [List.countP_cons_of_pos (by simp [isErase, code, newest, here]), old,
          if_neg (by omega), if_pos (by simp only; omega)]
      · rw [List.countP_cons_of_neg (by simp [isErase, code, newest]; omega), old]
        refine if_congr ?_ rfl rfl
        simp only
        omega
    · intro generation pageNo
      rw [List.countP_cons_of_neg (by simp [isWrite, code]), invariant.writes]
      refine if_congr ?_ rfl rfl
      simp only
      omega
  | rxDma => exact absurd code req.nand.1
  | txDma => exact absurd code req.nand.2

end

/-- A request without an older erase ahead of it belongs to the current generation. -/
theorem BlockInvariant.current
    (invariant : BlockInvariant geo permitted readCnt generated pos (req :: pending))
    (noOlder : ∀ erase ∈ pending, erase.reqCode = .erase →
      ¬ erase.generation < req.generation) : req.generation = pos.1 := by
  obtain ⟨lower, upper⟩ := invariant.generation_bounds List.mem_cons_self
  by_contra different
  have counted := invariant.erases pos.1
  rw [if_pos (by omega)] at counted
  have notSelf : isErase pos.1 req = false := by
    simp [isErase, different]
  rw [List.countP_cons_of_neg (by simp [notSelf])] at counted
  obtain ⟨erase, member, isEraseHere⟩ :=
    List.countP_pos_iff.mp (show 0 < pending.countP (isErase pos.1) by omega)
  simp only [isErase, decide_eq_true_eq] at isEraseHere
  exact noOlder erase member isEraseHere.1 (by omega)

/-- A request that the table lets pass, with no older erase ahead of it, is the one that
the block needs next. -/
theorem BlockInvariant.leave {entry : RowAddrDepEntry}
    (invariant : BlockInvariant geo entry.permittedProgPage entry.blockedReadReqCnt generated pos
      (req :: pending))
    (countBound : entry.blockedReadReqCnt < 2 ^ 16) (passes : entry.Passes geo req)
    (noOlder : ∀ erase ∈ pending, erase.reqCode = .erase →
      ¬ erase.generation < req.generation) :
    ∃ pos', flashStep geo pos req = some pos' ∧
      BlockInvariant geo (entry.passed req .release).permittedProgPage
        (entry.passed req .release).blockedReadReqCnt generated pos' pending := by
  have current := invariant.current noOlder
  have reads := invariant.reads
  have posLe := invariant.pos_le
  have permittedEq := invariant.permitted
  have behind := invariant.behind
  have pageLt := req.pageNo_lt geo
  have pagesFit := geo.pages_fit
  have readGeneration := (List.forall_mem_cons.1 invariant.readGeneration).2
  have eraseCount := (List.forall_mem_cons.1 invariant.eraseCount).2
  cases code : req.reqCode with
  | read =>
    simp only [RowAddrDepEntry.Passes, code] at passes
    rw [List.countP_cons_of_pos (by simp [isRead, code])] at reads
    refine ⟨pos, by simp only [flashStep, current, if_true, code]; rw [if_pos (by omega)], ?_⟩
    simp only [RowAddrDepEntry.passed, code]
    refine ⟨permittedEq, by omega, posLe, invariant.generated_le, behind, readGeneration, ?_,
      eraseCount, ?_⟩
    · intro generation
      have old := invariant.erases generation
      rwa [List.countP_cons_of_neg (by simp [isErase, code])] at old
    · intro generation pageNo
      have old := invariant.writes generation pageNo
      rwa [List.countP_cons_of_neg (by simp [isWrite, code])] at old
  | write =>
    simp only [RowAddrDepEntry.Passes, code] at passes
    rw [List.countP_cons_of_neg (by simp [isRead, code])] at reads
    -- The page is pending once, so no other request for it stays behind.
    have counted := invariant.writes pos.1 pos.2
    rw [List.countP_cons_of_pos (by simp [isWrite, code, current]; omega)] at counted
    refine ⟨(pos.1, pos.2 + 1),
      by simp only [flashStep, current, if_true, code]; rw [if_pos (by omega)], ?_⟩
    simp only [RowAddrDepEntry.passed, code]
    rw [Nat.mod_eq_of_lt (by omega)]
    split at counted
    · rename_i inStream
      refine ⟨by simp only; omega, reads, by simp only; omega, invariant.generated_le,
        by simp only; omega, readGeneration, ?_, eraseCount, ?_⟩
      · intro generation
        have old := invariant.erases generation
        rwa [List.countP_cons_of_neg (by simp [isErase, code])] at old
      · intro generation pageNo
        have old := invariant.writes generation pageNo
        by_cases here : generation = pos.1 ∧ pageNo = pos.2
        · obtain ⟨rfl, rfl⟩ := here
          rw [if_neg (by simp only; omega)]
          omega
        · rw [List.countP_cons_of_neg (by simp [isWrite, code, current]; omega)] at old
          rw [old]
          refine if_congr ?_ rfl rfl
          simp only
          omega
    · omega
  | erase =>
    simp only [RowAddrDepEntry.Passes, code] at passes
    rw [List.countP_cons_of_neg (by simp [isRead, code])] at reads
    have count := invariant.eraseCount req List.mem_cons_self code
    have noReads : pending.countP isRead = 0 := by omega
    -- The erase of this generation is pending once.
    have counted := invariant.erases pos.1
    rw [List.countP_cons_of_pos (by simp [isErase, code, current])] at counted
    refine ⟨(pos.1 + 1, 0),
      by simp only [flashStep, current, if_true, code]; rw [if_pos (by omega)], ?_⟩
    simp only [RowAddrDepEntry.passed, code]
    split at counted
    · rename_i inStream
      refine ⟨rfl, reads, Nat.zero_le _, invariant.generated_le, by simp only; omega, ?_, ?_,
        eraseCount, ?_⟩
      · intro other member isReadCode
        have := List.countP_eq_zero.mp noReads other member
        simp [isRead, isReadCode] at this
      · intro generation
        have old := invariant.erases generation
        by_cases here : generation = pos.1
        · rw [here, if_neg (by simp only; omega)]
          omega
        · rw [List.countP_cons_of_neg (by simp [isErase, code, current]; omega)] at old
          rw [old]
          refine if_congr ?_ rfl rfl
          simp only
          omega
      · intro generation pageNo
        have old := invariant.writes generation pageNo
        rw [List.countP_cons_of_neg (by simp [isWrite, code])] at old
        rw [old]
        refine if_congr ?_ rfl rfl
        simp only
        omega
    · omega
  | rxDma => exact absurd code req.nand.1
  | txDma => exact absurd code req.nand.2

end Block

/-! ## All blocks -/

namespace RowAddrDepEntry

variable {geo : Geometry} {entry : RowAddrDepEntry} {req : NandRequest}

theorem passes_blocked (opt : CheckRowAddrDepOpt) :
    (entry.blocked req opt).Passes geo req ↔ entry.Passes geo req := by
  cases code : req.reqCode <;> cases opt <;> simp [Passes, blocked, code]

/-- Passing at once is the same as being held back and then passing. -/
theorem passed_blocked (countBound : entry.blockedReadReqCnt < 2 ^ 16) :
    (entry.blocked req .select).passed req .release = entry.passed req .select := by
  cases code : req.reqCode with
  | read =>
    have : ((entry.blockedReadReqCnt + 1) % 2 ^ 16 + (2 ^ 16 - 1)) % 2 ^ 16 =
        entry.blockedReadReqCnt := by omega
    simp only [passed, blocked, code, this]
  | write | erase | rxDma | txDma => simp [passed, blocked, code]

@[simp] theorem blocked_release : entry.blocked req .release = entry := by
  cases code : req.reqCode <;> simp [blocked, code]

@[simp] theorem blocked_permittedProgPage (opt : CheckRowAddrDepOpt) :
    (entry.blocked req opt).permittedProgPage = entry.permittedProgPage := by
  cases code : req.reqCode <;> cases opt <;> simp [blocked, code]

theorem blocked_blockedReadReqCnt (countBound : entry.blockedReadReqCnt + 1 < 2 ^ 16) :
    (entry.blocked req .select).blockedReadReqCnt =
      entry.blockedReadReqCnt + if req.reqCode = .read then 1 else 0 := by
  cases code : req.reqCode with
  | read =>
    simp only [blocked, code, if_true]
    omega
  | write | erase | rxDma | txDma => simp [blocked, code]

end RowAddrDepEntry

namespace RowDepQueues

variable {geo : Geometry} {queues : RowDepQueues} {req : NandRequest}

@[simp] theorem setEntry_table (entry : RowAddrDepEntry) (dieNo blockNo : Nat) :
    (queues.setEntry geo req entry).table dieNo blockNo =
      if req.On geo dieNo blockNo then entry else queues.table dieNo blockNo := by
  unfold setEntry NandRequest.On
  by_cases sameDie : req.dieNo geo = dieNo
  · by_cases sameBlock : req.blockNo geo = blockNo
    · simp [sameDie, sameBlock]
    · simp [sameDie, sameBlock, Function.update_of_ne (Ne.symm sameBlock)]
  · simp [sameDie, Function.update_of_ne (Ne.symm sameDie)]

theorem generate_generated (dieNo blockNo : Nat) :
    (queues.generate geo req).generated dieNo blockNo =
      if req.On geo dieNo blockNo then advance req (queues.generated dieNo blockNo)
      else queues.generated dieNo blockNo := by
  unfold generate NandRequest.On
  by_cases sameDie : req.dieNo geo = dieNo
  · by_cases sameBlock : req.blockNo geo = blockNo
    · simp [sameDie, sameBlock]
    · simp [sameDie, sameBlock, Function.update_of_ne (Ne.symm sameBlock)]
  · simp [sameDie, Function.update_of_ne (Ne.symm sameDie)]

theorem setEntry_setEntry (first second : RowAddrDepEntry) :
    (queues.setEntry geo req first).setEntry geo req second = queues.setEntry geo req second := by
  simp [setEntry]

theorem setEntry_self : queues.setEntry geo req (queues.entryOf geo req) = queues := by
  simp [setEntry, entryOf]

theorem blockLog_putToNandReqQ (dieNo blockNo : Nat) :
    (queues.putToNandReqQ geo req).blockLog geo dieNo blockNo =
      queues.blockLog geo dieNo blockNo ++
        if req.On geo dieNo blockNo then [req] else [] := by
  unfold blockLog putToNandReqQ
  by_cases sameDie : req.dieNo geo = dieNo
  · by_cases on : req.On geo dieNo blockNo <;> simp [sameDie, on]
  · have notOn : ¬ req.On geo dieNo blockNo := fun on => sameDie on.1
    simp [Function.update_of_ne (Ne.symm sameDie), notOn]

theorem pendingOf_putToBlockedByRow (dieNo blockNo : Nat) :
    (queues.putToBlockedByRowAddrDepReqQ geo req).pendingOf geo dieNo blockNo =
      queues.pendingOf geo dieNo blockNo ++
        if req.On geo dieNo blockNo then [req] else [] := by
  unfold pendingOf putToBlockedByRowAddrDepReqQ
  by_cases sameDie : req.dieNo geo = dieNo
  · by_cases on : req.On geo dieNo blockNo <;> simp [sameDie, on]
  · have notOn : ¬ req.On geo dieNo blockNo := fun on => sameDie on.1
    simp [Function.update_of_ne (Ne.symm sameDie), notOn]

theorem pendingOf_putToBlockedByBuf (dieNo blockNo : Nat) :
    ((queues.putToBlockedByBufDepReqQ req).pendingOf geo dieNo blockNo).Perm
      ((if req.On geo dieNo blockNo then [req] else []) ++
        queues.pendingOf geo dieNo blockNo) := by
  unfold pendingOf putToBlockedByBufDepReqQ
  by_cases on : req.On geo dieNo blockNo <;> simp [on]

private theorem perm_take {before after rest : List NandRequest} (dieNo blockNo : Nat) :
    ((before ++ req :: after ++ rest).filter fun req => req.On geo dieNo blockNo).Perm
      ((if req.On geo dieNo blockNo then [req] else []) ++
        (before ++ after ++ rest).filter fun req => req.On geo dieNo blockNo) := by
  by_cases on : req.On geo dieNo blockNo <;> simp [on]

variable {before after : List NandRequest}

theorem pendingOf_takeBuf
    (split : queues.blockedByBufDepReqQ = before ++ req :: after) (dieNo blockNo : Nat) :
    (queues.pendingOf geo dieNo blockNo).Perm
      ((if req.On geo dieNo blockNo then [req] else []) ++
        (queues.getFromBlockedByBufDepReqQ before after).pendingOf geo dieNo blockNo) := by
  have taken := @perm_take geo req before after (queues.blockedByRowAddrDepReqQ dieNo)
    dieNo blockNo
  simpa [pendingOf, getFromBlockedByBufDepReqQ, split] using taken

theorem pendingOf_takeRow
    (split : queues.blockedByRowAddrDepReqQ (req.dieNo geo) = before ++ req :: after)
    (dieNo blockNo : Nat) :
    (queues.pendingOf geo dieNo blockNo).Perm
      ((if req.On geo dieNo blockNo then [req] else []) ++
        (queues.getFromBlockedByRowAddrDepReqQ geo req before after).pendingOf geo dieNo
          blockNo) := by
  by_cases same : dieNo = req.dieNo geo
  · subst same
    have taken := @perm_take geo req (queues.blockedByBufDepReqQ ++ before) after []
      (req.dieNo geo) blockNo
    simpa [pendingOf, getFromBlockedByRowAddrDepReqQ, split] using taken
  · have notOn : ¬ req.On geo dieNo blockNo := fun on => same on.1.symm
    simp [pendingOf, getFromBlockedByRowAddrDepReqQ, Function.update_of_ne same, notOn]

section

variable (rowDie : ∀ dieNo, ∀ req ∈ queues.blockedByRowAddrDepReqQ dieNo, req.dieNo geo = dieNo)
include rowDie

theorem rowDie_putToBlockedByRow :
    ∀ dieNo, ∀ other ∈
      (queues.putToBlockedByRowAddrDepReqQ geo req).blockedByRowAddrDepReqQ dieNo,
        other.dieNo geo = dieNo := by
  intro dieNo other member
  by_cases same : dieNo = req.dieNo geo
  · subst same
    simp only [putToBlockedByRowAddrDepReqQ, Function.update_self, List.mem_append,
      List.mem_singleton] at member
    rcases member with old | rfl
    · exact rowDie _ other old
    · rfl
  · simp only [putToBlockedByRowAddrDepReqQ, Function.update_of_ne same] at member
    exact rowDie dieNo other member

theorem rowDie_takeRow
    (split : queues.blockedByRowAddrDepReqQ (req.dieNo geo) = before ++ req :: after) :
    ∀ dieNo, ∀ other ∈
      (queues.getFromBlockedByRowAddrDepReqQ geo req before after).blockedByRowAddrDepReqQ dieNo,
        other.dieNo geo = dieNo := by
  intro dieNo other member
  by_cases same : dieNo = req.dieNo geo
  · subst same
    apply rowDie _ other
    rw [split]
    simp only [getFromBlockedByRowAddrDepReqQ, Function.update_self, List.mem_append] at member
    rcases member with inBefore | inAfter
    · simp [inBefore]
    · simp [inAfter]
  · simp only [getFromBlockedByRowAddrDepReqQ, Function.update_of_ne same] at member
    exact rowDie dieNo other member

end

/-- The invariant of all blocks, while the request `inHand` is on no queue. -/
structure Ordered (geo : Geometry) (queues : RowDepQueues) (inHand : Option NandRequest) :
    Prop where
  block : ∀ dieNo blockNo, ∃ pos,
    replay geo (queues.blockLog geo dieNo blockNo) = some pos ∧
      BlockInvariant geo (queues.table dieNo blockNo).permittedProgPage
        (queues.table dieNo blockNo).blockedReadReqCnt (queues.generated dieNo blockNo) pos
        (inHand.toList.filter (fun req => req.On geo dieNo blockNo) ++
          queues.pendingOf geo dieNo blockNo)
  rowDie : ∀ dieNo, ∀ req ∈ queues.blockedByRowAddrDepReqQ dieNo, req.dieNo geo = dieNo

/-- The parked requests, and `extra` more, fit into the request pool. -/
def Fits (geo : Geometry) (queues : RowDepQueues) (extra : Nat) : Prop :=
  ∀ dieNo, queues.blockedByBufDepReqQ.length + (queues.blockedByRowAddrDepReqQ dieNo).length +
    extra ≤ availableOutstandingReqCount geo

/-- A counter is far from its largest value, because parked requests hold slots. -/
theorem Fits.countP_lt (fits : queues.Fits geo 0) (inHand : Option NandRequest)
    (dieNo blockNo : Nat) :
    (inHand.toList.filter (fun req => req.On geo dieNo blockNo) ++
      queues.pendingOf geo dieNo blockNo).countP isRead + 1 < 2 ^ 16 := by
  have counted := (List.countP_le_length (p := isRead)
    (l := inHand.toList.filter (fun req => req.On geo dieNo blockNo) ++
      queues.pendingOf geo dieNo blockNo))
  have inHandLe := List.length_filter_le (fun req : NandRequest => req.On geo dieNo blockNo)
    inHand.toList
  have pendingLe : (queues.pendingOf geo dieNo blockNo).length ≤
      (queues.blockedByBufDepReqQ ++ queues.blockedByRowAddrDepReqQ dieNo).length :=
    List.length_filter_le _ _
  have handLe : inHand.toList.length ≤ 1 := by
    cases inHand <;> simp
  have poolLe := fits dieNo
  have diesFit : geo.userDies ≤ 2 ^ 8 := geo.dies_fit
  rw [List.length_append] at counted pendingLe
  unfold availableOutstandingReqCount at poolLe
  omega

theorem Ordered.countBound {inHand : Option NandRequest} (ordered : queues.Ordered geo inHand)
    (fits : queues.Fits geo 0) (dieNo blockNo : Nat) :
    (queues.table dieNo blockNo).blockedReadReqCnt + 1 < 2 ^ 16 := by
  obtain ⟨_, _, invariant⟩ := ordered.block dieNo blockNo
  rw [invariant.reads]
  exact fits.countP_lt inHand dieNo blockNo

theorem filter_toList_some (dieNo blockNo : Nat) :
    (some req).toList.filter (fun req => req.On geo dieNo blockNo) =
      if req.On geo dieNo blockNo then [req] else [] := by
  by_cases on : req.On geo dieNo blockNo <;> simp [on]

/-- A request enters the stream: it is counted, and then in hand. -/
theorem Ordered.enter (ordered : queues.Ordered geo none) (fits : queues.Fits geo 0)
    (legal : queues.Legal geo req) :
    ((queues.generate geo req).setEntry geo req
      ((queues.entryOf geo req).blocked req .select)).Ordered geo (some req) := by
  refine ⟨?_, ordered.rowDie⟩
  intro dieNo blockNo
  obtain ⟨pos, replayed, invariant⟩ := ordered.block dieNo blockNo
  refine ⟨pos, replayed, ?_⟩
  rw [setEntry_table, filter_toList_some]
  change BlockInvariant geo _ _ ((queues.generate geo req).generated dieNo blockNo) pos
    (_ ++ queues.pendingOf geo dieNo blockNo)
  rw [generate_generated]
  by_cases on : req.On geo dieNo blockNo
  · obtain ⟨newest, kind⟩ := legal
    simp only [if_pos on]
    have bound := ordered.countBound fits dieNo blockNo
    have entryEq : queues.entryOf geo req = queues.table dieNo blockNo := by
      rw [entryOf, on.1, on.2]
    rw [on.1, on.2] at newest kind
    rw [entryEq, RowAddrDepEntry.blocked_permittedProgPage,
      RowAddrDepEntry.blocked_blockedReadReqCnt bound]
    refine invariant.enter newest ?_ ?_
    · intro code
      rw [code] at kind
      exact kind
    · intro code
      rw [code] at kind
      exact kind
  · simp only [if_neg on]
    exact invariant

section

variable (ordered : queues.Ordered geo (some req))
include ordered

theorem Ordered.parkRow : (queues.putToBlockedByRowAddrDepReqQ geo req).Ordered geo none := by
  refine ⟨?_, rowDie_putToBlockedByRow ordered.rowDie⟩
  intro dieNo blockNo
  obtain ⟨pos, replayed, invariant⟩ := ordered.block dieNo blockNo
  refine ⟨pos, replayed, invariant.perm ?_⟩
  rw [pendingOf_putToBlockedByRow, filter_toList_some]
  exact List.perm_append_comm

theorem Ordered.parkBuf : (queues.putToBlockedByBufDepReqQ req).Ordered geo none := by
  refine ⟨?_, ordered.rowDie⟩
  intro dieNo blockNo
  obtain ⟨pos, replayed, invariant⟩ := ordered.block dieNo blockNo
  refine ⟨pos, replayed, invariant.perm ?_⟩
  rw [filter_toList_some]
  exact (pendingOf_putToBlockedByBuf dieNo blockNo).symm

theorem Ordered.issue (countBound : (queues.entryOf geo req).blockedReadReqCnt < 2 ^ 16)
    (passes : (queues.entryOf geo req).Passes geo req)
    (notOlder : ¬ queues.OlderErasePending geo req) :
    ((queues.setEntry geo req ((queues.entryOf geo req).passed req .release)).putToNandReqQ geo
      req).Ordered geo none := by
  refine ⟨?_, ordered.rowDie⟩
  intro dieNo blockNo
  obtain ⟨pos, replayed, invariant⟩ := ordered.block dieNo blockNo
  rw [filter_toList_some] at invariant
  rw [blockLog_putToNandReqQ]
  change ∃ pos', replay geo (queues.blockLog geo dieNo blockNo ++ _) = some pos' ∧
    BlockInvariant geo ((queues.setEntry geo req _).table dieNo blockNo).permittedProgPage
      ((queues.setEntry geo req _).table dieNo blockNo).blockedReadReqCnt
      (queues.generated dieNo blockNo) pos' (queues.pendingOf geo dieNo blockNo)
  rw [setEntry_table]
  by_cases on : req.On geo dieNo blockNo
  · rw [if_pos on] at invariant
    rw [if_pos on, if_pos on]
    have entryEq : queues.entryOf geo req = queues.table dieNo blockNo := by
      rw [entryOf, on.1, on.2]
    rw [entryEq] at countBound passes ⊢
    obtain ⟨pos', stepped, invariant'⟩ := invariant.leave countBound passes (by
      intro erase member isEraseCode older
      refine notOlder ⟨erase, ?_, isEraseCode, older⟩
      rw [on.1, on.2]
      exact member)
    refine ⟨pos', ?_, invariant'⟩
    rw [replay, List.foldlM_append, ← replay, replayed]
    simpa using stepped
  · rw [if_neg on] at invariant
    rw [if_neg on, if_neg on, List.append_nil]
    exact ⟨pos, replayed, invariant⟩

theorem Ordered.checkAndPut_release (fits : queues.Fits geo 0)
    (notOvertaking : (queues.entryOf geo req).Passes geo req →
      ¬ queues.OlderErasePending geo req) :
    (queues.checkAndPut geo req .release).Ordered geo none := by
  have countBound := ordered.countBound fits (req.dieNo geo) (req.blockNo geo)
  unfold checkAndPut RowAddrDepEntry.checkRowAddrDep
  by_cases passes : (queues.entryOf geo req).Passes geo req
  · simp only [if_pos passes, if_true]
    exact ordered.issue (Nat.lt_of_succ_lt countBound) passes (notOvertaking passes)
  · simp only [if_neg passes, Bool.false_eq_true, if_false, RowAddrDepEntry.blocked_release,
      setEntry_self]
    exact ordered.parkRow

end

theorem Ordered.selectNow (ordered : queues.Ordered geo none) (fits : queues.Fits geo 0)
    (legal : queues.Legal geo req) (bufBlocked : Bool)
    (notOvertaking : bufBlocked = false → (queues.generate geo req).NotOvertaking geo req) :
    ((queues.generate geo req).selectNow geo req bufBlocked).Ordered geo none := by
  have countBound : (queues.entryOf geo req).blockedReadReqCnt < 2 ^ 16 :=
    Nat.lt_of_succ_lt (ordered.countBound fits (req.dieNo geo) (req.blockNo geo))
  have entered := ordered.enter fits legal
  have sameEntry : (queues.generate geo req).entryOf geo req = queues.entryOf geo req := rfl
  unfold RowDepQueues.selectNow
  cases bufBlocked with
  | true =>
    rw [if_pos rfl, RowAddrDepEntry.updateRowAddrDepTableForBufBlockedReq, sameEntry]
    exact entered.parkBuf
  | false =>
    rw [if_neg Bool.false_ne_true]
    unfold checkAndPut RowAddrDepEntry.checkRowAddrDep
    rw [sameEntry]
    by_cases passes : (queues.entryOf geo req).Passes geo req
    · simp only [if_pos passes, if_true]
      have newEntry : ((queues.generate geo req).setEntry geo req
          ((queues.entryOf geo req).blocked req .select)).entryOf geo req =
            (queues.entryOf geo req).blocked req .select := by
        rw [entryOf, setEntry_table, if_pos ⟨rfl, rfl⟩]
      have issued := entered.issue (by
          have := entered.countBound fits (req.dieNo geo) (req.blockNo geo)
          exact Nat.lt_of_succ_lt this)
        (by rw [newEntry, RowAddrDepEntry.passes_blocked]; exact passes)
        (notOvertaking rfl passes)
      rwa [newEntry, RowAddrDepEntry.passed_blocked countBound, setEntry_setEntry] at issued
    · simp only [if_neg passes, Bool.false_eq_true, if_false]
      exact entered.parkRow

/-- A request that leaves the queue of its buffer entry is in hand. -/
theorem Ordered.takeBuf (ordered : queues.Ordered geo none)
    (split : queues.blockedByBufDepReqQ = before ++ req :: after) :
    (queues.getFromBlockedByBufDepReqQ before after).Ordered geo (some req) := by
  refine ⟨?_, ordered.rowDie⟩
  intro dieNo blockNo
  obtain ⟨pos, replayed, invariant⟩ := ordered.block dieNo blockNo
  refine ⟨pos, replayed, invariant.perm ?_⟩
  rw [filter_toList_some]
  exact pendingOf_takeBuf split dieNo blockNo

theorem Ordered.takeRow (ordered : queues.Ordered geo none)
    (split : queues.blockedByRowAddrDepReqQ (req.dieNo geo) = before ++ req :: after) :
    (queues.getFromBlockedByRowAddrDepReqQ geo req before after).Ordered geo (some req) := by
  refine ⟨?_, rowDie_takeRow ordered.rowDie split⟩
  intro dieNo blockNo
  obtain ⟨pos, replayed, invariant⟩ := ordered.block dieNo blockNo
  refine ⟨pos, replayed, invariant.perm ?_⟩
  rw [filter_toList_some]
  exact pendingOf_takeRow split dieNo blockNo

/-- The request in hand does not count as an older erase of its own. -/
private theorem olderErasePending_takeBuf
    (split : queues.blockedByBufDepReqQ = before ++ req :: after)
    (older : (queues.getFromBlockedByBufDepReqQ before after).OlderErasePending geo req) :
    queues.OlderErasePending geo req := by
  obtain ⟨erase, member, facts⟩ := older
  refine ⟨erase, ?_, facts⟩
  simp only [pendingOf, getFromBlockedByBufDepReqQ, split, List.mem_filter, List.mem_append,
    List.mem_cons] at member ⊢
  tauto

private theorem olderErasePending_takeRow
    (split : queues.blockedByRowAddrDepReqQ (req.dieNo geo) = before ++ req :: after)
    (older : (queues.getFromBlockedByRowAddrDepReqQ geo req before after).OlderErasePending geo
      req) :
    queues.OlderErasePending geo req := by
  obtain ⟨erase, member, facts⟩ := older
  refine ⟨erase, ?_, facts⟩
  simp only [pendingOf, getFromBlockedByRowAddrDepReqQ, split, Function.update_self,
    List.mem_filter, List.mem_append, List.mem_cons] at member ⊢
  tauto

/-! ## Runs -/

@[simp] theorem checkAndPut_waiting (opt : CheckRowAddrDepOpt) :
    (queues.checkAndPut geo req opt).waiting = queues.waiting := by
  unfold checkAndPut
  simp only
  split <;> rfl

@[simp] theorem checkAndPut_generated (opt : CheckRowAddrDepOpt) :
    (queues.checkAndPut geo req opt).generated = queues.generated := by
  unfold checkAndPut
  simp only
  split <;> rfl

@[simp] theorem recheck_waiting (before after : List NandRequest) :
    (queues.recheck geo req before after).waiting = queues.waiting := by
  unfold recheck
  simp only
  split <;> rfl

@[simp] theorem recheck_generated (before after : List NandRequest) :
    (queues.recheck geo req before after).generated = queues.generated := by
  unfold recheck
  simp only
  split <;> rfl

@[simp] theorem selectNow_waiting (bufBlocked : Bool) :
    (queues.selectNow geo req bufBlocked).waiting = queues.waiting := by
  unfold selectNow
  split
  · rfl
  · simp

variable {extra : Nat}

theorem Fits.checkAndPut (fits : queues.Fits geo (extra + 1))
    (opt : CheckRowAddrDepOpt) : (queues.checkAndPut geo req opt).Fits geo extra := by
  intro dieNo
  have old := fits dieNo
  unfold RowDepQueues.checkAndPut
  simp only
  split
  · change queues.blockedByBufDepReqQ.length + (queues.blockedByRowAddrDepReqQ dieNo).length +
      extra ≤ _
    omega
  · by_cases same : dieNo = req.dieNo geo
    · subst same
      simp only [putToBlockedByRowAddrDepReqQ, setEntry, Function.update_self, List.length_append,
        List.length_singleton]
      omega
    · simp only [putToBlockedByRowAddrDepReqQ, setEntry, Function.update_of_ne same]
      omega

theorem Fits.selectNow (fits : queues.Fits geo (extra + 1)) (bufBlocked : Bool) :
    (queues.selectNow geo req bufBlocked).Fits geo extra := by
  unfold RowDepQueues.selectNow
  split
  · intro dieNo
    have old := fits dieNo
    simp only [putToBlockedByBufDepReqQ, setEntry, List.length_append, List.length_singleton]
    omega
  · exact fits.checkAndPut .select

theorem Fits.takeBuf (fits : queues.Fits geo extra)
    (split : queues.blockedByBufDepReqQ = before ++ req :: after) :
    (queues.getFromBlockedByBufDepReqQ before after).Fits geo (extra + 1) := by
  intro dieNo
  have old := fits dieNo
  rw [split] at old
  simp only [getFromBlockedByBufDepReqQ, List.length_append, List.length_cons] at old ⊢
  omega

theorem Fits.recheck (fits : queues.Fits geo extra)
    (split : queues.blockedByRowAddrDepReqQ (req.dieNo geo) = before ++ req :: after) :
    (queues.recheck geo req before after).Fits geo extra := by
  intro dieNo
  have old := fits dieNo
  unfold RowDepQueues.recheck
  simp only
  split_ifs
  · by_cases same : dieNo = req.dieNo geo
    · subst same
      rw [split] at old
      simp only [putToNandReqQ, getFromBlockedByRowAddrDepReqQ, setEntry, Function.update_self,
        List.length_append, List.length_cons] at old ⊢
      omega
    · simpa only [putToNandReqQ, getFromBlockedByRowAddrDepReqQ, setEntry,
        Function.update_of_ne same] using old
  · exact old

theorem Fits.mono {extra extra' : Nat} (fits : queues.Fits geo extra) (le : extra' ≤ extra) :
    queues.Fits geo extra' := by
  intro dieNo
  have := fits dieNo
  omega

theorem generate_read (code : req.reqCode = .read) : queues.generate geo req = queues := by
  simp [generate, advance, code]

structure Sound (geo : Geometry) (queues : RowDepQueues) : Prop where
  ordered : queues.Ordered geo none
  fits : queues.Fits geo (if queues.waiting.isSome then 1 else 0)
  waiting : ∀ req bufBlocked, queues.waiting = some (req, bufBlocked) →
    req.reqCode = .read ∧ queues.Legal geo req

theorem sound_initial : initial.Sound geo := by
  refine ⟨⟨?_, ?_⟩, ?_, ?_⟩
  · intro dieNo blockNo
    refine ⟨(0, 0), rfl, ?_⟩
    refine ⟨rfl, rfl, Nat.zero_le _, Nat.zero_le _, Or.inr ⟨rfl, le_rfl⟩, ?_, ?_, ?_, ?_⟩
    · intro req member
      cases member
    · intro generation
      rw [if_neg (by simp [initial])]
      rfl
    · intro req member
      cases member
    · intro generation pageNo
      rw [if_neg (by simp [initial])]
      rfl
  · intro dieNo req member
    cases member
  · intro dieNo
    simp [initial]
  · intro req bufBlocked impossible
    cases impossible

theorem Sound.step {queues' : RowDepQueues} (sound : queues.Sound geo)
    (step : Step geo (NotOvertaking geo) queues queues') : queues'.Sound geo := by
  have fits : queues.Fits geo 0 := sound.fits.mono (Nat.zero_le _)
  cases step with
  | select req bufBlocked idle slotLeft legal notOvertaking =>
    have fitsOne : queues.Fits geo 1 := slotLeft
    unfold selectLowLevelReqQ
    by_cases mustWait : (queues.generate geo req).MustWait geo req
    · rw [if_pos mustWait, generate_read mustWait.1]
      refine ⟨⟨sound.ordered.block, sound.ordered.rowDie⟩, fitsOne, ?_⟩
      rintro other wasBlocked isWaiting
      cases isWaiting
      exact ⟨mustWait.1, legal⟩
    · rw [if_neg mustWait]
      have waitingNone :
          ((queues.generate geo req).selectNow geo req bufBlocked).waiting = none := by
        rw [selectNow_waiting]
        exact idle
      refine ⟨sound.ordered.selectNow fits legal bufBlocked fun notBlocked =>
        notOvertaking notBlocked mustWait, ?_, ?_⟩
      · rw [waitingNone]
        have generatedFits : (queues.generate geo req).Fits geo 1 := fitsOne
        exact generatedFits.selectNow bufBlocked
      · intro other wasBlocked isWaiting
        rw [waitingNone] at isWaiting
        cases isWaiting
  | resume req wasBlocked bufBlocked isWaiting flagClear stillBlocked notOvertaking =>
    obtain ⟨code, legal⟩ := sound.waiting req wasBlocked isWaiting
    have fitsOne : queues.Fits geo 1 := by
      have := sound.fits
      rwa [isWaiting] at this
    have resumed : { queues with waiting := none }.Ordered geo none :=
      ⟨sound.ordered.block, sound.ordered.rowDie⟩
    have selected := resumed.selectNow fits legal bufBlocked (by
      rw [generate_read code]
      exact notOvertaking)
    rw [generate_read code] at selected
    refine ⟨selected, ?_, ?_⟩
    · rw [selectNow_waiting]
      have resumedFits : { queues with waiting := none }.Fits geo 1 := fitsOne
      exact resumedFits.selectNow bufBlocked
    · intro other otherBlocked isWaiting'
      rw [selectNow_waiting] at isWaiting'
      cases isWaiting'
  | releaseBuf req before after split notOvertaking =>
    have taken := sound.ordered.takeBuf split
    refine ⟨taken.checkAndPut_release ((fits.takeBuf split).mono (Nat.zero_le _)) ?_, ?_, ?_⟩
    · intro passes older
      exact notOvertaking passes (olderErasePending_takeBuf split older)
    · unfold releaseBlockedByBufDepReq
      rw [checkAndPut_waiting]
      exact (sound.fits.takeBuf split).checkAndPut .release
    · intro other wasBlocked isWaiting
      unfold releaseBlockedByBufDepReq at isWaiting ⊢
      rw [checkAndPut_waiting] at isWaiting
      unfold Legal
      rw [checkAndPut_generated]
      exact sound.waiting other wasBlocked isWaiting
  | releaseRow req before after split notOvertaking =>
    refine ⟨?_, ?_, ?_⟩
    · have taken := sound.ordered.takeRow split
      unfold recheck RowAddrDepEntry.checkRowAddrDep
      by_cases passes : (queues.entryOf geo req).Passes geo req
      · simp only [if_pos passes, if_true]
        exact taken.issue (Nat.lt_of_succ_lt (sound.ordered.countBound fits _ _)) passes
          fun older => notOvertaking passes (olderErasePending_takeRow split older)
      · simp only [if_neg passes, Bool.false_eq_true, if_false,
          RowAddrDepEntry.blocked_release, setEntry_self]
        exact sound.ordered
    · rw [recheck_waiting]
      exact sound.fits.recheck split
    · intro other wasBlocked isWaiting
      rw [recheck_waiting] at isWaiting
      unfold Legal
      rw [recheck_generated]
      exact sound.waiting other wasBlocked isWaiting

/-- In every run in which no check lets a request overtake an older erase of its block, the
requests reach the queues in the order of the generations. -/
theorem flashOrder_of_run (geo : Geometry) (final : RowDepQueues)
    (run : Relation.ReflTransGen (Step geo (NotOvertaking geo)) initial final) :
    final.FlashOrder geo := by
  have sound := run_invariant (Sound geo) sound_initial (fun _ _ sound step => sound.step step) run
  intro dieNo blockNo
  obtain ⟨pos, replayed, invariant⟩ := sound.ordered.block dieNo blockNo
  refine ⟨pos, replayed, ?_⟩
  intro req member
  exact (invariant.generation_bounds (by simpa using member)).1

/-- The write of page `pageNo` of block 0 on die 0. -/
def blockWrite (geo : Geometry) (generation pageNo : Nat) : NandRequest where
  reqSlotTag := pageNo
  reqCode := .write
  virtualSliceAddr := geo.vorg2Vsa 0 0 pageNo
  programmedPageCnt := 0
  generation := generation

def blockRead (geo : Geometry) (generation pageNo : Nat) : NandRequest :=
  { blockWrite geo generation pageNo with reqCode := .read, nand := by decide }

def blockErase (geo : Geometry) : NandRequest where
  reqSlotTag := geo.userPagesPerBlock
  reqCode := .erase
  virtualSliceAddr := geo.vorg2Vsa 0 0 0
  programmedPageCnt := geo.userPagesPerBlock
  generation := 0

/-- A generation of a block whose first write is held back by its buffer entry: the other
write, a read of the first page and the erase are parked until the entry is released and the
row queue is walked, and the first write of the next generation follows. -/
theorem flashOrder_of_held_write :
    ∃ final, Relation.ReflTransGen (Step .tiny (NotOvertaking .tiny)) initial final ∧
      final.nandReqQ 0 = [blockWrite .tiny 0 0, blockWrite .tiny 0 1, blockRead .tiny 0 0,
        blockErase .tiny, blockWrite .tiny 1 0] ∧ final.FlashOrder .tiny := by
  obtain ⟨final, run, log⟩ : ∃ final,
      Relation.ReflTransGen (Step .tiny (NotOvertaking .tiny)) initial final ∧
        final.nandReqQ 0 = [blockWrite .tiny 0 0, blockWrite .tiny 0 1, blockRead .tiny 0 0,
          blockErase .tiny, blockWrite .tiny 1 0] := by
    have room : ∀ parked < 5, parked < availableOutstandingReqCount .tiny := by decide
    exact ⟨_,
      .head (.select (blockWrite .tiny 0 0) true rfl (fun _ => room 0 (by decide)) ⟨rfl, rfl⟩
        nofun) <|
      .head (.select (blockWrite .tiny 0 1) false rfl (fun _ => room 1 (by decide)) ⟨rfl, rfl⟩
        fun _ _ => by decide) <|
      .head (.select (blockRead .tiny 0 0) false rfl
        (fun | 0 => room 2 (by decide) | _ + 1 => room 1 (by decide))
        ⟨rfl, Nat.zero_lt_succ 1⟩ fun _ _ => by decide) <|
      .head (.select (blockErase .tiny) false rfl
        (fun | 0 => room 3 (by decide) | _ + 1 => room 1 (by decide)) ⟨rfl, rfl, rfl⟩
        fun _ _ => by decide) <|
      .head (.releaseBuf (blockWrite .tiny 0 0) [] [] rfl (by decide)) <|
      .head (.releaseRow (blockWrite .tiny 0 1) [] [blockRead .tiny 0 0, blockErase .tiny] rfl
        (by decide)) <|
      .head (.releaseRow (blockRead .tiny 0 0) [] [blockErase .tiny] rfl (by decide)) <|
      .head (.releaseRow (blockErase .tiny) [] [] rfl (by decide)) <|
      .single (.select (blockWrite .tiny 1 0) false rfl
        (fun | 0 => room 0 (by decide) | _ + 1 => room 0 (by decide)) ⟨rfl, rfl⟩
        fun _ _ => by decide), rfl⟩
  exact ⟨final, run, log, flashOrder_of_run .tiny final run⟩

end RowDepQueues

end RwRbuf.Firmware
