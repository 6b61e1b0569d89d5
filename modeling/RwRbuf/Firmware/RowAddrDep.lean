import RwRbuf.Lib.Fallible
import RwRbuf.Firmware.SliceRequests

/-! # Row address dependencies

The part of `request_transform.c` that orders the flash requests of one block.  A
request is put on the queue of its die once the dependency table lets it pass; until
then it is parked, either because of its buffer entry or because of the table.  The
field `generation` of a request is not in the source: it counts the erases of the
block that were generated before the request.
-/

namespace RwRbuf.Firmware

open Function
open Requests (ReqCode)

/-- A request with one of the codes that `CheckRowAddrDep` supports. -/
structure NandRequest where
  reqSlotTag : Nat
  reqCode : ReqCode
  virtualSliceAddr : Nat
  programmedPageCnt : Nat
  generation : Nat
  nand : reqCode ≠ .rxDma ∧ reqCode ≠ .txDma := by decide
deriving DecidableEq

/-- One entry of `rowAddrDependencyTable`. -/
structure RowAddrDepEntry where
  permittedProgPage : Nat
  blockedReadReqCnt : Nat
  blockedEraseReqFlag : Bool

inductive CheckRowAddrDepOpt
  | select
  | release

namespace NandRequest

variable (geo : Geometry) (req : NandRequest)

def dieNo : Nat := geo.vsa2Vdie req.virtualSliceAddr

def blockNo : Nat := geo.vsa2Vblock req.virtualSliceAddr

def pageNo : Nat := geo.vsa2Vpage req.virtualSliceAddr

def On (dieNo blockNo : Nat) : Prop := req.dieNo geo = dieNo ∧ req.blockNo geo = blockNo

instance (dieNo blockNo : Nat) : Decidable (req.On geo dieNo blockNo) :=
  inferInstanceAs (Decidable (_ ∧ _))

end NandRequest

namespace RowAddrDepEntry

variable (geo : Geometry) (entry : RowAddrDepEntry) (req : NandRequest)

/-- The table lets the request pass.  A write does not look at the erase flag. -/
def Passes : Prop :=
  match req.reqCode with
  | .read => req.pageNo geo < entry.permittedProgPage
  | .write => req.pageNo geo = entry.permittedProgPage
  | .erase => entry.permittedProgPage = req.programmedPageCnt ∧ entry.blockedReadReqCnt = 0
  | _ => False

instance : Decidable (entry.Passes geo req) := by
  unfold Passes
  cases req.reqCode <;> infer_instance

def passed (opt : CheckRowAddrDepOpt) : RowAddrDepEntry :=
  match req.reqCode, opt with
  | .read, .select => entry
  | .read, .release =>
    { entry with blockedReadReqCnt := (entry.blockedReadReqCnt + (2 ^ 16 - 1)) % 2 ^ 16 }
  | .write, _ => { entry with permittedProgPage := (entry.permittedProgPage + 1) % 2 ^ 12 }
  | .erase, _ => { entry with permittedProgPage := 0, blockedEraseReqFlag := false }
  | _, _ => entry

def blocked (opt : CheckRowAddrDepOpt) : RowAddrDepEntry :=
  match req.reqCode, opt with
  | .read, .select =>
    { entry with blockedReadReqCnt := (entry.blockedReadReqCnt + 1) % 2 ^ 16 }
  | .erase, .select => { entry with blockedEraseReqFlag := true }
  | _, _ => entry

/-- `CheckRowAddrDep`, after the wait for a blocked erase that the selection of a read may
begin with. -/
def checkRowAddrDep (opt : CheckRowAddrDepOpt) : RowAddrDepEntry × Bool :=
  if entry.Passes geo req then (entry.passed req opt, true) else (entry.blocked req opt, false)

/-- `UpdateRowAddrDepTableForBufBlockedReq`, after the same wait, for a request that its
buffer entry still holds back: a read or an erase is counted as blocked. -/
def updateRowAddrDepTableForBufBlockedReq : RowAddrDepEntry :=
  entry.blocked req .select

end RowAddrDepEntry

/-- The table and the queues.  `nandReqQ` keeps everything that was ever appended to the
queue of a die, and `waiting` is a read in `SyncReleaseEraseReq`, with the answer of
`CheckBufDep` before the wait.  `generated` describes the stream of requests so far: for
each block the number of erases and the number of pages allocated since the last one. -/
structure RowDepQueues where
  table : Nat → Nat → RowAddrDepEntry
  blockedByBufDepReqQ : List NandRequest
  blockedByRowAddrDepReqQ : Nat → List NandRequest
  nandReqQ : Nat → List NandRequest
  waiting : Option (NandRequest × Bool)
  generated : Nat → Nat → Nat × Nat

/-- `AVAILABLE_OUNTSTANDING_REQ_COUNT`. -/
def availableOutstandingReqCount (geo : Geometry) : Nat := geo.userDies * 128

namespace RowDepQueues

variable (geo : Geometry) (queues : RowDepQueues) (req : NandRequest)

def initial : RowDepQueues where
  table _ _ := ⟨0, 0, false⟩
  blockedByBufDepReqQ := []
  blockedByRowAddrDepReqQ _ := []
  nandReqQ _ := []
  waiting := none
  generated _ _ := (0, 0)

/-- The table entry for a request. -/
def entryOf : RowAddrDepEntry := queues.table (req.dieNo geo) (req.blockNo geo)

def setEntry (entry : RowAddrDepEntry) : RowDepQueues :=
  { queues with
    table := update queues.table (req.dieNo geo)
      (update (queues.table (req.dieNo geo)) (req.blockNo geo) entry) }

def putToNandReqQ : RowDepQueues :=
  { queues with
    nandReqQ := update queues.nandReqQ (req.dieNo geo)
      (queues.nandReqQ (req.dieNo geo) ++ [req]) }

def putToBlockedByRowAddrDepReqQ : RowDepQueues :=
  { queues with
    blockedByRowAddrDepReqQ := update queues.blockedByRowAddrDepReqQ (req.dieNo geo)
      (queues.blockedByRowAddrDepReqQ (req.dieNo geo) ++ [req]) }

/-- `SelectiveGetFromBlockedByRowAddrDepReqQ`, for the requests before and after. -/
def getFromBlockedByRowAddrDepReqQ (before after : List NandRequest) : RowDepQueues :=
  { queues with
    blockedByRowAddrDepReqQ := update queues.blockedByRowAddrDepReqQ (req.dieNo geo)
      (before ++ after) }

/-- `SelectiveGetFromBlockedByBufDepReqQ`, for the requests before and after. -/
def getFromBlockedByBufDepReqQ (before after : List NandRequest) : RowDepQueues :=
  { queues with blockedByBufDepReqQ := before ++ after }

def putToBlockedByBufDepReqQ : RowDepQueues :=
  { queues with blockedByBufDepReqQ := queues.blockedByBufDepReqQ ++ [req] }

/-- Check a request and put it on the queue of its die or on the blocked one. -/
def checkAndPut (opt : CheckRowAddrDepOpt) : RowDepQueues :=
  let checked := (queues.entryOf geo req).checkRowAddrDep geo req opt
  let queues := queues.setEntry geo req checked.1
  if checked.2 then queues.putToNandReqQ geo req
  else queues.putToBlockedByRowAddrDepReqQ geo req

/-- `SelectLowLevelReqQ` for a request that need not wait for an erase. -/
def selectNow (bufBlocked : Bool) : RowDepQueues :=
  if bufBlocked then
    (queues.setEntry geo req ((queues.entryOf geo req).updateRowAddrDepTableForBufBlockedReq
      req)).putToBlockedByBufDepReqQ req
  else queues.checkAndPut geo req .select

def MustWait : Prop :=
  req.reqCode = .read ∧ (queues.entryOf geo req).blockedEraseReqFlag = true

instance : Decidable (queues.MustWait geo req) :=
  inferInstanceAs (Decidable (_ ∧ _))

/-- A read of a block with a blocked erase waits in `SyncReleaseEraseReq` first. -/
def selectLowLevelReqQ (bufBlocked : Bool) : RowDepQueues :=
  if queues.MustWait geo req then { queues with waiting := some (req, bufBlocked) }
  else queues.selectNow geo req bufBlocked

/-- What `ReleaseBlockedByBufDepReq` does to the flash request that it takes off the queue
of requests blocked by their buffer entry. -/
def releaseBlockedByBufDepReq (before after : List NandRequest) : RowDepQueues :=
  (queues.getFromBlockedByBufDepReqQ before after).checkAndPut geo req .release

/-- One iteration of `ReleaseBlockedByRowAddrDepReq`. -/
def recheck (before after : List NandRequest) : RowDepQueues :=
  let checked := (queues.entryOf geo req).checkRowAddrDep geo req .release
  let queues := queues.setEntry geo req checked.1
  if checked.2 then
    (queues.getFromBlockedByRowAddrDepReqQ geo req before after).putToNandReqQ geo req
  else queues

/-- `ReleaseBlockedByRowAddrDepReq`, with the part of the queue already walked over. -/
def releaseBlockedByRowAddrDepReq (before : List NandRequest) :
    List NandRequest → RowDepQueues → RowDepQueues
  | [], queues => queues
  | req :: after, queues =>
    let next := queues.recheck geo req before after
    if (queues.entryOf geo req).Passes geo req then
      releaseBlockedByRowAddrDepReq before after next
    else releaseBlockedByRowAddrDepReq (before ++ [req]) after next

/-! ## The requests that the translation layer produces -/

/-- The request continues the stream of its block: writes go through the pages in order,
an erase comes after the last page, and a read is for a page written since the last
erase. -/
def Legal : Prop :=
  let generated := queues.generated (req.dieNo geo) (req.blockNo geo)
  req.generation = generated.1 ∧
    match req.reqCode with
    | .read => req.pageNo geo < generated.2
    | .write => req.pageNo geo = generated.2
    | .erase => generated.2 = geo.userPagesPerBlock ∧
        req.programmedPageCnt = geo.userPagesPerBlock
    | _ => False

def advance (generated : Nat × Nat) : Nat × Nat :=
  match req.reqCode with
  | .write => (generated.1, generated.2 + 1)
  | .erase => (generated.1 + 1, 0)
  | _ => generated

def generate : RowDepQueues :=
  { queues with
    generated := update queues.generated (req.dieNo geo)
      (update (queues.generated (req.dieNo geo)) (req.blockNo geo)
        (advance req (queues.generated (req.dieNo geo) (req.blockNo geo)))) }

/-- A request can only be selected while the request pool has a slot for it. -/
def SlotLeft : Prop :=
  ∀ dieNo, queues.blockedByBufDepReqQ.length + (queues.blockedByRowAddrDepReqQ dieNo).length <
    availableOutstandingReqCount geo

/-- The interleavings.  A request may be held back by its buffer entry for any time.  While
a read waits for an erase nothing else is selected, and its buffer entry may be released
in the meantime.  `stream` says which request may come next, and `allowed` restricts the
checks of the table, in the state in which they are made. -/
inductive StreamStep (stream allowed : RowDepQueues → NandRequest → Prop) :
    RowDepQueues → RowDepQueues → Prop
  | select {queues : RowDepQueues} (req : NandRequest) (bufBlocked : Bool) :
      queues.waiting = none → queues.SlotLeft geo → stream queues req →
      (bufBlocked = false → ¬ queues.MustWait geo req → allowed (queues.generate geo req) req) →
      StreamStep stream allowed queues
        ((queues.generate geo req).selectLowLevelReqQ geo req bufBlocked)
  | resume {queues : RowDepQueues} (req : NandRequest) (wasBlocked bufBlocked : Bool) :
      queues.waiting = some (req, wasBlocked) →
      (queues.entryOf geo req).blockedEraseReqFlag = false → (bufBlocked → wasBlocked) →
      (bufBlocked = false → allowed { queues with waiting := none } req) →
      StreamStep stream allowed queues
        ({ queues with waiting := none }.selectNow geo req bufBlocked)
  | releaseBuf {queues : RowDepQueues} (req : NandRequest) (before after : List NandRequest) :
      queues.blockedByBufDepReqQ = before ++ req :: after → allowed queues req →
      StreamStep stream allowed queues (queues.releaseBlockedByBufDepReq geo req before after)
  | releaseRow {queues : RowDepQueues} (req : NandRequest) (before after : List NandRequest) :
      queues.blockedByRowAddrDepReqQ (req.dieNo geo) = before ++ req :: after →
      allowed queues req →
      StreamStep stream allowed queues (queues.recheck geo req before after)

/-- The interleavings for the requests that the translation layer produces. -/
abbrev Step (allowed : RowDepQueues → NandRequest → Prop) : RowDepQueues → RowDepQueues → Prop :=
  StreamStep geo (Legal geo) allowed

end RowDepQueues

end RwRbuf.Firmware
