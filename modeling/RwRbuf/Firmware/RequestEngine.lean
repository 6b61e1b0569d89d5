import RwRbuf.Firmware.DataBuffer

/-! # The request engine

This is the state that `ReqTransNvmeToSlice`, `ReqTransSliceToLowLevel`,
`SelectLowLevelReqQ`, `ReleaseBlockedByBufDepReq`, `IssueNvmeDmaReq` and the polls work on:
the request pool and its queues, the two data buffers with their chains of blocked requests,
the completion table of the custom command and the host DMA engine.  The flash translation
layer is seen from outside: it says whether a logical slice was written, which requests a
garbage collection makes, and whether a request passes the row address check.
-/

namespace RwRbuf.Firmware.Requests

open Function

/-- The queues of the request pool.  The queues of the single dies are taken together. -/
inductive ReqQueueType
  | free
  | slice
  | blockedByBufDep
  | blockedByRowAddrDep
  | nvmeDma
  | customCmd
  | nand
deriving DecidableEq, Repr

/-- `SSD_REQ_FORMAT`.  `dataBuf` joins the buffer format, the choice of the buffer and the
entry.  `dmaTail` is the number of DMA commands issued when the request was issued; the
source keeps it as `reqTail` and `overFlowCnt`.  `sliceNo` is the slice that the request
serves. -/
structure Request (Tag : Type) where
  reqType : ReqType
  reqCode : ReqCode
  nvmeCmdSlotTag : Nat
  logicalSliceAddr : Nat
  startIndex : Nat
  nvmeBlockOffset : Nat
  numOfNvmeBlock : Nat
  customCmd : Bool
  sliceNo : Nat
  reqQueueType : Option ReqQueueType
  issuedFlag : Bool
  dmaTail : Nat
  dataBuf : Option BufferRef
  prevBlockingReq : Option Tag
  nextBlockingReq : Option Tag

/-- The requests of one garbage collection, in the order in which it makes them. -/
inductive GcRequest
  | read (dieNo : Nat)
  | write (dieNo : Nat)
  | erase
deriving DecidableEq, Repr

namespace GcRequest

def reqCode : GcRequest → ReqCode
  | read _ => .read
  | write _ => .write
  | erase => .erase

def dataBuf : GcRequest → Option BufferRef
  | read dieNo => some ⟨.tempDataBuf, dieNo⟩
  | write dieNo => some ⟨.tempDataBuf, dieNo⟩
  | erase => none

end GcRequest

namespace Request

variable {Tag : Type} (request : Request Tag)

/-- The fields that `ReqTransNvmeToSlice` writes. -/
def fillSlice (slice : Slice) (sliceNo : Nat) : Request Tag :=
  { request with
    reqType := .slice
    reqCode := slice.code.reqCode
    nvmeCmdSlotTag := slice.nvmeCmdSlotTag
    logicalSliceAddr := slice.logicalSliceAddr
    startIndex := slice.startIndex
    nvmeBlockOffset := slice.nvmeBlockOffset
    numOfNvmeBlock := slice.numOfNvmeBlock
    customCmd := slice.customCmd
    issuedFlag := false
    sliceNo := sliceNo }

/-- The fields that the eviction and the fetch of a buffer entry write. -/
def fillNand (origin : Request Tag) (code : ReqCode) (lsa : Nat) (entry : BufferRef) :
    Request Tag :=
  { request with
    reqType := .nand
    reqCode := code
    nvmeCmdSlotTag := origin.nvmeCmdSlotTag
    logicalSliceAddr := lsa
    customCmd := origin.customCmd
    dataBuf := some entry
    sliceNo := origin.sliceNo }

/-- The fields that `GarbageCollection` and `EraseBlock` write. -/
def fillGc (gc : GcRequest) : Request Tag :=
  { request with
    reqType := .nand
    reqCode := gc.reqCode
    customCmd := false
    dataBuf := gc.dataBuf }

def fillDma (code : ReqCode) : Request Tag :=
  { request with
    reqType := .nvmeDma
    reqCode := code }

/-- The direction that `IssueNvmeDmaReq` takes for the code; it asserts on other codes. -/
def direction : Option Direction :=
  match request.reqCode with
  | .rxDma => some .rx
  | .txDma => some .tx
  | _ => none

/-- The direction for which a visit of a poll takes the request. -/
def walkDirection : Direction :=
  if request.reqCode = .rxDma then .rx else .tx

/-- The commands that `IssueNvmeDmaReq` gives to the DMA engine, one for each block. -/
def dmaCommands (entry : BufferRef) : List DmaCommand :=
  (List.range request.numOfNvmeBlock).map fun index =>
    { cmdSlotTag := request.nvmeCmdSlotTag
      cmd4KBOffset := request.startIndex + index
      target := entry
      block := request.nvmeBlockOffset + index
      sliceNo := request.sliceNo }

end Request

/-- An entry of `customIoCmdCompleteTable`; the fields have 16 bits. -/
structure CustomIoCmdCompleteEntry where
  notCompletedRxCount : Nat
  notCompletedTxCount : Nat
deriving DecidableEq, Repr

def countUp (count : Nat) : Nat := (count + 1) % 2 ^ 16

def countDown (count : Nat) : Nat := (count + (2 ^ 16 - 1)) % 2 ^ 16

namespace CustomIoCmdCompleteEntry

variable (entry : CustomIoCmdCompleteEntry)

/-- `AllocateNotCompletedRxforCustomIoCmd` and `AllocateNotCompletedTxforCustomIoCmd`. -/
def allocate : CmdCode → CustomIoCmdCompleteEntry
  | .write => { entry with notCompletedRxCount := countUp entry.notCompletedRxCount }
  | .read => { entry with notCompletedTxCount := countUp entry.notCompletedTxCount }

def complete : ReqCode → CustomIoCmdCompleteEntry
  | .rxDma => { entry with notCompletedRxCount := countDown entry.notCompletedRxCount }
  | .txDma => { entry with notCompletedTxCount := countDown entry.notCompletedTxCount }
  | _ => entry

/-- `CompleteTxforCustomIoCmd` posts the completion when both counters are then zero. -/
def posts (code : ReqCode) : Bool :=
  decide (code = .txDma ∧ countDown entry.notCompletedTxCount = 0 ∧
    entry.notCompletedRxCount = 0)

end CustomIoCmdCompleteEntry

/-- Where the main loop is: between commands, in `ReqTransNvmeToSlice` with the slices that
are not yet cut, or in `ReqTransSliceToLowLevel` with the request it translates.  During an
eviction it holds the slot of the write request, and it can wait in `SelectLowLevelReqQ`
with a read request whose block has an erase that is blocked. -/
inductive Stage (Tag : Type)
  | idle
  | cutting (rest : List Slice)
  | translating
  | evicting (tag : Tag)
  | collecting (tag write : Tag) (rest : List GcRequest)
  | selectingGc (tag write read : Tag) (rest : List GcRequest)
  | binding (tag : Tag)
  | fetching (tag : Tag)
  | selectingFetch (tag read : Tag)
  | finishing (tag : Tag)

/-- One round of the polls: the walk over a queue of DMA requests from its tail to its head,
with the requests still to visit and the answers `rxDone` and `txDone`, and then the
scheduling of the flash requests. -/
inductive Poll (Tag : Type)
  | idle
  | nvmeDma (remaining : List Tag) (done : Direction → Bool)
  | customCmd (remaining : List Tag) (done : Direction → Bool)
  | nand

/-- The data of block `cmd4KBOffset` of the command of a slice. -/
structure HostBlock where
  sliceNo : Nat
  cmd4KBOffset : Nat
deriving DecidableEq, Repr

/-- A block that was sent to the host for a slice. -/
structure SentBlock where
  sliceNo : Nat
  block : Nat
  data : Option HostBlock
deriving DecidableEq, Repr

/-- The state.  The fields from `slices` on are not in the source: they record the slices of
all commands, how many of them were cut and translated, the slices whose DMA requests were
removed, the commands whose completion was posted, what was sent to the host, the requests
that were handed to `SelectLowLevelReqQ` and are not removed yet, in this order, and the
write-read command that the controller holds in a slot. -/
structure Engine (Tag : Type) where
  pool : Tag → Request Tag
  queue : ReqQueueType → List Tag
  buffer : BufferKind → BufferMap Tag
  customIoCmd : Nat → CustomIoCmdCompleteEntry
  dma : Direction → AutoDma
  memory : BufferRef → Nat → Option HostBlock
  flash : Nat → Nat → Option HostBlock
  mapped : Nat → Bool
  stage : Stage Tag
  poll : Poll Tag
  slices : List Slice
  commandCount : Nat
  cut : Nat
  translated : Nat
  finished : List Nat
  completions : List Nat
  sent : List SentBlock
  handed : List Tag
  slotOwner : Nat → Option Nat

namespace Engine

variable {Tag : Type} [DecidableEq Tag] (engine : Engine Tag)

def modify (tag : Tag) (change : Request Tag → Request Tag) : Engine Tag :=
  { engine with pool := update engine.pool tag (change (engine.pool tag)) }

def putTo (which : ReqQueueType) (tag : Tag) : Engine Tag :=
  { engine with
    queue := update engine.queue which (engine.queue which ++ [tag])
    pool := update engine.pool tag
      { engine.pool tag with reqQueueType := some which } }

def takeFrom (which : ReqQueueType) (tag : Tag) : Engine Tag :=
  { engine with
    queue := update engine.queue which ((engine.queue which).erase tag)
    pool := update engine.pool tag { engine.pool tag with reqQueueType := none } }

abbrev putToFreeReqQ (tag : Tag) : Engine Tag := engine.putTo .free tag

abbrev putToSliceReqQ (tag : Tag) : Engine Tag := engine.putTo .slice tag

abbrev putToBlockedByBufDepReqQ (tag : Tag) : Engine Tag := engine.putTo .blockedByBufDep tag

abbrev putToBlockedByRowAddrDepReqQ (tag : Tag) : Engine Tag :=
  engine.putTo .blockedByRowAddrDep tag

abbrev putToNvmeDmaReqQ (tag : Tag) : Engine Tag := engine.putTo .nvmeDma tag

abbrev putToCustomCmdReqQ (tag : Tag) : Engine Tag := engine.putTo .customCmd tag

abbrev putToNandReqQ (tag : Tag) : Engine Tag := engine.putTo .nand tag

def entryOf (ref : BufferRef) : BufferEntry Tag := (engine.buffer ref.kind).dataBuf ref.entry

def linkPool (pool : Tag → Request Tag) (tail : Option Tag) (tag : Tag) : Tag → Request Tag :=
  match tail with
  | none => pool
  | some last =>
    let behind := update pool tag { pool tag with prevBlockingReq := some last }
    update behind last { behind last with nextBlockingReq := some tag }

/-- `UpdateDataBufEntryInfoBlockingReq` and its two copies for the other buffers. -/
def updateEntryInfoBlockingReq (ref : BufferRef) (tag : Tag) : Engine Tag :=
  { engine with
    pool := linkPool engine.pool (engine.entryOf ref).blockingReqTail tag
    buffer := update engine.buffer ref.kind
      ((engine.buffer ref.kind).setBlockingReqTail ref.entry (some tag)) }

/-- `CheckBufDep`. -/
def checkBufDep (tag : Tag) : Bool := (engine.pool tag).prevBlockingReq.isNone

/-- A custom Tx request is not issued while an Rx request of its command is counted. -/
def waitsForRx (request : Request Tag) : Prop :=
  request.reqCode = .txDma ∧ request.customCmd = true ∧ 0 < request.numOfNvmeBlock ∧
    (engine.customIoCmd request.nvmeCmdSlotTag).notCompletedRxCount ≠ 0

instance (request : Request Tag) : Decidable (engine.waitsForRx request) :=
  inferInstanceAs (Decidable (_ ∧ _))

def issueTo (direction : Direction) (entry : BufferRef) (tag : Tag) : Engine Tag :=
  let request := engine.pool tag
  let dma := (engine.dma direction).issue (request.dmaCommands entry)
  { engine with
    dma := update engine.dma direction dma
    pool := update engine.pool tag
      { request with
        issuedFlag := request.issuedFlag || decide (0 < request.numOfNvmeBlock)
        dmaTail := dma.issued } }

/-- `IssueNvmeDmaReq`.  The function waits inside while the DMA engine has no room, so the
value is `none` there, as on the asserts. -/
def issueNvmeDmaReq (tag : Tag) : Option (Engine Tag) :=
  let request := engine.pool tag
  match request.direction, request.dataBuf with
  | some direction, some entry =>
    if engine.waitsForRx request then some engine
    else if (engine.dma direction).accepts (request.dmaCommands entry) then
      some (engine.issueTo direction entry tag)
    else none
  | _, _ => none

/-- What `SelectLowLevelReqQ` and `ReleaseBlockedByBufDepReq` do with a request that is not
blocked by its buffer entry.  `pass` is the report of `CheckRowAddrDep`. -/
def putToLowLevelReqQ (tag : Tag) (pass : Bool) : Option (Engine Tag) :=
  match (engine.pool tag).reqType with
  | .nvmeDma =>
    (engine.issueNvmeDmaReq tag).map fun issued =>
      if (engine.pool tag).customCmd then issued.putToCustomCmdReqQ tag
      else issued.putToNvmeDmaReqQ tag
  | .nand =>
    some (if pass then engine.putToNandReqQ tag else engine.putToBlockedByRowAddrDepReqQ tag)
  | .slice => none

/-- `SelectLowLevelReqQ`, after the wait for a blocked erase. -/
def selectLowLevelReqQ (tag : Tag) (pass : Bool) : Option (Engine Tag) :=
  if engine.checkBufDep tag then engine.putToLowLevelReqQ tag pass
  else some (engine.putToBlockedByBufDepReqQ tag)

def unlinkPool (pool : Tag → Request Tag) (tag : Tag) : Tag → Request Tag :=
  match (pool tag).nextBlockingReq with
  | none => pool
  | some target =>
    let front := update pool target { pool target with prevBlockingReq := none }
    update front tag { front tag with nextBlockingReq := none }

/-- An entry whose last request is `tag` is left without a chain. -/
def clearBlockingReqTail (buffer : BufferKind → BufferMap Tag) (dataBuf : Option BufferRef)
    (tag : Tag) : BufferKind → BufferMap Tag :=
  match dataBuf with
  | none => buffer
  | some ref =>
    if ((buffer ref.kind).dataBuf ref.entry).blockingReqTail = some tag then
      update buffer ref.kind ((buffer ref.kind).setBlockingReqTail ref.entry none)
    else buffer

/-- The first half of `ReleaseBlockedByBufDepReq`. -/
def unlink (tag : Tag) : Engine Tag :=
  { engine with
    pool := unlinkPool engine.pool tag
    buffer := clearBlockingReqTail engine.buffer (engine.pool tag).dataBuf tag }

def releaseTarget (target : Option Tag) (pass : Bool) : Option (Engine Tag) :=
  match target with
  | none => some engine
  | some target =>
    if (engine.pool target).reqQueueType = some .blockedByBufDep then
      (engine.takeFrom .blockedByBufDep target).putToLowLevelReqQ target pass
    else some engine

/-- `ReleaseBlockedByBufDepReq`. -/
def releaseBlockedByBufDepReq (tag : Tag) (pass : Bool) : Option (Engine Tag) :=
  (engine.unlink tag).releaseTarget (engine.pool tag).nextBlockingReq pass

/-- The number of the command of a request. -/
def commandOf (tag : Tag) : Nat :=
  ((engine.slices[(engine.pool tag).sliceNo]?).map Slice.command).getD 0

/-- `CompleteRxforCustomIoCmd` and `CompleteTxforCustomIoCmd`, by the code of the request.
The completion is posted with `set_auto_nvme_cpl`, and the controller takes the slot back. -/
def completeForCustomIoCmd (tag : Tag) : Engine Tag :=
  let request := engine.pool tag
  let entry := engine.customIoCmd request.nvmeCmdSlotTag
  let posts := entry.posts request.reqCode
  { engine with
    customIoCmd := update engine.customIoCmd request.nvmeCmdSlotTag
      (entry.complete request.reqCode)
    completions :=
      if posts then engine.commandOf tag :: engine.completions else engine.completions
    slotOwner :=
      if posts then update engine.slotOwner request.nvmeCmdSlotTag none
      else engine.slotOwner }

def markFinished (tag : Tag) : Engine Tag :=
  { engine with
    finished := (engine.pool tag).sliceNo :: engine.finished
    handed := engine.handed.erase tag }

def dropNvmeDma (tag : Tag) : Engine Tag :=
  ((engine.markFinished tag).takeFrom .nvmeDma tag).putToFreeReqQ tag

/-- `SelectiveGetFromNvmeDmaReqQ`. -/
def selectiveGetFromNvmeDmaReqQ (tag : Tag) (pass : Bool) : Option (Engine Tag) :=
  (engine.dropNvmeDma tag).releaseBlockedByBufDepReq tag pass

def dropCustomCmd (tag : Tag) : Engine Tag :=
  (((engine.markFinished tag).completeForCustomIoCmd tag).takeFrom .customCmd tag).putToFreeReqQ
    tag

/-- `SelectiveGetFromCustomCmdReqQ`. -/
def selectiveGetFromCustomCmdReqQ (tag : Tag) (pass : Bool) : Option (Engine Tag) :=
  (engine.dropCustomCmd tag).releaseBlockedByBufDepReq tag pass

/-- The entry between which and the flash a flash request moves data.  The requests of the
garbage collector move data inside the flash only. -/
def nandEntry (request : Request Tag) : Option BufferRef :=
  request.dataBuf.filter fun entry => entry.kind ≠ .tempDataBuf

/-- The flash has executed the request: the data is moved and the slot is free. -/
def dropNand (tag : Tag) : Engine Tag :=
  let request := engine.pool tag
  ({ engine with
      memory :=
        match request.reqCode, nandEntry request with
        | .read, some entry =>
          update engine.memory entry (engine.flash request.logicalSliceAddr)
        | _, _ => engine.memory
      flash :=
        match request.reqCode, nandEntry request with
        | .write, some entry =>
          update engine.flash request.logicalSliceAddr (engine.memory entry)
        | _, _ => engine.flash
      handed := engine.handed.erase tag }.takeFrom .nand tag).putToFreeReqQ tag

/-- `SelectiveGetFromNandReqQ`. -/
def selectiveGetFromNandReqQ (tag : Tag) (pass : Bool) : Option (Engine Tag) :=
  if tag ∈ engine.queue .nand then (engine.dropNand tag).releaseBlockedByBufDepReq tag pass
  else none

/-- `ReleaseBlockedByRowAddrDepReq` for a request that passes the row address check. -/
def releaseBlockedByRowAddrDepReq (tag : Tag) : Option (Engine Tag) :=
  if tag ∈ engine.queue .blockedByRowAddrDep then
    some ((engine.takeFrom .blockedByRowAddrDep tag).putToNandReqQ tag)
  else none

/-- A visit of `CheckDoneNvmeDmaReq`. -/
def visitNvmeDma (tag : Tag) (rest : List Tag) (done : Direction → Bool) (pass : Bool) :
    Option (Engine Tag) :=
  let request := engine.pool tag
  let direction := request.walkDirection
  let answer := done direction || (engine.dma direction).partialDone request.dmaTail
  let visited := { engine with poll := .nvmeDma rest (update done direction answer) }
  if answer then visited.selectiveGetFromNvmeDmaReqQ tag pass else some visited

/-- The part of a visit of `CheckDoneCustomCmdDmaReq` that the two directions share: an
issued request is removed when it is done, another one is issued or, if it is blocked by its
entry, its successor is released. -/
def visitCustomCmdRequest (tag : Tag) (rest : List Tag) (done : Direction → Bool)
    (direction : Direction) (pass : Bool) : Option (Engine Tag) :=
  let request := engine.pool tag
  if request.issuedFlag then
    let answer := done direction || (engine.dma direction).partialDone request.dmaTail
    let visited := { engine with poll := .customCmd rest (update done direction answer) }
    if answer then visited.selectiveGetFromCustomCmdReqQ tag pass else some visited
  else
    let visited := { engine with poll := .customCmd rest done }
    if engine.checkBufDep tag then visited.issueNvmeDmaReq tag
    else visited.releaseBlockedByBufDepReq tag pass

/-- A visit of `CheckDoneCustomCmdDmaReq`. -/
def visitCustomCmd (tag : Tag) (rest : List Tag) (done : Direction → Bool) (pass : Bool) :
    Option (Engine Tag) :=
  let request := engine.pool tag
  if request.reqCode = .rxDma then engine.visitCustomCmdRequest tag rest done .rx pass
  else if (engine.customIoCmd request.nvmeCmdSlotTag).notCompletedRxCount = 0 then
    engine.visitCustomCmdRequest tag rest done .tx pass
  else some { engine with poll := .customCmd rest done }

/-- One visit of the walk, or the step from one walk to the next. -/
def visit (pass : Bool) : Option (Engine Tag) :=
  match engine.poll with
  | .nvmeDma (tag :: rest) done => engine.visitNvmeDma tag rest done pass
  | .nvmeDma [] _ =>
    some { engine with
      poll := .customCmd (engine.queue .customCmd).reverse fun _ => false }
  | .customCmd (tag :: rest) done => engine.visitCustomCmd tag rest done pass
  | .customCmd [] _ => some { engine with poll := .nand }
  | _ => none

end Engine
end RwRbuf.Firmware.Requests
