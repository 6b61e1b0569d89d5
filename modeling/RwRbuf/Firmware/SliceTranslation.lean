import RwRbuf.Firmware.RequestEngine

/-! # Translation of the slices and the runs of the engine

`ReqTransNvmeToSlice` and `ReqTransSliceToLowLevel` run in the main loop and are interrupted
only by themselves: where they need a slot and the free queue is empty, and where a read
finds a blocked erase, they poll until they can go on.  A step of the engine is a stretch of
the main loop between two such points, one visit of a poll, or a step of the hardware.
-/

namespace RwRbuf.Firmware.Requests
namespace Engine

open Function

variable {Tag : Type} [DecidableEq Tag] (engine : Engine Tag)

/-- What the flash translation layer answers: the requests of a garbage collection and the
report of the row address check. -/
structure FtlAnswer where
  gcRequests : List GcRequest
  pass : Bool

/-- A slice of `ReqTransNvmeToSlice` gets a slot and goes to the slice queue. -/
def cutInto (slice : Slice) (rest : List Slice) (tag : Tag) : Engine Tag :=
  (({ engine with
      stage := .cutting rest
      cut := engine.cut + 1 }.takeFrom .free tag).modify tag
        (·.fillSlice slice engine.cut)).putToSliceReqQ tag

def cutSlice (slice : Slice) (rest : List Slice) : Option (Engine Tag) :=
  match engine.queue .free with
  | [] => none
  | tag :: _ => some (engine.cutInto slice rest tag)

/-- `CheckDataBufHit`, then `CheckCcmdDataBufHit`. -/
def checkHit (lsa : Nat) : Option BufferRef :=
  match (engine.buffer .dataBuf).find lsa with
  | some entry => some ⟨.dataBuf, entry⟩
  | none => ((engine.buffer .ccmdDataBuf).find lsa).map fun entry => ⟨.ccmdDataBuf, entry⟩

def missKind (request : Request Tag) : BufferKind :=
  if request.reqCode = .read then .ccmdDataBuf else .dataBuf

/-- The request leaves the slice queue with the buffer entry that it will use. -/
def takeSlice (tag : Tag) (stage : Stage Tag) (ref : BufferRef) (map : BufferMap Tag) :
    Engine Tag :=
  ({ engine with
      stage := stage
      buffer := update engine.buffer ref.kind map }.takeFrom .slice tag).modify tag
        fun request => { request with dataBuf := some ref }

/-- The head of the loop of `ReqTransSliceToLowLevel`, up to the eviction. -/
def startTranslation : Option (Engine Tag) :=
  match engine.queue .slice with
  | [] => some { engine with stage := .idle }
  | tag :: _ =>
    match engine.checkHit (engine.pool tag).logicalSliceAddr with
    | some ref =>
      some (engine.takeSlice tag (.finishing tag) ref
        ((engine.buffer ref.kind).touch ref.entry))
    | none =>
      let kind := missKind (engine.pool tag)
      (engine.buffer kind).allocate.map fun (entry, map) =>
        engine.takeSlice tag (.evicting tag) ⟨kind, entry⟩ map

/-- The slot of the write request is taken and `AddrTransWrite` maps the evicted slice. -/
def holdWriteSlot (tag write : Tag) (lsa : Nat) (gcRequests : List GcRequest) : Engine Tag :=
  { engine with
    stage := .collecting tag write gcRequests
    mapped := update engine.mapped lsa true }.takeFrom .free write

/-- `EvictDataBufEntry` and `EvictCcmdDataBufEntry` up to `AddrTransWrite`. -/
def startEviction (tag : Tag) (gcRequests : List GcRequest) : Option (Engine Tag) :=
  match (engine.pool tag).dataBuf with
  | none => none
  | some ref =>
    if (engine.entryOf ref).dirty then
      match engine.queue .free, (engine.entryOf ref).logicalSliceAddr with
      | write :: _, some lsa => some (engine.holdWriteSlot tag write lsa gcRequests)
      | _, _ => none
    else some { engine with stage := .binding tag }

/-- A request of the garbage collector gets a slot and its place in the chain of the
temporary buffer. -/
def prepareGc (gc : GcRequest) (new : Tag) : Engine Tag :=
  let filled := ({ engine with handed := engine.handed ++ [new] }.takeFrom .free new).modify new
    (·.fillGc gc)
  match gc.dataBuf with
  | none => filled
  | some ref => filled.updateEntryInfoBlockingReq ref new

/-- One request of `GarbageCollection` or `EraseBlock`, up to the wait for a blocked erase
if it reads. -/
def collect (tag write : Tag) (gc : GcRequest) (rest : List GcRequest) (pass : Bool) :
    Option (Engine Tag) :=
  match engine.queue .free with
  | [] => none
  | new :: _ =>
    if gc.reqCode = .read then
      some ({ engine with stage := .selectingGc tag write new rest }.prepareGc gc new)
    else
      ({ engine with stage := .collecting tag write rest }.prepareGc gc new).selectLowLevelReqQ
        new pass

/-- The write request of the eviction takes its place in the chain of the entry. -/
def prepareWriteBack (tag write : Tag) (ref : BufferRef) (lsa : Nat) : Engine Tag :=
  ({ engine with
      stage := .binding tag
      handed := engine.handed ++ [write] }.modify write
        (·.fillNand (engine.pool tag) .write lsa ref)).updateEntryInfoBlockingReq ref write

/-- The end of `EvictDataBufEntry` and `EvictCcmdDataBufEntry`. -/
def writeBack (tag write : Tag) (pass : Bool) : Option (Engine Tag) :=
  match (engine.pool tag).dataBuf with
  | none => none
  | some ref =>
    match (engine.entryOf ref).logicalSliceAddr with
    | none => none
    | some lsa => (engine.prepareWriteBack tag write ref lsa).selectLowLevelReqQ write pass

def bindTo (tag : Tag) (ref : BufferRef) : Engine Tag :=
  { engine with
    stage := .fetching tag
    buffer := update engine.buffer ref.kind
      ((engine.buffer ref.kind).bind ref.entry (engine.pool tag).logicalSliceAddr) }

/-- A read and a write of a part of a slice need the old data.  `AddrTransRead` fails for a
slice that was never written to the flash. -/
def needsFetch (request : Request Tag) : Bool :=
  (decide (request.reqCode = .read) ||
      decide (request.numOfNvmeBlock ≠ nvmeBlocksPerSlice)) &&
    engine.mapped request.logicalSliceAddr

def prepareFetch (tag read : Tag) (ref : BufferRef) : Engine Tag :=
  (({ engine with
      stage := .selectingFetch tag read
      handed := engine.handed ++ [read] }.takeFrom .free read).modify read
        (·.fillNand (engine.pool tag) .read (engine.pool tag).logicalSliceAddr ref)
    ).updateEntryInfoBlockingReq ref read

/-- `DataReadFromNand` and `CcmdDataReadFromNand` up to the wait for a blocked erase. -/
def fetch (tag : Tag) : Option (Engine Tag) :=
  if engine.needsFetch (engine.pool tag) then
    match engine.queue .free, (engine.pool tag).dataBuf with
    | read :: _, some ref => some (engine.prepareFetch tag read ref)
    | _, _ => none
  else some { engine with stage := .finishing tag }

def cmdCode (request : Request Tag) : CmdCode :=
  if request.reqCode = .write then .write else .read

/-- The slice request becomes a DMA request, is counted and takes its place in the chain of
the entry. -/
def makeDma (tag : Tag) (ref : BufferRef) : Engine Tag :=
  let request := engine.pool tag
  let code : CmdCode := cmdCode request
  let slot := request.nvmeCmdSlotTag
  ({ engine with
      stage := .translating
      translated := engine.translated + 1
      handed := engine.handed ++ [tag]
      buffer :=
        if code = CmdCode.write then
          update engine.buffer ref.kind ((engine.buffer ref.kind).setDirty ref.entry)
        else engine.buffer
      customIoCmd :=
        if request.customCmd then
          update engine.customIoCmd slot ((engine.customIoCmd slot).allocate code)
        else engine.customIoCmd }.modify tag
          (·.fillDma code.dmaCode)).updateEntryInfoBlockingReq ref tag

/-- The end of the loop of `ReqTransSliceToLowLevel`. -/
def finishSlice (tag : Tag) (pass : Bool) : Option (Engine Tag) :=
  match (engine.pool tag).dataBuf with
  | none => none
  | some ref => (engine.makeDma tag ref).selectLowLevelReqQ tag pass

/-- The main loop goes on until it calls the next function that can wait. -/
def advance (answer : FtlAnswer) : Option (Engine Tag) :=
  match engine.stage with
  | .idle => none
  | .cutting (slice :: rest) => engine.cutSlice slice rest
  | .cutting [] => some { engine with stage := .translating }
  | .translating => engine.startTranslation
  | .evicting tag => engine.startEviction tag answer.gcRequests
  | .collecting tag write (gc :: rest) => engine.collect tag write gc rest answer.pass
  | .collecting tag write [] => engine.writeBack tag write answer.pass
  | .selectingGc tag write read rest =>
    { engine with stage := .collecting tag write rest }.selectLowLevelReqQ read answer.pass
  | .binding tag => (engine.pool tag).dataBuf.map (engine.bindTo tag)
  | .fetching tag => engine.fetch tag
  | .selectingFetch tag read =>
    { engine with stage := .finishing tag }.selectLowLevelReqQ read answer.pass
  | .finishing tag => engine.finishSlice tag answer.pass

/-- The main loop polls when it has no command, in `SyncAvailFreeReq` when it needs a slot
and the free queue is empty, and in `SyncReleaseEraseReq`. -/
def polls : Bool :=
  match engine.stage with
  | .idle => true
  | .cutting (_ :: _) => (engine.queue .free).isEmpty
  | .evicting tag =>
    (engine.pool tag).dataBuf.any (fun ref => (engine.entryOf ref).dirty) &&
      (engine.queue .free).isEmpty
  | .collecting _ _ (_ :: _) => (engine.queue .free).isEmpty
  | .fetching tag => engine.needsFetch (engine.pool tag) && (engine.queue .free).isEmpty
  | .selectingGc .. => true
  | .selectingFetch .. => true
  | _ => false

def serve (direction : Direction) : Option (Engine Tag) :=
  let dma := engine.dma direction
  dma.fifo[dma.served]?.map fun command =>
    { engine with
      dma := update engine.dma direction { dma with served := dma.served + 1 }
      memory :=
        if direction = .rx then
          update engine.memory command.target
            (update (engine.memory command.target) command.block
              (some ⟨command.sliceNo, command.cmd4KBOffset⟩))
        else engine.memory
      sent :=
        if direction = .rx then engine.sent
        else engine.sent ++
          [⟨command.sliceNo, command.block, engine.memory command.target command.block⟩] }

/-- The controller hands over a command in a slot that no write-read command holds. -/
def accept (cmd : NvmeIoCmd) : Option (Engine Tag) :=
  match engine.stage with
  | .idle =>
    if engine.slotOwner cmd.cmdSlotTag = none then
      some { engine with
        stage := .cutting (cmd.slices engine.commandCount)
        slices := engine.slices ++ cmd.slices engine.commandCount
        commandCount := engine.commandCount + 1
        slotOwner :=
          if cmd.customCmd then
            update engine.slotOwner cmd.cmdSlotTag (some engine.commandCount)
          else engine.slotOwner }
    else none
  | _ => none

omit [DecidableEq Tag] in
theorem accept_eq_some {engine engine' : Engine Tag} {cmd : NvmeIoCmd}
    (accepted : engine.accept cmd = some engine') :
    engine.stage = .idle ∧ engine.slotOwner cmd.cmdSlotTag = none ∧ engine' = { engine with
      stage := .cutting (cmd.slices engine.commandCount)
      slices := engine.slices ++ cmd.slices engine.commandCount
      commandCount := engine.commandCount + 1
      slotOwner :=
        if cmd.customCmd then
          update engine.slotOwner cmd.cmdSlotTag (some engine.commandCount)
        else engine.slotOwner } := by
  unfold accept at accepted
  split at accepted
  next idle =>
    split at accepted
    next free =>
      cases accepted
      exact ⟨idle, free, rfl⟩
    · cases accepted
  · cases accepted

end Engine

/-- What can happen: the firmware takes a command, goes on or polls, and the DMA engine and
the flash work on their own. -/
inductive Event (Tag : Type)
  | serve (direction : Direction)
  | command (cmd : NvmeIoCmd)
  | advance (answer : Engine.FtlAnswer)
  | startPoll
  | visit (pass : Bool)
  | nandDone (tag : Tag) (pass : Bool)
  | rowAddrDepDone (tag : Tag)
  | endPoll

namespace Engine

variable {Tag : Type} [DecidableEq Tag]

def step (engine : Engine Tag) : Event Tag → Option (Engine Tag)
  | .serve direction => engine.serve direction
  | .command cmd =>
    match engine.poll with
    | .idle => engine.accept cmd
    | _ => none
  | .advance answer =>
    match engine.poll with
    | .idle => engine.advance answer
    | _ => none
  | .startPoll =>
    match engine.poll with
    | .idle =>
      if engine.polls then
        some { engine with
          poll := .nvmeDma (engine.queue .nvmeDma).reverse fun _ => false }
      else none
    | _ => none
  | .visit pass => engine.visit pass
  | .nandDone tag pass =>
    match engine.poll with
    | .nand => engine.selectiveGetFromNandReqQ tag pass
    | _ => none
  | .rowAddrDepDone tag =>
    match engine.poll with
    | .nand => engine.releaseBlockedByRowAddrDepReq tag
    | _ => none
  | .endPoll =>
    match engine.poll with
    | .nand => some { engine with poll := .idle }
    | _ => none

end Engine

/-- The sizes of the request pool and of the two buffers; a slot tag has 16 bits and one
value is `REQ_SLOT_TAG_NONE`. -/
structure Config where
  poolSize : Nat
  dataBufSize : Nat
  ccmdDataBufSize : Nat
  poolSize_lt : poolSize < 2 ^ 16

namespace Config

def ofDies (dies : Nat) (few : dies < 512) : Config where
  poolSize := 128 * dies
  dataBufSize := 47 * dies
  ccmdDataBufSize := dies
  poolSize_lt := by omega

abbrev Tag (config : Config) : Type := Fin config.poolSize

/-- The state after `InitReqPool`, `InitDataBuf`, `InitCcmdDataBuf` and
`InitCustomIoCmdCompleteTable`. -/
def initial (config : Config) : Engine config.Tag where
  pool := fun _ =>
    { reqType := .slice
      reqCode := .read
      nvmeCmdSlotTag := 0
      logicalSliceAddr := 0
      startIndex := 0
      nvmeBlockOffset := 0
      numOfNvmeBlock := 0
      customCmd := false
      sliceNo := 0
      reqQueueType := some .free
      issuedFlag := false
      dmaTail := 0
      dataBuf := none
      prevBlockingReq := none
      nextBlockingReq := none }
  queue := fun which => if which = .free then List.finRange config.poolSize else []
  buffer := fun
    | .dataBuf => .init config.dataBufSize
    | .ccmdDataBuf => .init config.ccmdDataBufSize
    | .tempDataBuf => .init 0
  customIoCmd := fun _ => ⟨0, 0⟩
  dma := fun _ => ⟨[], 0⟩
  memory := fun _ _ => none
  flash := fun _ _ => none
  mapped := fun _ => false
  stage := .idle
  poll := .idle
  slices := []
  commandCount := 0
  cut := 0
  translated := 0
  finished := []
  completions := []
  sent := []
  handed := []
  slotOwner := fun _ => none

end Config
end RwRbuf.Firmware.Requests
