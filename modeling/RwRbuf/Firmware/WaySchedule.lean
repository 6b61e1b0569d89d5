import RwRbuf.Lib.LinkedList
import RwRbuf.Lib.Fallible

/-! # The way scheduler of a channel

`request_schedule.c` keeps the ways of a channel on seven linked lists that share the link
fields of the ways.  A pass of `SchedulingNandReqPerCh` walks these lists one after another
and moves ways between them.  One event of the model is one turn of one of its loops, with
the words that the flash controller answers in this turn and the requests that a release
puts into the NAND queues of the channel.  The field `triggers` of a request is not in the
source: it counts the read triggers that were sent to the flash for the request.
-/

namespace RwRbuf.Firmware.WaySchedule

open LinkedList Function

/-- `RETRY_LIMIT` -/
def maxRetries : Nat := 5

/-- `BIT_ERROR_THRESHOLD_PER_CHUNK` -/
def bitErrorThresholdPerChunk : Nat := 20

/-- The codes of flash requests; `other` stands for every other code. -/
inductive NandReqCode
  | read
  | readTransfer
  | write
  | erase
  | reset
  | setFeature
  | other
deriving DecidableEq, Repr

structure NandReq where
  reqCode : NandReqCode
  nandEcc : Bool
  nandEccWarning : Bool
  triggers : Nat
deriving DecidableEq

def NandReq.Fresh (req : NandReq) : Prop := req.reqCode ≠ .other ∧ req.triggers = 0

inductive WayList
  | idle
  | statusReport
  | statusCheck
  | readTrigger
  | readTransfer
  | write
  | erase
deriving DecidableEq, Repr

inductive DieState
  | idle
  | exe
deriving DecidableEq, Repr

inductive StatusCheckOpt
  | none
  | check
  | report
  | completionFlag
deriving DecidableEq, Repr

/-- The values of `reqStatus`; `other` stands for every value that has no name. -/
inductive ReqStatus
  | running
  | done
  | fail
  | warning
  | other
deriving DecidableEq, Repr

inductive ErrorInfo
  | fail
  | pass
  | warning
deriving DecidableEq, Repr

/-- Where the firmware stops: its asserts, and a use of the tag `REQ_SLOT_TAG_NONE` as the
index of a request. -/
inductive SchedulerStop
  | wrongReqCode
  | notDefinedNandReq
  | wrongReqStatus
  | noRequestInNandReqQ
  | noHeadRequest
deriving DecidableEq, Repr

/-- What one turn of a loop gets from outside: the words it reads from the controller and
from the tables that the controller writes, the request that the end of another request
releases, and the requests that `ReleaseBlockedByRowAddrDepReq` releases. -/
structure Answer (ways : Nat) where
  readyBusy : BitVec 32
  controllerBusy : Bool
  completeFlag : BitVec 32
  statusReport : BitVec 32
  errorInfo0 : BitVec 32
  errorInfo1 : BitVec 32
  bufReleased : Option (Fin ways × NandReq)
  rowReleased : List NandReq

section Driver

def v2fWayReady (readyBusy : BitVec 32) (wayNo : Nat) : Bool := (readyBusy >>> wayNo) &&& 1 ≠ 0

def v2fTransferComplete (completeFlag : BitVec 32) : Bool := completeFlag &&& 1 ≠ 0

def v2fRequestReportDone (statusReport : BitVec 32) : Bool := statusReport &&& 1 ≠ 0

def v2fEliminateReportDoneFlag (statusReport : BitVec 32) : BitVec 32 := statusReport >>> 1

def v2fRequestComplete (status : BitVec 32) : Bool := status &&& 0x60 = 0x60

def v2fRequestFail (status : BitVec 32) : Bool := status &&& 3 ≠ 0

def v2fCrcValid (errorInformation : BitVec 32) : Bool := errorInformation &&& 0x10000000 ≠ 0

def v2fSpareChunkValid (errorInformation : BitVec 32) : Bool :=
  errorInformation &&& 0x01000000 ≠ 0

def v2fPageChunkValid (errorInformation : BitVec 32) : Bool := errorInformation = 0xffffffff

def v2fWorstChunkErrorCount (errorInformation : BitVec 32) : Nat :=
  ((errorInformation &&& 0x00ff0000) >>> 16).toNat

end Driver

/-- The entries of the die state table and of the retry limit table of one way, without the
link fields, and the NAND queue of the way. -/
structure Die where
  dieState : DieState
  reqStatusCheckOpt : StatusCheckOpt
  retryLimit : Nat
  nandReqQ : List NandReq
deriving DecidableEq

namespace Die

variable {ways : Nat} (die : Die)

def putToNandReqQ (req : NandReq) : Die := { die with nandReqQ := die.nandReqQ ++ [req] }

/-- Take the head of the NAND queue out; the second component is the request taken. -/
def getFromNandReqQ : Except SchedulerStop (Die × NandReq) :=
  match die.nandReqQ with
  | [] => .error .noRequestInNandReqQ
  | req :: rest => .ok ({ die with nandReqQ := rest }, req)

def issueNandReq : Except SchedulerStop Die :=
  match die.nandReqQ with
  | [] => .error .noHeadRequest
  | req :: rest =>
    match req.reqCode with
    | .read =>
      .ok { die with
        reqStatusCheckOpt := .check
        nandReqQ := { req with triggers := req.triggers + 1 } :: rest }
    | .readTransfer => .ok { die with reqStatusCheckOpt := .completionFlag }
    | .write => .ok { die with reqStatusCheckOpt := .check }
    | .erase => .ok { die with reqStatusCheckOpt := .check }
    | .reset => .ok { die with reqStatusCheckOpt := .none }
    | .setFeature => .ok { die with reqStatusCheckOpt := .none }
    | .other => .error .notDefinedNandReq

end Die

def checkEccErrorInfo (req : NandReq) (errorInfo0 errorInfo1 : BitVec 32) : ErrorInfo :=
  if v2fCrcValid errorInfo0 && v2fSpareChunkValid errorInfo0 && v2fPageChunkValid errorInfo1 then
    if req.nandEccWarning && bitErrorThresholdPerChunk < v2fWorstChunkErrorCount errorInfo0 then
      .warning
    else
      .pass
  else
    .fail

namespace Die

variable {ways : Nat} (die : Die) (wayNo : Nat) (answer : Answer ways)

def checkReqStatus : Except SchedulerStop (Die × ReqStatus) :=
  match die.reqStatusCheckOpt with
  | .completionFlag =>
    if v2fTransferComplete answer.completeFlag then
      match die.nandReqQ with
      | [] => .error .noHeadRequest
      | req :: _ =>
        if req.nandEcc then
          match checkEccErrorInfo req answer.errorInfo0 answer.errorInfo1 with
          | .warning => .ok (die, .warning)
          | .fail => .ok (die, .fail)
          | .pass => .ok (die, .done)
        else
          .ok (die, .done)
    else
      .ok (die, .running)
  | .check => .ok ({ die with reqStatusCheckOpt := .report }, .running)
  | .report =>
    if v2fRequestReportDone answer.statusReport then
      let status := v2fEliminateReportDoneFlag answer.statusReport
      if v2fRequestComplete status then
        if v2fRequestFail status then
          .ok (die, .fail)
        else
          .ok ({ die with reqStatusCheckOpt := .none }, .done)
      else
        .ok ({ die with reqStatusCheckOpt := .check }, .running)
    else
      .ok (die, .running)
  | .none => .ok (die, if v2fWayReady answer.readyBusy wayNo then .done else .running)

/-- The common end of the branches of `ExecuteNandReq` that are finished with a request. -/
def finishReq : Except SchedulerStop (Die × Option NandReq) := do
  let (taken, req) ← { die with retryLimit := maxRetries }.getFromNandReqQ
  return ({ taken with dieState := .idle }, some req)

/-- `ExecuteNandReq` up to the release of a request that waits for the finished one, which
is the second component. -/
def executeNandReq (reqStatus : ReqStatus) : Except SchedulerStop (Die × Option NandReq) :=
  match die.dieState with
  | .idle => do
      let issued ← die.issueNandReq
      return ({ issued with dieState := .exe }, none)
  | .exe =>
    match reqStatus with
    | .done =>
      match die.nandReqQ with
      | [] => .error .noHeadRequest
      | req :: rest =>
        if req.reqCode = .read then
          .ok ({ die with
            dieState := .idle
            nandReqQ := { req with reqCode := .readTransfer } :: rest }, none)
        else
          die.finishReq
    | .fail =>
      match die.nandReqQ with
      | [] => .error .noHeadRequest
      | req :: rest =>
        if (req.reqCode = .read ∨ req.reqCode = .readTransfer) ∧ 0 < die.retryLimit then
          .ok ({ die with
            dieState := .idle
            retryLimit := die.retryLimit - 1
            nandReqQ := { req with reqCode := .read } :: rest }, none)
        else
          die.finishReq
    | .warning => die.finishReq
    | .running => .ok (die, none)
    | .other => .error .wrongReqStatus

end Die

/-- The tables of one channel, and the requests that left its NAND queues so far with the
status that they left with. -/
structure Channel (ways : Nat) where
  link : Links (Fin ways)
  wayPriority : WayList → Ends (Fin ways)
  die : Fin ways → Die
  finished : List (NandReq × ReqStatus)

namespace Channel

variable {ways : Nat}

section WayLists

/-- Append a way to a list; the seven `PutToNand*List` differ in the list only. -/
def putToNandList (list : WayList) (channel : Channel ways) (wayNo : Fin ways) : Channel ways :=
  let pushed := pushBack channel.link (channel.wayPriority list) wayNo
  { channel with
    link := pushed.1
    wayPriority := update channel.wayPriority list pushed.2 }

/-- Unlink a way; the seven `Selectiv(e)GetFromNand*List` differ in the list only. -/
def selectiveGetFromNandList (list : WayList) (channel : Channel ways) (wayNo : Fin ways) :
    Channel ways :=
  let unlinked := unlink channel.link (channel.wayPriority list) wayNo
  { channel with
    link := unlinked.1
    wayPriority := update channel.wayPriority list unlinked.2 }

@[simp] theorem selectiveGetFromNandList_die (list : WayList) (channel : Channel ways)
    (wayNo : Fin ways) : (selectiveGetFromNandList list channel wayNo).die = channel.die := rfl

abbrev putToNandIdleList : Channel ways → Fin ways → Channel ways := putToNandList .idle

abbrev putToNandStatusReportList : Channel ways → Fin ways → Channel ways :=
  putToNandList .statusReport

abbrev putToNandStatusCheckList : Channel ways → Fin ways → Channel ways :=
  putToNandList .statusCheck

abbrev putToNandReadTriggerList : Channel ways → Fin ways → Channel ways :=
  putToNandList .readTrigger

abbrev putToNandReadTransferList : Channel ways → Fin ways → Channel ways :=
  putToNandList .readTransfer

abbrev putToNandWriteList : Channel ways → Fin ways → Channel ways := putToNandList .write

abbrev putToNandEraseList : Channel ways → Fin ways → Channel ways := putToNandList .erase

abbrev selectivGetFromNandIdleList : Channel ways → Fin ways → Channel ways :=
  selectiveGetFromNandList .idle

abbrev selectivGetFromNandStatusReportList : Channel ways → Fin ways → Channel ways :=
  selectiveGetFromNandList .statusReport

abbrev selectiveGetFromNandStatusCheckList : Channel ways → Fin ways → Channel ways :=
  selectiveGetFromNandList .statusCheck

abbrev selectiveGetFromNandReadTriggerList : Channel ways → Fin ways → Channel ways :=
  selectiveGetFromNandList .readTrigger

abbrev selectiveGetFromNandReadTransferList : Channel ways → Fin ways → Channel ways :=
  selectiveGetFromNandList .readTransfer

abbrev selectiveGetFromNandWriteList : Channel ways → Fin ways → Channel ways :=
  selectiveGetFromNandList .write

abbrev selectiveGetFromNandEraseList : Channel ways → Fin ways → Channel ways :=
  selectiveGetFromNandList .erase

def putToNandWayPriorityTable (channel : Channel ways) (req : NandReq) (wayNo : Fin ways) :
    Except SchedulerStop (Channel ways) :=
  match req.reqCode with
  | .read => .ok (channel.putToNandReadTriggerList wayNo)
  | .readTransfer => .ok (channel.putToNandReadTransferList wayNo)
  | .write => .ok (channel.putToNandWriteList wayNo)
  | .erase => .ok (channel.putToNandEraseList wayNo)
  | .reset => .ok (channel.putToNandWriteList wayNo)
  | .setFeature => .ok (channel.putToNandWriteList wayNo)
  | .other => .error .wrongReqCode

end WayLists

variable (channel : Channel ways) (wayNo : Fin ways)

def setDie (die : Die) : Channel ways :=
  { channel with die := update channel.die wayNo die }

@[simp] theorem setDie_die_self (die : Die) : (channel.setDie wayNo die).die wayNo = die := by
  simp [setDie]

theorem setDie_die_of_ne (die : Die) {other : Fin ways} (different : other ≠ wayNo) :
    (channel.setDie wayNo die).die other = channel.die other := by
  simp [setDie, different]

@[simp] theorem setDie_die : channel.setDie wayNo (channel.die wayNo) = channel := by
  simp [setDie]

@[simp] theorem setDie_setDie (first second : Die) :
    (channel.setDie wayNo first).setDie wayNo second = channel.setDie wayNo second := by
  simp [setDie]

def putToNandReqQ (req : NandReq) : Channel ways :=
  channel.setDie wayNo ((channel.die wayNo).putToNandReqQ req)

/-- A request of this channel that waited for the buffer entry of a finished request. -/
def releaseBlockedByBufDepReq (released : Option (Fin ways × NandReq)) : Channel ways :=
  match released with
  | none => channel
  | some (target, req) => channel.putToNandReqQ target req

def releaseBlockedByRowAddrDepReq (released : List NandReq) : Channel ways :=
  released.foldl (fun channel req => channel.putToNandReqQ wayNo req) channel

def executeNandReq (reqStatus : ReqStatus) (answer : Answer ways) :
    Except SchedulerStop (Channel ways) := do
  let (die, finished) ← (channel.die wayNo).executeNandReq reqStatus
  let executed := channel.setDie wayNo die
  match finished with
  | none => return executed
  | some req =>
    return { executed with finished := channel.finished ++ [(req, reqStatus)] }
      |>.releaseBlockedByBufDepReq answer.bufReleased

/-- The requests that wait for a row address are looked at if the NAND queue is empty. -/
def refill (answer : Answer ways) : Channel ways :=
  if (channel.die wayNo).nandReqQ = [] then
    channel.releaseBlockedByRowAddrDepReq wayNo answer.rowReleased
  else
    channel

end Channel

/-- Where in `SchedulingNandReqPerCh` the firmware is.  The fields of a walk are the values
of `wayNo`, `waitWayCnt` and `readyBusy`; `rest` stands for all of the time outside. -/
inductive Position (ways : Nat)
  | rest
  | idleWalk (wayNo : Option (Fin ways)) (waitWayCnt : Nat)
  | statusReportWalk (readyBusy : BitVec 32) (wayNo : Option (Fin ways)) (waitWayCnt : Nat)
  | statusCheckWalk (readyBusy : BitVec 32) (wayNo : Option (Fin ways))
  | readTriggerWalk (wayNo : Option (Fin ways))
  | eraseWalk (wayNo : Option (Fin ways))
  | writeWalk (wayNo : Option (Fin ways))
  | readTransferWalk (wayNo : Option (Fin ways))

structure Scheduler (ways : Nat) where
  channel : Channel ways
  position : Position ways

namespace Scheduler

variable {ways : Nat}

section Turns

variable (channel : Channel ways) (wayNo : Fin ways) (answer : Answer ways)

def idleTurn (waitWayCnt : Nat) : Except SchedulerStop (Scheduler ways) := do
  let refilled := channel.refill wayNo answer
  let nextWay := refilled.link.next wayNo
  match (refilled.die wayNo).nandReqQ with
  | req :: _ =>
    let moved ← (refilled.selectivGetFromNandIdleList wayNo).putToNandWayPriorityTable req wayNo
    return ⟨moved, .idleWalk nextWay waitWayCnt⟩
  | [] => return ⟨refilled, .idleWalk nextWay (waitWayCnt + 1)⟩

/-- The turn of the loop over the ways with a pending report whose request has ended. -/
def endedTurn (readyBusy : BitVec 32) (waitWayCnt : Nat) (reqStatus : ReqStatus) :
    Except SchedulerStop (Scheduler ways) := do
  let executed ← channel.executeNandReq wayNo reqStatus answer
  let nextWay := executed.link.next wayNo
  let refilled := (executed.selectivGetFromNandStatusReportList wayNo).refill wayNo answer
  match (refilled.die wayNo).nandReqQ with
  | req :: _ =>
    let moved ← refilled.putToNandWayPriorityTable req wayNo
    return ⟨moved, .statusReportWalk readyBusy nextWay waitWayCnt⟩
  | [] =>
    return ⟨refilled.putToNandIdleList wayNo,
      .statusReportWalk readyBusy nextWay (waitWayCnt + 1)⟩

def statusReportTurn (readyBusy : BitVec 32) (waitWayCnt : Nat) :
    Except SchedulerStop (Scheduler ways) :=
  if v2fWayReady readyBusy wayNo then do
    let (die, reqStatus) ← (channel.die wayNo).checkReqStatus wayNo answer
    let checked := channel.setDie wayNo die
    let nextWay := checked.link.next wayNo
    if reqStatus ≠ .running then
      endedTurn checked wayNo answer readyBusy waitWayCnt reqStatus
    else if die.reqStatusCheckOpt = .check then
      return ⟨(checked.selectivGetFromNandStatusReportList wayNo).putToNandStatusCheckList wayNo,
        .statusReportWalk readyBusy nextWay waitWayCnt⟩
    else
      return ⟨checked, .statusReportWalk readyBusy nextWay (waitWayCnt + 1)⟩
  else
    .ok ⟨channel, .statusReportWalk readyBusy (channel.link.next wayNo) (waitWayCnt + 1)⟩

/-- The way of a loop goes on with the way that the current way is linked to, unless the
controller is busy, which ends the pass. -/
def goOn (position : Option (Fin ways) → Position ways) : Scheduler ways :=
  ⟨channel, if answer.controllerBusy then .rest else position (channel.link.next wayNo)⟩

/-- One turn of the loop over the ways whose status has to be asked for.  What
`CheckReqStatus` returns is not looked at. -/
def statusCheckTurn (readyBusy : BitVec 32) : Except SchedulerStop (Scheduler ways) :=
  if v2fWayReady readyBusy wayNo then do
    let (die, _) ← (channel.die wayNo).checkReqStatus wayNo answer
    let moved := ((channel.setDie wayNo die).selectiveGetFromNandStatusCheckList wayNo)
      |>.putToNandStatusReportList wayNo
    return goOn moved wayNo answer (.statusCheckWalk readyBusy)
  else
    .ok ⟨channel, .statusCheckWalk readyBusy (channel.link.next wayNo)⟩

/-- One turn of a loop that issues requests.  The way is unlinked by `get` and appended by
`put`. -/
def issueTurn (get put : Channel ways → Fin ways → Channel ways)
    (position : Option (Fin ways) → Position ways) : Except SchedulerStop (Scheduler ways) := do
  let executed ← channel.executeNandReq wayNo .running answer
  return goOn (put (get executed wayNo) wayNo) wayNo answer position

end Turns

open Channel

/-- One turn of the loop that the firmware is in, or the step to the next loop. -/
def turn (scheduler : Scheduler ways) (answer : Answer ways) :
    Except SchedulerStop (Scheduler ways) :=
  let channel := scheduler.channel
  match scheduler.position with
  | .rest => .ok ⟨channel, .idleWalk (channel.wayPriority .idle).head 0⟩
  | .idleWalk (some wayNo) waitWayCnt => idleTurn channel wayNo answer waitWayCnt
  | .idleWalk none waitWayCnt =>
    .ok ⟨channel, .statusReportWalk answer.readyBusy (channel.wayPriority .statusReport).head
      waitWayCnt⟩
  | .statusReportWalk readyBusy (some wayNo) waitWayCnt =>
    statusReportTurn channel wayNo answer readyBusy waitWayCnt
  | .statusReportWalk _ none waitWayCnt =>
    if waitWayCnt ≠ ways ∧ ¬ answer.controllerBusy then
      .ok ⟨channel, .statusCheckWalk answer.readyBusy (channel.wayPriority .statusCheck).head⟩
    else
      .ok ⟨channel, .rest⟩
  | .statusCheckWalk readyBusy (some wayNo) => statusCheckTurn channel wayNo answer readyBusy
  | .statusCheckWalk _ none =>
    .ok ⟨channel, .readTriggerWalk (channel.wayPriority .readTrigger).head⟩
  | .readTriggerWalk (some wayNo) =>
    issueTurn channel wayNo answer selectiveGetFromNandReadTriggerList putToNandStatusCheckList
      .readTriggerWalk
  | .readTriggerWalk none => .ok ⟨channel, .eraseWalk (channel.wayPriority .erase).head⟩
  | .eraseWalk (some wayNo) =>
    issueTurn channel wayNo answer selectiveGetFromNandEraseList putToNandStatusCheckList
      .eraseWalk
  | .eraseWalk none => .ok ⟨channel, .writeWalk (channel.wayPriority .write).head⟩
  | .writeWalk (some wayNo) =>
    issueTurn channel wayNo answer selectiveGetFromNandWriteList putToNandStatusCheckList
      .writeWalk
  | .writeWalk none => .ok ⟨channel, .readTransferWalk (channel.wayPriority .readTransfer).head⟩
  | .readTransferWalk (some wayNo) =>
    issueTurn channel wayNo answer selectiveGetFromNandReadTransferList
      putToNandStatusReportList .readTransferWalk
  | .readTransferWalk none => .ok ⟨channel, .rest⟩

/-- What can happen to a channel: a request arrives in a NAND queue, or the firmware takes
a turn. -/
inductive Event (ways : Nat)
  | arrive (wayNo : Fin ways) (req : NandReq)
  | turn (answer : Answer ways)

/-- Only flash requests arrive. -/
def Event.Proper : Event ways → Prop
  | .arrive _ req => req.Fresh
  | .turn answer =>
    (∀ released ∈ answer.bufReleased, released.2.Fresh) ∧ ∀ req ∈ answer.rowReleased, req.Fresh

def step (scheduler : Scheduler ways) : Event ways → Except SchedulerStop (Scheduler ways)
  | .arrive wayNo req => .ok { scheduler with channel := scheduler.channel.putToNandReqQ wayNo req }
  | .turn answer => scheduler.turn answer

def Step (scheduler scheduler' : Scheduler ways) : Prop :=
  ∃ event : Event ways, event.Proper ∧ scheduler.step event = .ok scheduler'

def wayAt (ways number : Nat) : Option (Fin ways) :=
  if bound : number < ways then some ⟨number, bound⟩ else none

/-- The tables of a channel after `InitReqScheduler`, before the first pass. -/
def initReqScheduler (ways : Nat) : Scheduler ways where
  channel :=
    { link :=
        { prev := fun wayNo => if wayNo.val = 0 then none else wayAt ways (wayNo.val - 1)
          next := fun wayNo => wayAt ways (wayNo.val + 1) }
      wayPriority := fun list =>
        if list = .idle then ⟨wayAt ways 0, wayAt ways (ways - 1)⟩ else Ends.empty
      die := fun _ =>
        { dieState := .idle
          reqStatusCheckOpt := .none
          retryLimit := maxRetries
          nandReqQ := [] }
      finished := [] }
  position := .rest

/-- The four bits in which a way number or `WAY_NONE` is stored. -/
def wayField : Option (Fin ways) → BitVec 4
  | none => 0xF
  | some wayNo => BitVec.ofNat 4 wayNo

end Scheduler

end RwRbuf.Firmware.WaySchedule
