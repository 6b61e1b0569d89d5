import RwRbuf.Firmware.SliceTranslation
import RwRbuf.Lib.Fallible

/-! # The moves of a step

A step of the engine moves several requests: it takes one out of its queue, issues it, puts
it into another queue and releases its successor.  Here a step is cut into such moves.  An
invariant then has to be checked for each kind of move only, with the request that the
firmware has in hand between two queues as part of the state.
-/

namespace RwRbuf.Firmware.Requests

open Function Fallible Relation

/-- The state between two moves of a step. -/
structure Moment (Tag : Type) where
  engine : Engine Tag
  inHand : Option Tag

variable {Tag : Type} [DecidableEq Tag]

/-- The successor of a finished request leaves the queue of the blocked requests. -/
def Moment.release (engine : Engine Tag) (target : Option Tag) : Moment Tag :=
  match target with
  | none => ⟨engine, none⟩
  | some target =>
    if (engine.pool target).reqQueueType = some .blockedByBufDep then
      ⟨engine.takeFrom .blockedByBufDep target, some target⟩
    else ⟨engine, none⟩

/-- What holds after a release, if it holds before and is kept by taking a blocked request
in hand. -/
theorem Moment.release_cases (Holds : Engine Tag → Option Tag → Prop) {engine : Engine Tag}
    {target : Option Tag} (unchanged : Holds engine none)
    (taken : ∀ tag, target = some tag →
      (engine.pool tag).reqQueueType = some .blockedByBufDep →
      Holds (engine.takeFrom .blockedByBufDep tag) (some tag)) :
    Holds (Moment.release engine target).engine (Moment.release engine target).inHand := by
  unfold Moment.release
  split
  · exact unchanged
  · split
    next queued => exact taken _ rfl queued
    · exact unchanged

def Request.dmaQueue (request : Request Tag) : ReqQueueType :=
  if request.customCmd then .customCmd else .nvmeDma

/-- The moves of the main loop, which goes from one stage to another.  `allowed` restricts the
events of the run in which the moves are made. -/
inductive MainMove (allowed : Engine Tag → Event Tag → Prop) : Engine Tag → Moment Tag → Prop
  | accept {engine engine' : Engine Tag} {cmd : NvmeIoCmd}
      (permitted : allowed engine (.command cmd)) (quiet : engine.poll = .idle)
      (accepted : engine.accept cmd = some engine') :
      MainMove allowed engine ⟨engine', none⟩
  | cutInto {engine : Engine Tag} {slice : Slice} {rest : List Slice} {tag : Tag}
      {free : List Tag} (stage : engine.stage = .cutting (slice :: rest))
      (head : engine.queue .free = tag :: free) :
      MainMove allowed engine ⟨engine.cutInto slice rest tag, none⟩
  | cutAll {engine : Engine Tag} (stage : engine.stage = .cutting []) :
      MainMove allowed engine ⟨{ engine with stage := .translating }, none⟩
  | translateAll {engine : Engine Tag} (stage : engine.stage = .translating)
      (none_left : engine.queue .slice = []) :
      MainMove allowed engine ⟨{ engine with stage := .idle }, none⟩
  | hit {engine : Engine Tag} {tag : Tag} {rest : List Tag} {ref : BufferRef}
      {answer : Engine.FtlAnswer} (permitted : allowed engine (.advance answer))
      (stage : engine.stage = .translating) (head : engine.queue .slice = tag :: rest)
      (found : engine.checkHit (engine.pool tag).logicalSliceAddr = some ref) :
      MainMove allowed engine
        ⟨engine.takeSlice tag (.finishing tag) ref ((engine.buffer ref.kind).touch ref.entry),
          none⟩
  | miss {engine : Engine Tag} {tag : Tag} {rest : List Tag} {kind : BufferKind} {entry : Nat}
      {map : BufferMap Tag} (stage : engine.stage = .translating)
      (head : engine.queue .slice = tag :: rest)
      (absent : engine.checkHit (engine.pool tag).logicalSliceAddr = none)
      (chosen : kind = Engine.missKind (engine.pool tag))
      (allocated : (engine.buffer kind).allocate = some (entry, map)) :
      MainMove allowed engine ⟨engine.takeSlice tag (.evicting tag) ⟨kind, entry⟩ map, none⟩
  | skipEviction {engine : Engine Tag} {tag : Tag} {ref : BufferRef}
      (stage : engine.stage = .evicting tag) (uses : (engine.pool tag).dataBuf = some ref)
      (clean : (engine.entryOf ref).dirty = false) :
      MainMove allowed engine ⟨{ engine with stage := .binding tag }, none⟩
  | holdWriteSlot {engine : Engine Tag} {tag write : Tag} {ref : BufferRef} {lsa : Nat}
      {free : List Tag} {gcRequests : List GcRequest} (stage : engine.stage = .evicting tag)
      (uses : (engine.pool tag).dataBuf = some ref) (dirty : (engine.entryOf ref).dirty = true)
      (holds : (engine.entryOf ref).logicalSliceAddr = some lsa)
      (head : engine.queue .free = write :: free) :
      MainMove allowed engine ⟨engine.holdWriteSlot tag write lsa gcRequests, none⟩
  | prepareGcRead {engine : Engine Tag} {tag write new : Tag} {gc : GcRequest}
      {rest : List GcRequest} {free : List Tag}
      (stage : engine.stage = .collecting tag write (gc :: rest))
      (head : engine.queue .free = new :: free) :
      MainMove allowed engine
        ⟨{ engine with stage := .selectingGc tag write new rest }.prepareGc gc new, none⟩
  | prepareGc {engine : Engine Tag} {tag write new : Tag} {gc : GcRequest}
      {rest : List GcRequest} {free : List Tag}
      (stage : engine.stage = .collecting tag write (gc :: rest))
      (head : engine.queue .free = new :: free) :
      MainMove allowed engine
        ⟨{ engine with stage := .collecting tag write rest }.prepareGc gc new, some new⟩
  | resumeGc {engine : Engine Tag} {tag write read : Tag} {rest : List GcRequest}
      (stage : engine.stage = .selectingGc tag write read rest) :
      MainMove allowed engine ⟨{ engine with stage := .collecting tag write rest }, some read⟩
  | prepareWriteBack {engine : Engine Tag} {tag write : Tag} {ref : BufferRef} {lsa : Nat}
      (stage : engine.stage = .collecting tag write [])
      (uses : (engine.pool tag).dataBuf = some ref)
      (holds : (engine.entryOf ref).logicalSliceAddr = some lsa) :
      MainMove allowed engine ⟨engine.prepareWriteBack tag write ref lsa, some write⟩
  | bindTo {engine : Engine Tag} {tag : Tag} {ref : BufferRef}
      (stage : engine.stage = .binding tag) (uses : (engine.pool tag).dataBuf = some ref) :
      MainMove allowed engine ⟨engine.bindTo tag ref, none⟩
  | skipFetch {engine : Engine Tag} {tag : Tag} (stage : engine.stage = .fetching tag)
      (unneeded : engine.needsFetch (engine.pool tag) = false) :
      MainMove allowed engine ⟨{ engine with stage := .finishing tag }, none⟩
  | prepareFetch {engine : Engine Tag} {tag read : Tag} {ref : BufferRef} {free : List Tag}
      (stage : engine.stage = .fetching tag) (uses : (engine.pool tag).dataBuf = some ref)
      (needed : engine.needsFetch (engine.pool tag) = true)
      (head : engine.queue .free = read :: free) :
      MainMove allowed engine ⟨engine.prepareFetch tag read ref, none⟩
  | resumeFetch {engine : Engine Tag} {tag read : Tag}
      (stage : engine.stage = .selectingFetch tag read) :
      MainMove allowed engine ⟨{ engine with stage := .finishing tag }, some read⟩
  | makeDma {engine : Engine Tag} {tag : Tag} {ref : BufferRef}
      (stage : engine.stage = .finishing tag) (uses : (engine.pool tag).dataBuf = some ref) :
      MainMove allowed engine ⟨engine.makeDma tag ref, some tag⟩

/-- The moves: those of the DMA engine, of the main loop, of the request in hand and of the
polls. -/
inductive Move (allowed : Engine Tag → Event Tag → Prop) : Moment Tag → Moment Tag → Prop
  | serve {engine engine' : Engine Tag} {direction : Direction}
      (served : engine.serve direction = some engine') :
      Move allowed ⟨engine, none⟩ ⟨engine', none⟩
  | main {engine : Engine Tag} {after : Moment Tag} (quiet : engine.poll = .idle)
      (move : MainMove allowed engine after) : Move allowed ⟨engine, none⟩ after
  -- the request in hand
  | block {engine : Engine Tag} {tag : Tag}
      (blocked : (engine.pool tag).prevBlockingReq ≠ none) :
      Move allowed ⟨engine, some tag⟩ ⟨engine.putTo .blockedByBufDep tag, none⟩
  | toNand {engine : Engine Tag} {tag : Tag} {which : ReqQueueType}
      (front : (engine.pool tag).prevBlockingReq = none)
      (nand : (engine.pool tag).reqType = .nand)
      (choice : which = .nand ∨ which = .blockedByRowAddrDep) :
      Move allowed ⟨engine, some tag⟩ ⟨engine.putTo which tag, none⟩
  | issue {engine : Engine Tag} {tag : Tag} {direction : Direction} {ref : BufferRef}
      (front : (engine.pool tag).prevBlockingReq = none)
      (dma : (engine.pool tag).reqType = .nvmeDma)
      (direct : (engine.pool tag).direction = some direction)
      (uses : (engine.pool tag).dataBuf = some ref)
      (ready : ¬engine.waitsForRx (engine.pool tag))
      (room : (engine.dma direction).accepts ((engine.pool tag).dmaCommands ref)) :
      Move allowed ⟨engine, some tag⟩
        ⟨(engine.issueTo direction ref tag).putTo (engine.pool tag).dmaQueue tag, none⟩
  | wait {engine : Engine Tag} {tag : Tag}
      (front : (engine.pool tag).prevBlockingReq = none)
      (dma : (engine.pool tag).reqType = .nvmeDma)
      (waits : engine.waitsForRx (engine.pool tag)) :
      Move allowed ⟨engine, some tag⟩ ⟨engine.putTo .customCmd tag, none⟩
  -- the polls
  | startPoll {engine : Engine Tag} (quiet : engine.poll = .idle) :
      Move allowed ⟨engine, none⟩
        ⟨{ engine with poll := .nvmeDma (engine.queue .nvmeDma).reverse fun _ => false }, none⟩
  | startCustomPoll {engine : Engine Tag} {done : Direction → Bool}
      (walk : engine.poll = .nvmeDma [] done) :
      Move allowed ⟨engine, none⟩
        ⟨{ engine with poll := .customCmd (engine.queue .customCmd).reverse fun _ => false },
          none⟩
  | startNand {engine : Engine Tag} {done : Direction → Bool}
      (walk : engine.poll = .customCmd [] done) :
      Move allowed ⟨engine, none⟩ ⟨{ engine with poll := .nand }, none⟩
  | endPoll {engine : Engine Tag} (last : engine.poll = .nand) :
      Move allowed ⟨engine, none⟩ ⟨{ engine with poll := .idle }, none⟩
  | skipNvmeDma {engine : Engine Tag} {tag : Tag} {rest : List Tag} {done : Direction → Bool}
      (walk : engine.poll = .nvmeDma (tag :: rest) done)
      (refused : (engine.dma (engine.pool tag).walkDirection).partialDone
        (engine.pool tag).dmaTail = false) :
      Move allowed ⟨engine, none⟩ ⟨{ engine with poll := .nvmeDma rest done }, none⟩
  | skipCustomCmd {engine : Engine Tag} {tag : Tag} {rest : List Tag} {done : Direction → Bool}
      (walk : engine.poll = .customCmd (tag :: rest) done) :
      Move allowed ⟨engine, none⟩ ⟨{ engine with poll := .customCmd rest done }, none⟩
  | dropNvmeDma {engine : Engine Tag} {tag : Tag} {rest : List Tag} {done : Direction → Bool}
      {direction : Direction} (walk : engine.poll = .nvmeDma (tag :: rest) done)
      (direct : direction = (engine.pool tag).walkDirection)
      (answer : done direction = true ∨
        (engine.dma direction).partialDone (engine.pool tag).dmaTail = true) :
      Move allowed ⟨engine, none⟩
        (Moment.release
          (({ engine with
              poll := .nvmeDma rest (update done direction true) }.dropNvmeDma tag).unlink
            tag)
          (engine.pool tag).nextBlockingReq)
  | dropCustomCmd {engine : Engine Tag} {tag : Tag} {rest : List Tag}
      {done : Direction → Bool} {direction : Direction} {pass : Bool}
      (permitted : allowed engine (.visit pass))
      (walk : engine.poll = .customCmd (tag :: rest) done)
      (direct : direction = (engine.pool tag).walkDirection)
      (noRx : direction = .tx →
        (engine.customIoCmd (engine.pool tag).nvmeCmdSlotTag).notCompletedRxCount = 0)
      (issued : (engine.pool tag).issuedFlag = true)
      (answer : done direction = true ∨
        (engine.dma direction).partialDone (engine.pool tag).dmaTail = true) :
      Move allowed ⟨engine, none⟩
        (Moment.release
          (({ engine with
              poll := .customCmd rest (update done direction true) }.dropCustomCmd
                tag).unlink tag)
          (engine.pool tag).nextBlockingReq)
  | issueWaiting {engine : Engine Tag} {tag : Tag} {rest : List Tag} {done : Direction → Bool}
      {direction : Direction} {ref : BufferRef} {pass : Bool}
      (permitted : allowed engine (.visit pass))
      (walk : engine.poll = .customCmd (tag :: rest) done)
      (noRx : (engine.pool tag).reqCode ≠ .rxDma →
        (engine.customIoCmd (engine.pool tag).nvmeCmdSlotTag).notCompletedRxCount = 0)
      (waiting : (engine.pool tag).issuedFlag = false)
      (front : (engine.pool tag).prevBlockingReq = none)
      (direct : (engine.pool tag).direction = some direction)
      (uses : (engine.pool tag).dataBuf = some ref)
      (room : (engine.dma direction).accepts ((engine.pool tag).dmaCommands ref)) :
      Move allowed ⟨engine, none⟩
        ⟨{ engine with poll := .customCmd rest done }.issueTo direction ref tag, none⟩
  | unlinkWaiting {engine : Engine Tag} {tag : Tag} {rest : List Tag} {done : Direction → Bool}
      (walk : engine.poll = .customCmd (tag :: rest) done)
      (waiting : (engine.pool tag).issuedFlag = false)
      (blocked : (engine.pool tag).prevBlockingReq ≠ none) :
      Move allowed ⟨engine, none⟩
        (Moment.release ({ engine with poll := .customCmd rest done }.unlink tag)
          (engine.pool tag).nextBlockingReq)
  | dropNand {engine : Engine Tag} {tag : Tag} {pass : Bool}
      (permitted : allowed engine (.nandDone tag pass)) (quiet : engine.poll = .nand)
      (queued : tag ∈ engine.queue .nand) :
      Move allowed ⟨engine, none⟩
        (Moment.release ((engine.dropNand tag).unlink tag) (engine.pool tag).nextBlockingReq)
  | rowAddrDepDone {engine : Engine Tag} {tag : Tag} (quiet : engine.poll = .nand)
      (queued : tag ∈ engine.queue .blockedByRowAddrDep) :
      Move allowed ⟨engine, none⟩
        ⟨(engine.takeFrom .blockedByRowAddrDep tag).putTo .nand tag, none⟩

abbrev Moves (allowed : Engine Tag → Event Tag → Prop) : Moment Tag → Moment Tag → Prop :=
  ReflTransGen (Move allowed)

namespace Engine

variable {allowed : Engine Tag → Event Tag → Prop} {engine engine' : Engine Tag} {tag : Tag}
  {pass : Bool}

theorem issueNvmeDmaReq_eq_some (issued : engine.issueNvmeDmaReq tag = some engine') :
    ∃ direction ref, (engine.pool tag).direction = some direction ∧
      (engine.pool tag).dataBuf = some ref ∧
      ((engine.waitsForRx (engine.pool tag) ∧ engine' = engine) ∨
        (¬engine.waitsForRx (engine.pool tag) ∧
          (engine.dma direction).accepts ((engine.pool tag).dmaCommands ref) ∧
          engine' = engine.issueTo direction ref tag)) := by
  unfold issueNvmeDmaReq at issued
  dsimp only at issued
  split at issued
  next direction ref direct uses =>
    refine ⟨direction, ref, direct, uses, ?_⟩
    split at issued
    next waits =>
      cases issued
      exact .inl ⟨waits, rfl⟩
    next ready =>
      split at issued
      next room =>
        cases issued
        exact .inr ⟨ready, room, rfl⟩
      · cases issued
  · cases issued

theorem moves_putToLowLevelReqQ (front : (engine.pool tag).prevBlockingReq = none)
    (put : engine.putToLowLevelReqQ tag pass = some engine') :
    Moves allowed ⟨engine, some tag⟩ ⟨engine', none⟩ := by
  unfold putToLowLevelReqQ at put
  split at put
  next dma =>
    obtain ⟨issued, issuedEq, rfl⟩ := Option.map_eq_some_iff.1 put
    obtain ⟨direction, ref, direct, uses, ⟨waits, rfl⟩ | ⟨ready, room, rfl⟩⟩ :=
      issueNvmeDmaReq_eq_some issuedEq
    · rw [if_pos waits.2.1]
      exact .single (.wait front dma waits)
    · have queue : (if (engine.pool tag).customCmd = true then
            (engine.issueTo direction ref tag).putToCustomCmdReqQ tag
          else (engine.issueTo direction ref tag).putToNvmeDmaReqQ tag) =
          (engine.issueTo direction ref tag).putTo (engine.pool tag).dmaQueue tag := by
        unfold Request.dmaQueue
        split <;> rfl
      rw [queue]
      exact .single (.issue front dma direct uses ready room)
  next nand =>
    cases put
    cases pass with
    | true => exact .single (.toNand front nand (.inl rfl))
    | false => exact .single (.toNand front nand (.inr rfl))
  · cases put

theorem moves_selectLowLevelReqQ (selected : engine.selectLowLevelReqQ tag pass = some engine') :
    Moves allowed ⟨engine, some tag⟩ ⟨engine', none⟩ := by
  unfold selectLowLevelReqQ checkBufDep at selected
  split at selected
  next front => exact moves_putToLowLevelReqQ (Option.isNone_iff_eq_none.1 front) selected
  next blocked =>
    cases selected
    apply ReflTransGen.single
    apply Move.block
    rintro front
    simp [front] at blocked

/-- After `unlink` the successor of the request is the first of its chain. -/
theorem prev_unlink_next {target : Tag} (next : (engine.pool tag).nextBlockingReq = some target) :
    ((engine.unlink tag).pool target).prevBlockingReq = none := by
  show (unlinkPool engine.pool tag target).prevBlockingReq = none
  unfold unlinkPool
  rw [next]
  by_cases same : target = tag
  · subst same
    simp
  · simp [same]

theorem moves_releaseBlockedByBufDepReq {target : Option Tag}
    (next : (engine.pool tag).nextBlockingReq = target)
    (released : engine.releaseBlockedByBufDepReq tag pass = some engine') :
    Moves allowed (Moment.release (engine.unlink tag) target) ⟨engine', none⟩ := by
  unfold releaseBlockedByBufDepReq releaseTarget at released
  rw [next] at released
  unfold Moment.release
  cases target with
  | none =>
    cases released
    exact .refl
  | some target =>
    have front := prev_unlink_next next
    dsimp only at released ⊢
    split at released
    next queued =>
      rw [if_pos queued]
      apply moves_putToLowLevelReqQ _ released
      simpa [takeFrom] using front
    next other =>
      rw [if_neg other]
      cases released
      exact .refl

theorem next_dropped (engine : Engine Tag) (which : ReqQueueType) (tag : Tag) :
    (((engine.takeFrom which tag).putTo .free tag).pool tag).nextBlockingReq =
      (engine.pool tag).nextBlockingReq := by
  simp [takeFrom, putTo]

theorem moves_visitNvmeDma {rest : List Tag} {done : Direction → Bool}
    (walk : engine.poll = .nvmeDma (tag :: rest) done)
    (visited : engine.visitNvmeDma tag rest done pass = some engine') :
    Moves allowed ⟨engine, none⟩ ⟨engine', none⟩ := by
  unfold visitNvmeDma at visited
  dsimp only at visited
  split at visited
  next answer =>
    rw [answer] at visited
    exact .head (.dropNvmeDma walk rfl (Bool.or_eq_true _ _ ▸ answer))
      (moves_releaseBlockedByBufDepReq (next_dropped _ _ tag) visited)
  next answer =>
    rw [Bool.not_eq_true] at answer
    have unchanged : update done _ false = done :=
      update_eq_self_iff.2 (Bool.or_eq_false_iff.1 answer).1.symm
    rw [answer, unchanged] at visited
    cases visited
    exact .single (.skipNvmeDma walk (Bool.or_eq_false_iff.1 answer).2)

theorem moves_visitCustomCmdRequest {rest : List Tag} {done : Direction → Bool}
    {direction : Direction} (permitted : allowed engine (.visit pass))
    (walk : engine.poll = .customCmd (tag :: rest) done)
    (direct : direction = (engine.pool tag).walkDirection)
    (noRx : (engine.pool tag).reqCode ≠ .rxDma →
      (engine.customIoCmd (engine.pool tag).nvmeCmdSlotTag).notCompletedRxCount = 0)
    (visited : engine.visitCustomCmdRequest tag rest done direction pass = some engine') :
    Moves allowed ⟨engine, none⟩ ⟨engine', none⟩ := by
  unfold visitCustomCmdRequest at visited
  dsimp only at visited
  split at visited
  next issued =>
    split at visited
    next answer =>
      rw [answer] at visited
      refine .head (.dropCustomCmd permitted walk direct ?_ issued
        (Bool.or_eq_true _ _ ▸ answer))
        (moves_releaseBlockedByBufDepReq (next_dropped _ _ tag) visited)
      intro tx
      apply noRx
      intro rx
      rw [direct, Request.walkDirection, if_pos rx] at tx
      cases tx
    next answer =>
      rw [Bool.not_eq_true] at answer
      have unchanged : update done direction false = done :=
        update_eq_self_iff.2 (Bool.or_eq_false_iff.1 answer).1.symm
      rw [answer, unchanged] at visited
      cases visited
      exact .single (.skipCustomCmd walk)
  next waiting =>
    rw [Bool.not_eq_true] at waiting
    split at visited
    next front =>
      obtain ⟨direction', ref, direct', uses, ⟨waits, rfl⟩ | ⟨ready, room, rfl⟩⟩ :=
        issueNvmeDmaReq_eq_some visited
      · -- the count of the Rx requests was zero when the visit began
        exfalso
        apply waits.2.2.2
        apply noRx
        intro rx
        rw [waits.1] at rx
        cases rx
      · exact .single (.issueWaiting permitted walk noRx waiting
          (Option.isNone_iff_eq_none.1 front) direct' uses room)
    next blocked =>
      refine .head (.unlinkWaiting walk waiting ?_)
        (moves_releaseBlockedByBufDepReq rfl visited)
      intro front
      simp [checkBufDep, front] at blocked

theorem moves_visit (permitted : allowed engine (.visit pass))
    (visited : engine.visit pass = some engine') :
    Moves allowed ⟨engine, none⟩ ⟨engine', none⟩ := by
  unfold visit at visited
  split at visited
  next walk => exact moves_visitNvmeDma walk visited
  next walk =>
    cases visited
    exact .single (.startCustomPoll walk)
  next tag rest done walk =>
    unfold visitCustomCmd at visited
    dsimp only at visited
    split at visited
    next rx =>
      refine moves_visitCustomCmdRequest permitted walk ?_ (fun other => absurd rx other)
        visited
      rw [Request.walkDirection, if_pos rx]
    next tx =>
      split at visited
      next noRx =>
        refine moves_visitCustomCmdRequest permitted walk ?_ (fun _ => noRx) visited
        rw [Request.walkDirection, if_neg tx]
      · cases visited
        exact .single (.skipCustomCmd walk)
  next walk =>
    cases visited
    exact .single (.startNand walk)
  · cases visited

section

variable (quiet : engine.poll = .idle)
include quiet

theorem moves_startTranslation {answer : FtlAnswer}
    (permitted : allowed engine (.advance answer)) (stage : engine.stage = .translating)
    (started : engine.startTranslation = some engine') :
    Moves allowed ⟨engine, none⟩ ⟨engine', none⟩ := by
  unfold startTranslation at started
  split at started
  next empty =>
    cases started
    exact .single (.main quiet (.translateAll stage empty))
  next tag rest head =>
    split at started
    next ref found =>
      cases started
      exact .single (.main quiet (.hit permitted stage head found))
    next absent =>
      obtain ⟨⟨entry, map⟩, allocated, rfl⟩ := Option.map_eq_some_iff.1 started
      exact .single (.main quiet (.miss stage head absent rfl allocated))

theorem moves_startEviction {gcRequests : List GcRequest} (stage : engine.stage = .evicting tag)
    (started : engine.startEviction tag gcRequests = some engine') :
    Moves allowed ⟨engine, none⟩ ⟨engine', none⟩ := by
  unfold startEviction at started
  split at started
  · cases started
  next ref uses =>
    split at started
    next dirty =>
      split at started
      next write free lsa head holds =>
        cases started
        exact .single (.main quiet (.holdWriteSlot stage uses dirty holds head))
      · cases started
    next clean =>
      cases started
      exact .single (.main quiet (.skipEviction stage uses (Bool.not_eq_true _ ▸ clean)))

theorem moves_collect {write : Tag} {gc : GcRequest} {rest : List GcRequest}
    (stage : engine.stage = .collecting tag write (gc :: rest))
    (collected : engine.collect tag write gc rest pass = some engine') :
    Moves allowed ⟨engine, none⟩ ⟨engine', none⟩ := by
  unfold collect at collected
  split at collected
  · cases collected
  next new free head =>
    split at collected
    · cases collected
      exact .single (.main quiet (.prepareGcRead stage head))
    · exact .head (.main quiet (.prepareGc stage head)) (moves_selectLowLevelReqQ collected)

theorem moves_writeBack {write : Tag} (stage : engine.stage = .collecting tag write [])
    (written : engine.writeBack tag write pass = some engine') :
    Moves allowed ⟨engine, none⟩ ⟨engine', none⟩ := by
  unfold writeBack at written
  split at written
  · cases written
  next ref uses =>
    split at written
    · cases written
    next lsa holds =>
      exact .head (.main quiet (.prepareWriteBack stage uses holds))
        (moves_selectLowLevelReqQ written)

theorem moves_fetch (stage : engine.stage = .fetching tag)
    (fetched : engine.fetch tag = some engine') : Moves allowed ⟨engine, none⟩ ⟨engine', none⟩ := by
  unfold fetch at fetched
  split at fetched
  next needed =>
    split at fetched
    next read free ref head uses =>
      cases fetched
      exact .single (.main quiet (.prepareFetch stage uses needed head))
    · cases fetched
  next unneeded =>
    cases fetched
    exact .single (.main quiet (.skipFetch stage (Bool.not_eq_true _ ▸ unneeded)))

theorem moves_finishSlice (stage : engine.stage = .finishing tag)
    (finished : engine.finishSlice tag pass = some engine') :
    Moves allowed ⟨engine, none⟩ ⟨engine', none⟩ := by
  unfold finishSlice at finished
  split at finished
  · cases finished
  next ref uses =>
    exact .head (.main quiet (.makeDma stage uses)) (moves_selectLowLevelReqQ finished)

theorem moves_advance {answer : FtlAnswer} (permitted : allowed engine (.advance answer))
    (advanced : engine.advance answer = some engine') :
    Moves allowed ⟨engine, none⟩ ⟨engine', none⟩ := by
  unfold advance at advanced
  split at advanced
  · cases advanced
  next slice rest stage =>
    unfold cutSlice at advanced
    split at advanced
    · cases advanced
    next head =>
      cases advanced
      exact .single (.main quiet (.cutInto stage head))
  next stage =>
    cases advanced
    exact .single (.main quiet (.cutAll stage))
  next stage => exact moves_startTranslation quiet permitted stage advanced
  next stage => exact moves_startEviction quiet stage advanced
  next stage => exact moves_collect quiet stage advanced
  next stage => exact moves_writeBack quiet stage advanced
  next stage => exact .head (.main quiet (.resumeGc stage)) (moves_selectLowLevelReqQ advanced)
  next stage =>
    obtain ⟨ref, uses, rfl⟩ := Option.map_eq_some_iff.1 advanced
    exact .single (.main quiet (.bindTo stage uses))
  next stage => exact moves_fetch quiet stage advanced
  next stage => exact .head (.main quiet (.resumeFetch stage)) (moves_selectLowLevelReqQ advanced)
  next stage => exact moves_finishSlice quiet stage advanced

end

theorem moves_step {event : Event Tag} (permitted : allowed engine event)
    (taken : engine.step event = some engine') : Moves allowed ⟨engine, none⟩ ⟨engine', none⟩ := by
  unfold step at taken
  split at taken
  · exact .single (.serve taken)
  · split at taken
    next quiet => exact .single (.main quiet (.accept permitted quiet taken))
    · cases taken
  · split at taken
    next quiet => exact moves_advance quiet permitted taken
    · cases taken
  · split at taken
    next quiet =>
      split at taken
      · cases taken
        exact .single (.startPoll quiet)
      · cases taken
    · cases taken
  · exact moves_visit permitted taken
  · split at taken
    next quiet =>
      unfold selectiveGetFromNandReqQ at taken
      split at taken
      next queued =>
        exact .head (.dropNand permitted quiet queued)
          (moves_releaseBlockedByBufDepReq (next_dropped _ _ _) taken)
      · cases taken
    · cases taken
  · split at taken
    next quiet =>
      unfold releaseBlockedByRowAddrDepReq at taken
      split at taken
      next queued =>
        cases taken
        exact .single (.rowAddrDepDone quiet queued)
      · cases taken
    · cases taken
  · split at taken
    next last =>
      cases taken
      exact .single (.endPoll last)
    · cases taken

theorem moves_of_run {start final : Engine Tag}
    (run : ReflTransGen (EventStep Engine.step allowed) start final) :
    Moves allowed ⟨start, none⟩ ⟨final, none⟩ := by
  induction run with
  | refl => exact .refl
  | tail _ last ih =>
    obtain ⟨event, permitted, taken⟩ := last
    exact ih.trans (moves_step permitted taken)

end Engine

/-- What holds at the start and is kept by every move holds along a run. -/
theorem run_of_moves {allowed : Engine Tag → Event Tag → Prop}
    (Invariant : Engine Tag → Option Tag → Prop) {start final : Engine Tag}
    (initial : Invariant start none)
    (kept : ∀ before after : Moment Tag, Invariant before.engine before.inHand →
      Move allowed before after → Invariant after.engine after.inHand)
    (run : ReflTransGen (EventStep Engine.step allowed) start final) :
    Invariant final none :=
  run_invariant (fun moment => Invariant moment.engine moment.inHand) initial kept
    (Engine.moves_of_run run)

end RwRbuf.Firmware.Requests
