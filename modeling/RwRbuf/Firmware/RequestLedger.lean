import RwRbuf.Firmware.CommandLedger
import RwRbuf.Firmware.RequestQueues

/-! # The engine keeps the ledger

The slices that wait for their translation are the current request and the slice queue, in
order; the slices that are counted and not finished are those of the DMA requests in the
queues and of the one in hand, one request each.  With this every move of the engine either
leaves the ledger as it is or is a step of the ledger.
-/

namespace RwRbuf.Firmware.Requests

variable {Tag : Type}

namespace Stage

/-- The slice request that is being translated. -/
def current : Stage Tag → Option Tag
  | idle => none
  | cutting _ => none
  | translating => none
  | evicting tag => some tag
  | collecting tag _ _ => some tag
  | selectingGc tag _ _ _ => some tag
  | binding tag => some tag
  | fetching tag => some tag
  | selectingFetch tag _ => some tag
  | finishing tag => some tag

def uncut : Stage Tag → List Slice
  | cutting rest => rest
  | _ => []

end Stage

namespace Request

/-- The request without its links, its DMA record and its buffer entry. -/
def entry (request : Request Tag) : Request Tag :=
  { request.core with
    issuedFlag := false
    dmaTail := 0
    dataBuf := none }

def base (request : Request Tag) : Request Tag :=
  { request.entry with reqQueueType := none }

structure Carries (request : Request Tag) (slice : Slice) : Prop where
  slot : request.nvmeCmdSlotTag = slice.nvmeCmdSlotTag
  lsa : request.logicalSliceAddr = slice.logicalSliceAddr
  startIndex : request.startIndex = slice.startIndex
  offset : request.nvmeBlockOffset = slice.nvmeBlockOffset
  count : request.numOfNvmeBlock = slice.numOfNvmeBlock
  custom : request.customCmd = slice.customCmd

theorem field_of_entry {Value : Type} (field : Request Tag → Value)
    (blind : ∀ request, field request.entry = field request) {request request' : Request Tag}
    (same : request'.entry = request.entry) : field request' = field request := by
  rw [← blind request', same, blind]

theorem field_of_base {Value : Type} (field : Request Tag → Value)
    (blind : ∀ request, field request.base = field request) {request request' : Request Tag}
    (same : request'.base = request.base) : field request' = field request := by
  rw [← blind request', same, blind]

theorem Carries.of_base {request request' : Request Tag} {slice : Slice}
    (carries : request.Carries slice) (same : request'.base = request.base) :
    request'.Carries slice where
  slot := (field_of_base (·.nvmeCmdSlotTag) (fun _ => rfl) same).trans carries.slot
  lsa := (field_of_base (·.logicalSliceAddr) (fun _ => rfl) same).trans carries.lsa
  startIndex := (field_of_base (·.startIndex) (fun _ => rfl) same).trans carries.startIndex
  offset := (field_of_base (·.nvmeBlockOffset) (fun _ => rfl) same).trans carries.offset
  count := (field_of_base (·.numOfNvmeBlock) (fun _ => rfl) same).trans carries.count
  custom := (field_of_base (·.customCmd) (fun _ => rfl) same).trans carries.custom

end Request

namespace Engine

variable (engine : Engine Tag) (inHand : Option Tag)

def ledger : Ledger where
  slices := engine.slices
  commandCount := engine.commandCount
  translated := engine.translated
  finished := engine.finished
  customIoCmd := engine.customIoCmd
  completions := engine.completions
  slotOwner := engine.slotOwner

/-- The slice requests, in the order of their translation. -/
def waiting : List Tag := engine.stage.current.toList ++ engine.queue .slice

/-- A DMA request in a queue or in hand. -/
def Live (tag : Tag) : Prop :=
  (engine.pool tag).reqType = .nvmeDma ∧
    ((engine.pool tag).reqQueueType = some .blockedByBufDep ∨
      (engine.pool tag).reqQueueType = some .nvmeDma ∨
      (engine.pool tag).reqQueueType = some .customCmd ∨ inHand = some tag)

structure Tracks : Prop where
  translated_le : engine.translated ≤ engine.cut
  cut_le : engine.cut ≤ engine.slices.length
  uncut : engine.stage.uncut = engine.slices.drop engine.cut
  idle : engine.stage = .idle → engine.queue .slice = []
  selecting : ∀ tag, engine.stage.selecting = some tag → (engine.pool tag).reqType = .nand
  numbers : engine.waiting.map (fun tag => (engine.pool tag).sliceNo) =
    List.range' engine.translated (engine.cut - engine.translated)
  slices : ∀ tag ∈ engine.waiting, (engine.pool tag).reqType = .slice ∧
    ∃ slice, engine.slices[(engine.pool tag).sliceNo]? = some slice ∧
      (engine.pool tag).Carries slice ∧ (engine.pool tag).reqCode = slice.code.reqCode
  live : ∀ tag, engine.Live inHand tag →
    (engine.pool tag).sliceNo ∈ engine.ledger.outstanding ∧
    ∃ slice, engine.slices[(engine.pool tag).sliceNo]? = some slice ∧
      (engine.pool tag).Carries slice ∧ (engine.pool tag).reqCode = slice.code.dmaCode
  distinct : ∀ tag other, engine.Live inHand tag → engine.Live inHand other →
    (engine.pool tag).sliceNo = (engine.pool other).sliceNo → tag = other
  accounted : ∀ sliceNo ∈ engine.ledger.outstanding,
    ∃ tag, engine.Live inHand tag ∧ (engine.pool tag).sliceNo = sliceNo
  customQueue : ∀ tag, (engine.pool tag).reqQueueType = some .customCmd →
    (engine.pool tag).reqType = .nvmeDma ∧ (engine.pool tag).customCmd = true
  nvmeDmaQueue : ∀ tag, (engine.pool tag).reqQueueType = some .nvmeDma →
    (engine.pool tag).reqType = .nvmeDma ∧ (engine.pool tag).customCmd = false

namespace Tracks

variable {engine inHand} {engine' : Engine Tag} {inHand' : Option Tag} {tag : Tag}

section

variable {request request' : Request Tag} (same : request'.entry = request.entry)
include same

theorem type_of_entry : request'.reqType = request.reqType :=
  Request.field_of_entry (·.reqType) (fun _ => rfl) same

theorem mark_of_entry : request'.reqQueueType = request.reqQueueType :=
  Request.field_of_entry (·.reqQueueType) (fun _ => rfl) same

theorem base_of_entry : request'.base = request.base :=
  Request.field_of_entry (·.base) (by rintro ⟨⟩; rfl) same

end

section

variable {request request' : Request Tag} (same : request'.base = request.base)
include same

theorem type_of_base : request'.reqType = request.reqType :=
  Request.field_of_base (·.reqType) (fun _ => rfl) same

theorem code_of_base : request'.reqCode = request.reqCode :=
  Request.field_of_base (·.reqCode) (fun _ => rfl) same

theorem sliceNo_of_base : request'.sliceNo = request.sliceNo :=
  Request.field_of_base (·.sliceNo) (fun _ => rfl) same

theorem custom_of_base : request'.customCmd = request.customCmd :=
  Request.field_of_base (·.customCmd) (fun _ => rfl) same

end

theorem live_of_entry (same : (engine'.pool tag).entry = (engine.pool tag).entry)
    (hand : inHand' = some tag ↔ inHand = some tag) :
    engine'.Live inHand' tag ↔ engine.Live inHand tag := by
  unfold Live
  rw [type_of_entry same, mark_of_entry same, hand]

/-- What a request that a move touches must keep when the ledger stays as it is. -/
structure Kept (engine : Engine Tag) (inHand : Option Tag) (engine' : Engine Tag)
    (inHand' : Option Tag) (tag : Tag) : Prop where
  live : engine'.Live inHand' tag ↔ engine.Live inHand tag
  base : engine.Live inHand tag ∨ tag ∈ engine.waiting →
    (engine'.pool tag).base = (engine.pool tag).base
  customQueue : (engine'.pool tag).reqQueueType = some .customCmd →
    (engine.pool tag).reqQueueType = some .customCmd ∨
      (engine.Live inHand tag ∧ (engine.pool tag).customCmd = true)
  nvmeDmaQueue : (engine'.pool tag).reqQueueType = some .nvmeDma →
    (engine.pool tag).reqQueueType = some .nvmeDma ∨
      (engine.Live inHand tag ∧ (engine.pool tag).customCmd = false)

theorem Kept.of_entry (same : (engine'.pool tag).entry = (engine.pool tag).entry)
    (hand : inHand' = some tag ↔ inHand = some tag) : Kept engine inHand engine' inHand' tag where
  live := live_of_entry same hand
  base := fun _ => base_of_entry same
  customQueue := fun marked => .inl (mark_of_entry same ▸ marked)
  nvmeDmaQueue := fun marked => .inl (mark_of_entry same ▸ marked)

theorem quiet (tracks : Tracks engine inHand) (kept : ∀ tag, Kept engine inHand engine' inHand' tag)
    (waiting : engine'.waiting = engine.waiting) (ledger : engine'.ledger = engine.ledger)
    (cut : engine'.cut = engine.cut) (uncut : engine'.stage.uncut = engine.stage.uncut)
    (idle : engine'.stage = .idle → engine'.queue .slice = [])
    (selecting : ∀ tag, engine'.stage.selecting = some tag →
      (engine'.pool tag).reqType = .nand) : Tracks engine' inHand' := by
  have slices : engine'.slices = engine.slices := congrArg Ledger.slices ledger
  have translated : engine'.translated = engine.translated :=
    congrArg Ledger.translated ledger
  have waitingBase : ∀ tag ∈ engine.waiting,
      (engine'.pool tag).base = (engine.pool tag).base := fun tag member =>
    (kept tag).base (.inr member)
  have liveBase : ∀ tag, engine.Live inHand tag →
      (engine'.pool tag).base = (engine.pool tag).base := fun tag live =>
    (kept tag).base (.inl live)
  refine
    { translated_le := by rw [translated, cut]; exact tracks.translated_le
      cut_le := by rw [cut, slices]; exact tracks.cut_le
      uncut := by rw [uncut, cut, slices]; exact tracks.uncut
      idle := idle
      selecting := selecting
      numbers := ?_
      slices := ?_
      live := ?_
      distinct := ?_
      accounted := ?_
      customQueue := ?_
      nvmeDmaQueue := ?_ }
  · rw [waiting, translated, cut, ← tracks.numbers]
    exact List.map_congr_left fun tag member => sliceNo_of_base (waitingBase tag member)
  · intro tag member
    rw [waiting] at member
    obtain ⟨type, slice, found, carries, code⟩ := tracks.slices tag member
    have same := waitingBase tag member
    rw [type_of_base same, sliceNo_of_base same, code_of_base same, slices]
    exact ⟨type, slice, found, carries.of_base same, code⟩
  · intro tag live
    rw [(kept tag).live] at live
    obtain ⟨outstanding, slice, found, carries, code⟩ := tracks.live tag live
    have same := liveBase tag live
    rw [sliceNo_of_base same, code_of_base same, slices, ledger]
    exact ⟨outstanding, slice, found, carries.of_base same, code⟩
  · intro tag other live liveOther same
    rw [(kept tag).live] at live
    rw [(kept other).live] at liveOther
    rw [sliceNo_of_base (liveBase tag live), sliceNo_of_base (liveBase other liveOther)] at same
    exact tracks.distinct tag other live liveOther same
  · intro sliceNo outstanding
    rw [ledger] at outstanding
    obtain ⟨tag, live, number⟩ := tracks.accounted sliceNo outstanding
    refine ⟨tag, (kept tag).live.2 live, ?_⟩
    rw [sliceNo_of_base (liveBase tag live), number]
  · intro tag marked
    have before : engine.Live inHand tag ∧ (engine.pool tag).customCmd = true := by
      rcases (kept tag).customQueue marked with there | arrives
      · obtain ⟨type, custom⟩ := tracks.customQueue tag there
        exact ⟨⟨type, .inr (.inr (.inl there))⟩, custom⟩
      · exact arrives
    have same := liveBase tag before.1
    rw [type_of_base same, custom_of_base same]
    exact ⟨before.1.1, before.2⟩
  · intro tag marked
    have before : engine.Live inHand tag ∧ (engine.pool tag).customCmd = false := by
      rcases (kept tag).nvmeDmaQueue marked with there | arrives
      · obtain ⟨type, custom⟩ := tracks.nvmeDmaQueue tag there
        exact ⟨⟨type, .inr (.inl there)⟩, custom⟩
      · exact arrives
    have same := liveBase tag before.1
    rw [type_of_base same, custom_of_base same]
    exact ⟨before.1.1, before.2⟩

section Moves

variable {stage : Stage Tag}

theorem current_mem_held (current : stage.current = some tag) : tag ∈ stage.held := by
  cases stage <;> simp_all [Stage.current, Stage.held]

variable {which : ReqQueueType}

/-- A request whose mark is neither empty nor that of the slice queue does not wait for its
translation. -/
theorem not_waiting (queues : Queues engine inHand)
    (marked : (engine.pool tag).reqQueueType = some which) (other : which ≠ .slice) :
    tag ∉ engine.waiting := by
  intro member
  rcases List.mem_append.1 member with current | queued
  · have held := current_mem_held (Option.mem_toList.1 current)
    have unmarked := queues.consistent.unmarked (List.mem_append_left _ held)
    rw [show (engine.queueState inHand).mark tag = _ from marked] at unmarked
    cases unmarked
  · have slice := queues.mem_iff.1 queued
    rw [marked] at slice
    exact other (Option.some.inj slice)

theorem not_live_of_mark (mark : Option ReqQueueType)
    (marked : (engine.pool tag).reqQueueType = mark)
    (aside : mark ≠ some .blockedByBufDep ∧ mark ≠ some .nvmeDma ∧ mark ≠ some .customCmd) :
    ¬engine.Live none tag := by
  rintro ⟨_, queued | queued | queued | held⟩
  · exact aside.1 (marked.symm.trans queued)
  · exact aside.2.1 (marked.symm.trans queued)
  · exact aside.2.2 (marked.symm.trans queued)
  · cases held

theorem not_live_of_type (type : (engine.pool tag).reqType ≠ .nvmeDma) :
    ¬engine.Live inHand tag := fun live => type live.1

theorem Kept.dead (before : ¬engine.Live inHand tag) (after : ¬engine'.Live inHand' tag)
    (unwanted : tag ∈ engine.waiting → (engine'.pool tag).base = (engine.pool tag).base)
    (mark : (engine'.pool tag).reqQueueType ≠ some .customCmd ∧
      (engine'.pool tag).reqQueueType ≠ some .nvmeDma) :
    Kept engine inHand engine' inHand' tag where
  live := iff_of_false after before
  base := fun used => used.elim (fun live => absurd live before) unwanted
  customQueue := fun marked => absurd marked mark.1
  nvmeDmaQueue := fun marked => absurd marked mark.2

variable [DecidableEq Tag]

/-- Only the request `tag` changes. -/
theorem kept_of_touched (tag : Tag)
    (others : ∀ other, other ≠ tag → (engine'.pool other).entry = (engine.pool other).entry)
    (hand : ∀ other, other ≠ tag → (inHand' = some other ↔ inHand = some other))
    (touched : Kept engine inHand engine' inHand' tag) (other : Tag) :
    Kept engine inHand engine' inHand' other := by
  by_cases same : other = tag
  · subst same
    exact touched
  · exact Kept.of_entry (others other same) (hand other same)

theorem entry_linked (engine : Engine Tag) (ref : BufferRef) (tag other : Tag) :
    ((engine.updateEntryInfoBlockingReq ref tag).pool other).entry = (engine.pool other).entry :=
  field_linkPool Request.entry (fun _ => rfl) _ _ tag other

theorem entry_unlinked (engine : Engine Tag) (tag other : Tag) :
    ((engine.unlink tag).pool other).entry = (engine.pool other).entry :=
  field_unlinkPool Request.entry (fun _ => rfl) _ tag other

section

variable (tracks : Tracks engine inHand)
  (entries : ∀ other, (engine'.pool other).entry = (engine.pool other).entry)
  (ledger : engine'.ledger = engine.ledger) (cut : engine'.cut = engine.cut)
  (queue : engine'.queue = engine.queue)
include tracks entries ledger cut queue

omit [DecidableEq Tag] in
/-- No request changes anything but its links, its DMA record and its buffer entry, and the
main loop goes on with the same slices. -/
theorem still (current : engine'.stage.current = engine.stage.current)
    (uncut : engine'.stage.uncut = engine.stage.uncut)
    (idle : engine'.stage = .idle → engine.queue .slice = [])
    (selecting : ∀ tag, engine'.stage.selecting = some tag →
      engine.stage.selecting = some tag) : Tracks engine' inHand := by
  refine tracks.quiet (fun tag => Kept.of_entry (entries tag) Iff.rfl) ?_ ledger cut uncut ?_ ?_
  · unfold waiting
    rw [current, queue]
  · rw [queue]
    exact idle
  · intro tag chosen
    rw [type_of_entry (entries tag)]
    exact tracks.selecting tag (selecting tag chosen)

omit [DecidableEq Tag] in
/-- Like `still`, in the middle of a stage. -/
theorem inside (stage : engine'.stage = engine.stage) : Tracks engine' inHand := by
  apply tracks.still entries ledger cut queue
  · rw [stage]
  · rw [stage]
  · rw [stage]
    exact tracks.idle
  · rw [stage]
    exact fun _ chosen => chosen

end

/-- One request changes its queue; the main loop stays where it is and no DMA request comes
or goes. -/
theorem requeue (tag : Tag) (tracks : Tracks engine inHand)
    (others : ∀ other, other ≠ tag → (engine'.pool other).entry = (engine.pool other).entry)
    (hand : ∀ other, other ≠ tag → (inHand' = some other ↔ inHand = some other))
    (touched : Kept engine inHand engine' inHand' tag)
    (type : (engine'.pool tag).reqType = (engine.pool tag).reqType)
    (ledger : engine'.ledger = engine.ledger) (cut : engine'.cut = engine.cut)
    (queue : engine'.queue .slice = engine.queue .slice)
    (stage : engine'.stage = engine.stage) : Tracks engine' inHand' := by
  refine tracks.quiet (kept_of_touched tag others hand touched) ?_ ledger cut ?_ ?_ ?_
  · unfold waiting
    rw [stage, queue]
  · rw [stage]
  · rw [stage, queue]
    exact tracks.idle
  · intro other chosen
    rw [stage] at chosen
    have before := tracks.selecting other chosen
    by_cases same : other = tag
    · subst same
      exact type.trans before
    · exact (type_of_entry (others other same)).trans before

section

variable (tracks : Tracks engine none) (queues : Queues engine none)
include tracks queues

theorem takeSlice {rest : List Tag} {ref : BufferRef} {map : BufferMap Tag}
    (translating : engine.stage = .translating) (head : engine.queue .slice = tag :: rest)
    (current : stage.current = some tag) (uncut : stage.uncut = [])
    (selecting : stage.selecting = none) (busy : stage ≠ .idle) :
    Tracks (engine.takeSlice tag stage ref map) none := by
  have marked : (engine.pool tag).reqQueueType = some .slice := queues.mem_iff.1 (by simp [head])
  refine tracks.quiet (kept_of_touched tag ?_ (fun _ _ => Iff.rfl) ?_) ?_ rfl rfl ?_ ?_ ?_
  · intro other ne
    simp [Engine.takeSlice, Engine.modify, Engine.takeFrom, ne]
  · apply Kept.dead (not_live_of_mark _ marked (by decide))
    · apply not_live_of_mark none _ (by decide)
      simp [Engine.takeSlice, Engine.modify, Engine.takeFrom]
    · intro _
      simp [Engine.takeSlice, Engine.modify, Engine.takeFrom, Request.base, Request.entry,
        Request.core]
    · simp [Engine.takeSlice, Engine.modify, Engine.takeFrom]
  · have before : engine.stage.current = none := by
      rw [translating]
      rfl
    have after : (engine.takeSlice tag stage ref map).stage.current = some tag := current
    unfold waiting
    rw [before, after]
    simp [Engine.takeSlice, Engine.modify, Engine.takeFrom, head]
  · rw [translating]
    exact uncut
  · intro idle
    exact absurd idle busy
  · intro other chosen
    rw [show (engine.takeSlice tag stage ref map).stage = stage from rfl, selecting] at chosen
    cases chosen

/-- A slot from the free queue is taken for a flash request or held for one. -/
private theorem takeSlot {free : List Tag} (head : engine.queue .free = tag :: free)
    (others : ∀ other, other ≠ tag → (engine'.pool other).entry = (engine.pool other).entry)
    (hand : ∀ other, other ≠ tag → inHand' ≠ some other)
    (mark : (engine'.pool tag).reqQueueType = none) (dead : ¬engine'.Live inHand' tag)
    (ledger : engine'.ledger = engine.ledger) (cut : engine'.cut = engine.cut)
    (queue : engine'.queue .slice = engine.queue .slice)
    (current : engine'.stage.current = engine.stage.current)
    (uncut : engine'.stage.uncut = engine.stage.uncut) (busy : engine'.stage ≠ .idle)
    (selecting : ∀ other, engine'.stage.selecting = some other →
      (engine'.pool other).reqType = .nand) : Tracks engine' inHand' := by
  have marked : (engine.pool tag).reqQueueType = some .free := queues.mem_iff.1 (by simp [head])
  refine tracks.quiet (kept_of_touched tag others ?_ ?_) ?_ ledger cut uncut ?_ selecting
  · intro other ne
    exact iff_of_false (hand other ne) (by simp)
  · refine Kept.dead (not_live_of_mark _ marked (by decide)) dead ?_ (by simp [mark])
    intro member
    exact absurd member (not_waiting queues marked (by decide))
  · unfold waiting
    rw [current, queue]
  · intro idle
    exact absurd idle busy

theorem holdWriteSlot {write : Tag} {lsa : Nat} {free : List Tag} {gcRequests : List GcRequest}
    (stage : engine.stage = .evicting tag) (head : engine.queue .free = write :: free) :
    Tracks (engine.holdWriteSlot tag write lsa gcRequests) none := by
  apply tracks.takeSlot queues head
  · intro other ne
    simp [Engine.holdWriteSlot, Engine.takeFrom, ne]
  · simp
  · simp [Engine.holdWriteSlot, Engine.takeFrom]
  · apply not_live_of_mark none _ (by decide)
    simp [Engine.holdWriteSlot, Engine.takeFrom]
  · rfl
  · rfl
  · rfl
  · simp [Engine.holdWriteSlot, Engine.takeFrom, stage, Stage.current]
  · simp [Engine.holdWriteSlot, Engine.takeFrom, stage, Stage.uncut]
  · simp [Engine.holdWriteSlot, Engine.takeFrom]
  · intro other chosen
    cases chosen

end

private theorem gc_pool (engine : Engine Tag) (gc : GcRequest) (new other : Tag) :
    ((engine.prepareGc gc new).pool other).entry =
      (((engine.takeFrom .free new).modify new (·.fillGc gc)).pool other).entry := by
  unfold Engine.prepareGc
  cases gc.dataBuf with
  | none => rfl
  | some ref => exact entry_linked _ ref new other

section

variable (tracks : Tracks engine none) (queues : Queues engine none)
include tracks queues

theorem prepareGc {gc : GcRequest} {new : Tag} {free : List Tag}
    (head : engine.queue .free = new :: free) (hand : ∀ other, other ≠ new → inHand' ≠ some other)
    (current : stage.current = engine.stage.current)
    (uncut : stage.uncut = engine.stage.uncut) (busy : stage ≠ .idle)
    (selecting : ∀ other, stage.selecting = some other → other = new) :
    Tracks ({ engine with stage := stage }.prepareGc gc new) inHand' := by
  have pool := gc_pool { engine with stage := stage } gc new
  have type : (({ engine with stage := stage }.prepareGc gc new).pool new).reqType = .nand := by
    rw [type_of_entry (pool new)]
    simp [Engine.modify, Request.fillGc]
  have fields : ({ engine with stage := stage }.prepareGc gc new).ledger = engine.ledger ∧
      ({ engine with stage := stage }.prepareGc gc new).cut = engine.cut ∧
      ({ engine with stage := stage }.prepareGc gc new).queue .slice = engine.queue .slice ∧
      ({ engine with stage := stage }.prepareGc gc new).stage = stage := by
    unfold Engine.prepareGc
    cases gc.dataBuf <;> exact ⟨rfl, rfl, rfl, rfl⟩
  obtain ⟨ledger, cut, queue, stageEq⟩ := fields
  apply tracks.takeSlot queues head
  · intro other ne
    rw [pool other]
    simp [Engine.modify, Engine.takeFrom, ne]
  · exact hand
  · rw [mark_of_entry (pool new)]
    simp [Engine.modify, Engine.takeFrom, Request.fillGc]
  · exact not_live_of_type (by rw [type]; decide)
  · exact ledger
  · exact cut
  · exact queue
  · rw [stageEq, current]
  · rw [stageEq, uncut]
  · rw [stageEq]
    exact busy
  · intro other chosen
    rw [stageEq] at chosen
    rw [selecting other chosen]
    exact type

theorem prepareFetch
    {read : Tag} {ref : BufferRef} {free : List Tag} (stage : engine.stage = .fetching tag)
    (head : engine.queue .free = read :: free) :
    Tracks (engine.prepareFetch tag read ref) none := by
  have pool : ∀ other, ((engine.prepareFetch tag read ref).pool other).entry = _ := fun other =>
    entry_linked _ ref read other
  have type : ((engine.prepareFetch tag read ref).pool read).reqType = .nand := by
    rw [type_of_entry (pool read)]
    simp [Engine.modify, Request.fillNand]
  apply tracks.takeSlot queues head
  · intro other ne
    rw [pool other]
    simp [Engine.modify, Engine.takeFrom, ne]
  · simp
  · rw [mark_of_entry (pool read)]
    simp [Engine.modify, Engine.takeFrom, Request.fillNand]
  · exact not_live_of_type (by rw [type]; decide)
  · rfl
  · rfl
  · rfl
  · simp [Engine.prepareFetch, updateEntryInfoBlockingReq, Engine.modify, Engine.takeFrom,
      stage, Stage.current]
  · simp [Engine.prepareFetch, updateEntryInfoBlockingReq, Engine.modify, Engine.takeFrom,
      stage, Stage.uncut]
  · simp [Engine.prepareFetch, updateEntryInfoBlockingReq, Engine.modify, Engine.takeFrom]
  · intro other chosen
    cases chosen
    exact type

theorem prepareWriteBack {write : Tag} {ref : BufferRef} {lsa : Nat}
    (stage : engine.stage = .collecting tag write []) :
    Tracks (engine.prepareWriteBack tag write ref lsa) (some write) := by
  have pool : ∀ other, ((engine.prepareWriteBack tag write ref lsa).pool other).entry = _ :=
    fun other => entry_linked _ ref write other
  have loose : (engine.queueState none).loose = [tag, write] := by
    simp [queueState, stage, Stage.held]
  have unmarked : (engine.pool write).reqQueueType = none :=
    queues.consistent.unmarked (by rw [loose]; simp)
  have differs : write ≠ tag := by
    have nodup := queues.consistent.loose_nodup
    rw [loose] at nodup
    rintro rfl
    simp at nodup
  refine tracks.quiet (kept_of_touched write ?_ ?_ ?_) ?_ rfl rfl ?_ ?_ ?_
  · intro other ne
    rw [pool other]
    simp [Engine.modify, ne]
  · intro other ne
    simp [Ne.symm ne]
  · refine Kept.dead (not_live_of_mark _ unmarked (by decide)) ?_ ?_ ?_
    · apply not_live_of_type
      rw [type_of_entry (pool write)]
      simp [Engine.modify, Request.fillNand]
    · intro member
      rcases List.mem_append.1 member with current | queued
      · rw [stage] at current
        exact absurd (Option.some.inj (Option.mem_toList.1 current)).symm differs
      · have slice := queues.mem_iff.1 queued
        rw [unmarked] at slice
        cases slice
    · rw [mark_of_entry (pool write)]
      simp [Engine.modify, Request.fillNand, unmarked]
  · unfold waiting
    rw [stage]
    rfl
  · rw [stage]
    rfl
  · intro idle
    cases idle
  · intro other chosen
    cases chosen

end

/-- The flash request that waited in `SelectLowLevelReqQ` is in hand again. -/
theorem resume (tracks : Tracks engine none) {read : Tag}
    (selecting : engine.stage.selecting = some read)
    (current : stage.current = engine.stage.current)
    (uncut : stage.uncut = engine.stage.uncut) (busy : stage ≠ .idle)
    (chosen : stage.selecting = none) : Tracks { engine with stage := stage } (some read) := by
  have type : (engine.pool read).reqType ≠ .nvmeDma := by
    rw [tracks.selecting read selecting]
    decide
  refine tracks.quiet (kept_of_touched read (fun _ _ => rfl) ?_ ?_) ?_ rfl rfl uncut ?_ ?_
  · intro other ne
    simp [Ne.symm ne]
  · exact
      { live := iff_of_false (not_live_of_type type) (not_live_of_type type)
        base := fun _ => rfl
        customQueue := .inl
        nvmeDmaQueue := .inl }
  · unfold waiting
    rw [current]
  · intro idle
    exact absurd idle busy
  · intro other again
    rw [chosen] at again
    cases again

omit [DecidableEq Tag] in
private theorem hand_moves {tag other : Tag} (ne : other ≠ tag) :
    ((none : Option Tag) = some other ↔ some tag = some other) := by
  simp [Ne.symm ne]

theorem base_putTo (engine : Engine Tag) (which : ReqQueueType) (tag other : Tag) :
    ((engine.putTo which tag).pool other).base = (engine.pool other).base := by
  by_cases same : other = tag
  · subst same
    simp [Engine.putTo, Request.base, Request.entry, Request.core]
  · simp [Engine.putTo, same]

theorem base_takeFrom (engine : Engine Tag) (which : ReqQueueType) (tag other : Tag) :
    ((engine.takeFrom which tag).pool other).base = (engine.pool other).base := by
  by_cases same : other = tag
  · subst same
    simp [Engine.takeFrom, Request.base, Request.entry, Request.core]
  · simp [Engine.takeFrom, same]

/-- The request in hand goes into a queue that is not one of the DMA queues. -/
theorem putAside (tracks : Tracks engine (some tag))
    (side : which ≠ .slice ∧ which ≠ .customCmd ∧ which ≠ .nvmeDma)
    (live : which = .blockedByBufDep ∨ (engine.pool tag).reqType ≠ .nvmeDma) :
    Tracks (engine.putTo which tag) none := by
  have mark : ((engine.putTo which tag).pool tag).reqQueueType = some which := by
    simp [Engine.putTo]
  have type := type_of_base (base_putTo engine which tag tag)
  refine tracks.requeue tag ?_ (fun other ne => hand_moves ne) ?_ type rfl rfl ?_ rfl
  · intro other ne
    simp [Engine.putTo, ne]
  · refine ⟨?_, fun _ => base_putTo engine which tag tag, ?_, ?_⟩
    · rcases live with rfl | dead
      · unfold Live
        rw [type, mark]
        simp
      · exact iff_of_false (not_live_of_type (by rw [type]; exact dead)) (not_live_of_type dead)
    · rw [mark]
      intro same
      exact absurd (Option.some.inj same) side.2.1
    · rw [mark]
      intro same
      exact absurd (Option.some.inj same) side.2.2
  · simp [Engine.putTo, side.1.symm]

theorem putDma (tracks : Tracks engine (some tag)) (dma : (engine.pool tag).reqType = .nvmeDma) :
    Tracks (engine.putTo (engine.pool tag).dmaQueue tag) none := by
  have queue : (engine.pool tag).dmaQueue = .customCmd ∧ (engine.pool tag).customCmd = true ∨
      (engine.pool tag).dmaQueue = .nvmeDma ∧ (engine.pool tag).customCmd = false := by
    unfold Request.dmaQueue
    cases (engine.pool tag).customCmd <;> simp
  have mark : ((engine.putTo (engine.pool tag).dmaQueue tag).pool tag).reqQueueType =
      some (engine.pool tag).dmaQueue := by
    simp [Engine.putTo]
  have live : engine.Live (some tag) tag := ⟨dma, .inr (.inr (.inr rfl))⟩
  have type := type_of_base (base_putTo engine (engine.pool tag).dmaQueue tag tag)
  refine tracks.requeue tag ?_ (fun other ne => hand_moves ne) ?_ type rfl rfl ?_ rfl
  · intro other ne
    simp [Engine.putTo, ne]
  · refine ⟨?_, fun _ => base_putTo engine _ tag tag, ?_, ?_⟩
    · refine iff_of_true ⟨type.trans dma, ?_⟩ live
      rw [mark]
      rcases queue with ⟨custom, _⟩ | ⟨plain, _⟩
      · exact .inr (.inr (.inl (congrArg some custom)))
      · exact .inr (.inl (congrArg some plain))
    · rw [mark]
      intro same
      rcases queue with ⟨_, custom⟩ | ⟨plain, _⟩
      · exact .inr ⟨live, custom⟩
      · rw [plain] at same
        cases same
    · rw [mark]
      intro same
      rcases queue with ⟨custom, _⟩ | ⟨_, plain⟩
      · rw [custom] at same
        cases same
      · exact .inr ⟨live, plain⟩
  · rcases queue with ⟨custom, _⟩ | ⟨plain, _⟩
    · simp [Engine.putTo, custom]
    · simp [Engine.putTo, plain]

theorem takeTarget (tracks : Tracks engine none)
    (queued : (engine.pool tag).reqQueueType = some .blockedByBufDep) :
    Tracks (engine.takeFrom .blockedByBufDep tag) (some tag) := by
  have mark : ((engine.takeFrom .blockedByBufDep tag).pool tag).reqQueueType = none := by
    simp [Engine.takeFrom]
  have type := type_of_base (base_takeFrom engine .blockedByBufDep tag tag)
  refine tracks.requeue tag ?_ (fun other ne => (hand_moves ne).symm) ?_ type rfl rfl rfl rfl
  · intro other ne
    simp [Engine.takeFrom, ne]
  · refine ⟨?_, fun _ => base_takeFrom engine _ tag tag, ?_, ?_⟩
    · unfold Live
      rw [type, mark, queued]
      simp
    · rw [mark]
      rintro ⟨⟩
    · rw [mark]
      rintro ⟨⟩

theorem requeueNand (tag : Tag) (tracks : Tracks engine none)
    (others : ∀ other, other ≠ tag → (engine'.pool other).entry = (engine.pool other).entry)
    (base : (engine'.pool tag).base = (engine.pool tag).base)
    (before : (engine.pool tag).reqQueueType = some .nand ∨
      (engine.pool tag).reqQueueType = some .blockedByRowAddrDep)
    (after : (engine'.pool tag).reqQueueType = some .nand ∨
      (engine'.pool tag).reqQueueType = some .free)
    (ledger : engine'.ledger = engine.ledger) (cut : engine'.cut = engine.cut)
    (queue : engine'.queue .slice = engine.queue .slice)
    (stage : engine'.stage = engine.stage) : Tracks engine' none := by
  refine tracks.requeue tag others (fun _ _ => Iff.rfl) ?_ (type_of_base base) ledger cut queue
    stage
  refine Kept.dead ?_ ?_ (fun _ => base) ?_
  · rcases before with nand | row
    · exact not_live_of_mark _ nand (by decide)
    · exact not_live_of_mark _ row (by decide)
  · rcases after with nand | free
    · exact not_live_of_mark _ nand (by decide)
    · exact not_live_of_mark _ free (by decide)
  · rcases after with nand | free
    · simp [nand]
    · simp [free]

omit [DecidableEq Tag] in
theorem translated_of_idle (tracks : Tracks engine inHand) (idle : engine.stage = .idle) :
    engine.cut = engine.slices.length ∧ engine.translated = engine.slices.length := by
  have none_left : engine.slices.drop engine.cut = [] := by
    rw [← tracks.uncut, idle]
    rfl
  have cut : engine.cut = engine.slices.length :=
    Nat.le_antisymm tracks.cut_le (List.drop_eq_nil_iff.1 none_left)
  have empty : engine.waiting = [] := by
    unfold waiting
    rw [tracks.idle idle, idle]
    rfl
  have numbers := congrArg List.length tracks.numbers
  rw [empty] at numbers
  simp only [List.map_nil, List.length_nil, List.length_range'] at numbers
  have le := tracks.translated_le
  exact ⟨cut, by omega⟩

omit [DecidableEq Tag] in
theorem accept (tracks : Tracks engine none) {cmd : NvmeIoCmd}
    (accepted : engine.accept cmd = some engine') :
    Tracks engine' none ∧ engine.translated = engine.slices.length ∧
      engine.slotOwner cmd.cmdSlotTag = none ∧ engine'.ledger = engine.ledger.accept cmd := by
  obtain ⟨idle, free, rfl⟩ := accept_eq_some accepted
  obtain ⟨cut, translated⟩ := tracks.translated_of_idle idle
  have found : ∀ {sliceNo : Nat} {slice : Slice}, engine.slices[sliceNo]? = some slice →
      (engine.slices ++ cmd.slices engine.commandCount)[sliceNo]? = some slice := by
    intro sliceNo slice before
    rw [List.getElem?_append_left (List.getElem?_eq_some_iff.1 before).1]
    exact before
  have empty : engine.queue .slice = [] := tracks.idle idle
  refine ⟨?_, translated, free, rfl⟩
  exact
    { translated_le := tracks.translated_le
      cut_le := by
        show engine.cut ≤ (engine.slices ++ _).length
        rw [cut, List.length_append]
        exact Nat.le_add_right _ _
      uncut := by
        show cmd.slices engine.commandCount = (engine.slices ++ _).drop engine.cut
        rw [cut, List.drop_left]
      idle := by
        intro again
        cases again
      selecting := by
        intro tag chosen
        cases chosen
      numbers := by
        have numbers := tracks.numbers
        unfold waiting at numbers
        rw [idle] at numbers
        exact numbers
      slices := by
        intro tag member
        have member' : tag ∈ engine.queue .slice := member
        rw [empty] at member'
        cases member'
      live := by
        intro tag live
        obtain ⟨outstanding, slice, before, carries, code⟩ := tracks.live tag live
        exact ⟨outstanding, slice, found before, carries, code⟩
      distinct := tracks.distinct
      accounted := tracks.accounted
      customQueue := tracks.customQueue
      nvmeDmaQueue := tracks.nvmeDmaQueue }

theorem cutInto (tracks : Tracks engine none) (queues : Queues engine none)
    {slice : Slice} {rest : List Slice} {free : List Tag}
    (stage : engine.stage = .cutting (slice :: rest)) (head : engine.queue .free = tag :: free) :
    Tracks (engine.cutInto slice rest tag) none := by
  have marked : (engine.pool tag).reqQueueType = some .free := queues.mem_iff.1 (by simp [head])
  have dead : ¬engine.Live none tag := not_live_of_mark _ marked (by decide)
  have outside := not_waiting queues marked (by decide)
  have uncut := tracks.uncut
  rw [stage] at uncut
  have inside : engine.cut < engine.slices.length := by
    by_contra beyond
    rw [List.drop_eq_nil_of_le (Nat.le_of_not_lt beyond)] at uncut
    cases uncut
  rw [List.drop_eq_getElem_cons inside] at uncut
  obtain ⟨sliceEq, restEq⟩ := List.cons.inj uncut
  have pool : ∀ other, other ≠ tag →
      (engine.cutInto slice rest tag).pool other = engine.pool other := by
    intro other ne
    simp [Engine.cutInto, Engine.putTo, Engine.modify, Engine.takeFrom, ne]
  have own : (engine.cutInto slice rest tag).pool tag =
      { (engine.pool tag).fillSlice slice engine.cut with reqQueueType := some .slice } := by
    simp [Engine.cutInto, Engine.putTo, Engine.modify, Engine.takeFrom, Request.fillSlice]
  have waiting : (engine.cutInto slice rest tag).waiting = engine.waiting ++ [tag] := by
    simp [Engine.waiting, Engine.cutInto, Engine.putTo, Engine.modify, Engine.takeFrom, stage,
      Stage.current]
  have live : ∀ other, (engine.cutInto slice rest tag).Live none other ↔
      engine.Live none other := by
    intro other
    by_cases same : other = tag
    · subst same
      refine iff_of_false ?_ dead
      apply not_live_of_mark (some .slice) _ (by decide)
      rw [own]
    · unfold Live
      rw [pool other same]
  have livePool : ∀ other, engine.Live none other →
      (engine.cutInto slice rest tag).pool other = engine.pool other := fun other alive =>
    pool other fun same => dead (same ▸ alive)
  have waitingPool : ∀ other ∈ engine.waiting,
      (engine.cutInto slice rest tag).pool other = engine.pool other := fun other member =>
    pool other fun same => outside (same ▸ member)
  exact
    { translated_le := Nat.le_succ_of_le tracks.translated_le
      cut_le := inside
      uncut := restEq
      idle := by
        intro again
        cases again
      selecting := by
        intro other chosen
        cases chosen
      numbers := by
        have before : (engine.waiting.map fun other =>
            ((engine.cutInto slice rest tag).pool other).sliceNo) =
              engine.waiting.map fun other => (engine.pool other).sliceNo :=
          List.map_congr_left fun other member => by rw [waitingPool other member]
        have more : engine.cut + 1 - engine.translated = engine.cut - engine.translated + 1 := by
          have le := tracks.translated_le
          omega
        rw [waiting, List.map_append, before, tracks.numbers]
        show _ = List.range' engine.translated (engine.cut + 1 - engine.translated)
        rw [more, List.range'_concat, List.map_singleton, own]
        congr 2
        have le := tracks.translated_le
        show engine.cut = _
        omega
      slices := by
        intro other member
        rw [waiting] at member
        rcases List.mem_append.1 member with before | new
        · rw [waitingPool other before]
          exact tracks.slices other before
        · rw [List.mem_singleton.1 new, own]
          refine ⟨rfl, slice, ?_, ⟨rfl, rfl, rfl, rfl, rfl, rfl⟩, rfl⟩
          show engine.slices[engine.cut]? = some slice
          rw [List.getElem?_eq_getElem inside, sliceEq]
      live := by
        intro other alive
        rw [live other] at alive
        rw [livePool other alive]
        exact tracks.live other alive
      distinct := by
        intro first second alive alive' same
        rw [live] at alive alive'
        rw [livePool first alive, livePool second alive'] at same
        exact tracks.distinct first second alive alive' same
      accounted := by
        intro sliceNo outstanding
        obtain ⟨other, alive, number⟩ := tracks.accounted sliceNo outstanding
        refine ⟨other, (live other).2 alive, ?_⟩
        rw [livePool other alive]
        exact number
      customQueue := by
        intro other queued
        by_cases same : other = tag
        · rw [same, own] at queued
          cases queued
        · rw [pool other same] at queued ⊢
          exact tracks.customQueue other queued
      nvmeDmaQueue := by
        intro other queued
        by_cases same : other = tag
        · rw [same, own] at queued
          cases queued
        · rw [pool other same] at queued ⊢
          exact tracks.nvmeDmaQueue other queued }

end Moves

end Tracks

end Engine
end RwRbuf.Firmware.Requests
