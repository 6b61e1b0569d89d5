import RwRbuf.Firmware.SliceStages

/-! # What the DMA engine was given

A DMA request is given to the DMA engine once, and it records how many commands the engine
then had.  The two walks remove requests by these records: after the first positive answer
for a direction they take the remaining requests of the direction without asking.  This is
right only if the requests stand in the queue in the order in which they were given.
-/

namespace RwRbuf.Firmware.Requests

open Function

variable {Tag : Type}

def Stage.spare : Stage Tag → Option Tag
  | collecting _ write _ => some write
  | selectingGc _ write _ _ => some write
  | _ => none

/-- The answers of a walk, by direction. -/
def Poll.done : Poll Tag → Direction → Bool
  | nvmeDma _ done => done
  | customCmd _ done => done
  | _ => fun _ => false

theorem Request.field_of_core {Value : Type} (field : Request Tag → Value)
    (blind : ∀ request, field request.core = field request) {request request' : Request Tag}
    (same : request'.core = request.core) : field request' = field request := by
  rw [← blind request', same, blind]

def IsDmaQueue (which : ReqQueueType) : Prop := which = .nvmeDma ∨ which = .customCmd

theorem Request.isDmaQueue_dmaQueue (request : Request Tag) : IsDmaQueue request.dmaQueue := by
  unfold dmaQueue
  split
  · exact .inr rfl
  · exact .inl rfl

namespace Engine

section Visit

variable (engine : Engine Tag)

def answered (tag : Tag) (done : Direction → Bool) : Bool :=
  let request := engine.pool tag
  done request.walkDirection || (engine.dma request.walkDirection).partialDone request.dmaTail

def removedByVisit : Option Tag :=
  match engine.poll with
  | .nvmeDma (tag :: _) done => if engine.answered tag done then some tag else none
  | .customCmd (tag :: _) done =>
    let request := engine.pool tag
    if (request.reqCode = .rxDma ∨
        (engine.customIoCmd request.nvmeCmdSlotTag).notCompletedRxCount = 0) ∧
        request.issuedFlag = true ∧ engine.answered tag done = true then
      some tag
    else none
  | _ => none

end Visit

section Given

variable {engine engine' : Engine Tag} {tag : Tag}

/-- The commands of the request were given to the DMA engine and the request waits for
them. -/
def Given (engine : Engine Tag) (tag : Tag) : Prop :=
  (engine.pool tag).reqQueueType = some .nvmeDma ∨
    ((engine.pool tag).reqQueueType = some .customCmd ∧ (engine.pool tag).issuedFlag = true)

theorem given_of_core (same : (engine'.pool tag).core = (engine.pool tag).core) :
    engine'.Given tag ↔ engine.Given tag := by
  unfold Given
  rw [Request.field_of_core (·.reqQueueType) (fun _ => rfl) same,
    Request.field_of_core (·.issuedFlag) (fun _ => rfl) same]

theorem not_given_of_mark {mark : Option ReqQueueType}
    (marked : (engine.pool tag).reqQueueType = mark) (other : mark ≠ some .nvmeDma)
    (another : mark ≠ some .customCmd) : ¬engine.Given tag := by
  rintro (given | ⟨given, _⟩)
  · exact other (marked.symm.trans given)
  · exact another (marked.symm.trans given)

end Given

/-- A change that gives nothing to the DMA engine and removes no request that waits for it. -/
structure DmaAside (engine engine' : Engine Tag) : Prop where
  dma : engine'.dma = engine.dma
  finished : engine'.finished = engine.finished
  queue : ∀ which, IsDmaQueue which → ∃ new, engine'.queue which = engine.queue which ++ new ∧
    ∀ tag ∈ new, ¬engine'.Given tag
  given : ∀ tag, engine'.Given tag ↔ engine.Given tag
  core : ∀ tag, engine.Given tag → (engine'.pool tag).core = (engine.pool tag).core

namespace DmaAside

variable {engine middle engine' : Engine Tag} {tag : Tag}

/-- Requests that do not wait for the DMA engine, before and after, may change. -/
theorem of_core_or (dma : engine'.dma = engine.dma) (finished : engine'.finished = engine.finished)
    (queue : ∀ which, IsDmaQueue which → engine'.queue which = engine.queue which)
    (core : ∀ tag, (engine'.pool tag).core = (engine.pool tag).core ∨
      ¬engine.Given tag ∧ ¬engine'.Given tag) : DmaAside engine engine' where
  dma := dma
  finished := finished
  queue which isDma := ⟨[], by rw [queue which isDma, List.append_nil], by simp⟩
  given tag := by
    rcases core tag with same | ⟨before, after⟩
    · exact given_of_core same
    · exact iff_of_false after before
  core tag given := by
    rcases core tag with same | ⟨before, _⟩
    · exact same
    · exact absurd given before

theorem of_pool (pool : engine'.pool = engine.pool) (dma : engine'.dma = engine.dma)
    (finished : engine'.finished = engine.finished) (queue : engine'.queue = engine.queue) :
    DmaAside engine engine' :=
  of_core_or dma finished (fun which _ => congrFun queue which) fun tag =>
    .inl (by rw [pool])

theorem trans (first : DmaAside engine middle) (second : DmaAside middle engine') :
    DmaAside engine engine' where
  dma := second.dma.trans first.dma
  finished := second.finished.trans first.finished
  queue which isDma := by
    obtain ⟨new, firstQueue, firstNew⟩ := first.queue which isDma
    obtain ⟨new', secondQueue, secondNew⟩ := second.queue which isDma
    refine ⟨new ++ new', by rw [secondQueue, firstQueue, List.append_assoc], ?_⟩
    intro tag member
    rcases List.mem_append.1 member with old | recent
    · rw [second.given]
      exact firstNew tag old
    · exact secondNew tag recent
  given tag := (second.given tag).trans (first.given tag)
  core tag given := (second.core tag ((first.given tag).2 given)).trans (first.core tag given)

variable [DecidableEq Tag]

/-- A request that does not wait for the DMA engine changes, and its mark with it. -/
theorem of_update {value : Request Tag} (dma : engine'.dma = engine.dma)
    (finished : engine'.finished = engine.finished)
    (queue : ∀ which, IsDmaQueue which → engine'.queue which = engine.queue which)
    (pool : engine'.pool = update engine.pool tag value) (before : ¬engine.Given tag)
    (after : ¬engine'.Given tag) : DmaAside engine engine' := by
  refine of_core_or dma finished queue fun other => ?_
  by_cases same : other = tag
  · subst same
    exact .inr ⟨before, after⟩
  · left
    rw [pool, update_of_ne same]

theorem unlink (engine : Engine Tag) (tag : Tag) : DmaAside engine (engine.unlink tag) :=
  of_core_or rfl rfl (fun _ _ => rfl) fun other => .inl (unlinkPool_core engine.pool tag other)

theorem linked (engine : Engine Tag) (ref : BufferRef) (tag : Tag) :
    DmaAside engine (engine.updateEntryInfoBlockingReq ref tag) :=
  of_core_or rfl rfl (fun _ _ => rfl) fun other => .inl (linkPool_core engine.pool _ tag other)

/-- A request leaves a queue that is not one of the DMA requests. -/
theorem takeFrom {which : ReqQueueType} (other : ¬IsDmaQueue which)
    (marked : (engine.pool tag).reqQueueType = some which) :
    DmaAside engine (engine.takeFrom which tag) := by
  refine of_update rfl rfl ?_ rfl ?_ ?_
  · intro queue isDma
    apply update_of_ne
    rintro rfl
    exact other isDma
  · apply not_given_of_mark marked
    · rintro ⟨⟩
      exact other (.inl rfl)
    · rintro ⟨⟩
      exact other (.inr rfl)
  · apply @not_given_of_mark Tag (engine.takeFrom which tag) tag none
    · simp [Engine.takeFrom]
    · simp
    · simp

theorem putTo {which : ReqQueueType} (other : ¬IsDmaQueue which)
    (unmarked : (engine.pool tag).reqQueueType = none) :
    DmaAside engine (engine.putTo which tag) := by
  refine of_update rfl rfl ?_ rfl ?_ ?_
  · intro queue isDma
    apply update_of_ne
    rintro rfl
    exact other isDma
  · exact not_given_of_mark unmarked (by simp) (by simp)
  · apply @not_given_of_mark Tag (engine.putTo which tag) tag (some which)
    · simp [Engine.putTo]
    · rintro ⟨⟩
      exact other (.inl rfl)
    · rintro ⟨⟩
      exact other (.inr rfl)

theorem modify (tag : Tag) (change : Request Tag → Request Tag)
    (keeps : ∀ request, (change request).reqQueueType = request.reqQueueType)
    (unmarked : (engine.pool tag).reqQueueType = none) :
    DmaAside engine (engine.modify tag change) := by
  refine of_update rfl rfl (fun _ _ => rfl) rfl ?_ ?_
  · exact not_given_of_mark unmarked (by simp) (by simp)
  · apply @not_given_of_mark Tag (engine.modify tag change) tag none
    · simp [Engine.modify, keeps, unmarked]
    · simp
    · simp

theorem release (engine : Engine Tag) (target : Option Tag) :
    DmaAside engine (Moment.release engine target).engine := by
  apply Moment.release_cases (fun after _ => DmaAside engine after)
  · exact of_pool rfl rfl rfl rfl
  · intro tag _ queued
    apply takeFrom _ queued
    rintro (⟨⟨⟩⟩ | ⟨⟨⟩⟩)

theorem takeFree (queues : Queues engine none) {free : List Tag}
    (head : engine.queue .free = tag :: free)
    (pool : middle.pool = engine.pool) (dma : middle.dma = engine.dma)
    (finished : middle.finished = engine.finished) (queue : middle.queue = engine.queue) :
    DmaAside engine (middle.takeFrom .free tag) := by
  apply (of_pool pool dma finished queue).trans
  apply takeFrom (by rintro (⟨⟨⟩⟩ | ⟨⟨⟩⟩))
  rw [pool]
  exact queues.mem_iff.1 (by rw [head]; exact List.mem_cons_self)

theorem prepareGc (queues : Queues engine none) {free : List Tag} {new : Tag}
    (head : engine.queue .free = new :: free) (stage : Stage Tag) (gc : GcRequest) :
    DmaAside engine ({ engine with stage := stage }.prepareGc gc new) := by
  have taken : DmaAside engine
      ({ engine with stage := stage, handed := engine.handed ++ [new] }.takeFrom .free new) :=
    takeFree queues head rfl rfl rfl rfl
  have filled := taken.trans (modify new (·.fillGc gc) (fun _ => rfl) (by
    simp [Engine.takeFrom]))
  unfold Engine.prepareGc
  cases gc.dataBuf with
  | none => exact filled
  | some ref => exact filled.trans (linked _ ref new)

theorem takeSlice (queues : Queues engine none) {rest : List Tag}
    (head : engine.queue .slice = tag :: rest) (stage : Stage Tag) (ref : BufferRef)
    (map : BufferMap Tag) : DmaAside engine (engine.takeSlice tag stage ref map) := by
  have moved : DmaAside engine { engine with
      stage := stage
      buffer := update engine.buffer ref.kind map } := of_pool rfl rfl rfl rfl
  have marked : (engine.pool tag).reqQueueType = some .slice :=
    queues.mem_iff.1 (by rw [head]; exact List.mem_cons_self)
  refine (moved.trans (takeFrom (by rintro (⟨⟨⟩⟩ | ⟨⟨⟩⟩)) marked)).trans
    (modify tag _ (fun _ => rfl) ?_)
  simp [Engine.takeFrom]

end DmaAside

variable {engine : Engine Tag} {tag : Tag}

theorem Queues.unmarked_of_held (queues : Queues engine none) (held : tag ∈ engine.stage.held) :
    (engine.pool tag).reqQueueType = none :=
  queues.consistent.unmarked (List.mem_append_left _ held)

theorem Queues.unmarked_of_inHand (queues : Queues engine (some tag)) :
    (engine.pool tag).reqQueueType = none :=
  queues.consistent.unmarked (List.mem_append_right _ (List.mem_singleton_self tag))

variable [DecidableEq Tag] {allowed : Engine Tag → Event Tag → Prop} {inHand : Option Tag}

theorem dmaAside_main {after : Moment Tag} (queues : Queues engine none)
    (move : MainMove allowed engine after) : DmaAside engine after.engine := by
  cases move with
  | accept _ _ accepted =>
    obtain ⟨_, _, rfl⟩ := accept_eq_some accepted
    exact .of_pool rfl rfl rfl rfl
  | @cutInto slice rest tag free stage head =>
    have taken : DmaAside engine ({ engine with
        stage := .cutting rest
        cut := engine.cut + 1 }.takeFrom .free tag) := .takeFree queues head rfl rfl rfl rfl
    have filled := taken.trans (.modify tag (·.fillSlice slice engine.cut) (fun _ => rfl) (by
      simp [Engine.takeFrom]))
    exact filled.trans (.putTo (by rintro (⟨⟨⟩⟩ | ⟨⟨⟩⟩)) (by
      simp [Engine.takeFrom, Engine.modify, Request.fillSlice]))
  | cutAll | translateAll | skipEviction | resumeGc | bindTo | skipFetch | resumeFetch =>
    exact .of_pool rfl rfl rfl rfl
  | hit _ _ head | miss _ head => exact .takeSlice queues head _ _ _
  | holdWriteSlot _ _ _ _ head => exact .takeFree queues head rfl rfl rfl rfl
  | prepareGcRead _ head | prepareGc _ head => exact .prepareGc queues head _ _
  | @prepareWriteBack tag write ref lsa stage =>
    have moved : DmaAside engine { engine with
        stage := .binding tag
        handed := engine.handed ++ [write] } := .of_pool rfl rfl rfl rfl
    have unmarked : (engine.pool write).reqQueueType = none :=
      queues.unmarked_of_held (by simp [stage, Stage.held])
    exact (moved.trans (.modify write (·.fillNand (engine.pool tag) .write lsa ref)
      (fun _ => rfl) unmarked)).trans (.linked _ ref write)
  | @prepareFetch tag read ref free stage _ _ head =>
    have taken : DmaAside engine ({ engine with
        stage := .selectingFetch tag read
        handed := engine.handed ++ [read] }.takeFrom .free read) :=
      .takeFree queues head rfl rfl rfl rfl
    have filled := taken.trans (.modify read
      (·.fillNand (engine.pool tag) .read (engine.pool tag).logicalSliceAddr ref)
      (fun _ => rfl) (by simp [Engine.takeFrom]))
    exact filled.trans (.linked _ ref read)
  | @makeDma tag ref stage =>
    have unmarked : (engine.pool tag).reqQueueType = none :=
      queues.unmarked_of_held (by simp [stage, Stage.held])
    refine DmaAside.trans ?_ (.linked _ ref tag)
    refine DmaAside.trans ?_ (.modify tag (·.fillDma _) (fun _ => rfl) unmarked)
    exact .of_pool rfl rfl rfl rfl

/-! ## Requests that are not given yet -/

/-- The flag of a slice request or a DMA request is set only while the DMA engine has its
commands.  A free slot and a slot that is kept for a write request have the flag of their last
use. -/
def Settled (engine : Engine Tag) (tag : Tag) : Prop :=
  (engine.pool tag).issuedFlag = true → (engine.pool tag).reqType = .nand ∨
    engine.Given tag ∨ (engine.pool tag).reqQueueType = some .free ∨
      engine.stage.spare = some tag

def Fresh (engine : Engine Tag) : Prop := ∀ tag, engine.Settled tag

namespace Fresh

variable {engine' : Engine Tag}

omit [DecidableEq Tag] in
theorem spare_mem_held {stage : Stage Tag} (spare : stage.spare = some tag) : tag ∈ stage.held := by
  cases stage <;> simp_all [Stage.spare, Stage.held]

variable {which : ReqQueueType}

omit [DecidableEq Tag] in
theorem flag_of_mark (fresh : Fresh engine) (queues : Queues engine inHand)
    (marked : (engine.pool tag).reqQueueType = some which)
    (other : ¬IsDmaQueue which) (used : which ≠ .free)
    (type : (engine.pool tag).reqType ≠ .nand) : (engine.pool tag).issuedFlag = false := by
  rw [← Bool.not_eq_true]
  intro flag
  rcases fresh tag flag with nand | given | free | spare
  · exact type nand
  · apply not_given_of_mark marked _ _ given
    · rintro ⟨⟩
      exact other (.inl rfl)
    · rintro ⟨⟩
      exact other (.inr rfl)
  · rw [marked] at free
    exact used (Option.some.inj free)
  · have unmarked := queues.consistent.unmarked (List.mem_append_left _ (spare_mem_held spare))
    rw [show (engine.queueState inHand).mark tag = _ from marked] at unmarked
    cases unmarked

omit [DecidableEq Tag] in
theorem flag_of_unmarked (fresh : Fresh engine)
    (unmarked : (engine.pool tag).reqQueueType = none) (needed : engine.stage.spare ≠ some tag)
    (type : (engine.pool tag).reqType ≠ .nand) : (engine.pool tag).issuedFlag = false := by
  rw [← Bool.not_eq_true]
  intro flag
  rcases fresh tag flag with nand | given | free | spare
  · exact type nand
  · exact not_given_of_mark unmarked (by simp) (by simp) given
  · rw [unmarked] at free
    cases free
  · exact needed spare

omit [DecidableEq Tag] in
theorem settled_of_core (settled : engine.Settled tag)
    (same : (engine'.pool tag).core = (engine.pool tag).core)
    (spare : engine.stage.spare = some tag → engine'.stage.spare = some tag) :
    engine'.Settled tag := by
  intro flag
  rw [Request.field_of_core (·.issuedFlag) (fun _ => rfl) same] at flag
  rw [Request.field_of_core (·.reqType) (fun _ => rfl) same, given_of_core same,
    Request.field_of_core (·.reqQueueType) (fun _ => rfl) same]
  rcases settled flag with nand | given | free | kept
  · exact .inl nand
  · exact .inr (.inl given)
  · exact .inr (.inr (.inl free))
  · exact .inr (.inr (.inr (spare kept)))

omit [DecidableEq Tag] in
theorem same (fresh : Fresh engine) (core : ∀ tag, (engine'.pool tag).core = (engine.pool tag).core)
    (spare : ∀ tag, engine.stage.spare = some tag → engine'.stage.spare = some tag) :
    Fresh engine' := fun tag => settled_of_core (fresh tag) (core tag) (spare tag)

/-- Only the request `tag` changes. -/
theorem touch (fresh : Fresh engine) (tag : Tag)
    (others : ∀ other, other ≠ tag → (engine'.pool other).core = (engine.pool other).core)
    (spare : ∀ other, other ≠ tag → engine.stage.spare = some other →
      engine'.stage.spare = some other)
    (touched : engine'.Settled tag) : Fresh engine' := by
  intro other
  by_cases which : other = tag
  · exact which ▸ touched
  · exact settled_of_core (fresh other) (others other which) (spare other which)

section

variable {other : Tag} (differs : other ≠ tag)
include differs

theorem pool_modify_of_ne {change : Request Tag → Request Tag} :
    (engine.modify tag change).pool other = engine.pool other :=
  update_of_ne differs _ _

theorem pool_takeFrom_of_ne : (engine.takeFrom which tag).pool other = engine.pool other :=
  update_of_ne differs _ _

theorem pool_putTo_of_ne : (engine.putTo which tag).pool other = engine.pool other :=
  update_of_ne differs _ _

end

theorem core_prepareGc (engine : Engine Tag) (gc : GcRequest) {new other : Tag}
    (differs : other ≠ new) :
    ((engine.prepareGc gc new).pool other).core = (engine.pool other).core := by
  have filled : (({ engine with handed := engine.handed ++ [new] }.takeFrom .free new).modify new
      (·.fillGc gc)).pool other = engine.pool other :=
    (pool_modify_of_ne differs).trans (pool_takeFrom_of_ne differs)
  unfold Engine.prepareGc
  cases gc.dataBuf with
  | none => exact congrArg Request.core filled
  | some ref => exact (linkPool_core _ _ new other).trans (congrArg Request.core filled)

theorem reqType_prepareGc (engine : Engine Tag) (gc : GcRequest) (new : Tag) :
    ((engine.prepareGc gc new).pool new).reqType = .nand :=
  Request.field_of_fixed (·.reqType) (fun _ => rfl) (fixed_prepareGc_new engine gc new)

/-- A slice request becomes the current one. -/
private theorem takeSlice (fresh : Fresh engine) (queues : Queues engine none)
    (tracks : Tracks engine none) (none_kept : engine.stage.spare = none) {rest : List Tag}
    (head : engine.queue .slice = tag :: rest) (stage : Stage Tag) (ref : BufferRef)
    (map : BufferMap Tag) : Fresh (engine.takeSlice tag stage ref map) := by
  have member : tag ∈ engine.queue .slice := by
    rw [head]
    exact List.mem_cons_self
  have type : (engine.pool tag).reqType ≠ .nand := by
    rw [(tracks.slices tag (List.mem_append_right _ member)).1]
    decide
  have flag : (engine.pool tag).issuedFlag = false :=
    fresh.flag_of_mark queues (queues.mem_iff.1 member) (by rintro (⟨⟨⟩⟩ | ⟨⟨⟩⟩)) (by decide)
      type
  apply fresh.touch tag
  · intro other differs
    exact congrArg Request.core
      ((pool_modify_of_ne differs).trans (pool_takeFrom_of_ne differs))
  · simp [none_kept]
  · intro set
    simp [Engine.takeSlice, Engine.modify, Engine.takeFrom, flag] at set

private theorem prepareGc (fresh : Fresh engine) {new : Tag} {stage : Stage Tag}
    (gc : GcRequest) (kept : stage.spare = engine.stage.spare) :
    Fresh ({ engine with stage := stage }.prepareGc gc new) := by
  apply fresh.touch new
  · intro other differs
    exact core_prepareGc _ gc differs
  · intro other _ spare
    rw [stage_prepareGc, ← spare]
    exact kept
  · intro _
    exact .inl (reqType_prepareGc _ gc new)

theorem main {after : Moment Tag} (fresh : Fresh engine) (queues : Queues engine none)
    (tracks : Tracks engine none) (move : MainMove allowed engine after) : Fresh after.engine := by
  cases move with
  | accept _ _ accepted =>
    obtain ⟨stage, _, rfl⟩ := accept_eq_some accepted
    exact fresh.same (fun _ => rfl) (by simp [stage, Stage.spare])
  | @cutInto slice rest tag free stage head =>
    apply fresh.touch tag
    · intro other differs
      exact congrArg Request.core ((pool_putTo_of_ne differs).trans
        ((pool_modify_of_ne differs).trans (pool_takeFrom_of_ne differs)))
    · simp [stage, Stage.spare]
    · intro set
      simp [Engine.cutInto, Engine.putTo, Engine.modify, Request.fillSlice] at set
  | cutAll stage | translateAll stage | skipEviction stage | resumeGc stage | bindTo stage
  | skipFetch stage | resumeFetch stage =>
    exact fresh.same (fun _ => rfl) (by simp [stage, Stage.spare])
  | hit _ stage head | miss stage head =>
    exact fresh.takeSlice queues tracks (by rw [stage]; rfl) head _ _ _
  | holdWriteSlot stage =>
    apply fresh.touch
    · intro other differs
      exact congrArg Request.core (pool_takeFrom_of_ne differs)
    · simp [stage, Stage.spare]
    · intro _
      exact .inr (.inr (.inr rfl))
  | prepareGcRead stage | prepareGc stage => exact fresh.prepareGc _ (by rw [stage]; rfl)
  | @prepareWriteBack tag write ref lsa stage =>
    apply fresh.touch write
    · intro other differs
      exact (linkPool_core _ _ write other).trans
        (congrArg Request.core (pool_modify_of_ne differs))
    · intro other differs spare
      rw [stage] at spare
      exact absurd (Option.some.inj spare).symm differs
    · intro _
      left
      refine (field_linkPool (·.reqType) (fun _ => rfl) _ _ write write).trans ?_
      simp [Engine.modify, Request.fillNand]
  | @prepareFetch tag read ref free stage =>
    apply fresh.touch read
    · intro other differs
      exact (linkPool_core _ _ read other).trans (congrArg Request.core
        ((pool_modify_of_ne differs).trans (pool_takeFrom_of_ne differs)))
    · simp [stage, Stage.spare]
    · intro _
      left
      refine (field_linkPool (·.reqType) (fun _ => rfl) _ _ read read).trans ?_
      simp [Engine.modify, Request.fillNand]
  | @makeDma tag ref stage =>
    have unmarked : (engine.pool tag).reqQueueType = none :=
      queues.unmarked_of_held (by simp [stage, Stage.held])
    have type : (engine.pool tag).reqType ≠ .nand := by
      rw [(tracks.slices tag (by simp [Engine.waiting, stage, Stage.current])).1]
      decide
    have flag : (engine.pool tag).issuedFlag = false :=
      fresh.flag_of_unmarked unmarked (by simp [stage, Stage.spare]) type
    apply fresh.touch tag
    · intro other differs
      exact (linkPool_core _ _ tag other).trans
        (congrArg Request.core (pool_modify_of_ne differs))
    · simp [stage, Stage.spare]
    · intro set
      unfold Engine.makeDma at set
      rw [show ((updateEntryInfoBlockingReq _ ref tag).pool tag).issuedFlag = _ from
        field_linkPool (·.issuedFlag) (fun _ => rfl) _ _ tag tag] at set
      simp [Engine.modify, Request.fillDma, flag] at set

omit [DecidableEq Tag] in
theorem spare_unmarked (queues : Queues engine inHand) (spare : engine.stage.spare = some tag) :
    (engine.pool tag).reqQueueType = none :=
  queues.consistent.unmarked (List.mem_append_left _ (spare_mem_held spare))

/-- A request outside the queues of the DMA requests moves to another place. -/
private theorem relocate (fresh : Fresh engine) {mark : Option ReqQueueType}
    (marked : (engine.pool tag).reqQueueType = mark)
    (other : mark ≠ some .nvmeDma ∧ mark ≠ some .customCmd ∧ mark ≠ some .free)
    (needed : engine.stage.spare ≠ some tag)
    (pool : engine'.pool = update engine.pool tag
      { engine.pool tag with reqQueueType := (engine'.pool tag).reqQueueType })
    (stage : engine'.stage = engine.stage) : Fresh engine' := by
  apply fresh.touch tag
  · intro other differs
    rw [pool, update_of_ne differs]
  · intro other _ spare
    rw [stage]
    exact spare
  · intro set
    rw [pool, update_self] at set
    left
    rw [pool, update_self]
    rcases fresh tag set with nand | given | free | spare
    · exact nand
    · exact absurd given (not_given_of_mark marked other.1 other.2.1)
    · exact absurd (marked.symm.trans free) other.2.2
    · exact absurd spare needed

omit [DecidableEq Tag] in
/-- The request in hand is not the slot that is kept for a write request. -/
theorem spare_ne_inHand (queues : Queues engine (some tag)) : engine.stage.spare ≠ some tag := by
  intro spare
  have nodup : (engine.stage.held ++ [tag]).Nodup := queues.consistent.loose_nodup
  exact (List.nodup_append.1 nodup).2.2 tag (spare_mem_held spare) tag
    (List.mem_singleton_self tag) rfl

private theorem putTo (fresh : Fresh engine) (queues : Queues engine (some tag))
    (which : ReqQueueType) : Fresh (engine.putTo which tag) := by
  apply fresh.relocate queues.unmarked_of_inHand (by simp)
  · exact spare_ne_inHand queues
  · simp [Engine.putTo]
  · rfl

section

variable (fresh : Fresh engine)
  (unmarked : ∀ tag, engine.stage.spare = some tag → (engine.pool tag).reqQueueType = none)
include fresh unmarked

private theorem release (target : Option Tag) : Fresh (Moment.release engine target).engine := by
  apply Moment.release_cases (fun after _ => Fresh after)
  · exact fresh
  · intro tag _ queued
    apply fresh.relocate queued (by simp)
    · intro spare
      rw [unmarked tag spare] at queued
      cases queued
    · simp [Engine.takeFrom]
    · rfl

private theorem unlinked (tag : Tag) (target : Option Tag) :
    Fresh (Moment.release (engine.unlink tag) target).engine := by
  have linked : Fresh (engine.unlink tag) :=
    fresh.same (unlinkPool_core engine.pool tag) fun _ => id
  apply linked.release
  intro other spare
  rw [Queues.mark_unlinked]
  exact unmarked other spare

end

/-- A request is finished and its successor is released. -/
private theorem drop {ended : Engine Tag} (fresh : Fresh engine) (queues : Queues engine none)
    (marked : (engine.pool tag).reqQueueType = some which)
    (pool : ended.pool = engine.pool) (stage : ended.stage = engine.stage) (target : Option Tag) :
    Fresh (Moment.release (((ended.takeFrom which tag).putTo .free tag).unlink tag)
      target).engine := by
  have dropped : Fresh ((ended.takeFrom which tag).putTo .free tag) := by
    apply fresh.touch tag
    · intro other differs
      rw [pool_putTo_of_ne differs, pool_takeFrom_of_ne differs, pool]
    · intro other _ spare
      rw [← spare]
      exact congrArg Stage.spare stage
    · intro _
      exact .inr (.inr (.inl (by simp [Engine.putTo])))
  apply dropped.unlinked
  intro other spare
  have kept : engine.stage.spare = some other := by
    rw [← stage]
    exact spare
  have unmarked := spare_unmarked queues kept
  have differs : other ≠ tag := by
    rintro rfl
    rw [marked] at unmarked
    cases unmarked
  rw [pool_putTo_of_ne differs, pool_takeFrom_of_ne differs, pool]
  exact unmarked

theorem move {before after : Moment Tag} (fresh : Fresh before.engine)
    (queues : Queues before.engine before.inHand) (tracks : Tracks before.engine before.inHand)
    (move : Move allowed before after) : Fresh after.engine := by
  cases move with
  | serve served =>
    obtain ⟨command, _, rfl⟩ := Option.map_eq_some_iff.1 served
    exact fresh.same (fun _ => rfl) fun _ => id
  | main _ move => exact fresh.main queues tracks move
  | block | toNand | wait => exact fresh.putTo queues _
  | @issue engine tag direction ref =>
    apply fresh.touch tag
    · intro other differs
      exact congrArg Request.core ((pool_putTo_of_ne differs).trans (update_of_ne differs _ _))
    · intro other _ spare
      exact spare
    · intro set
      right
      left
      have marked : (((engine.issueTo direction ref tag).putTo (engine.pool tag).dmaQueue
          tag).pool tag).reqQueueType = some (engine.pool tag).dmaQueue := by
        simp [Engine.putTo]
      rcases (engine.pool tag).isDmaQueue_dmaQueue with nvmeDma | customCmd
      · exact .inl (marked.trans (congrArg some nvmeDma))
      · exact .inr ⟨marked.trans (congrArg some customCmd), set⟩
  | startPoll | startCustomPoll | startNand | endPoll | skipNvmeDma | skipCustomCmd =>
    exact fresh.same (fun _ => rfl) fun _ => id
  | dropNvmeDma walk | dropCustomCmd _ walk =>
    apply fresh.drop queues (queues.mem_iff.1 (queues.visited_mem (by rw [walk]; rfl)))
    · rfl
    · rfl
  | @issueWaiting engine tag rest done direction ref pass _ walk =>
    have marked := queues.mem_iff.1 (queues.visited_mem
      (show engine.poll.walk = some (.customCmd, tag :: rest) by rw [walk]; rfl))
    apply fresh.touch tag
    · intro other differs
      exact congrArg Request.core (update_of_ne differs _ _)
    · intro other _ spare
      exact spare
    · intro set
      refine .inr (.inl (.inr ⟨?_, set⟩))
      simpa [Engine.issueTo] using marked
  | @unlinkWaiting engine tag rest done =>
    have moved : Fresh { engine with poll := .customCmd rest done } :=
      fresh.same (fun _ => rfl) fun _ => id
    have unmarked : ∀ other, engine.stage.spare = some other →
        (engine.pool other).reqQueueType = none := fun _ => spare_unmarked queues
    exact moved.unlinked unmarked tag _
  | dropNand _ _ queued =>
    apply fresh.drop queues (queues.mem_iff.1 queued)
    · rfl
    · rfl
  | @rowAddrDepDone engine tag _ queued =>
    have marked := queues.mem_iff.1 queued
    apply fresh.relocate marked (by simp)
    · intro spare
      rw [spare_unmarked queues spare] at marked
      cases marked
    · simp [Engine.putTo, Engine.takeFrom]
    · rfl

end Fresh

end Engine
end RwRbuf.Firmware.Requests
