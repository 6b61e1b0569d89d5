import RwRbuf.Firmware.RequestOrder

/-! # What the translation of a slice works on

The translation of a slice reads and changes the request it translates, the contents of the
buffers and the map of the flash translation layer.  Everything else that happens between two
of its stages, the polls and the work on a request in hand, leaves these alone.
-/

namespace RwRbuf.Firmware.Requests

open Function

variable {Tag : Type}

def BufferMap.content (map : BufferMap Tag) : BufferMap Tag :=
  { map with
    dataBuf := fun entry => { map.dataBuf entry with blockingReqTail := none } }

namespace BufferMap

variable {map map' : BufferMap Tag}

theorem dirty_of_content (same : map'.content = map.content) (entry : Nat) :
    (map'.dataBuf entry).dirty = (map.dataBuf entry).dirty := by
  have entries := congrArg (fun map : BufferMap Tag => (map.dataBuf entry).dirty) same
  exact entries

theorem lsa_of_content (same : map'.content = map.content) (entry : Nat) :
    (map'.dataBuf entry).logicalSliceAddr = (map.dataBuf entry).logicalSliceAddr := by
  have entries := congrArg (fun map : BufferMap Tag => (map.dataBuf entry).logicalSliceAddr) same
  exact entries

theorem content_setBlockingReqTail (map : BufferMap Tag) (entry : Nat) (tail : Option Tag) :
    (map.setBlockingReqTail entry tail).content = map.content := by
  unfold content
  congr 1
  funext other
  by_cases same : other = entry
  · subst same
    simp [setBlockingReqTail, setEntry]
  · simp [setBlockingReqTail, setEntry, same]

theorem content_update (buffer : BufferKind → BufferMap Tag) (kind : BufferKind)
    (same : map.content = (buffer kind).content) (other : BufferKind) :
    (update buffer kind map other).content = (buffer other).content := by
  by_cases which : other = kind
  · subst which
    simpa using same
  · simp [which]

end BufferMap

variable [DecidableEq Tag]

namespace Engine

variable {engine engine' : Engine Tag} {tag : Tag}

structure Aside (engine engine' : Engine Tag) : Prop where
  stage : engine'.stage = engine.stage
  fixed : ∀ tag, (engine'.pool tag).fixed = (engine.pool tag).fixed
  content : ∀ kind, (engine'.buffer kind).content = (engine.buffer kind).content
  mapped : engine'.mapped = engine.mapped
  slices : engine'.slices = engine.slices
  translated : engine'.translated = engine.translated
  waiting : engine'.queue .slice = engine.queue .slice
  handed : engine'.handed ⊆ engine.handed

namespace Aside

omit [DecidableEq Tag] in
theorem of_fixed (fixed : ∀ tag, (engine'.pool tag).fixed = (engine.pool tag).fixed)
    (stage : engine'.stage = engine.stage) (buffer : engine'.buffer = engine.buffer)
    (mapped : engine'.mapped = engine.mapped) (slices : engine'.slices = engine.slices)
    (translated : engine'.translated = engine.translated)
    (waiting : engine'.queue .slice = engine.queue .slice)
    (handed : engine'.handed ⊆ engine.handed) : Aside engine engine' where
  stage := stage
  fixed := fixed
  content := fun kind => by rw [buffer]
  mapped := mapped
  slices := slices
  translated := translated
  waiting := waiting
  handed := handed

omit [DecidableEq Tag] in
theorem of_pool (pool : engine'.pool = engine.pool) (stage : engine'.stage = engine.stage)
    (buffer : engine'.buffer = engine.buffer) (mapped : engine'.mapped = engine.mapped)
    (slices : engine'.slices = engine.slices) (translated : engine'.translated = engine.translated)
    (waiting : engine'.queue .slice = engine.queue .slice)
    (handed : engine'.handed ⊆ engine.handed) : Aside engine engine' :=
  .of_fixed (fun _ => by rw [pool]) stage buffer mapped slices translated waiting handed

omit [DecidableEq Tag] in
theorem trans {middle : Engine Tag} (first : Aside engine middle) (second : Aside middle engine') :
    Aside engine engine' where
  stage := second.stage.trans first.stage
  fixed := fun tag => (second.fixed tag).trans (first.fixed tag)
  content := fun kind => (second.content kind).trans (first.content kind)
  mapped := second.mapped.trans first.mapped
  slices := second.slices.trans first.slices
  translated := second.translated.trans first.translated
  waiting := second.waiting.trans first.waiting
  handed := List.Subset.trans second.handed first.handed

variable {which : ReqQueueType}

theorem putTo (engine : Engine Tag) (side : which ≠ .slice) (tag : Tag) :
    Aside engine (engine.putTo which tag) := by
  refine of_fixed (fixed_putTo engine which tag) rfl rfl rfl rfl rfl ?_ (List.Subset.refl _)
  simp [Engine.putTo, side.symm]

theorem takeFrom (engine : Engine Tag) (side : which ≠ .slice)
    (tag : Tag) : Aside engine (engine.takeFrom which tag) := by
  refine of_fixed (fixed_takeFrom engine which tag) rfl rfl rfl rfl rfl ?_ (List.Subset.refl _)
  simp [Engine.takeFrom, side.symm]

theorem issueTo (engine : Engine Tag) (direction : Direction) (ref : BufferRef) (tag : Tag) :
    Aside engine (engine.issueTo direction ref tag) :=
  .of_fixed (fixed_issueTo engine direction ref tag) rfl rfl rfl rfl rfl rfl (List.Subset.refl _)

theorem unlink (engine : Engine Tag) (tag : Tag) : Aside engine (engine.unlink tag) where
  stage := rfl
  fixed := fixed_unlinked engine tag
  content := by
    intro kind
    show (clearBlockingReqTail engine.buffer (engine.pool tag).dataBuf tag kind).content = _
    unfold clearBlockingReqTail
    cases (engine.pool tag).dataBuf with
    | none => rfl
    | some ref =>
      dsimp only
      split
      · apply BufferMap.content_update
        apply BufferMap.content_setBlockingReqTail
      · rfl
  mapped := rfl
  slices := rfl
  translated := rfl
  waiting := rfl
  handed := List.Subset.refl _

omit [DecidableEq Tag] in
theorem quiet (pool : engine'.pool = engine.pool) (stage : engine'.stage = engine.stage)
    (buffer : engine'.buffer = engine.buffer) (mapped : engine'.mapped = engine.mapped)
    (slices : engine'.slices = engine.slices) (translated : engine'.translated = engine.translated)
    (queue : engine'.queue = engine.queue) (handed : engine'.handed = engine.handed) :
    Aside engine engine' :=
  .of_pool pool stage buffer mapped slices translated (by rw [queue])
    (handed ▸ List.Subset.refl _)

theorem release (engine : Engine Tag) (target : Option Tag) :
    Aside engine (Moment.release engine target).engine :=
  Moment.release_cases (fun after _ => Aside engine after)
    (.quiet rfl rfl rfl rfl rfl rfl rfl rfl) fun tag _ _ => takeFrom engine (by decide) tag

theorem drop {ended : Engine Tag} (first : Aside engine ended)
    (side : which ≠ .slice) (tag : Tag) (target : Option Tag) :
    Aside engine
      (Moment.release (((ended.takeFrom which tag).putTo .free tag).unlink tag) target).engine :=
  (((first.trans (takeFrom ended side tag)).trans (putTo _ (by decide) tag)).trans
    (unlink _ tag)).trans (release _ target)

end Aside

variable {allowed : Engine Tag → Event Tag → Prop}

/-- A move that does not belong to the main loop leaves the translation alone. -/
theorem aside_or_main {before after : Moment Tag} (move : Move allowed before after) :
    Aside before.engine after.engine ∨
      ∃ engine, before = ⟨engine, none⟩ ∧ engine.poll = .idle ∧
        MainMove allowed engine after := by
  cases move with
  | main quiet move => exact .inr ⟨_, rfl, quiet, move⟩
  | serve served =>
    obtain ⟨command, _, rfl⟩ := Option.map_eq_some_iff.1 served
    exact .inl (.quiet rfl rfl rfl rfl rfl rfl rfl rfl)
  | @block engine tag => exact .inl (.putTo engine (by decide) tag)
  | @toNand engine tag which _ _ choice =>
    rcases choice with rfl | rfl <;> exact .inl (.putTo engine (by decide) tag)
  | @issue engine tag direction ref =>
    refine .inl ((Aside.issueTo engine direction ref tag).trans (.putTo _ ?_ tag))
    unfold Request.dmaQueue
    split <;> decide
  | @wait engine tag => exact .inl (.putTo engine (by decide) tag)
  | startPoll | startCustomPoll | startNand | endPoll | skipNvmeDma | skipCustomCmd =>
    exact .inl (.quiet rfl rfl rfl rfl rfl rfl rfl rfl)
  | @dropNvmeDma engine tag rest done direction =>
    have ended : Aside engine ({ engine with
        poll := .nvmeDma rest (update done direction true) }.markFinished tag) :=
      .of_pool rfl rfl rfl rfl rfl rfl rfl List.erase_subset
    exact .inl (ended.drop (by decide) tag _)
  | @dropCustomCmd engine tag rest done direction =>
    have ended : Aside engine (({ engine with
        poll := .customCmd rest (update done direction true) }.markFinished
          tag).completeForCustomIoCmd tag) :=
      .of_pool rfl rfl rfl rfl rfl rfl rfl List.erase_subset
    exact .inl (ended.drop (by decide) tag _)
  | @issueWaiting engine tag rest done direction ref =>
    have visited : Aside engine { engine with poll := .customCmd rest done } :=
      .quiet rfl rfl rfl rfl rfl rfl rfl rfl
    exact .inl (visited.trans (.issueTo _ direction ref tag))
  | @unlinkWaiting engine tag rest done =>
    have visited : Aside engine { engine with poll := .customCmd rest done } :=
      .quiet rfl rfl rfl rfl rfl rfl rfl rfl
    exact .inl ((visited.trans (.unlink _ tag)).trans (.release _ _))
  | @dropNand engine tag =>
    have ended : Aside engine { engine with
        memory := (engine.dropNand tag).memory
        flash := (engine.dropNand tag).flash
        handed := engine.handed.erase tag } :=
      .of_pool rfl rfl rfl rfl rfl rfl rfl List.erase_subset
    exact .inl (ended.drop (by decide) tag _)
  | @rowAddrDepDone engine tag =>
    exact .inl ((Aside.takeFrom engine (by decide) tag).trans (.putTo _ (by decide) tag))

theorem aside_putToLowLevelReqQ {pass : Bool}
    (put : engine.putToLowLevelReqQ tag pass = some engine') : Aside engine engine' := by
  unfold Engine.putToLowLevelReqQ at put
  split at put
  · obtain ⟨issued, issue, rfl⟩ := Option.map_eq_some_iff.1 put
    have first : Aside engine issued := by
      obtain ⟨direction, ref, _, _, ⟨_, rfl⟩ | ⟨_, _, rfl⟩⟩ := issueNvmeDmaReq_eq_some issue
      · exact .quiet rfl rfl rfl rfl rfl rfl rfl rfl
      · exact .issueTo engine direction ref tag
    split <;> exact first.trans (.putTo issued (by decide) tag)
  · cases put
    split <;> exact .putTo engine (by decide) tag
  · cases put

theorem aside_selectLowLevelReqQ {pass : Bool}
    (selected : engine.selectLowLevelReqQ tag pass = some engine') : Aside engine engine' := by
  unfold Engine.selectLowLevelReqQ at selected
  split at selected
  · exact aside_putToLowLevelReqQ selected
  · cases selected
    exact .putTo engine (by decide) tag

theorem content_linked (engine : Engine Tag) (ref : BufferRef) (tag : Tag) (kind : BufferKind) :
    ((engine.updateEntryInfoBlockingReq ref tag).buffer kind).content =
      (engine.buffer kind).content := by
  apply BufferMap.content_update
  apply BufferMap.content_setBlockingReqTail

theorem content_prepareGc (engine : Engine Tag) (gc : GcRequest) (new : Tag) (kind : BufferKind) :
    ((engine.prepareGc gc new).buffer kind).content = (engine.buffer kind).content := by
  unfold Engine.prepareGc
  cases gc.dataBuf with
  | none => rfl
  | some ref => exact content_linked _ ref new kind

omit [DecidableEq Tag] in
theorem accept_eq {cmd : NvmeIoCmd} (accepted : engine.accept cmd = some engine') :
    engine.stage = .idle ∧ engine'.stage = .cutting (cmd.slices engine.commandCount) ∧
      engine'.slices = engine.slices ++ cmd.slices engine.commandCount ∧
      engine'.buffer = engine.buffer ∧ engine'.handed = engine.handed := by
  obtain ⟨idle, _, rfl⟩ := accept_eq_some accepted
  exact ⟨idle, rfl, rfl, rfl, rfl⟩

theorem stage_prepareGc (engine : Engine Tag) (gc : GcRequest) (new : Tag) :
    (engine.prepareGc gc new).stage = engine.stage := by
  unfold Engine.prepareGc
  cases gc.dataBuf <;> rfl

theorem handed_prepareGc (engine : Engine Tag) (gc : GcRequest) (new : Tag) :
    (engine.prepareGc gc new).handed = engine.handed ++ [new] := by
  unfold Engine.prepareGc
  cases gc.dataBuf <;> rfl

theorem reqCode_prepareFetch (engine : Engine Tag) (tag read : Tag) (ref : BufferRef) :
    ((engine.prepareFetch tag read ref).pool read).reqCode = .read := by
  refine (Request.field_of_fixed (·.reqCode) (fun _ => rfl)
    (fixed_linked _ ref read read)).trans ?_
  simp [Engine.modify, Request.fillNand]

theorem fixed_makeDma (engine : Engine Tag) (tag : Tag) (ref : BufferRef) :
    ((engine.makeDma tag ref).pool tag).fixed =
      ((engine.pool tag).fillDma (cmdCode (engine.pool tag)).dmaCode).fixed := by
  refine (fixed_linked _ ref tag tag).trans ?_
  simp [Engine.modify]

theorem reqType_makeDma (engine : Engine Tag) (tag : Tag) (ref : BufferRef) :
    ((engine.makeDma tag ref).pool tag).reqType = .nvmeDma :=
  Request.field_of_fixed (·.reqType) (fun _ => rfl) (fixed_makeDma engine tag ref)

theorem fixed_prepareGc (engine : Engine Tag) (gc : GcRequest) (new : Tag) {other : Tag}
    (different : other ≠ new) :
    ((engine.prepareGc gc new).pool other).fixed = (engine.pool other).fixed := by
  have filled : ∀ handed : List Tag,
      ((({ engine with handed := handed }.takeFrom .free new).modify new (·.fillGc gc)).pool
        other).fixed = (engine.pool other).fixed := by
    intro handed
    rw [fixed_modify _ _ _ different, fixed_takeFrom]
  unfold Engine.prepareGc
  cases gc.dataBuf with
  | none => exact filled _
  | some ref => exact (fixed_linked _ ref new other).trans (filled _)

theorem fixed_prepareGc_new (engine : Engine Tag) (gc : GcRequest) (new : Tag) :
    ((engine.prepareGc gc new).pool new).fixed = ((engine.pool new).fillGc gc).fixed := by
  have filled : ∀ handed : List Tag,
      ((({ engine with handed := handed }.takeFrom .free new).modify new (·.fillGc gc)).pool
        new).fixed = ((engine.pool new).fillGc gc).fixed := by
    intro handed
    simp [Engine.modify, Engine.takeFrom, Request.fillGc, Request.fixed, Request.core]
  unfold Engine.prepareGc
  split
  · exact filled _
  · exact (fixed_linked _ _ new new).trans (filled _)

variable {after : Moment Tag}

/-- The slices of the commands taken before stay in their places. -/
theorem slices_of_main (move : MainMove allowed engine after)
    {sliceNo : Nat} {slice : Slice} (found : engine.slices[sliceNo]? = some slice) :
    after.engine.slices[sliceNo]? = some slice := by
  cases move with
  | accept _ _ accepted =>
    rw [(accept_eq accepted).2.2.1,
      List.getElem?_append_left (List.getElem?_eq_some_iff.1 found).1]
    exact found
  | prepareGcRead | prepareGc =>
    unfold Engine.prepareGc
    split <;> exact found
  | _ => exact found

/-- The request that is being translated keeps everything until it becomes a DMA request. -/
theorem fixed_of_current (queues : Queues engine none)
    (move : MainMove allowed engine after) (current : engine.stage.current = some tag)
    (still : after.engine.stage.current = some tag) :
    (after.engine.pool tag).fixed = (engine.pool tag).fixed := by
  have unmarked : (engine.pool tag).reqQueueType = none :=
    queues.consistent.unmarked (List.mem_append_left _ (Tracks.current_mem_held current))
  have not_free : ∀ {new : Tag} {free : List Tag},
      engine.queue .free = new :: free → tag ≠ new := by
    rintro new free head rfl
    have marked := queues.mem_iff.1 (head ▸ List.mem_cons_self)
    rw [unmarked] at marked
    cases marked
  have absent : ∀ {stage : Stage Tag}, engine.stage = stage → stage.current = none → False := by
    rintro stage rfl none
    rw [none] at current
    cases current
  cases move with
  | accept _ _ accepted => exact (absent (accept_eq accepted).1 rfl).elim
  | cutInto stage | cutAll stage | translateAll stage | hit _ stage | miss stage =>
    exact (absent stage rfl).elim
  | skipEviction | resumeGc | bindTo | skipFetch | resumeFetch => rfl
  | holdWriteSlot => exact fixed_takeFrom _ _ _ tag
  | prepareGcRead stage head | prepareGc stage head => exact fixed_prepareGc _ _ _ (not_free head)
  | @prepareWriteBack origin write ref lsa stage =>
    have different : tag ≠ write := by
      have nodup := queues.consistent.loose_nodup
      have loose : (engine.queueState none).loose = [origin, write] := by
        simp [queueState, stage, Stage.held]
      rw [loose] at nodup
      rw [stage] at current
      rintro rfl
      cases Option.some.inj current
      simp at nodup
    exact (fixed_linked _ ref write tag).trans (fixed_modify _ _ _ different)
  | @prepareFetch origin read ref free stage _ _ head =>
    refine (fixed_linked _ ref read tag).trans ((fixed_modify _ _ _ (not_free head)).trans ?_)
    exact fixed_takeFrom _ _ _ tag
  | makeDma => cases still

theorem pool_takeSlice (engine : Engine Tag) (tag : Tag) (stage : Stage Tag) (ref : BufferRef)
    (map : BufferMap Tag) :
    ((engine.takeSlice tag stage ref map).pool tag).dataBuf = some ref ∧
      ((engine.takeSlice tag stage ref map).pool tag).reqCode = (engine.pool tag).reqCode := by
  simp [Engine.takeSlice, Engine.modify, Engine.takeFrom]

/-- A request that is being translated was so before the move, or it was taken from the slice
queue with an entry of the buffer in which it was found or to which it belongs. -/
theorem current_of_main (move : MainMove allowed engine after)
    (current : after.engine.stage.current = some tag) :
    engine.stage.current = some tag ∨
      ∃ stage ref map rest, after = ⟨engine.takeSlice tag stage ref map, none⟩ ∧
        engine.stage = .translating ∧ engine.queue .slice = tag :: rest ∧
        ((∃ answer, allowed engine (.advance answer) ∧
            engine.checkHit (engine.pool tag).logicalSliceAddr = some ref) ∨
          ref.kind = missKind (engine.pool tag)) := by
  have kept : ∀ {stage : Stage Tag}, engine.stage = stage → stage.current = some tag →
      engine.stage.current = some tag := by
    rintro stage rfl before
    exact before
  cases move with
  | accept _ _ accepted =>
    rw [(accept_eq accepted).2.1] at current
    cases current
  | cutInto | cutAll | translateAll | makeDma => cases current
  | @hit origin rest found answer permitted stage head hit =>
    cases Option.some.inj current
    exact .inr ⟨_, found, _, rest, rfl, stage, head, .inl ⟨answer, permitted, hit⟩⟩
  | @miss origin rest kind entry map stage head absent chosen =>
    cases Option.some.inj current
    exact .inr ⟨_, ⟨kind, entry⟩, map, rest, rfl, stage, head, .inr chosen⟩
  | skipEviction stage | holdWriteSlot stage | resumeGc stage | prepareWriteBack stage
  | bindTo stage | skipFetch stage | prepareFetch stage | resumeFetch stage =>
    exact .inl (kept stage current)
  | prepareGcRead stage | prepareGc stage =>
    rw [stage_prepareGc] at current
    exact .inl (kept stage current)

omit [DecidableEq Tag] in
theorem kind_of_checkHit {lsa : Nat} {ref : BufferRef}
    (found : engine.checkHit lsa = some ref) : ref.kind ≠ .tempDataBuf := by
  unfold checkHit at found
  split at found
  · cases found
    exact BufferKind.noConfusion
  · obtain ⟨entry, _, rfl⟩ := Option.map_eq_some_iff.1 found
    exact BufferKind.noConfusion

omit [DecidableEq Tag] in
theorem missKind_ne (request : Request Tag) : missKind request ≠ .tempDataBuf := by
  unfold missKind
  split <;> exact BufferKind.noConfusion

end Engine
end RwRbuf.Firmware.Requests
