import RwRbuf.Firmware.RequestLedger

/-! # The moves of the engine in the ledger

A slice is counted when its request becomes a DMA request, and finished when this request is
removed from its queue.  With the other moves, which leave the ledger alone, this makes every
run of the engine a run of the ledger.
-/

namespace RwRbuf.Firmware.Requests

open Relation

variable {Tag : Type}

namespace Engine
namespace Tracks

variable {engine engine' : Engine Tag} {inHand inHand' : Option Tag} {tag : Tag}

theorem current_slice (tracks : Tracks engine inHand) (current : engine.stage.current = some tag) :
    (engine.pool tag).sliceNo = engine.translated ∧ engine.translated < engine.cut ∧
      ∃ slice, engine.slices[engine.translated]? = some slice ∧
        (engine.pool tag).Carries slice ∧ (engine.pool tag).reqCode = slice.code.reqCode := by
  have waiting : engine.waiting = tag :: engine.queue .slice := by
    unfold Engine.waiting
    rw [current]
    rfl
  have numbers := tracks.numbers
  rw [waiting, List.map_cons] at numbers
  have room : engine.translated < engine.cut := by
    by_contra beyond
    rw [Nat.sub_eq_zero_of_le (Nat.le_of_not_lt beyond)] at numbers
    cases numbers
  obtain ⟨count, countEq⟩ := Nat.exists_eq_succ_of_ne_zero (Nat.sub_ne_zero_of_lt room)
  rw [countEq, List.range'_succ] at numbers
  have number := (List.cons.inj numbers).1
  obtain ⟨_, slice, found, carries, code⟩ := tracks.slices tag (by simp [waiting])
  rw [number] at found
  exact ⟨number, room, slice, found, carries, code⟩

theorem cmdCode_of_reqCode {request : Request Tag} {code : CmdCode}
    (same : request.reqCode = code.reqCode) : cmdCode request = code := by
  unfold cmdCode
  rw [same]
  cases code <;> rfl

variable [DecidableEq Tag]

variable {slice : Slice}

theorem ledger_makeDma (ref : BufferRef) (carries : (engine.pool tag).Carries slice)
    (code : (engine.pool tag).reqCode = slice.code.reqCode) :
    (engine.makeDma tag ref).ledger = engine.ledger.count slice := by
  unfold Engine.ledger Engine.makeDma Ledger.count
  dsimp only [updateEntryInfoBlockingReq, Engine.modify]
  rw [cmdCode_of_reqCode code, carries.custom, carries.slot]

omit [DecidableEq Tag] in
/-- A DMA request that is not in hand is in a queue, so it does not wait for its
translation. -/
theorem not_waiting_of_live (queues : Queues engine none) (live : engine.Live none tag) :
    tag ∉ engine.waiting := by
  rcases live.2 with queued | queued | queued | held
  · exact not_waiting queues queued (by decide)
  · exact not_waiting queues queued (by decide)
  · exact not_waiting queues queued (by decide)
  · cases held

theorem makeDma (tracks : Tracks engine none) (queues : Queues engine none)
    (balanced : engine.ledger.Balanced) {ref : BufferRef} (stage : engine.stage = .finishing tag) :
    Tracks (engine.makeDma tag ref) (some tag) ∧
      ∃ slice, engine.ledger.slices[engine.ledger.translated]? = some slice ∧
        (engine.makeDma tag ref).ledger = engine.ledger.count slice := by
  have current : engine.stage.current = some tag := by
    rw [stage]
    rfl
  obtain ⟨number, room, slice, found, carries, code⟩ := tracks.current_slice current
  have ledger := ledger_makeDma ref carries code
  have waiting : engine.waiting = tag :: engine.queue .slice := by
    unfold Engine.waiting
    rw [current]
    rfl
  have pool : ∀ other, ((engine.makeDma tag ref).pool other).entry =
      ((engine.modify tag (·.fillDma (cmdCode (engine.pool tag)).dmaCode)).pool other).entry :=
    fun other => entry_linked _ ref tag other
  have others : ∀ other ≠ tag,
      ((engine.makeDma tag ref).pool other).entry = (engine.pool other).entry := by
    intro other different
    rw [pool other]
    simp [Engine.modify, different]
  have own : ((engine.makeDma tag ref).pool tag).entry =
      ((engine.pool tag).fillDma slice.code.dmaCode).entry := by
    rw [pool tag, cmdCode_of_reqCode code]
    simp [Engine.modify]
  have dead : ¬engine.Live none tag := by
    apply not_live_of_type
    rw [(tracks.slices tag (by simp [waiting])).1]
    decide
  have alive : (engine.makeDma tag ref).Live (some tag) tag :=
    ⟨type_of_entry own, .inr (.inr (.inr rfl))⟩
  have live : ∀ other ≠ tag,
      ((engine.makeDma tag ref).Live (some tag) other ↔ engine.Live none other) := by
    intro other different
    exact live_of_entry (others other different) (by simp [Ne.symm different])
  have sliceNo : ((engine.makeDma tag ref).pool tag).sliceNo = engine.translated := by
    rw [sliceNo_of_base (base_of_entry own)]
    exact number
  have base : ∀ other ≠ tag,
      ((engine.makeDma tag ref).pool other).base = (engine.pool other).base :=
    fun other different => base_of_entry (others other different)
  have outstanding : (engine.makeDma tag ref).ledger.outstanding =
      engine.ledger.outstanding ++ [engine.translated] := by
    rw [ledger]
    exact Ledger.outstanding_count balanced.finished_lt
  have fresh : engine.translated ∉ engine.ledger.outstanding := fun member =>
    Nat.lt_irrefl _ (Ledger.mem_outstanding.1 member).1
  have queue : (engine.makeDma tag ref).waiting = engine.queue .slice := rfl
  have unmarked : (engine.pool tag).reqQueueType = none :=
    queues.consistent.unmarked (List.mem_append_left _ (current_mem_held current))
  have nodup : tag ∉ engine.queue .slice := by
    intro member
    have marked := queues.mem_iff.1 member
    rw [unmarked] at marked
    cases marked
  have queued : ∀ {other which},
      ((engine.makeDma tag ref).pool other).reqQueueType = some which → other ≠ tag := by
    rintro other which marked rfl
    rw [mark_of_entry own] at marked
    cases unmarked.symm.trans marked
  refine ⟨?_, slice, found, ledger⟩
  exact
    { translated_le := room
      cut_le := tracks.cut_le
      uncut := by
        have before := tracks.uncut
        rw [stage] at before
        exact before
      idle := by
        intro idle
        cases idle
      selecting := by
        intro other chosen
        cases chosen
      numbers := by
        have before := tracks.numbers
        obtain ⟨count, countEq⟩ := Nat.exists_eq_succ_of_ne_zero (Nat.sub_ne_zero_of_lt room)
        rw [waiting, List.map_cons, countEq, List.range'_succ] at before
        have rest := (List.cons.inj before).2
        have remaining : engine.cut - (engine.translated + 1) = count := by omega
        rw [queue]
        show _ = List.range' (engine.translated + 1) (engine.cut - (engine.translated + 1))
        rw [remaining, ← rest]
        apply List.map_congr_left
        intro other member
        apply sliceNo_of_base (base other _)
        rintro rfl
        exact nodup member
      slices := by
        intro other member
        rw [queue] at member
        have different : other ≠ tag := by
          rintro rfl
          exact nodup member
        obtain ⟨type, carried, known, carries', code'⟩ :=
          tracks.slices other (List.mem_append_right _ member)
        have same := base other different
        rw [type_of_base same, sliceNo_of_base same, code_of_base same]
        exact ⟨type, carried, known, carries'.of_base same, code'⟩
      live := by
        intro other lives
        rw [outstanding]
        by_cases same : other = tag
        · subst same
          rw [sliceNo]
          refine ⟨by simp, slice, found, ?_, Request.field_of_entry (·.reqCode) (fun _ => rfl) own⟩
          refine Request.Carries.of_base ?_ (base_of_entry own)
          exact ⟨carries.slot, carries.lsa, carries.startIndex, carries.offset, carries.count,
            carries.custom⟩
        · obtain ⟨member, carried, known, carries', code'⟩ :=
            tracks.live other ((live other same).1 lives)
          rw [sliceNo_of_base (base other same), code_of_base (base other same)]
          exact ⟨List.mem_append_left _ member, carried, known, carries'.of_base (base other same),
            code'⟩
      distinct := by
        have unequal : ∀ other ≠ tag, (engine.makeDma tag ref).Live (some tag) other →
            ((engine.makeDma tag ref).pool other).sliceNo ≠ engine.translated := by
          intro other different lives same
          obtain ⟨member, _⟩ := tracks.live other ((live other different).1 lives)
          rw [sliceNo_of_base (base other different)] at same
          rw [same] at member
          exact fresh member
        intro first second lives lives' same
        by_cases isFirst : first = tag
        · by_cases isSecond : second = tag
          · rw [isFirst, isSecond]
          · rw [isFirst, sliceNo] at same
            exact absurd same.symm (unequal second isSecond lives')
        · by_cases isSecond : second = tag
          · rw [isSecond, sliceNo] at same
            exact absurd same (unequal first isFirst lives)
          · rw [sliceNo_of_base (base first isFirst), sliceNo_of_base (base second isSecond)]
              at same
            exact tracks.distinct first second ((live first isFirst).1 lives)
              ((live second isSecond).1 lives') same
      accounted := by
        intro other member
        rw [outstanding] at member
        rcases List.mem_append.1 member with before | new
        · obtain ⟨holder, lives, numbered⟩ := tracks.accounted other before
          have different : holder ≠ tag := by
            rintro rfl
            exact dead lives
          refine ⟨holder, (live holder different).2 lives, ?_⟩
          rw [sliceNo_of_base (base holder different)]
          exact numbered
        · rw [List.mem_singleton.1 new]
          exact ⟨tag, alive, sliceNo⟩
      customQueue := by
        intro other marked
        have different := queued marked
        rw [mark_of_entry (others other different)] at marked
        rw [type_of_base (base other different), custom_of_base (base other different)]
        exact tracks.customQueue other marked
      nvmeDmaQueue := by
        intro other marked
        have different := queued marked
        rw [mark_of_entry (others other different)] at marked
        rw [type_of_base (base other different), custom_of_base (base other different)]
        exact tracks.nvmeDmaQueue other marked }

theorem dropDma (tag : Tag) (tracks : Tracks engine none) (queues : Queues engine none)
    (live : engine.Live none tag)
    (others : ∀ other ≠ tag, (engine'.pool other).entry = (engine.pool other).entry)
    (base : (engine'.pool tag).base = (engine.pool tag).base)
    (mark : (engine'.pool tag).reqQueueType = some .free)
    (ledger : engine'.ledger = engine.ledger.finish (engine.pool tag).sliceNo slice)
    (cut : engine'.cut = engine.cut) (queue : engine'.queue .slice = engine.queue .slice)
    (stage : engine'.stage = engine.stage) : Tracks engine' none := by
  have waiting : engine'.waiting = engine.waiting := by
    unfold Engine.waiting
    rw [stage, queue]
  have outside := not_waiting_of_live queues live
  have dead : ¬engine'.Live none tag := not_live_of_mark _ mark (by decide)
  have bases : ∀ other, (engine'.pool other).base = (engine.pool other).base := by
    intro other
    by_cases same : other = tag
    · rw [same]
      exact base
    · exact base_of_entry (others other same)
  have lives : ∀ other ≠ tag, (engine'.Live none other ↔ engine.Live none other) :=
    fun other different => live_of_entry (others other different) Iff.rfl
  have different : ∀ {other}, engine'.Live none other → other ≠ tag := by
    rintro other alive rfl
    exact dead alive
  have queued : ∀ {other which}, (engine'.pool other).reqQueueType = some which →
      which ≠ .free → (engine.pool other).reqQueueType = some which := by
    intro other which marked notFree
    by_cases same : other = tag
    · rw [same, mark] at marked
      exact absurd (Option.some.inj marked).symm notFree
    · rw [← mark_of_entry (others other same)]
      exact marked
  have outstanding : engine'.ledger.outstanding =
      engine.ledger.outstanding.erase (engine.pool tag).sliceNo := by
    rw [ledger]
    exact Ledger.outstanding_finish _ _ _
  have slices : engine'.slices = engine.slices := congrArg Ledger.slices ledger
  have translated : engine'.translated = engine.translated := congrArg Ledger.translated ledger
  exact
    { translated_le := by rw [translated, cut]; exact tracks.translated_le
      cut_le := by rw [cut, slices]; exact tracks.cut_le
      uncut := by rw [stage, cut, slices]; exact tracks.uncut
      idle := by rw [stage, queue]; exact tracks.idle
      selecting := by
        intro other chosen
        rw [stage] at chosen
        rw [type_of_base (bases other)]
        exact tracks.selecting other chosen
      numbers := by
        rw [waiting, translated, cut, ← tracks.numbers]
        exact List.map_congr_left fun other _ => sliceNo_of_base (bases other)
      slices := by
        intro other member
        rw [waiting] at member
        obtain ⟨type, carried, known, carries, code⟩ := tracks.slices other member
        rw [type_of_base (bases other), sliceNo_of_base (bases other), code_of_base (bases other),
          slices]
        exact ⟨type, carried, known, carries.of_base (bases other), code⟩
      live := by
        intro other alive
        have before := (lives other (different alive)).1 alive
        obtain ⟨member, carried, known, carries, code⟩ := tracks.live other before
        rw [sliceNo_of_base (bases other), code_of_base (bases other), slices, outstanding]
        refine ⟨?_, carried, known, carries.of_base (bases other), code⟩
        apply (List.mem_erase_of_ne _).2 member
        intro same
        exact different alive (tracks.distinct other tag before live same)
      distinct := by
        intro first second alive alive' same
        rw [sliceNo_of_base (bases first), sliceNo_of_base (bases second)] at same
        exact tracks.distinct first second ((lives first (different alive)).1 alive)
          ((lives second (different alive')).1 alive') same
      accounted := by
        intro other member
        rw [outstanding] at member
        obtain ⟨holder, alive, numbered⟩ :=
          tracks.accounted other (List.mem_of_mem_erase member)
        have notTag : holder ≠ tag := by
          rintro rfl
          rw [← numbered] at member
          exact Ledger.nodup_outstanding.not_mem_erase member
        refine ⟨holder, (lives holder notTag).2 alive, ?_⟩
        rw [sliceNo_of_base (bases holder)]
        exact numbered
      customQueue := by
        intro other marked
        rw [type_of_base (bases other), custom_of_base (bases other)]
        exact tracks.customQueue other (queued marked (by decide))
      nvmeDmaQueue := by
        intro other marked
        rw [type_of_base (bases other), custom_of_base (bases other)]
        exact tracks.nvmeDmaQueue other (queued marked (by decide)) }

theorem release (tracks : Tracks engine none) (target : Option Tag) :
    Tracks (Moment.release engine target).engine (Moment.release engine target).inHand ∧
      (Moment.release engine target).engine.ledger = engine.ledger := by
  refine Moment.release_cases
    (fun after hand => Tracks after hand ∧ after.ledger = engine.ledger) ⟨tracks, rfl⟩ ?_
  intro other _ queued
  exact ⟨tracks.takeTarget queued, rfl⟩

/-- Removing a request from the queue of its kind finishes its slice, and its successor is
released.  The engine `ended` is the one in which the end of the request was recorded. -/
theorem drop (tracks : Tracks engine none) (queues : Queues engine none)
    {which : ReqQueueType} (queued : (engine.pool tag).reqQueueType = some which)
    (kind : which = .nvmeDma ∨ which = .customCmd) {ended : Engine Tag}
    (ledger : ended.ledger = engine.ledger.finish (engine.pool tag).sliceNo slice)
    (pool : ended.pool = engine.pool) (queue : ended.queue = engine.queue)
    (cut : ended.cut = engine.cut) (stage : ended.stage = engine.stage) (target : Option Tag) :
    Tracks (Moment.release (((ended.takeFrom which tag).putTo .free tag).unlink tag) target).engine
        (Moment.release (((ended.takeFrom which tag).putTo .free tag).unlink tag) target).inHand ∧
      (Moment.release (((ended.takeFrom which tag).putTo .free tag).unlink tag)
        target).engine.ledger = engine.ledger.finish (engine.pool tag).sliceNo slice := by
  rw [← ledger]
  have live : engine.Live none tag := by
    rcases kind with rfl | rfl
    · exact ⟨(tracks.nvmeDmaQueue tag queued).1, .inr (.inl queued)⟩
    · exact ⟨(tracks.customQueue tag queued).1, .inr (.inr (.inl queued))⟩
  have entry := entry_unlinked ((ended.takeFrom which tag).putTo .free tag) tag
  apply release
  refine tracks.dropDma tag queues live ?_ ?_ ?_ ledger cut ?_ stage
  · intro other different
    rw [entry other, ← pool]
    simp [Engine.putTo, Engine.takeFrom, different]
  · rw [base_of_entry (entry tag), base_putTo, base_takeFrom, pool]
  · rw [mark_of_entry (entry tag)]
    simp [Engine.putTo]
  · rw [← queue]
    rcases kind with rfl | rfl <;> rfl

omit [DecidableEq Tag] in
theorem slice_of_queued (tracks : Tracks engine none) {which : ReqQueueType}
    (queued : (engine.pool tag).reqQueueType = some which)
    (kind : which = .nvmeDma ∨ which = .customCmd) :
    (engine.pool tag).sliceNo ∈ engine.ledger.outstanding ∧
      ∃ slice, engine.slices[(engine.pool tag).sliceNo]? = some slice ∧
        (engine.pool tag).Carries slice ∧ (engine.pool tag).reqCode = slice.code.dmaCode := by
  apply tracks.live tag
  rcases kind with rfl | rfl
  · exact ⟨(tracks.nvmeDmaQueue tag queued).1, .inr (.inl queued)⟩
  · exact ⟨(tracks.customQueue tag queued).1, .inr (.inr (.inl queued))⟩

omit [DecidableEq Tag] in
theorem goOn (tracks : Tracks engine inHand) {stage : Stage Tag}
    (current : stage.current = engine.stage.current) (uncut : stage.uncut = engine.stage.uncut)
    (idle : stage = .idle → engine.queue .slice = []) (chosen : stage.selecting = none) :
    Tracks { engine with stage := stage } inHand := by
  refine tracks.still (fun _ => rfl) rfl rfl rfl current uncut idle ?_
  intro other again
  rw [chosen] at again
  cases again

theorem ledger_prepareGc (engine : Engine Tag) (gc : GcRequest) (new : Tag) :
    (engine.prepareGc gc new).ledger = engine.ledger := by
  unfold Engine.prepareGc
  cases gc.dataBuf <;> rfl

theorem issueTo (tracks : Tracks engine inHand) (direction : Direction) (ref : BufferRef) :
    Tracks (engine.issueTo direction ref tag) inHand := by
  refine tracks.inside ?_ rfl rfl rfl rfl
  intro other
  by_cases same : other = tag
  · subst same
    simp [Engine.issueTo, Request.entry, Request.core]
  · simp [Engine.issueTo, same]

theorem ledger_markFinished (plain : slice.customCmd = false) :
    (engine.markFinished tag).ledger = engine.ledger.finish (engine.pool tag).sliceNo slice := by
  unfold Ledger.finish
  simp [Engine.ledger, Engine.markFinished, plain]

theorem ledger_completeForCustomIoCmd
    (found : engine.slices[(engine.pool tag).sliceNo]? = some slice)
    (carries : (engine.pool tag).Carries slice)
    (code : (engine.pool tag).reqCode = slice.code.dmaCode) (custom : slice.customCmd = true) :
    ((engine.markFinished tag).completeForCustomIoCmd tag).ledger =
      engine.ledger.finish (engine.pool tag).sliceNo slice := by
  have command : (engine.markFinished tag).commandOf tag = slice.command := by
    unfold commandOf
    rw [show (engine.markFinished tag).slices = engine.slices from rfl,
      show (engine.markFinished tag).pool = engine.pool from rfl, found]
    rfl
  unfold Ledger.finish Engine.completeForCustomIoCmd
  simp only [Engine.ledger, command]
  simp [Engine.markFinished, carries.slot, code, custom]

/-- What the events must permit for the steps of the ledger to be permitted. -/
structure Permits (allowed : Engine Tag → Event Tag → Prop)
    (fresh : Ledger → NvmeIoCmd → Prop) (calm : Ledger → Slice → Prop) : Prop where
  fresh : ∀ engine cmd, Tracks engine none → allowed engine (.command cmd) →
    fresh engine.ledger cmd
  calm : ∀ {engine tag rest done pass slice}, allowed engine (.visit pass) →
    engine.poll = .customCmd (tag :: rest) done → (engine.pool tag).issuedFlag = true →
    (done (engine.pool tag).walkDirection = true ∨ (engine.dma
      (engine.pool tag).walkDirection).partialDone (engine.pool tag).dmaTail = true) →
    engine.slices[(engine.pool tag).sliceNo]? = some slice → (engine.pool tag).Carries slice →
    (engine.pool tag).reqCode = slice.code.dmaCode → calm engine.ledger slice

variable {allowed : Engine Tag → Event Tag → Prop} {fresh : Ledger → NvmeIoCmd → Prop}
  {calm : Ledger → Slice → Prop}

/-- Every move leaves the ledger as it is or is a step of the ledger. -/
theorem move {before after : Moment Tag} (permits : Permits allowed fresh calm)
    (tracks : Tracks before.engine before.inHand) (queues : Queues before.engine before.inHand)
    (balanced : before.engine.ledger.Balanced) (move : Move allowed before after) :
    Tracks after.engine after.inHand ∧
      (after.engine.ledger = before.engine.ledger ∨
        Ledger.Step fresh calm before.engine.ledger after.engine.ledger) := by
  cases move with
  | serve served =>
    obtain ⟨command, _, rfl⟩ := Option.map_eq_some_iff.1 served
    exact ⟨tracks.inside (fun _ => rfl) rfl rfl rfl rfl, .inl rfl⟩
  | @main engine _ _ move =>
    cases move with
    | accept permitted _ accepted =>
      obtain ⟨tracks', idle, free, ledger⟩ := tracks.accept accepted
      refine ⟨tracks', .inr ?_⟩
      rw [ledger]
      exact .accept idle free (permits.fresh _ _ tracks permitted)
    | cutInto stage head => exact ⟨tracks.cutInto queues stage head, .inl rfl⟩
    | cutAll stage | skipEviction stage | skipFetch stage =>
      refine ⟨tracks.goOn ?_ ?_ ?_ rfl, .inl rfl⟩
      · rw [stage]
        rfl
      · rw [stage]
        rfl
      · rintro ⟨⟩
    | translateAll stage none_left =>
      refine ⟨tracks.goOn ?_ ?_ (fun _ => none_left) rfl, .inl rfl⟩
      · rw [stage]
        rfl
      · rw [stage]
        rfl
    | hit _ stage head | miss stage head =>
      exact ⟨tracks.takeSlice queues stage head rfl rfl rfl (by simp), .inl rfl⟩
    | holdWriteSlot stage _ _ _ head => exact ⟨tracks.holdWriteSlot queues stage head, .inl rfl⟩
    | prepareGcRead stage head =>
      refine ⟨tracks.prepareGc queues head (by simp) ?_ ?_ (by simp) ?_,
        .inl (ledger_prepareGc _ _ _)⟩
      · rw [stage]
        rfl
      · rw [stage]
        rfl
      · rintro other ⟨⟩
        rfl
    | prepareGc stage head =>
      refine ⟨tracks.prepareGc queues head ?_ ?_ ?_ (by simp) ?_,
        .inl (ledger_prepareGc _ _ _)⟩
      · rintro other different ⟨⟩
        exact different rfl
      · rw [stage]
        rfl
      · rw [stage]
        rfl
      · rintro other ⟨⟩
    | resumeGc stage | resumeFetch stage =>
      refine ⟨tracks.resume ?_ ?_ ?_ (by simp) rfl, .inl rfl⟩
      · rw [stage]
        rfl
      · rw [stage]
        rfl
      · rw [stage]
        rfl
    | prepareWriteBack stage => exact ⟨tracks.prepareWriteBack queues stage, .inl rfl⟩
    | bindTo stage =>
      refine ⟨tracks.still (fun _ => rfl) rfl rfl rfl ?_ ?_ ?_ ?_, .inl rfl⟩
      · rw [stage]
        rfl
      · rw [stage]
        rfl
      · rintro ⟨⟩
      · rintro other ⟨⟩
    | prepareFetch stage _ _ head => exact ⟨tracks.prepareFetch queues stage head, .inl rfl⟩
    | makeDma stage =>
      obtain ⟨tracks', slice, next, ledger⟩ := tracks.makeDma queues balanced stage
      refine ⟨tracks', .inr ?_⟩
      rw [ledger]
      exact .count next
  | block => exact ⟨tracks.putAside (by decide) (.inl rfl), .inl rfl⟩
  | toNand _ nand choice =>
    refine ⟨tracks.putAside ?_ (.inr (by rw [nand]; decide)), .inl rfl⟩
    rcases choice with rfl | rfl <;> decide
  | @issue engine tag direction ref _ dma =>
    have issued : Tracks (engine.issueTo direction ref tag) (some tag) :=
      tracks.issueTo direction ref
    have type : ((engine.issueTo direction ref tag).pool tag).reqType = .nvmeDma := by
      simpa [Engine.issueTo] using dma
    have queue : ((engine.issueTo direction ref tag).pool tag).dmaQueue =
        (engine.pool tag).dmaQueue := by
      simp [Engine.issueTo, Request.dmaQueue]
    have placed := issued.putDma type
    rw [queue] at placed
    exact ⟨placed, .inl rfl⟩
  | wait _ dma waits =>
    have placed := tracks.putDma dma
    rw [Request.dmaQueue, if_pos waits.2.1] at placed
    exact ⟨placed, .inl rfl⟩
  | startPoll | startCustomPoll | startNand | endPoll | skipNvmeDma | skipCustomCmd =>
    exact ⟨tracks.inside (fun _ => rfl) rfl rfl rfl rfl, .inl rfl⟩
  | @dropNvmeDma engine tag rest done direction walk =>
    have queued := queues.mem_iff.1 (queues.visited_mem (by rw [walk]; rfl))
    obtain ⟨outstanding, slice, found, carries, code⟩ :=
      tracks.slice_of_queued queued (.inl rfl)
    have plain : slice.customCmd = false :=
      carries.custom.symm.trans (tracks.nvmeDmaQueue tag queued).2
    have ended : ({ engine with
        poll := .nvmeDma rest (Function.update done direction true) }.markFinished tag).ledger =
          engine.ledger.finish (engine.pool tag).sliceNo slice :=
      ledger_markFinished plain
    obtain ⟨released, ledger⟩ := tracks.drop queues queued (.inl rfl) ended rfl rfl rfl rfl
      (engine.pool tag).nextBlockingReq
    obtain ⟨counted, unfinished⟩ := Ledger.mem_outstanding.1 outstanding
    refine ⟨released, .inr (Eq.subst (motive := Ledger.Step fresh calm engine.ledger)
      ledger.symm (.finish found counted unfinished ?_ ?_))⟩
    · intro custom
      rw [plain] at custom
      cases custom
    · intro custom
      rw [plain] at custom
      cases custom
  | @dropCustomCmd engine tag rest done direction pass permitted walk direct noRx issued answer =>
    have queued := queues.mem_iff.1 (queues.visited_mem (by rw [walk]; rfl))
    obtain ⟨outstanding, slice, found, carries, code⟩ :=
      tracks.slice_of_queued queued (.inr rfl)
    have custom : slice.customCmd = true :=
      carries.custom.symm.trans (tracks.customQueue tag queued).2
    have ended : (({ engine with
        poll := .customCmd rest (Function.update done direction true) }.markFinished
          tag).completeForCustomIoCmd tag).ledger =
          engine.ledger.finish (engine.pool tag).sliceNo slice :=
      ledger_completeForCustomIoCmd found carries code custom
    obtain ⟨released, ledger⟩ := tracks.drop queues queued (.inr rfl) ended rfl rfl rfl rfl
      (engine.pool tag).nextBlockingReq
    obtain ⟨counted, unfinished⟩ := Ledger.mem_outstanding.1 outstanding
    refine ⟨released, .inr (Eq.subst (motive := Ledger.Step fresh calm engine.ledger)
      ledger.symm (.finish found counted unfinished ?_ ?_))⟩
    · intro _ read
      rw [← carries.slot]
      apply noRx
      rw [direct, Request.walkDirection, code, read]
      rfl
    · intro _
      exact permits.calm permitted walk issued (direct ▸ answer) found carries code
  | @issueWaiting engine tag rest done direction ref =>
    have visited : Tracks { engine with poll := .customCmd rest done } none :=
      tracks.inside (fun _ => rfl) rfl rfl rfl rfl
    exact ⟨visited.issueTo direction ref, .inl rfl⟩
  | @unlinkWaiting engine tag rest done =>
    have unlinked : Tracks ({ engine with poll := .customCmd rest done }.unlink tag) none :=
      tracks.inside (entry_unlinked _ tag) rfl rfl rfl rfl
    obtain ⟨released, ledger⟩ := unlinked.release (engine.pool tag).nextBlockingReq
    exact ⟨released, .inl ledger⟩
  | @dropNand engine tag pass permitted _ member =>
    have queued := queues.mem_iff.1 member
    have entry := entry_unlinked (engine.dropNand tag) tag
    have dropped : Tracks ((engine.dropNand tag).unlink tag) none := by
      refine tracks.requeueNand tag ?_ ?_ (.inl queued) (.inr ?_) rfl rfl rfl rfl
      · intro other different
        rw [entry other]
        simp [Engine.dropNand, Engine.putTo, Engine.takeFrom, different]
      · rw [base_of_entry (entry tag), Engine.dropNand, base_putTo, base_takeFrom]
      · rw [mark_of_entry (entry tag)]
        simp [Engine.dropNand, Engine.putTo]
    obtain ⟨released, ledger⟩ := dropped.release (engine.pool tag).nextBlockingReq
    exact ⟨released, .inl ledger⟩
  | @rowAddrDepDone engine tag _ member =>
    have queued := queues.mem_iff.1 member
    refine ⟨tracks.requeueNand tag ?_ ?_ (.inr queued) (.inl ?_) rfl rfl rfl rfl,
      .inl rfl⟩
    · intro other different
      simp [Engine.putTo, Engine.takeFrom, different]
    · rw [base_putTo, base_takeFrom]
    · simp [Engine.putTo]

end Tracks
end Engine

theorem Config.initial_tracks (config : Config) : config.initial.Tracks none where
  translated_le := Nat.le_refl _
  cut_le := Nat.le_refl _
  uncut := rfl
  idle := fun _ => rfl
  selecting := by
    intro tag chosen
    cases chosen
  numbers := rfl
  slices := fun _ member => absurd member List.not_mem_nil
  live := fun tag live => absurd live.1 (by simp [Config.initial])
  distinct := fun tag _ live => absurd live.1 (by simp [Config.initial])
  accounted := fun _ member => absurd member List.not_mem_nil
  customQueue := by
    intro tag marked
    cases marked
  nvmeDmaQueue := by
    intro tag marked
    cases marked

/-- A run of the engine is a run of the ledger, and the requests agree with the ledger in
every state of it. -/
theorem ledger_of_run {config : Config} {allowed : Engine config.Tag → Event config.Tag → Prop}
    {fresh : Ledger → NvmeIoCmd → Prop} {calm : Ledger → Slice → Prop}
    (permits : Engine.Tracks.Permits allowed fresh calm) {engine : Engine config.Tag}
    (run : ReflTransGen (Fallible.EventStep Engine.step allowed) config.initial engine) :
    engine.Tracks none ∧ engine.ledger.Balanced ∧
      ReflTransGen (Ledger.Step fresh calm) .initial engine.ledger := by
  have kept := run_of_moves
    (fun engine inHand => engine.Queues inHand ∧ engine.Tracks inHand ∧ engine.ledger.Balanced ∧
      ReflTransGen (Ledger.Step fresh calm) .initial engine.ledger)
    ⟨config.initial_queues, config.initial_tracks, .initial, .refl⟩ ?_ run
  · exact kept.2
  · rintro before after ⟨queues, tracks, balanced, past⟩ move
    obtain ⟨tracks', same | step⟩ := tracks.move permits queues balanced move
    · rw [same]
      exact ⟨queues.move move, tracks', balanced, past⟩
    · exact ⟨queues.move move, tracks', balanced.step step, past.tail step⟩

end RwRbuf.Firmware.Requests
