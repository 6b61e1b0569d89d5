import RwRbuf.Firmware.SliceStages

/-! # Reads and flash programs

A read that misses both buffers takes an entry of R-Buf.  It makes a flash program only if it
evicts a dirty entry, and an entry of R-Buf gets dirty only by a write that finds its slice
there.
-/

namespace RwRbuf.Firmware.Requests

open Function Fallible Relation

variable {Tag : Type}

def Stage.programs : Stage Tag → Option Tag
  | collecting tag _ _ => some tag
  | selectingGc tag _ _ _ => some tag
  | _ => none

theorem Stage.current_of_programs {stage : Stage Tag} {tag : Tag}
    (programs : stage.programs = some tag) : stage.current = some tag := by
  cases stage with
  | collecting => exact programs
  | selectingGc => exact programs
  | _ => cases programs

/-- The request is a flash request that writes or erases. -/
def Request.Programs (request : Request Tag) : Prop :=
  request.reqType = .nand ∧ request.reqCode ≠ .read

instance (request : Request Tag) : Decidable request.Programs :=
  inferInstanceAs (Decidable (_ ∧ _))

variable [DecidableEq Tag]

namespace Engine

/-- The slice request that `ReqTransSliceToLowLevel` takes next. -/
def nextSlice (engine : Engine Tag) : Option Tag :=
  match engine.stage with
  | .translating => (engine.queue .slice).head?
  | _ => none

/-- A write that is translated next does not find its slice in R-Buf. -/
def WriteMissesRBuf (engine : Engine Tag) : Event Tag → Prop
  | .advance _ => ∀ tag ∈ engine.nextSlice, (engine.pool tag).reqCode = .write →
      ∀ ref ∈ engine.checkHit (engine.pool tag).logicalSliceAddr, ref.kind ≠ .ccmdDataBuf
  | _ => True

omit [DecidableEq Tag] in
instance (engine : Engine Tag) (event : Event Tag) : Decidable (engine.WriteMissesRBuf event) :=
  match event with
  | .advance _ => inferInstanceAs (Decidable (∀ tag ∈ engine.nextSlice, _))
  | .serve _ => .isTrue trivial
  | .command _ => .isTrue trivial
  | .startPoll => .isTrue trivial
  | .visit _ => .isTrue trivial
  | .nandDone _ _ => .isTrue trivial
  | .rowAddrDepDone _ => .isTrue trivial
  | .endPoll => .isTrue trivial

def Serves (engine : Engine Tag) (tag : Tag) (code : CmdCode) : Prop :=
  ∃ slice, engine.slices[(engine.pool tag).sliceNo]? = some slice ∧ slice.code = code

/-- R-Buf is clean, reads evict only there, and flash programs are made for writes only. -/
structure Unstalled (engine : Engine Tag) : Prop where
  clean : ∀ entry, ((engine.buffer .ccmdDataBuf).dataBuf entry).dirty = false
  target : ∀ tag ref, engine.stage.current = some tag → (engine.pool tag).dataBuf = some ref →
    ref.kind ≠ .tempDataBuf ∧ ((engine.pool tag).reqCode = .write → ref.kind ≠ .ccmdDataBuf)
  evicting : ∀ tag ref, engine.stage = .evicting tag → (engine.pool tag).dataBuf = some ref →
    (engine.pool tag).reqCode = .read → ref.kind = .ccmdDataBuf
  programs : ∀ tag, engine.stage.programs = some tag → (engine.pool tag).reqCode ≠ .read
  written : ∀ tag ∈ engine.handed, (engine.pool tag).Programs → ∀ ref,
    (engine.pool tag).dataBuf = some ref → ref.kind ≠ .tempDataBuf → engine.Serves tag .write
  sent : ∀ tag ∈ engine.handed, (engine.pool tag).reqType = .nvmeDma →
    (engine.pool tag).reqCode = .txDma → engine.Serves tag .read ∧
      ∀ ref, (engine.pool tag).dataBuf = some ref → ref.kind ≠ .tempDataBuf

namespace Unstalled

variable {engine engine' : Engine Tag} {tag : Tag}

section

variable {request request' : Request Tag} (same : request'.fixed = request.fixed)
include same

omit [DecidableEq Tag] in
private theorem code_of_fixed : request'.reqCode = request.reqCode :=
  Request.field_of_fixed (·.reqCode) (fun _ => rfl) same

omit [DecidableEq Tag] in
private theorem dataBuf_of_fixed : request'.dataBuf = request.dataBuf :=
  Request.field_of_fixed (·.dataBuf) (fun _ => rfl) same

omit [DecidableEq Tag] in
private theorem programs_of_fixed : request'.Programs ↔ request.Programs := by
  unfold Request.Programs
  rw [code_of_fixed same, Request.field_of_fixed (·.reqType) (fun _ => rfl) same]

omit [DecidableEq Tag] in
private theorem type_of_fixed : request'.reqType = request.reqType :=
  Request.field_of_fixed (·.reqType) (fun _ => rfl) same

end

omit [DecidableEq Tag] in
private theorem serves_of_fixed {code : CmdCode} (serves : engine.Serves tag code)
    (fixed : (engine'.pool tag).fixed = (engine.pool tag).fixed)
    (slices : ∀ {sliceNo : Nat} {slice : Slice}, engine.slices[sliceNo]? = some slice →
      engine'.slices[sliceNo]? = some slice) : engine'.Serves tag code := by
  obtain ⟨slice, found, same⟩ := serves
  refine ⟨slice, ?_, same⟩
  rw [Request.field_of_fixed (·.sliceNo) (fun _ => rfl) fixed]
  exact slices found

omit [DecidableEq Tag] in
theorem aside (unstalled : Unstalled engine) (aside : Aside engine engine') :
    Unstalled engine' where
  clean := by
    intro entry
    rw [BufferMap.dirty_of_content (aside.content .ccmdDataBuf)]
    exact unstalled.clean entry
  target := by
    intro tag ref current uses
    rw [aside.stage] at current
    rw [dataBuf_of_fixed (aside.fixed tag)] at uses
    rw [code_of_fixed (aside.fixed tag)]
    exact unstalled.target tag ref current uses
  evicting := by
    intro tag ref stage uses read
    rw [aside.stage] at stage
    rw [dataBuf_of_fixed (aside.fixed tag)] at uses
    rw [code_of_fixed (aside.fixed tag)] at read
    exact unstalled.evicting tag ref stage uses read
  programs := by
    intro tag programs
    rw [aside.stage] at programs
    rw [code_of_fixed (aside.fixed tag)]
    exact unstalled.programs tag programs
  written := by
    intro tag listed programs ref uses kind
    rw [programs_of_fixed (aside.fixed tag)] at programs
    rw [dataBuf_of_fixed (aside.fixed tag)] at uses
    exact serves_of_fixed (unstalled.written tag (aside.handed listed) programs ref uses kind)
      (aside.fixed tag) (aside.slices ▸ ·)
  sent := by
    intro tag listed dma tx
    rw [type_of_fixed (aside.fixed tag)] at dma
    rw [code_of_fixed (aside.fixed tag)] at tx
    obtain ⟨serves, kind⟩ := unstalled.sent tag (aside.handed listed) dma tx
    rw [dataBuf_of_fixed (aside.fixed tag)]
    exact ⟨serves_of_fixed serves (aside.fixed tag) (aside.slices ▸ ·), kind⟩

variable {allowed : Engine Tag → Event Tag → Prop} {after : Moment Tag}

omit [DecidableEq Tag] in
private theorem clean_update {buffer : BufferKind → BufferMap Tag} {kind : BufferKind}
    {map : BufferMap Tag} (clean : ∀ entry, ((buffer .ccmdDataBuf).dataBuf entry).dirty = false)
    (kept : kind = .ccmdDataBuf → ∀ entry, (map.dataBuf entry).dirty = false) (entry : Nat) :
    ((update buffer kind map .ccmdDataBuf).dataBuf entry).dirty = false := by
  by_cases same : BufferKind.ccmdDataBuf = kind
  · subst same
    rw [update_self]
    exact kept rfl entry
  · rw [update_of_ne same]
    exact clean entry

/-- Only a write that uses an entry of R-Buf makes it dirty. -/
private theorem clean_main (unstalled : Unstalled engine)
    (move : MainMove allowed engine after) (entry : Nat) :
    ((after.engine.buffer .ccmdDataBuf).dataBuf entry).dirty = false := by
  have linked : ∀ (linked : Engine Tag) ref tag,
      (∀ entry, ((linked.buffer .ccmdDataBuf).dataBuf entry).dirty = false) →
      (((linked.updateEntryInfoBlockingReq ref tag).buffer .ccmdDataBuf).dataBuf entry).dirty =
        false := by
    intro linked ref tag clean
    rw [BufferMap.dirty_of_content (content_linked linked ref tag .ccmdDataBuf)]
    exact clean entry
  cases move with
  | accept _ _ accepted =>
    rw [(accept_eq accepted).2.2.2.1]
    exact unstalled.clean entry
  | @hit tag rest ref =>
    apply clean_update unstalled.clean
    intro kind entry
    show ((engine.buffer ref.kind).dataBuf entry).dirty = false
    rw [kind]
    exact unstalled.clean entry
  | @miss tag rest kind evicted map _ _ _ _ allocated =>
    apply clean_update unstalled.clean
    rintro rfl entry
    rw [allocate_dataBuf allocated]
    exact unstalled.clean entry
  | prepareGcRead | prepareGc =>
    rw [BufferMap.dirty_of_content (content_prepareGc _ _ _ .ccmdDataBuf)]
    exact unstalled.clean entry
  | prepareWriteBack | prepareFetch => exact linked _ _ _ unstalled.clean
  | @bindTo tag ref =>
    apply clean_update unstalled.clean
    intro kind entry
    by_cases bound : entry = ref.entry
    · simp [BufferMap.bind, BufferMap.putToHashList, BufferMap.setEntry, bound]
    · rw [kind]
      simpa [BufferMap.bind, BufferMap.putToHashList, BufferMap.setEntry, bound] using
        unstalled.clean entry
  | @makeDma tag ref stage uses =>
    apply linked
    show ∀ entry, (((if cmdCode (engine.pool tag) = .write then _ else engine.buffer :
      BufferKind → BufferMap Tag) .ccmdDataBuf).dataBuf entry).dirty = false
    split
    next write =>
      apply clean_update unstalled.clean
      intro kind
      have code : (engine.pool tag).reqCode = .write := by
        unfold cmdCode at write
        split at write
        · assumption
        · cases write
      exact absurd kind ((unstalled.target tag ref (by rw [stage]; rfl) uses).2 code)
    · exact unstalled.clean
  | _ => exact unstalled.clean entry

private theorem target_main (unstalled : Unstalled engine) (queues : Queues engine none)
    (move : MainMove WriteMissesRBuf engine after) {ref : BufferRef}
    (current : after.engine.stage.current = some tag)
    (uses : (after.engine.pool tag).dataBuf = some ref) :
    ref.kind ≠ .tempDataBuf ∧
      ((after.engine.pool tag).reqCode = .write → ref.kind ≠ .ccmdDataBuf) := by
  rcases current_of_main move current with before | ⟨stage, target, map, rest, rfl, translating,
    head, chosen⟩
  · -- a request that was translated before the move keeps its entry
    have same := fixed_of_current queues move before current
    rw [dataBuf_of_fixed same] at uses
    rw [code_of_fixed same]
    exact unstalled.target tag ref before uses
  · obtain ⟨taken, code⟩ := pool_takeSlice engine tag stage target map
    rw [taken] at uses
    cases Option.some.inj uses
    rw [code]
    rcases chosen with ⟨answer, permitted, hit⟩ | miss
    · refine ⟨kind_of_checkHit hit, fun write => ?_⟩
      have next : engine.nextSlice = some tag := by
        simp [nextSlice, translating, head]
      exact permitted tag next write ref hit
    · rw [miss]
      refine ⟨missKind_ne _, fun write => ?_⟩
      rw [missKind, write, if_neg ReqCode.noConfusion]
      exact BufferKind.noConfusion

private theorem evicting_main (move : MainMove allowed engine after) {ref : BufferRef}
    (stage : after.engine.stage = .evicting tag) (uses : (after.engine.pool tag).dataBuf = some ref)
    (read : (after.engine.pool tag).reqCode = .read) : ref.kind = .ccmdDataBuf := by
  cases move with
  | accept _ _ accepted =>
    rw [(accept_eq accepted).2.1] at stage
    cases stage
  | @miss origin rest kind entry map _ head absent chosen =>
    cases stage
    obtain ⟨target, code⟩ := pool_takeSlice engine tag (.evicting tag) ⟨kind, entry⟩ map
    rw [code] at read
    rw [target] at uses
    cases Option.some.inj uses
    rw [chosen, missKind, if_pos read]
  | prepareGcRead | prepareGc =>
    rw [stage_prepareGc] at stage
    cases stage
  | _ => cases stage

/-- An eviction for a read finds a clean entry, so it makes no program. -/
private theorem programs_main (unstalled : Unstalled engine) (queues : Queues engine none)
    (move : MainMove allowed engine after) (programs : after.engine.stage.programs = some tag) :
    (after.engine.pool tag).reqCode ≠ .read := by
  have kept : engine.stage.current = some tag → (engine.pool tag).reqCode ≠ .read →
      (after.engine.pool tag).reqCode ≠ .read := by
    intro before
    have same := fixed_of_current queues move before (Stage.current_of_programs programs)
    rw [code_of_fixed same]
    exact id
  cases move with
  | accept _ _ accepted =>
    rw [(accept_eq accepted).2.1] at programs
    cases programs
  | @holdWriteSlot origin write ref lsa free gcRequests stage uses dirty =>
    cases Option.some.inj programs
    apply kept (by rw [stage]; rfl)
    intro read
    have kind := unstalled.evicting tag ref stage uses read
    rw [entryOf, kind, unstalled.clean] at dirty
    cases dirty
  | prepareGcRead stage | prepareGc stage =>
    rw [stage_prepareGc] at programs
    exact kept (by rw [stage]; exact programs)
      (unstalled.programs tag (by rw [stage]; exact programs))
  | resumeGc stage =>
    exact kept (by rw [stage]; exact programs)
      (unstalled.programs tag (by rw [stage]; exact programs))
  | _ => cases programs

omit [DecidableEq Tag] in
private theorem eq_of_mem_append {handed : List Tag} {new : Tag}
    (listed : tag ∈ handed ++ [new]) (fresh : tag ∉ handed) : tag = new := by
  rw [List.mem_append, List.mem_singleton] at listed
  exact listed.resolve_left fresh

section

variable (unstalled : Unstalled engine) (sound : Sound engine none) (quiet : engine.poll = .idle)
include unstalled sound quiet

/-- The write-back of an entry serves the slice for which the entry is evicted. -/
private theorem written_main (move : MainMove allowed engine after)
    (listed : tag ∈ after.engine.handed) (programs : (after.engine.pool tag).Programs)
    {ref : BufferRef} (uses : (after.engine.pool tag).dataBuf = some ref)
    (kind : ref.kind ≠ .tempDataBuf) : after.engine.Serves tag .write := by
  by_cases old : tag ∈ engine.handed
  · have keeps := keeps_of_move sound.chains sound.queues sound.tracks (.main quiet move)
    have fixed := keeps.fixed tag old
    rw [programs_of_fixed fixed] at programs
    rw [dataBuf_of_fixed fixed] at uses
    exact serves_of_fixed (unstalled.written tag old programs ref uses kind) fixed
      (slices_of_main move)
  -- the new requests: those of the garbage collector use the temporary buffer
  have collected : ∀ (engine : Engine Tag) (gc : GcRequest) (new : Tag),
      ((engine.prepareGc gc new).pool new).dataBuf = some ref → False := by
    intro engine gc new uses
    rw [dataBuf_of_fixed (fixed_prepareGc_new engine gc new)] at uses
    cases gc with
    | read dieNo | write dieNo =>
      cases uses
      exact kind rfl
    | erase => cases uses
  have isNew : ∀ {new : Tag}, after.engine.handed = engine.handed ++ [new] → tag = new := by
    intro new handed
    exact eq_of_mem_append (handed ▸ listed) old
  cases move with
  | accept _ _ accepted =>
    rw [(accept_eq accepted).2.2.2.2] at listed
    exact absurd listed old
  | @prepareGcRead origin write new gc =>
    cases isNew (handed_prepareGc _ gc new)
    exact (collected _ _ _ uses).elim
  | @prepareGc origin write new gc =>
    cases isNew (handed_prepareGc _ gc new)
    exact (collected _ _ _ uses).elim
  | @prepareWriteBack origin write target lsa stage =>
    cases isNew rfl
    have current : engine.stage.current = some origin := by
      rw [stage]
      rfl
    obtain ⟨number, _, slice, found, _, code⟩ := sound.tracks.current_slice current
    have filled : ((engine.prepareWriteBack origin tag target lsa).pool tag).sliceNo =
        (engine.pool origin).sliceNo := by
      refine (Request.field_of_fixed (·.sliceNo) (fun _ => rfl)
        (fixed_linked _ target tag tag)).trans ?_
      simp [Engine.modify, Request.fillNand]
    refine ⟨slice, ?_, ?_⟩
    · rw [filled, number]
      exact found
    · have notRead := unstalled.programs origin (by rw [stage]; rfl)
      rw [code] at notRead
      cases written : slice.code with
      | write => rfl
      | read => exact absurd (by rw [written]; rfl) notRead
  | @prepareFetch origin read target =>
    cases isNew rfl
    exact absurd (reqCode_prepareFetch engine origin tag target) programs.2
  | @makeDma origin target =>
    cases isNew rfl
    have nand := programs.1
    rw [reqType_makeDma] at nand
    cases nand
  | _ => exact absurd listed old

private theorem sent_main (move : MainMove allowed engine after)
    (listed : tag ∈ after.engine.handed) (dma : (after.engine.pool tag).reqType = .nvmeDma)
    (tx : (after.engine.pool tag).reqCode = .txDma) : after.engine.Serves tag .read ∧
      ∀ ref, (after.engine.pool tag).dataBuf = some ref → ref.kind ≠ .tempDataBuf := by
  have keeps := keeps_of_move sound.chains sound.queues sound.tracks (.main quiet move)
  by_cases old : tag ∈ engine.handed
  · have fixed := keeps.fixed tag old
    rw [type_of_fixed fixed] at dma
    rw [code_of_fixed fixed] at tx
    obtain ⟨serves, kind⟩ := unstalled.sent tag old dma tx
    rw [dataBuf_of_fixed fixed]
    exact ⟨serves_of_fixed serves fixed (slices_of_main move), kind⟩
  have notNand : ∀ new : Tag, after.engine.handed = engine.handed ++ [new] →
      (after.engine.pool new).reqType ≠ .nand := by
    intro new handed nand
    cases eq_of_mem_append (handed ▸ listed) old
    rw [nand] at dma
    cases dma
  cases move with
  | accept _ _ accepted =>
    rw [(accept_eq accepted).2.2.2.2] at listed
    exact absurd listed old
  | @prepareGcRead origin write new gc =>
    refine absurd ?_ (notNand new (handed_prepareGc _ gc new))
    exact type_of_fixed (fixed_prepareGc_new _ gc new)
  | @prepareGc origin write new gc =>
    refine absurd ?_ (notNand new (handed_prepareGc _ gc new))
    exact type_of_fixed (fixed_prepareGc_new _ gc new)
  | @prepareWriteBack origin write ref =>
    refine absurd ?_ (notNand write rfl)
    refine (type_of_fixed (fixed_linked _ ref write write)).trans ?_
    simp [Engine.modify, Request.fillNand]
  | @prepareFetch origin read ref =>
    refine absurd ?_ (notNand read rfl)
    refine (type_of_fixed (fixed_linked _ ref read read)).trans ?_
    simp [Engine.modify, Request.fillNand]
  | @makeDma origin ref stage =>
    cases eq_of_mem_append listed old
    have current : engine.stage.current = some tag := by
      rw [stage]
      rfl
    obtain ⟨number, _, slice, found, _, code⟩ := sound.tracks.current_slice current
    have made := fixed_makeDma engine tag ref
    rw [code_of_fixed made] at tx
    refine ⟨⟨slice, ?_, ?_⟩, ?_⟩
    · rw [Request.field_of_fixed (·.sliceNo) (fun _ => rfl) made]
      exact number ▸ found
    · have dmaCode : slice.code.dmaCode = .txDma := by
        rw [← Tracks.cmdCode_of_reqCode code]
        exact tx
      cases read : slice.code with
      | read => rfl
      | write => simp [read, CmdCode.dmaCode] at dmaCode
    · intro other uses
      rw [dataBuf_of_fixed made] at uses
      exact (unstalled.target tag other current uses).1
  | _ => exact absurd listed old

theorem main (move : MainMove WriteMissesRBuf engine after) : Unstalled after.engine where
  clean := unstalled.clean_main move
  target := fun _ _ => unstalled.target_main sound.queues move
  evicting := fun _ _ => evicting_main move
  programs := fun _ => unstalled.programs_main sound.queues move
  written := fun _ listed programs _ => unstalled.written_main sound quiet move listed programs
  sent := fun _ listed dma => unstalled.sent_main sound quiet move listed dma

end

theorem move {before : Moment Tag} (unstalled : Unstalled before.engine)
    (sound : Sound before.engine before.inHand) (move : Move WriteMissesRBuf before after) :
    Unstalled after.engine := by
  rcases aside_or_main move with aside | ⟨engine, rfl, quiet, main⟩
  · exact unstalled.aside aside
  · exact unstalled.main sound quiet main

/-- A step of the translation that makes a program belongs to a write. -/
theorem generated (unstalled : Unstalled engine) {answer : FtlAnswer}
    (advanced : engine.advance answer = some engine') (listed : tag ∈ engine'.handed)
    (fresh : tag ∉ engine.handed) (programs : (engine'.pool tag).Programs) {current : Tag}
    (translated : engine.stage.current = some current) : (engine.pool current).reqCode ≠ .read := by
  unfold Engine.advance at advanced
  split at advanced
  case h_1 stage => cases advanced
  case h_2 slice rest stage =>
      rw [stage] at translated
      cases translated
  case h_3 stage =>
      rw [stage] at translated
      cases translated
  case h_4 stage =>
      rw [stage] at translated
      cases translated
  case h_5 origin stage =>
      -- the eviction only takes the slot of the write request
      unfold Engine.startEviction at advanced
      split at advanced
      · cases advanced
      · split at advanced
        · split at advanced
          · cases advanced
            exact absurd listed fresh
          · cases advanced
        · cases advanced
          exact absurd listed fresh
  case h_6 origin write gc rest stage =>
      apply unstalled.programs
      rw [stage] at translated ⊢
      exact translated
  case h_7 origin write stage =>
      apply unstalled.programs
      rw [stage] at translated ⊢
      exact translated
  case h_8 origin write read rest stage =>
      apply unstalled.programs
      rw [stage] at translated ⊢
      exact translated
  case h_9 origin stage =>
      obtain ⟨ref, _, rfl⟩ := Option.map_eq_some_iff.1 advanced
      exact absurd listed fresh
  case h_10 origin stage =>
      unfold Engine.fetch at advanced
      split at advanced
      · split at advanced
        next read _ ref _ _ =>
          cases advanced
          cases eq_of_mem_append listed fresh
          exact absurd (reqCode_prepareFetch engine origin tag ref) programs.2
        · cases advanced
      · cases advanced
        exact absurd listed fresh
  case h_11 origin read stage =>
      exact absurd ((aside_selectLowLevelReqQ advanced).handed listed) fresh
  case h_12 origin stage =>
      unfold Engine.finishSlice at advanced
      split at advanced
      · cases advanced
      next ref _ =>
        have aside := aside_selectLowLevelReqQ advanced
        cases eq_of_mem_append (aside.handed listed) fresh
        have nand := ((programs_of_fixed (aside.fixed tag)).1 programs).1
        rw [reqType_makeDma] at nand
        cases nand

end Unstalled
end Engine

theorem unstalled_of_run {config : Config} {engine : Engine config.Tag}
    (run : ReflTransGen (EventStep Engine.step Engine.WriteMissesRBuf)
      config.initial engine) : engine.Unstalled ∧ engine.Sound none := by
  refine run_of_moves (fun engine inHand => engine.Unstalled ∧ engine.Sound inHand) ?_ ?_ run
  · refine ⟨⟨fun _ => rfl, ?_, ?_, ?_, ?_, ?_⟩, config.initial_sound⟩
    · intro _ _ current
      cases current
    · intro _ _ stage
      cases stage
    · intro _ programs
      cases programs
    · intro _ listed
      cases listed
    · intro _ listed
      cases listed
  · rintro before after ⟨unstalled, sound⟩ move
    exact ⟨unstalled.move sound move, sound.move move⟩

/-- As long as no write finds its slice in R-Buf, a step of the translation that hands over a
flash program belongs to a write, and on the entry of a Tx request no program waits that was
made for its slice. -/
theorem reads_make_no_program (config : Config) (engine : Engine config.Tag)
    (run : Relation.ReflTransGen (Fallible.EventStep Engine.step Engine.WriteMissesRBuf)
      config.initial engine) :
    (∀ answer engine' tag current, engine.step (.advance answer) = some engine' →
      tag ∈ engine'.handed → tag ∉ engine.handed → (engine'.pool tag).Programs →
      engine.stage.current = some current → (engine.pool current).reqCode = .write) ∧
      ∀ ref, ∀ program ∈ engine.chainOf ref, ∀ tx ∈ engine.chainOf ref,
        (engine.pool program).Programs → (engine.pool tx).reqType = .nvmeDma →
        (engine.pool tx).reqCode = .txDma →
        (engine.pool program).sliceNo ≠ (engine.pool tx).sliceNo := by
  obtain ⟨unstalled, sound⟩ := unstalled_of_run run
  constructor
  · intro answer engine' tag current stepped listed fresh programs translated
    have advanced : engine.advance answer = some engine' := by
      simp only [Engine.step] at stepped
      split at stepped
      · exact stepped
      · cases stepped
    have notRead := unstalled.generated advanced listed fresh programs translated
    obtain ⟨_, _, slice, _, _, code⟩ := sound.tracks.current_slice translated
    rw [code] at notRead ⊢
    cases written : slice.code with
    | write => rfl
    | read => exact absurd (by rw [written]; rfl) notRead
  · intro ref program chained tx chained' programs dma isTx same
    have entry := sound.chains.entryChain sound.queues ref
    obtain ⟨_, uses⟩ := (entry.mem_iff program).1 chained
    obtain ⟨_, uses'⟩ := (entry.mem_iff tx).1 chained'
    obtain ⟨⟨read, found, isRead⟩, kind⟩ :=
      unstalled.sent tx (entry.order.subset chained') dma isTx
    obtain ⟨written, found', isWrite⟩ := unstalled.written program
      (entry.order.subset chained) programs ref uses (kind ref uses')
    rw [same, found] at found'
    cases found'
    rw [isRead] at isWrite
    cases isWrite

/-- Two reads of one slice each: the second one evicts the clean entry of the first one. -/
def twoReadsEvents {Tag : Type} : List (Event Tag) :=
  .command (.read 0 0 3) :: List.replicate 8 (.advance ⟨[], true⟩) ++
    .command (.read 1 4 3) :: List.replicate 7 (.advance ⟨[], true⟩)

theorem twoReadsEvents_run :
    (runAllowed Engine.step Engine.WriteMissesRBuf twoReadsEvents
      Config.oneDie.initial).isSome = true := by
  decide

def twoReadsEngine : Engine Config.oneDie.Tag :=
  (runAllowed Engine.step Engine.WriteMissesRBuf twoReadsEvents
    Config.oneDie.initial).get twoReadsEvents_run

/-- The two reads share the one entry of R-Buf, and no program was made for the second one. -/
theorem reads_make_no_program_twoReads :
    (twoReadsEngine.chainOf ⟨.ccmdDataBuf, 0⟩).map Fin.val = [0, 1] ∧
      (twoReadsEngine.pool ⟨1, by decide⟩).reqCode = .txDma ∧
      ∀ program ∈ twoReadsEngine.chainOf ⟨.ccmdDataBuf, 0⟩,
        (twoReadsEngine.pool program).Programs → (twoReadsEngine.pool program).sliceNo ≠ 1 := by
  have reached : ReflTransGen (EventStep Engine.step Engine.WriteMissesRBuf)
      Config.oneDie.initial twoReadsEngine :=
    reaches_of_runAllowed _ (Option.some_get twoReadsEvents_run).symm
  refine ⟨by decide, by decide, ?_⟩
  intro program chained programs
  exact (reads_make_no_program _ _ reached).2 _ program chained ⟨1, by decide⟩ (by decide)
    programs (by decide) (by decide)

/-- A read, a write of the same slice that finds it in R-Buf, and a read of another slice up
to the eviction of the entry. -/
def hitRBufEvents {Tag : Type} : List (Event Tag) :=
  .command (.read 0 0 3) :: List.replicate 8 (.advance ⟨[], true⟩) ++
    .command (.write 1 0 3) :: List.replicate 5 (.advance ⟨[], true⟩) ++
    .command (.read 2 4 3) :: List.replicate 4 (.advance ⟨[], true⟩)

theorem hitRBufEvents_run :
    (runEvents Engine.step hitRBufEvents Config.oneDie.initial).isSome = true := by
  decide

def hitRBufEngine : Engine Config.oneDie.Tag :=
  (runEvents Engine.step hitRBufEvents Config.oneDie.initial).get hitRBufEvents_run

theorem hitRBufEngine_run :
    (runEvents Engine.step (List.replicate 4 (.advance ⟨[], true⟩))
      hitRBufEngine).isSome = true := by
  decide

/-- The state after the read is translated. -/
def stalledEngine : Engine Config.oneDie.Tag :=
  (runEvents Engine.step (List.replicate 4 (.advance ⟨[], true⟩))
    hitRBufEngine).get hitRBufEngine_run

/-- While a read is translated a program is handed over, and then the Tx request of the read
waits behind it on the entry. -/
theorem read_makes_program :
    Relation.ReflTransGen (Fallible.EventStep Engine.step fun _ _ => True)
        Config.oneDie.initial hitRBufEngine ∧
      hitRBufEngine.stage.current = some ⟨2, by decide⟩ ∧
      (hitRBufEngine.pool ⟨2, by decide⟩).reqCode = .read ∧
      (∃ engine', hitRBufEngine.step (.advance ⟨[], true⟩) = some engine' ∧
        ⟨3, by decide⟩ ∈ engine'.handed ∧ ⟨3, by decide⟩ ∉ hitRBufEngine.handed ∧
        (engine'.pool ⟨3, by decide⟩).Programs) ∧
      Relation.ReflTransGen (Fallible.EventStep Engine.step fun _ _ => True)
        hitRBufEngine stalledEngine ∧
      (stalledEngine.chainOf ⟨.ccmdDataBuf, 0⟩).map Fin.val = [0, 1, 3, 2] ∧
      (stalledEngine.pool ⟨3, by decide⟩).Programs ∧
      (stalledEngine.pool ⟨2, by decide⟩).reqCode = .txDma ∧
      (stalledEngine.pool ⟨3, by decide⟩).sliceNo =
        (stalledEngine.pool ⟨2, by decide⟩).sliceNo := by
  refine ⟨?_, by decide, by decide, ?_, ?_, by decide, by decide, by decide, by decide⟩
  · exact reaches_of_runEvents _ (fun _ _ _ => trivial)
      (Option.some_get hitRBufEvents_run).symm
  · exact ⟨(hitRBufEngine.step (.advance ⟨[], true⟩)).get (by decide),
      (Option.some_get _).symm, by decide, by decide, by decide⟩
  · exact reaches_of_runEvents _ (fun _ _ _ => trivial)
      (Option.some_get hitRBufEngine_run).symm

end RwRbuf.Firmware.Requests
