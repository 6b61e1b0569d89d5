import RwRbuf.Firmware.DmaRecords
import RwRbuf.Firmware.HostTimeWork
import RwRbuf.Firmware.ReadStalls

/-! # The timing table along the runs of the engine

`PutToSliceReqQ`, the evictions, `SelectiveGetFromNvmeDmaReqQ`,
`SelectiveGetFromCustomCmdReqQ` and `GetFromNandReqQ` call the timing functions.  A step of
the engine is a step of its work, so the table is exact along every run whose steps it can
count.
-/

namespace RwRbuf.Firmware.Requests

open Fallible

variable {Tag : Type}

def Request.evictionSlot (request : Request Tag) : Option Nat :=
  if request.reqType = .nand ∧ request.reqCode = .write ∧ (Engine.nandEntry request).isSome then
    some request.nvmeCmdSlotTag
  else none

namespace Engine

variable (engine : Engine Tag)

def evictionWrites : List Nat :=
  engine.handed.filterMap fun tag => (engine.pool tag).evictionSlot

def workload : Workload where
  slices := engine.slices
  commandCount := engine.commandCount
  cut := engine.cut
  translated := engine.translated
  finished := engine.finished
  writes := engine.evictionWrites

/-- The call of a timing function in a step. -/
def timeCall : Event Tag → TimeCall
  | .advance _ =>
    match engine.stage with
    | .cutting (slice :: _) => .allocateNvmeDmaCnt slice
    | .collecting tag _ [] => .allocateNandReqCnt (engine.pool tag).nvmeCmdSlotTag
    | _ => .nothing
  | .visit _ =>
    match engine.removedByVisit with
    | some tag => .nvmeDmaEnd (engine.pool tag).nvmeCmdSlotTag (engine.commandOf tag)
    | none => .nothing
  | .nandDone tag _ =>
    if (engine.pool tag).reqCode = .write then
      .nandReqEnd (engine.pool tag).nvmeCmdSlotTag (engine.pool tag).evictionSlot.isSome
    else .nothing
  | _ => .nothing

end Engine

/-- The engine with the timing table. -/
structure TimedEngine (Tag : Type) where
  engine : Engine Tag
  table : HostTimeTable

namespace TimedEngine

variable [DecidableEq Tag]

/-- An event happens at a time. -/
def step (timed : TimedEngine Tag) (happening : Event Tag × Nat) : Option (TimedEngine Tag) :=
  (timed.engine.step happening.1).map fun engine =>
    { engine := engine
      table := timed.table.call happening.2 (timed.engine.timeCall happening.1) }

omit [DecidableEq Tag] in
/-- The call of the step is one that the table can count. -/
def Careful (timed : TimedEngine Tag) (happening : Event Tag × Nat) : Prop :=
  timed.table.Careful timed.engine.workload (timed.engine.timeCall happening.1)

omit [DecidableEq Tag] in
instance (timed : TimedEngine Tag) (happening : Event Tag × Nat) :
    Decidable (timed.Careful happening) :=
  inferInstanceAs (Decidable (timed.table.Careful _ _))

end TimedEngine

namespace Engine

variable {engine engine' : Engine Tag} {tag : Tag} {pass : Bool}

theorem evictionSlot_of_fixed {request request' : Request Tag}
    (same : request'.fixed = request.fixed) : request'.evictionSlot = request.evictionSlot :=
  Request.field_of_fixed Request.evictionSlot (fun _ => rfl) same

structure SameWork (engine engine' : Engine Tag) : Prop where
  slices : engine'.slices = engine.slices
  commandCount : engine'.commandCount = engine.commandCount
  cut : engine'.cut = engine.cut
  translated : engine'.translated = engine.translated
  finished : engine'.finished = engine.finished
  handed : engine'.handed = engine.handed
  fixed : ∀ tag, (engine'.pool tag).fixed = (engine.pool tag).fixed

namespace SameWork

theorem refl (engine : Engine Tag) : SameWork engine engine :=
  ⟨rfl, rfl, rfl, rfl, rfl, rfl, fun _ => rfl⟩

theorem trans {middle : Engine Tag} (first : SameWork engine middle)
    (second : SameWork middle engine') : SameWork engine engine' where
  slices := second.slices.trans first.slices
  commandCount := second.commandCount.trans first.commandCount
  cut := second.cut.trans first.cut
  translated := second.translated.trans first.translated
  finished := second.finished.trans first.finished
  handed := second.handed.trans first.handed
  fixed := fun tag => (second.fixed tag).trans (first.fixed tag)

theorem workload_eq (same : SameWork engine engine') : engine'.workload = engine.workload := by
  have writes : engine'.evictionWrites = engine.evictionWrites := by
    unfold evictionWrites
    rw [same.handed]
    apply List.filterMap_congr
    intro tag _
    exact evictionSlot_of_fixed (same.fixed tag)
  unfold workload
  rw [same.slices, same.commandCount, same.cut, same.translated, same.finished, writes]

variable [DecidableEq Tag]

theorem putTo (engine : Engine Tag) (which : ReqQueueType) (tag : Tag) :
    SameWork engine (engine.putTo which tag) :=
  ⟨rfl, rfl, rfl, rfl, rfl, rfl, fixed_putTo engine which tag⟩

theorem takeFrom (engine : Engine Tag) (which : ReqQueueType) (tag : Tag) :
    SameWork engine (engine.takeFrom which tag) :=
  ⟨rfl, rfl, rfl, rfl, rfl, rfl, fixed_takeFrom engine which tag⟩

theorem unlink (engine : Engine Tag) (tag : Tag) : SameWork engine (engine.unlink tag) :=
  ⟨rfl, rfl, rfl, rfl, rfl, rfl, fixed_unlinked engine tag⟩

theorem issueTo (engine : Engine Tag) (direction : Direction) (ref : BufferRef) (tag : Tag) :
    SameWork engine (engine.issueTo direction ref tag) :=
  ⟨rfl, rfl, rfl, rfl, rfl, rfl, fixed_issueTo engine direction ref tag⟩

theorem issueNvmeDmaReq (issued : engine.issueNvmeDmaReq tag = some engine') :
    SameWork engine engine' := by
  obtain ⟨direction, ref, _, _, ⟨_, rfl⟩ | ⟨_, _, rfl⟩⟩ := issueNvmeDmaReq_eq_some issued
  · exact .refl _
  · exact .issueTo engine direction ref tag

theorem putToLowLevelReqQ (put : engine.putToLowLevelReqQ tag pass = some engine') :
    SameWork engine engine' := by
  unfold Engine.putToLowLevelReqQ at put
  split at put
  · obtain ⟨issued, issue, rfl⟩ := Option.map_eq_some_iff.1 put
    have first := issueNvmeDmaReq issue
    split
    · exact first.trans (.putTo issued .customCmd tag)
    · exact first.trans (.putTo issued .nvmeDma tag)
  · cases put
    split
    · exact .putTo engine .nand tag
    · exact .putTo engine .blockedByRowAddrDep tag
  · cases put

theorem selectLowLevelReqQ (selected : engine.selectLowLevelReqQ tag pass = some engine') :
    SameWork engine engine' := by
  unfold Engine.selectLowLevelReqQ at selected
  split at selected
  · exact putToLowLevelReqQ selected
  · cases selected
    exact .putTo engine .blockedByBufDep tag

theorem releaseBlockedByBufDepReq
    (released : engine.releaseBlockedByBufDepReq tag pass = some engine') :
    SameWork engine engine' := by
  unfold Engine.releaseBlockedByBufDepReq Engine.releaseTarget at released
  split at released
  · cases released
    exact .unlink engine tag
  next target _ =>
    split at released
    · exact ((SameWork.unlink engine tag).trans (.takeFrom _ .blockedByBufDep target)).trans
        (putToLowLevelReqQ released)
    · cases released
      exact .unlink engine tag

theorem selectiveGetFromNvmeDmaReqQ
    (removed : engine.selectiveGetFromNvmeDmaReqQ tag pass = some engine') :
    SameWork (engine.markFinished tag) engine' :=
  ((SameWork.takeFrom _ .nvmeDma tag).trans (.putTo _ .free tag)).trans
    (.releaseBlockedByBufDepReq removed)

theorem selectiveGetFromCustomCmdReqQ
    (removed : engine.selectiveGetFromCustomCmdReqQ tag pass = some engine') :
    SameWork ((engine.markFinished tag).completeForCustomIoCmd tag) engine' :=
  ((SameWork.takeFrom _ .customCmd tag).trans (.putTo _ .free tag)).trans
    (.releaseBlockedByBufDepReq removed)

end SameWork

theorem cut_eq_length (tracks : Tracks engine none) (none_left : engine.stage.uncut = []) :
    engine.cut = engine.slices.length := by
  apply Nat.le_antisymm tracks.cut_le
  rw [← List.drop_eq_nil_iff, ← tracks.uncut]
  exact none_left

theorem evictionSlot_fillGc (request : Request Tag) (gc : GcRequest) :
    (request.fillGc gc).evictionSlot = none := by
  cases gc <;> rfl

variable [DecidableEq Tag]

section

variable (keeps : Keeps engine engine')
include keeps

/-- The eviction writes among the requests handed over before stay. -/
theorem filterMap_kept :
    (engine.handed.filterMap fun tag => (engine'.pool tag).evictionSlot) =
      engine.evictionWrites := by
  apply List.filterMap_congr
  intro tag listed
  exact evictionSlot_of_fixed (keeps.fixed tag listed)

theorem evictionWrites_kept (handed : engine'.handed = engine.handed) :
    engine'.evictionWrites = engine.evictionWrites := by
  rw [evictionWrites, handed]
  exact filterMap_kept keeps

theorem evictionWrites_append {new : Tag} (handed : engine'.handed = engine.handed ++ [new]) :
    engine'.evictionWrites =
      engine.evictionWrites ++ (engine'.pool new).evictionSlot.toList := by
  rw [evictionWrites, handed, List.filterMap_append, filterMap_kept keeps]
  cases slot : (engine'.pool new).evictionSlot with
  | none => simp [slot]
  | some cmdSlotTag => simp [slot]

theorem evictionWrites_other {new : Tag} (handed : engine'.handed = engine.handed ++ [new])
    (other : (engine'.pool new).evictionSlot = none) :
    engine'.evictionWrites = engine.evictionWrites := by
  rw [evictionWrites_append keeps handed, other, Option.toList_none, List.append_nil]

/-- The ledger of the commands and the requests handed over stay. -/
theorem workload_kept (handed : engine'.handed = engine.handed)
    (ledger : engine'.ledger = engine.ledger) (cut : engine'.cut = engine.cut) :
    engine'.workload = engine.workload := by
  have slices : engine'.slices = engine.slices := congrArg Ledger.slices ledger
  have commandCount : engine'.commandCount = engine.commandCount :=
    congrArg Ledger.commandCount ledger
  have translated : engine'.translated = engine.translated := congrArg Ledger.translated ledger
  have finished : engine'.finished = engine.finished := congrArg Ledger.finished ledger
  unfold workload
  rw [evictionWrites_kept keeps handed, slices, commandCount, translated, finished, cut]

end

theorem workload_prepareGc {stage : Stage Tag} {gc : GcRequest} {new : Tag}
    (keeps : Keeps engine ({ engine with stage := stage }.prepareGc gc new)) :
    ({ engine with stage := stage }.prepareGc gc new).workload = engine.workload := by
  have writes := evictionWrites_other keeps (handed_prepareGc _ gc new)
    ((evictionSlot_of_fixed (fixed_prepareGc_new _ gc new)).trans (evictionSlot_fillGc _ gc))
  unfold workload
  rw [writes]
  unfold Engine.prepareGc
  split <;> rfl

theorem workload_prepareFetch {origin read : Tag} {ref : BufferRef}
    (keeps : Keeps engine (engine.prepareFetch origin read ref)) :
    (engine.prepareFetch origin read ref).workload = engine.workload := by
  have other : ((engine.prepareFetch origin read ref).pool read).evictionSlot = none := by
    rw [Request.evictionSlot, reqCode_prepareFetch]
    simp
  have writes := evictionWrites_other keeps rfl other
  unfold workload
  rw [writes]
  rfl

theorem workload_makeDma (sound : Sound engine none) {ref : BufferRef}
    (stage : engine.stage = .finishing tag) (keeps : Keeps engine (engine.makeDma tag ref)) :
    Workload.Step .nothing engine.workload (engine.makeDma tag ref).workload := by
  have other : ((engine.makeDma tag ref).pool tag).evictionSlot = none := by
    rw [Request.evictionSlot, reqType_makeDma]
    rfl
  have writes := evictionWrites_other keeps rfl other
  have made : (engine.makeDma tag ref).workload =
      { engine.workload with translated := engine.workload.translated + 1 } := by
    unfold workload
    rw [writes]
    rfl
  rw [made]
  exact .translate (cut_eq_length sound.tracks (by rw [stage]; rfl))

/-- The request that is being translated has an entry of one of the two buffers. -/
def Targets (engine : Engine Tag) : Prop :=
  ∀ tag ref, engine.stage.current = some tag → (engine.pool tag).dataBuf = some ref →
    ref.kind ≠ .tempDataBuf

theorem Targets.move {allowed : Engine Tag → Event Tag → Prop} {before after : Moment Tag}
    (targets : before.engine.Targets) (queues : Queues before.engine before.inHand)
    (move : Move allowed before after) : after.engine.Targets := by
  intro tag ref current uses
  have dataBuf : ∀ {request request' : Request Tag}, request'.fixed = request.fixed →
      request'.dataBuf = request.dataBuf := fun same =>
    Request.field_of_fixed (·.dataBuf) (fun _ => rfl) same
  rcases aside_or_main move with aside | ⟨engine, rfl, _, main⟩
  · rw [aside.stage] at current
    rw [dataBuf (aside.fixed tag)] at uses
    exact targets tag ref current uses
  · rcases current_of_main main current with still | ⟨stage, target, map, rest, rfl, _, _, chosen⟩
    · rw [dataBuf (fixed_of_current queues main still current)] at uses
      exact targets tag ref still uses
    · rw [(pool_takeSlice engine tag stage target map).1] at uses
      cases Option.some.inj uses
      rcases chosen with ⟨_, _, hit⟩ | miss
      · exact kind_of_checkHit hit
      · rw [miss]
        exact missKind_ne _

theorem workload_prepareWriteBack {origin write : Tag} {ref : BufferRef} {lsa : Nat}
    (kind : ref.kind ≠ .tempDataBuf)
    (keeps : Keeps engine (engine.prepareWriteBack origin write ref lsa)) :
    Workload.Step (.allocateNandReqCnt (engine.pool origin).nvmeCmdSlotTag) engine.workload
      (engine.prepareWriteBack origin write ref lsa).workload := by
  have slot : ((engine.prepareWriteBack origin write ref lsa).pool write).evictionSlot =
      some (engine.pool origin).nvmeCmdSlotTag := by
    refine (evictionSlot_of_fixed (fixed_linked _ ref write write)).trans ?_
    simp [Engine.modify, Request.fillNand, Request.evictionSlot, nandEntry, kind]
  have writes : (engine.prepareWriteBack origin write ref lsa).evictionWrites =
      engine.evictionWrites ++
        ((engine.prepareWriteBack origin write ref lsa).pool write).evictionSlot.toList :=
    evictionWrites_append keeps rfl
  rw [slot] at writes
  have made : (engine.prepareWriteBack origin write ref lsa).workload =
      { engine.workload with
        writes := engine.workload.writes ++ [(engine.pool origin).nvmeCmdSlotTag] } := by
    unfold workload
    rw [writes]
    rfl
  rw [made]
  exact .evict

theorem workload_advance {answer : FtlAnswer} (sound : Sound engine none)
    (targets : engine.Targets) (quiet : engine.poll = .idle)
    (advanced : engine.advance answer = some engine') :
    Workload.Step (engine.timeCall (.advance answer)) engine.workload engine'.workload := by
  have kept : ∀ {after : Moment Tag}, MainMove (fun _ _ => True) engine after →
      Keeps engine after.engine := fun move =>
    keeps_of_move sound.chains sound.queues sound.tracks (.main quiet move)
  -- a request that is handed over leaves the work as it is while it is selected
  have selected : ∀ {middle : Engine Tag} {tag : Tag} {pass : Bool} {call : TimeCall},
      middle.selectLowLevelReqQ tag pass = some engine' →
      Workload.Step call engine.workload middle.workload →
      Workload.Step call engine.workload engine'.workload := by
    intro middle tag pass call selects step
    rw [(SameWork.selectLowLevelReqQ selects).workload_eq]
    exact step
  unfold advance at advanced
  unfold timeCall
  split at advanced
  · cases advanced
  next slice rest stage =>
    unfold Engine.cutSlice at advanced
    split at advanced
    · cases advanced
    next tag free head =>
      cases advanced
      have writes := evictionWrites_kept (kept (.cutInto stage head)) rfl
      have next : engine.slices[engine.cut]? = some slice := by
        have uncut := sound.tracks.uncut
        rw [stage] at uncut
        rw [← List.head?_drop, ← uncut]
        rfl
      have made : (engine.cutInto slice rest tag).workload =
          { engine.workload with cut := engine.workload.cut + 1 } := by
        unfold workload
        rw [writes]
        rfl
      rw [stage, made]
      exact .cut next
  next stage =>
    cases advanced
    rw [stage]
    exact .quiet
  next stage =>
    rw [stage]
    unfold startTranslation at advanced
    split at advanced
    · cases advanced
      exact .quiet
    next tag rest head =>
      split at advanced
      next ref found =>
        cases advanced
        have move := @MainMove.hit Tag _ (fun _ _ => True) engine tag rest ref answer trivial
          stage head found
        rw [workload_kept (kept move) rfl rfl rfl]
        exact .quiet
      next absent =>
        obtain ⟨⟨entry, map⟩, allocated, rfl⟩ := Option.map_eq_some_iff.1 advanced
        rw [workload_kept (kept (.miss stage head absent rfl allocated)) rfl rfl rfl]
        exact .quiet
  next tag stage =>
    rw [stage]
    unfold startEviction at advanced
    split at advanced
    · cases advanced
    next ref uses =>
      split at advanced
      next dirty =>
        split at advanced
        next write free lsa head holds =>
          cases advanced
          rw [workload_kept (kept (.holdWriteSlot stage uses dirty holds head)) rfl rfl rfl]
          exact .quiet
        · cases advanced
      · cases advanced
        exact .quiet
  next tag write gc rest stage =>
    rw [stage]
    unfold collect at advanced
    split at advanced
    · cases advanced
    next new free head =>
      split at advanced
      · cases advanced
        rw [workload_prepareGc (kept (.prepareGcRead stage head))]
        exact .quiet
      · apply selected advanced
        rw [workload_prepareGc (kept (.prepareGc stage head))]
        exact .quiet
  next tag write stage =>
    rw [stage]
    unfold writeBack at advanced
    split at advanced
    · cases advanced
    next ref uses =>
      split at advanced
      · cases advanced
      next lsa holds =>
        apply selected advanced
        apply workload_prepareWriteBack
        · exact targets tag ref (by rw [stage]; rfl) uses
        · exact kept (.prepareWriteBack stage uses holds)
  next stage =>
    rw [stage]
    exact selected advanced .quiet
  next tag stage =>
    obtain ⟨ref, uses, rfl⟩ := Option.map_eq_some_iff.1 advanced
    rw [stage]
    exact .quiet
  next tag stage =>
    rw [stage]
    unfold fetch at advanced
    split at advanced
    next needed =>
      split at advanced
      next read free ref head uses =>
        cases advanced
        rw [workload_prepareFetch (kept (.prepareFetch stage uses needed head))]
        exact .quiet
      · cases advanced
    · cases advanced
      exact .quiet
  next stage =>
    rw [stage]
    exact selected advanced .quiet
  next tag stage =>
    rw [stage]
    unfold finishSlice at advanced
    split at advanced
    · cases advanced
    next ref uses =>
      apply selected advanced
      exact workload_makeDma sound stage (kept (.makeDma stage uses))

omit [DecidableEq Tag] in
theorem evictionSlot_of_dma {request : Request Tag} (dma : request.reqType = .nvmeDma) :
    request.evictionSlot = none := by
  rw [Request.evictionSlot, dma]
  rfl

/-- A request that is no eviction leaves the list of the requests handed over. -/
theorem filterMap_erase {Value : Type} (kind : Tag → Option Value) (other : kind tag = none)
    (tags : List Tag) : (tags.erase tag).filterMap kind = tags.filterMap kind := by
  induction tags with
  | nil => rfl
  | cons first rest ih =>
    by_cases same : first = tag
    · subst same
      rw [List.erase_cons_head, List.filterMap_cons_none other]
    · rw [List.erase_cons_tail (by simpa using same), List.filterMap_cons, List.filterMap_cons,
        ih]

structure Ended (engine : Engine Tag) (tag : Tag) (ended : Engine Tag) : Prop where
  slices : ended.slices = engine.slices
  commandCount : ended.commandCount = engine.commandCount
  cut : ended.cut = engine.cut
  translated : ended.translated = engine.translated
  finished : ended.finished = (engine.pool tag).sliceNo :: engine.finished
  handed : ended.handed = engine.handed.erase tag
  pool : ended.pool = engine.pool

section

variable (sound : Sound engine none)
include sound

theorem workload_ended (live : engine.Live none tag)
    {ended : Engine Tag} (end' : Ended engine tag ended) (same : SameWork ended engine') :
    Workload.Step (.nvmeDmaEnd (engine.pool tag).nvmeCmdSlotTag (engine.commandOf tag))
      engine.workload engine'.workload := by
  obtain ⟨outstanding, slice, found, carries, _⟩ := sound.tracks.live tag live
  obtain ⟨counted, unfinished⟩ := Ledger.mem_outstanding.1 outstanding
  have command : engine.commandOf tag = slice.command := by
    rw [commandOf, found]
    rfl
  have writes : ended.evictionWrites = engine.evictionWrites := by
    unfold evictionWrites
    rw [end'.handed, end'.pool]
    apply filterMap_erase fun tag => (engine.pool tag).evictionSlot
    exact evictionSlot_of_dma live.1
  have made : ended.workload =
      { engine.workload with
        finished := (engine.pool tag).sliceNo :: engine.workload.finished } := by
    unfold workload
    rw [end'.slices, end'.commandCount, end'.cut, end'.translated, end'.finished, writes]
  rw [same.workload_eq, made, command, carries.slot]
  exact .finish found counted unfinished

theorem workload_visitNvmeDma {rest : List Tag}
    {done : Direction → Bool} (walk : engine.poll = .nvmeDma (tag :: rest) done)
    (visited : engine.visitNvmeDma tag rest done pass = some engine') :
    Workload.Step (engine.timeCall (.visit pass)) engine.workload engine'.workload := by
  have queued := sound.queues.mem_iff.1 (sound.queues.visited_mem (by rw [walk]; rfl))
  have live : engine.Live none tag :=
    ⟨(sound.tracks.nvmeDmaQueue tag queued).1, .inr (.inl queued)⟩
  have removed : engine.removedByVisit = if engine.answered tag done then some tag else none := by
    rw [removedByVisit, walk]
  unfold visitNvmeDma at visited
  dsimp only at visited
  unfold timeCall
  rw [removed]
  split at visited
  next answer =>
    rw [if_pos (show engine.answered tag done = true from answer)]
    refine workload_ended sound live ?_ (.selectiveGetFromNvmeDmaReqQ visited)
    exact ⟨rfl, rfl, rfl, rfl, rfl, rfl, rfl⟩
  next answer =>
    cases visited
    rw [if_neg (show ¬engine.answered tag done = true from answer)]
    exact .quiet

theorem workload_visitCustomCmd {rest : List Tag}
    {done : Direction → Bool} (walk : engine.poll = .customCmd (tag :: rest) done)
    (visited : engine.visitCustomCmd tag rest done pass = some engine') :
    Workload.Step (engine.timeCall (.visit pass)) engine.workload engine'.workload := by
  have queued := sound.queues.mem_iff.1 (sound.queues.visited_mem (by rw [walk]; rfl))
  have live : engine.Live none tag :=
    ⟨(sound.tracks.customQueue tag queued).1, .inr (.inr (.inl queued))⟩
  have removed : engine.removedByVisit =
      if ((engine.pool tag).reqCode = .rxDma ∨
          (engine.customIoCmd (engine.pool tag).nvmeCmdSlotTag).notCompletedRxCount = 0) ∧
          (engine.pool tag).issuedFlag = true ∧ engine.answered tag done = true then
        some tag
      else none := by
    rw [removedByVisit, walk]
  -- the two directions share the rest of the visit
  have shared : ((engine.pool tag).reqCode = .rxDma ∨
        (engine.customIoCmd (engine.pool tag).nvmeCmdSlotTag).notCompletedRxCount = 0) →
      engine.visitCustomCmdRequest tag rest done (engine.pool tag).walkDirection pass =
        some engine' →
      Workload.Step (engine.timeCall (.visit pass)) engine.workload engine'.workload := by
    intro able visited
    unfold visitCustomCmdRequest at visited
    dsimp only at visited
    unfold timeCall
    rw [removed]
    split at visited
    next issued =>
      split at visited
      next answer =>
        rw [if_pos ⟨able, issued, answer⟩]
        refine workload_ended sound live ?_ (.selectiveGetFromCustomCmdReqQ visited)
        exact ⟨rfl, rfl, rfl, rfl, rfl, rfl, rfl⟩
      next answer =>
        cases visited
        rw [if_neg fun all => answer all.2.2]
        exact .quiet
    next waiting =>
      rw [if_neg fun all => waiting all.2.1]
      have same : SameWork { engine with poll := .customCmd rest done } engine' := by
        split at visited
        · exact .issueNvmeDmaReq visited
        · exact .releaseBlockedByBufDepReq visited
      rw [same.workload_eq]
      exact .quiet
  unfold visitCustomCmd at visited
  dsimp only at visited
  split at visited
  next rx =>
    apply shared (.inl rx)
    rw [Request.walkDirection, if_pos rx]
    exact visited
  next tx =>
    split at visited
    next noRx =>
      apply shared (.inr noRx)
      rw [Request.walkDirection, if_neg tx]
      exact visited
    next counted =>
      cases visited
      unfold timeCall
      rw [removed, if_neg fun all => all.1.elim tx counted]
      exact .quiet

theorem workload_visit (visited : engine.visit pass = some engine') :
    Workload.Step (engine.timeCall (.visit pass)) engine.workload engine'.workload := by
  unfold visit at visited
  split at visited
  next walk => exact workload_visitNvmeDma sound walk visited
  next walk =>
    cases visited
    rw [timeCall, removedByVisit, walk]
    exact .quiet
  next walk => exact workload_visitCustomCmd sound walk visited
  next walk =>
    cases visited
    rw [timeCall, removedByVisit, walk]
    exact .quiet
  · cases visited

theorem workload_nandDone (done : engine.selectiveGetFromNandReqQ tag pass = some engine') :
    Workload.Step (engine.timeCall (.nandDone tag pass)) engine.workload engine'.workload := by
  unfold selectiveGetFromNandReqQ at done
  split at done
  next queued =>
    have listed : tag ∈ engine.handed := by
      rw [sound.chains.outstanding]
      exact .inl ⟨_, sound.queues.mem_iff.1 queued, by decide, by decide⟩
    have same : SameWork { engine with handed := engine.handed.erase tag } engine' := by
      have dropped : SameWork { engine with handed := engine.handed.erase tag }
          (engine.dropNand tag) := by
        refine ⟨rfl, rfl, rfl, rfl, rfl, rfl, ?_⟩
        intro other
        exact (fixed_putTo _ .free tag other).trans (fixed_takeFrom _ .nand tag other)
      exact dropped.trans (.releaseBlockedByBufDepReq done)
    have call : engine.timeCall (.nandDone tag pass) =
        if (engine.pool tag).reqCode = .write then
          .nandReqEnd (engine.pool tag).nvmeCmdSlotTag (engine.pool tag).evictionSlot.isSome
        else .nothing := rfl
    rw [same.workload_eq, call]
    cases evicts : (engine.pool tag).evictionSlot with
    | none =>
      have still : { engine with handed := engine.handed.erase tag }.workload =
          engine.workload := by
        unfold workload evictionWrites
        rw [filterMap_erase (fun tag => (engine.pool tag).evictionSlot) evicts]
      rw [still]
      split
      · exact .collected
      · exact .quiet
    | some cmdSlotTag =>
      have eviction : (engine.pool tag).reqCode = .write ∧
          (engine.pool tag).nvmeCmdSlotTag = cmdSlotTag := by
        unfold Request.evictionSlot at evicts
        split at evicts
        next write => exact ⟨write.2.1, Option.some.inj evicts⟩
        · cases evicts
      rw [if_pos eviction.1, eviction.2]
      apply Workload.Step.evicted
      have perm := (List.perm_cons_erase listed).filterMap
        fun tag => (engine.pool tag).evictionSlot
      rw [List.filterMap_cons, evicts] at perm
      exact perm
  · cases done

/-- Every step of the engine is a step of its work, with the call that it makes. -/
theorem workload_step (targets : engine.Targets) {event : Event Tag}
    (taken : engine.step event = some engine') :
    Workload.Step (engine.timeCall event) engine.workload engine'.workload := by
  unfold step at taken
  split at taken
  · obtain ⟨command, _, rfl⟩ := Option.map_eq_some_iff.1 taken
    exact .quiet
  · split at taken
    next cmd _ quiet =>
      unfold accept at taken
      split at taken
      next idle =>
        split at taken
        · cases taken
          exact .accept (cut_eq_length sound.tracks (by rw [idle]; rfl))
        · cases taken
      · cases taken
    · cases taken
  · split at taken
    next quiet => exact workload_advance sound targets quiet taken
    · cases taken
  · split at taken
    · split at taken
      · cases taken
        exact .quiet
      · cases taken
    · cases taken
  · exact workload_visit sound taken
  · split at taken
    · exact workload_nandDone sound taken
    · cases taken
  · split at taken
    next tag _ _ =>
      unfold releaseBlockedByRowAddrDepReq at taken
      split at taken
      · cases taken
        have same := (SameWork.takeFrom engine .blockedByRowAddrDep tag).trans
          (.putTo _ .nand tag)
        rw [same.workload_eq]
        exact .quiet
      · cases taken
    · cases taken
  · split at taken
    · cases taken
      exact .quiet
    · cases taken

end

omit [DecidableEq Tag] in
theorem exists_request (tracks : Tracks engine none) {sliceNo : Nat}
    (isOpen : sliceNo ∈ engine.workload.openSlices) :
    ∃ tag, (engine.pool tag).sliceNo = sliceNo := by
  obtain ⟨below, unfinished⟩ := Workload.mem_openSlices.1 isOpen
  rcases Nat.lt_or_ge sliceNo engine.translated with counted | waits
  · obtain ⟨tag, _, number⟩ := tracks.accounted sliceNo
      (Ledger.mem_outstanding.2 ⟨counted, unfinished⟩)
    exact ⟨tag, number⟩
  · have listed : sliceNo ∈
        List.range' engine.translated (engine.cut - engine.translated) := by
      have bound : sliceNo < engine.cut := below
      rw [List.mem_range'_1]
      omega
    rw [← tracks.numbers, List.mem_map] at listed
    obtain ⟨tag, _, number⟩ := listed
    exact ⟨tag, number⟩

end Engine

namespace TimedEngine

variable {config : Config}

/-- The work of the engine is well formed; each open slice and each eviction write has a slot
of the request pool. -/
theorem wellFormed_workload {engine : Engine config.Tag} (sound : engine.Sound none) :
    engine.workload.WellFormed where
  finished_lt := sound.balanced.finished_lt
  translated_le := sound.tracks.translated_le
  cut_le := sound.tracks.cut_le
  known := sound.balanced.known
  sameSlot := fun _ _ _ _ found foundOther same =>
    (sound.balanced.same_slot found foundOther same).1
  fewSlots := by
    have numbered : engine.workload.openSlices ⊆
        (List.finRange config.poolSize).map fun tag => (engine.pool tag).sliceNo := by
      intro sliceNo isOpen
      obtain ⟨tag, number⟩ := Engine.exists_request sound.tracks isOpen
      exact List.mem_map.2 ⟨tag, List.mem_finRange tag, number⟩
    have nodup : engine.workload.openSlices.Nodup := List.nodup_range.filter _
    calc engine.workload.openSlots.length
        ≤ engine.workload.openSlices.length := List.length_filterMap_le _ _
      _ ≤ ((List.finRange config.poolSize).map fun tag => (engine.pool tag).sliceNo).length :=
          (nodup.subperm numbered).length_le
      _ = config.poolSize := by rw [List.length_map, List.length_finRange]
      _ < 2 ^ 32 := config.poolSize_lt.trans (Nat.pow_lt_pow_right (by decide) (by decide))
  fewWrites := by
    have nodup : engine.handed.Nodup := sound.chains.chained.nodup
    calc engine.evictionWrites.length
        ≤ engine.handed.length := List.length_filterMap_le _ _
      _ ≤ (List.finRange config.poolSize).length :=
          (nodup.subperm fun tag _ => List.mem_finRange tag).length_le
      _ = config.poolSize := List.length_finRange
      _ < 2 ^ 32 := config.poolSize_lt.trans (Nat.pow_lt_pow_right (by decide) (by decide))

/-- The state after `InitHostReqTimeTable`. -/
def initial (config : Config) : TimedEngine config.Tag where
  engine := config.initial
  table := ⟨fun _ => .init, 0, []⟩

structure Invariant (timed : TimedEngine config.Tag) : Prop where
  sound : timed.engine.Sound none
  targets : timed.engine.Targets
  accurate : timed.table.Accurate timed.engine.workload

theorem initial_invariant (config : Config) : (initial config).Invariant where
  sound := config.initial_sound
  targets := by
    intro tag ref current
    cases current
  accurate := by
    refine ⟨⟨fun _ => rfl, fun _ => rfl, ?_, ?_⟩, fun _ => rfl, ?_, ?_, ?_⟩
    · intro command known
      exact absurd known (Nat.not_lt_zero command)
    · intro command _
      rfl
    · intro record listed
      cases listed
    · intro sliceNo isOpen
      cases isOpen
    · intro first second slice other translated
      exact absurd translated (Nat.not_lt_zero first)

theorem Invariant.step {timed timed' : TimedEngine config.Tag} (invariant : timed.Invariant)
    {happening : Event config.Tag × Nat} (careful : timed.Careful happening)
    (taken : timed.step happening = some timed') : timed'.Invariant := by
  obtain ⟨engine', stepped, rfl⟩ := Option.map_eq_some_iff.1 taken
  have moves : Moves (fun _ _ => True) ⟨timed.engine, none⟩ ⟨engine', none⟩ :=
    Engine.moves_step trivial stepped
  have kept : engine'.Sound none ∧ engine'.Targets := by
    refine run_invariant
      (fun moment : Moment config.Tag =>
        moment.engine.Sound moment.inHand ∧ moment.engine.Targets)
      ⟨invariant.sound, invariant.targets⟩ ?_ moves
    rintro before after ⟨sound, targets⟩ move
    exact ⟨sound.move move, targets.move sound.queues move⟩
  refine ⟨kept.1, kept.2, ?_⟩
  exact invariant.accurate.step (wellFormed_workload invariant.sound) happening.2
    (Engine.workload_step invariant.sound invariant.targets stepped)
    (wellFormed_workload kept.1) careful

end TimedEngine

/-- Along every run in which a slice is cut only into a slot without open work of another
command, the table is initialised only when no other request is open, and no garbage
collection write ends: the counters of the timing table are the numbers of the requests not
completed, neither is taken down from zero, and the end time of a command is recorded exactly
once, in the step in which its last DMA request is removed. -/
theorem hostTime_counters_exact (config : Config) (timed : TimedEngine config.Tag)
    (run : Relation.ReflTransGen (Fallible.EventStep TimedEngine.step TimedEngine.Careful)
      (TimedEngine.initial config) timed) :
    timed.table.Exact timed.engine.workload ∧
      ∀ happening timed', timed.Careful happening → timed.step happening = some timed' →
        timed.table.CountsDown (timed.engine.timeCall happening.1) := by
  have invariant : timed.Invariant := by
    refine run_invariant TimedEngine.Invariant (TimedEngine.initial_invariant config)
      ?_ run
    rintro before after invariant ⟨happening, careful, taken⟩
    exact invariant.step careful taken
  refine ⟨invariant.accurate.toExact, ?_⟩
  intro happening timed' careful taken
  obtain ⟨engine', stepped, _⟩ := Option.map_eq_some_iff.1 taken
  exact invariant.accurate.toExact.countsDown
    (TimedEngine.wellFormed_workload invariant.sound)
    (Engine.workload_step invariant.sound invariant.targets stepped) careful

/-- A read, a write of the same slice that waits behind it, and a read that evicts the entry;
then the first read is sent and its request is removed. -/
def evictionEvents {Tag : Type} : List (Event Tag) :=
  hitRBufEvents ++ List.replicate 5 (.advance ⟨[], true⟩) ++ List.replicate 4 (.serve .tx) ++
    [.startPoll, .visit true]

theorem evictionEvents_run :
    (runAllowed TimedEngine.step TimedEngine.Careful evictionEvents.zipIdx
      (TimedEngine.initial .oneDie)).isSome = true := by
  decide

def evictionTimed : TimedEngine Config.oneDie.Tag :=
  (runAllowed TimedEngine.step TimedEngine.Careful evictionEvents.zipIdx
    (TimedEngine.initial .oneDie)).get evictionEvents_run

/-- The write and the second read are open, the eviction is counted for the second read, and
the first read is recorded. -/
theorem hostTime_counters_exact_eviction :
    evictionTimed.engine.workload.openSlots = [1, 2] ∧
      evictionTimed.engine.workload.writes = [2] ∧
      evictionTimed.table.ends.map EndRecord.command = [0] ∧
      evictionTimed.table.Exact evictionTimed.engine.workload := by
  have reached : Relation.ReflTransGen
      (EventStep TimedEngine.step TimedEngine.Careful) (TimedEngine.initial .oneDie)
      evictionTimed :=
    reaches_of_runAllowed _ (Option.some_get evictionEvents_run).symm
  refine ⟨by decide, by decide, by decide, ?_⟩
  exact (hostTime_counters_exact _ _ reached).1

/-- The same commands, with the answers of the FTL after writes by slot 0, now complete, that
filled every block of the die but the reserved one and overwrote all slices but one of some
block: the eviction starts a garbage collection that moves this slice, and its read ended. -/
def movedSliceEvents : List (Event Config.oneDie.Tag) :=
  .command (.read 0 0 3) :: List.replicate 8 (.advance ⟨[], true⟩) ++
    .command (.write 1 0 3) :: List.replicate 5 (.advance ⟨[], true⟩) ++
    .command (.read 2 4 3) :: List.replicate 3 (.advance ⟨[], true⟩) ++
    .advance ⟨[.read 0, .write 0, .erase], true⟩ :: List.replicate 9 (.advance ⟨[], true⟩) ++
    [.startPoll, .visit true, .visit true, .visit true, .nandDone ⟨4, by decide⟩ true]

theorem movedSliceEvents_run :
    (runEvents TimedEngine.step movedSliceEvents.zipIdx
      (TimedEngine.initial .oneDie)).isSome = true := by
  decide

def movedSliceTimed : TimedEngine Config.oneDie.Tag :=
  (runEvents TimedEngine.step movedSliceEvents.zipIdx
    (TimedEngine.initial .oneDie)).get movedSliceEvents_run

/-- The write of the garbage collection takes down the counter of slot 0, which is zero: no
eviction was made for this slot. -/
theorem collection_counts_below_zero :
    Relation.ReflTransGen (Fallible.EventStep TimedEngine.step fun _ _ => True)
        (TimedEngine.initial .oneDie) movedSliceTimed ∧
      (movedSliceTimed.table.entry 0).nandReqCnt = 0 ∧
      ∃ timed', movedSliceTimed.step (.nandDone ⟨5, by decide⟩ true, 40) = some timed' ∧
        (timed'.table.entry 0).nandReqCnt = 2 ^ 32 - 1 ∧
        timed'.engine.workload.writes.count 0 = 0 ∧
        ¬timed'.table.Exact timed'.engine.workload := by
  refine ⟨?_, by decide, ?_⟩
  · exact reaches_of_runEvents _ (fun _ _ _ => trivial)
      (Option.some_get movedSliceEvents_run).symm
  · refine ⟨(movedSliceTimed.step (.nandDone ⟨5, by decide⟩ true, 40)).get (by decide),
      (Option.some_get _).symm, by decide, by decide, ?_⟩
    intro exact
    have counted := exact.nandReqCnt 0
    revert counted
    decide

end RwRbuf.Firmware.Requests
