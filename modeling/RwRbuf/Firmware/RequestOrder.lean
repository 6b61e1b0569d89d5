import RwRbuf.Firmware.RequestChains
import RwRbuf.Firmware.RequestLedgerMoves

/-! # The order of the requests

The requests are handed to `SelectLowLevelReqQ` one after another, and an outstanding request
keeps its kind, its slice and its command until it is removed.  The DMA requests among them
are in the order of their slices.
-/

namespace RwRbuf.Firmware.Requests

open Function

variable {Tag : Type}

namespace Request

def fixed (request : Request Tag) : Request Tag :=
  { request.core with
    reqQueueType := none
    issuedFlag := false
    dmaTail := 0 }

theorem field_of_fixed {Value : Type} (field : Request Tag → Value)
    (blind : ∀ request, field request.fixed = field request) {request request' : Request Tag}
    (same : request'.fixed = request.fixed) : field request' = field request := by
  rw [← blind request', same, blind]

theorem base_of_fixed {request request' : Request Tag} (same : request'.fixed = request.fixed) :
    request'.base = request.base :=
  field_of_fixed Request.base (by rintro ⟨⟩; rfl) same

end Request

variable [DecidableEq Tag]

namespace Engine

variable {engine engine' : Engine Tag} {inHand : Option Tag} {tag : Tag}

inductive Handover (engine engine' : Engine Tag) : Prop
  | same (handed : engine'.handed = engine.handed)
  | nand (new : Tag) (fresh : new ∉ engine.handed)
      (handed : engine'.handed = engine.handed ++ [new])
      (type : (engine'.pool new).reqType = .nand)
  | dma (new : Tag) (fresh : new ∉ engine.handed)
      (handed : engine'.handed = engine.handed ++ [new])
      (type : (engine'.pool new).reqType = .nvmeDma)
      (sliceNo : (engine'.pool new).sliceNo = engine.translated)
      (translated : engine'.translated = engine.translated + 1)
  | removed (old : Tag) (handed : engine'.handed = engine.handed.erase old)

/-- The requests handed over before keep everything but their links, their DMA record and
their queue. -/
structure Keeps (engine engine' : Engine Tag) : Prop where
  handover : Handover engine engine'
  fixed : ∀ tag ∈ engine.handed, (engine'.pool tag).fixed = (engine.pool tag).fixed
  translated : engine.translated ≤ engine'.translated

theorem fixed_update {pool : Tag → Request Tag} {value : Request Tag}
    (same : value.fixed = (pool tag).fixed) (other : Tag) :
    (update pool tag value other).fixed = (pool other).fixed := by
  by_cases which : other = tag
  · subst which
    simpa using same
  · simp [which]

theorem fixed_putTo (engine : Engine Tag) (which : ReqQueueType) (tag other : Tag) :
    ((engine.putTo which tag).pool other).fixed = (engine.pool other).fixed :=
  fixed_update (by rfl) other

theorem fixed_takeFrom (engine : Engine Tag) (which : ReqQueueType) (tag other : Tag) :
    ((engine.takeFrom which tag).pool other).fixed = (engine.pool other).fixed :=
  fixed_update (by rfl) other

theorem fixed_issueTo (engine : Engine Tag) (direction : Direction) (ref : BufferRef)
    (tag other : Tag) :
    ((engine.issueTo direction ref tag).pool other).fixed = (engine.pool other).fixed :=
  fixed_update (by rfl) other

theorem fixed_linked (engine : Engine Tag) (ref : BufferRef) (tag other : Tag) :
    ((engine.updateEntryInfoBlockingReq ref tag).pool other).fixed = (engine.pool other).fixed :=
  field_linkPool Request.fixed (fun _ => rfl) _ _ tag other

theorem fixed_unlinked (engine : Engine Tag) (tag other : Tag) :
    ((engine.unlink tag).pool other).fixed = (engine.pool other).fixed :=
  field_unlinkPool Request.fixed (fun _ => rfl) _ tag other

theorem fixed_modify (engine : Engine Tag) (change : Request Tag → Request Tag) (tag : Tag)
    {other : Tag} (different : other ≠ tag) :
    ((engine.modify tag change).pool other).fixed = (engine.pool other).fixed := by
  simp [Engine.modify, different]

theorem fixed_dropped (engine : Engine Tag) (which : ReqQueueType) (tag other : Tag) :
    ((((engine.takeFrom which tag).putTo .free tag).unlink tag).pool other).fixed =
      (engine.pool other).fixed := by
  rw [fixed_unlinked, fixed_putTo, fixed_takeFrom]

theorem fixed_release (engine : Engine Tag) (target : Option Tag) (tag : Tag) :
    ((Moment.release engine target).engine.pool tag).fixed = (engine.pool tag).fixed :=
  Moment.release_cases (fun after _ => (after.pool tag).fixed = (engine.pool tag).fixed) rfl
    fun other _ _ => fixed_takeFrom engine .blockedByBufDep other tag

theorem handed_release (engine : Engine Tag) (target : Option Tag) :
    (Moment.release engine target).engine.handed = engine.handed ∧
      (Moment.release engine target).engine.translated = engine.translated :=
  Moment.release_cases
    (fun after _ => after.handed = engine.handed ∧ after.translated = engine.translated)
    ⟨rfl, rfl⟩ fun _ _ _ => ⟨rfl, rfl⟩

namespace Keeps

/-- The requests keep what they carry, and the list of those handed over stays. -/
theorem of_fixed (fixed : ∀ tag, (engine'.pool tag).fixed = (engine.pool tag).fixed)
    (handed : engine'.handed = engine.handed)
    (translated : engine'.translated = engine.translated) : Keeps engine engine' where
  handover := .same handed
  fixed := fun tag _ => fixed tag
  translated := translated.ge

theorem of_pool (pool : engine'.pool = engine.pool) (handed : engine'.handed = engine.handed)
    (translated : engine'.translated = engine.translated) : Keeps engine engine' :=
  .of_fixed (fun _ => by rw [pool]) handed translated

section

variable {new : Tag} (fresh : new ∉ engine.handed)
  (fixed : ∀ other ≠ new, (engine'.pool other).fixed = (engine.pool other).fixed)
include fresh fixed

theorem of_fresh (handed : engine'.handed = engine.handed)
    (translated : engine'.translated = engine.translated) : Keeps engine engine' where
  handover := .same handed
  fixed := by
    intro tag listed
    apply fixed
    rintro rfl
    exact fresh listed
  translated := translated.ge

/-- One request that is not handed over is filled and handed over. -/
theorem of_append (handed : engine'.handed = engine.handed ++ [new])
    (type : (engine'.pool new).reqType = .nand)
    (translated : engine'.translated = engine.translated) : Keeps engine engine' where
  handover := .nand new fresh handed type
  fixed := by
    intro tag listed
    apply fixed
    rintro rfl
    exact fresh listed
  translated := translated.ge

end

/-- A request is removed and its successor is released.  The engine `ended` is the one in
which the end of the request was recorded. -/
theorem of_drop {ended : Engine Tag} (handed : ended.handed = engine.handed.erase tag)
    (pool : ended.pool = engine.pool) (translated : ended.translated = engine.translated)
    (which : ReqQueueType) (target : Option Tag) :
    Keeps engine
      (Moment.release (((ended.takeFrom which tag).putTo .free tag).unlink tag)
        target).engine := by
  obtain ⟨listed, same⟩ :=
    handed_release (((ended.takeFrom which tag).putTo .free tag).unlink tag) target
  refine ⟨.removed tag (listed.trans handed), ?_, (same.trans translated).ge⟩
  intro other _
  rw [fixed_release, fixed_dropped, pool]

theorem prepareGc {stage : Stage Tag} {gc : GcRequest} {new : Tag} (fresh : new ∉ engine.handed) :
    Keeps engine ({ engine with stage := stage }.prepareGc gc new) := by
  let filled := ({ engine with
    stage := stage
    handed := engine.handed ++ [new] }.takeFrom .free new).modify new (·.fillGc gc)
  have fixed : ∀ other ≠ new, (filled.pool other).fixed = (engine.pool other).fixed := by
    intro other different
    exact (fixed_modify _ _ _ different).trans (fixed_takeFrom _ _ _ _)
  have type : (filled.pool new).reqType = .nand := by
    simp [filled, Engine.modify, Request.fillGc]
  unfold Engine.prepareGc
  cases gc.dataBuf with
  | none => exact .of_append fresh fixed rfl type rfl
  | some ref =>
    have linked := fixed_linked filled ref new
    refine .of_append fresh ?_ rfl ?_ rfl
    · intro other different
      exact (linked other).trans (fixed other different)
    · exact (Tracks.type_of_base (Request.base_of_fixed (linked new))).trans type

end Keeps

variable {allowed : Engine Tag → Event Tag → Prop}

theorem keeps_of_move {before after : Moment Tag}
    (chains : Chains before.engine before.inHand) (queues : Queues before.engine before.inHand)
    (tracks : Tracks before.engine before.inHand) (move : Move allowed before after) :
    Keeps before.engine after.engine := by
  have fresh_of_free : ∀ {new : Tag} {free : List Tag}, before.inHand = none →
      before.engine.queue .free = new :: free → new ∉ before.engine.handed := by
    intro new free hand head listed
    rw [hand] at chains queues
    have marked := queues.mem_iff.1 (head ▸ List.mem_cons_self)
    exact Chains.not_outstanding_of_mark queues marked (.inl rfl)
      ((chains.outstanding new).1 listed)
  have fresh_of_slice : ∀ {new : Tag} {rest : List Tag}, before.inHand = none →
      before.engine.queue .slice = new :: rest → new ∉ before.engine.handed := by
    intro new rest hand head listed
    rw [hand] at chains queues
    have marked := queues.mem_iff.1 (head ▸ List.mem_cons_self)
    exact Chains.not_outstanding_of_mark queues marked (.inr rfl)
      ((chains.outstanding new).1 listed)
  have fresh_of_held : ∀ {new : Tag}, before.inHand = none →
      new ∈ before.engine.stage.held → before.engine.stage.selecting = none →
      new ∉ before.engine.handed := by
    intro new hand held selecting listed
    rw [hand] at chains queues
    exact Chains.not_outstanding_of_held queues held selecting
      ((chains.outstanding new).1 listed)
  cases move with
  | serve served =>
    obtain ⟨command, _, rfl⟩ := Option.map_eq_some_iff.1 served
    exact .of_pool rfl rfl rfl
  | @main engine _ _ move =>
    cases move with
    | accept _ _ accepted =>
      obtain ⟨_, _, rfl⟩ := accept_eq_some accepted
      exact .of_pool rfl rfl rfl
    | @cutInto slice rest tag free stage head =>
      refine .of_fresh (fresh_of_free rfl head) ?_ rfl rfl
      intro other different
      unfold Engine.cutInto
      rw [fixed_putTo, fixed_modify _ _ _ different, fixed_takeFrom]
    | cutAll | translateAll | skipEviction | resumeGc | bindTo | skipFetch | resumeFetch =>
      exact .of_pool rfl rfl rfl
    | hit _ _ head | miss _ head =>
      refine .of_fresh (fresh_of_slice rfl head) ?_ rfl rfl
      intro other different
      unfold Engine.takeSlice
      rw [fixed_modify _ _ _ different, fixed_takeFrom]
    | @holdWriteSlot tag write =>
      exact .of_fixed (fixed_takeFrom _ .free write) rfl rfl
    | prepareGcRead stage head | prepareGc stage head => exact .prepareGc (fresh_of_free rfl head)
    | @prepareWriteBack tag write ref lsa stage =>
      refine .of_append (fresh_of_held rfl ?_ ?_) ?_ rfl ?_ rfl
      · rw [stage]
        simp [Stage.held]
      · rw [stage]
        rfl
      · intro other different
        exact (fixed_linked _ ref write other).trans (fixed_modify _ _ _ different)
      · refine (Tracks.type_of_base
          (Request.base_of_fixed (fixed_linked _ ref write write))).trans ?_
        simp [Engine.modify, Request.fillNand]
    | @prepareFetch tag read ref free stage _ _ head =>
      refine .of_append (fresh_of_free rfl head) ?_ rfl ?_ rfl
      · intro other different
        refine (fixed_linked _ ref read other).trans ((fixed_modify _ _ _ different).trans ?_)
        exact fixed_takeFrom _ _ _ _
      · refine (Tracks.type_of_base
          (Request.base_of_fixed (fixed_linked _ ref read read))).trans ?_
        simp [Engine.modify, Request.fillNand]
    | @makeDma tag ref stage =>
      have current : engine.stage.current = some tag := by
        rw [stage]
        rfl
      have fresh := fresh_of_held rfl (Tracks.current_mem_held current) (by rw [stage]; rfl)
      have linked : ∀ other, ((engine.makeDma tag ref).pool other).fixed =
          ((engine.modify tag (·.fillDma (cmdCode (engine.pool tag)).dmaCode)).pool other).fixed :=
        fun other => fixed_linked _ ref tag other
      have own := Request.base_of_fixed (linked tag)
      refine ⟨.dma tag fresh rfl ?_ ?_ rfl, ?_, Nat.le_succ _⟩
      · refine (Tracks.type_of_base own).trans ?_
        simp [Engine.modify, Request.fillDma]
      · refine (Tracks.sliceNo_of_base own).trans ?_
        simpa [Engine.modify, Request.fillDma] using (tracks.current_slice current).1
      · intro other listed
        refine (linked other).trans (fixed_modify _ _ _ ?_)
        rintro rfl
        exact fresh listed
  | @block engine tag => exact .of_fixed (fixed_putTo engine _ tag) rfl rfl
  | @toNand engine tag which => exact .of_fixed (fixed_putTo engine which tag) rfl rfl
  | @issue engine tag direction ref =>
    refine .of_fixed ?_ rfl rfl
    intro other
    rw [fixed_putTo, fixed_issueTo]
  | @wait engine tag => exact .of_fixed (fixed_putTo engine _ tag) rfl rfl
  | startPoll => exact .of_pool rfl rfl rfl
  | startCustomPoll => exact .of_pool rfl rfl rfl
  | startNand => exact .of_pool rfl rfl rfl
  | endPoll => exact .of_pool rfl rfl rfl
  | skipNvmeDma | skipCustomCmd => exact .of_pool rfl rfl rfl
  | @dropNvmeDma engine tag rest done direction =>
    have ended : ({ engine with
        poll := .nvmeDma rest (update done direction true) }.markFinished tag).handed =
          engine.handed.erase tag := rfl
    exact .of_drop ended rfl rfl .nvmeDma _
  | @dropCustomCmd engine tag rest done direction =>
    have ended : (({ engine with
        poll := .customCmd rest (update done direction true) }.markFinished
          tag).completeForCustomIoCmd tag).handed = engine.handed.erase tag := rfl
    exact .of_drop ended rfl rfl .customCmd _
  | @issueWaiting engine tag rest done direction ref =>
    exact .of_fixed
      (fixed_issueTo { engine with poll := .customCmd rest done } direction ref tag) rfl rfl
  | @unlinkWaiting engine tag rest done =>
    obtain ⟨listed, same⟩ :=
      handed_release ({ engine with poll := .customCmd rest done }.unlink tag)
        (engine.pool tag).nextBlockingReq
    refine .of_fixed ?_ listed same
    intro other
    rw [fixed_release, fixed_unlinked]
  | @dropNand engine tag =>
    obtain ⟨listed, same⟩ :=
      handed_release ((engine.dropNand tag).unlink tag) (engine.pool tag).nextBlockingReq
    refine ⟨.removed tag listed, ?_, same.ge⟩
    intro other _
    rw [fixed_release]
    exact fixed_dropped _ _ tag other
  | @rowAddrDepDone engine tag =>
    refine .of_fixed ?_ rfl rfl
    intro other
    rw [fixed_putTo, fixed_takeFrom]

structure Ordered (engine : Engine Tag) : Prop where
  below : ∀ tag ∈ engine.handed, (engine.pool tag).reqType = .nvmeDma →
    (engine.pool tag).sliceNo < engine.translated
  sorted : engine.handed.Pairwise fun first second =>
    (engine.pool first).reqType = .nvmeDma → (engine.pool second).reqType = .nvmeDma →
      (engine.pool first).sliceNo < (engine.pool second).sliceNo

theorem Ordered.keep (ordered : Ordered engine) (keeps : Keeps engine engine') :
    Ordered engine' := by
  have type : ∀ tag ∈ engine.handed, (engine'.pool tag).reqType = (engine.pool tag).reqType :=
    fun tag listed => Tracks.type_of_base (Request.base_of_fixed (keeps.fixed tag listed))
  have sliceNo : ∀ tag ∈ engine.handed, (engine'.pool tag).sliceNo = (engine.pool tag).sliceNo :=
    fun tag listed => Tracks.sliceNo_of_base (Request.base_of_fixed (keeps.fixed tag listed))
  have below : ∀ tag ∈ engine.handed, (engine'.pool tag).reqType = .nvmeDma →
      (engine'.pool tag).sliceNo < engine.translated := by
    intro tag listed dma
    rw [sliceNo tag listed]
    exact ordered.below tag listed (type tag listed ▸ dma)
  have sorted : engine.handed.Pairwise fun first second =>
      (engine'.pool first).reqType = .nvmeDma → (engine'.pool second).reqType = .nvmeDma →
        (engine'.pool first).sliceNo < (engine'.pool second).sliceNo := by
    refine ordered.sorted.imp_of_mem ?_
    intro first second listed listed' less dma dma'
    rw [sliceNo first listed, sliceNo second listed']
    exact less (type first listed ▸ dma) (type second listed' ▸ dma')
  cases keeps.handover with
  | same handed =>
    constructor
    · intro tag listed dma
      rw [handed] at listed
      exact (below tag listed dma).trans_le keeps.translated
    · rw [handed]
      exact sorted
  | nand new fresh handed newType =>
    constructor
    · intro tag listed dma
      rw [handed, List.mem_append, List.mem_singleton] at listed
      rcases listed with old | rfl
      · exact (below tag old dma).trans_le keeps.translated
      · rw [newType] at dma
        cases dma
    · rw [handed]
      refine List.pairwise_append.2 ⟨sorted, List.pairwise_singleton _ _, ?_⟩
      intro first _ second isNew _ dma
      rw [List.mem_singleton.1 isNew, newType] at dma
      cases dma
  | dma new fresh handed newType newSliceNo translated =>
    constructor
    · intro tag listed dma
      rw [handed, List.mem_append, List.mem_singleton] at listed
      rcases listed with old | rfl
      · exact (below tag old dma).trans_le keeps.translated
      · rw [newSliceNo, translated]
        exact Nat.lt_succ_self _
    · rw [handed]
      refine List.pairwise_append.2 ⟨sorted, List.pairwise_singleton _ _, ?_⟩
      intro first listed second isNew dma _
      rw [List.mem_singleton.1 isNew, newSliceNo]
      exact below first listed dma
  | removed old handed =>
    constructor
    · intro tag listed dma
      rw [handed] at listed
      exact (below tag (List.mem_of_mem_erase listed) dma).trans_le keeps.translated
    · rw [handed]
      exact sorted.sublist List.erase_sublist

structure Sound (engine : Engine Tag) (inHand : Option Tag) : Prop where
  queues : Queues engine inHand
  chains : Chains engine inHand
  tracks : Tracks engine inHand
  balanced : engine.ledger.Balanced
  ordered : Ordered engine

theorem Sound.move {before after : Moment Tag} (sound : Sound before.engine before.inHand)
    (move : Move allowed before after) : Sound after.engine after.inHand := by
  have permits : Tracks.Permits allowed (fun _ _ => True) fun _ _ => True :=
    ⟨fun _ _ _ _ => trivial, fun _ _ _ _ _ _ _ => trivial⟩
  obtain ⟨tracks, step⟩ := sound.tracks.move permits sound.queues sound.balanced move
  refine ⟨sound.queues.move move, sound.chains.move sound.queues move, tracks, ?_,
    sound.ordered.keep (keeps_of_move sound.chains sound.queues sound.tracks move)⟩
  rcases step with same | step
  · rw [same]
    exact sound.balanced
  · exact sound.balanced.step step

end Engine

theorem Config.initial_sound (config : Config) : config.initial.Sound none where
  queues := config.initial_queues
  chains := config.initial_chains
  tracks := config.initial_tracks
  balanced := .initial
  ordered := ⟨fun _ listed => absurd listed List.not_mem_nil, List.Pairwise.nil⟩

theorem sound_of_run {config : Config} {allowed : Engine config.Tag → Event config.Tag → Prop}
    {engine : Engine config.Tag}
    (run : Relation.ReflTransGen (Fallible.EventStep Engine.step allowed) config.initial engine) :
    engine.Sound none :=
  run_of_moves Engine.Sound config.initial_sound (fun _ _ sound move => sound.move move) run

end RwRbuf.Firmware.Requests
