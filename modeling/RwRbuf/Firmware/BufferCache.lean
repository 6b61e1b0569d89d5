import RwRbuf.Firmware.BufferFiling
import RwRbuf.Firmware.OutstandingTransfers
import RwRbuf.Lib.WriteBackCache

/-! # The buffers are a write-back cache

The two buffers together are one cache in front of the flash.  With the data that the device
will hold when the outstanding requests are done, every move of the main loop is a step of
the cache or leaves it as it is.  The entry that is between two slices has left its bucket
and still shows its old slice.
-/

namespace RwRbuf.Firmware.Requests

open PendingOperations WriteBackCache Function

variable {Tag : Type}

/-- The request writes all blocks of its slice. -/
def Request.whole (request : Request Tag) : Bool :=
  request.reqCode = .write ∧ request.numOfNvmeBlock = nvmeBlocksPerSlice

def Stage.phase (request : Request Tag) : Stage Tag → Phase
  | evicting _ => .evicting
  | collecting _ _ _ => .flushing
  | selectingGc _ _ _ _ => .flushing
  | binding _ => .binding
  | fetching _ => .fetching
  | _ => .ready request.whole

def Request.busy (request : Request Tag) (stage : Stage Tag) : Option (Phase × BufferRef × Nat) :=
  request.dataBuf.map fun ref => (stage.phase request, ref, request.logicalSliceAddr)

namespace BufferMap

variable {map map' : BufferMap Tag}

theorem size_of_content (same : map'.content = map.content) : map'.size = map.size := by
  have sizes := congrArg BufferMap.size same
  exact sizes

theorem Filed.of_content {loose : Option Nat} (filed : map.Filed loose)
    (same : map'.content = map.content) : map'.Filed loose := by
  have hash := congrArg BufferMap.dataBufHash same
  have lru := congrArg BufferMap.lru same
  exact filed.congr (size_of_content same) (lsa_of_content same) hash (List.Perm.of_eq lru)

theorem allocate_fields {entry : Nat} (allocated : map.allocate = some (entry, map')) :
    map'.size = map.size ∧ map'.dataBuf = map.dataBuf := by
  obtain ⟨front, _, rfl⟩ := allocate_eq allocated
  obtain ⟨size, dataBuf, _⟩ := selectiveGet_fields { map with lru := entry :: front } entry
  exact ⟨size, dataBuf⟩

end BufferMap

namespace Engine

section Definitions

variable (engine : Engine Tag)

abbrev Inside (ref : BufferRef) : Prop :=
  ref.kind ≠ .tempDataBuf ∧ ref.entry < (engine.buffer ref.kind).size

/-- The slice that a buffer entry shows. -/
def shown (ref : BufferRef) : Option Nat :=
  if engine.Inside ref then (engine.entryOf ref).logicalSliceAddr else none

def busy : Option (Phase × BufferRef × Nat) :=
  engine.stage.current.bind fun tag => (engine.pool tag).busy engine.stage

/-- The cache with the data that the device will hold. -/
def cache (final : Image Tag) : Cache BufferRef Nat Nat HostBlock where
  shown := engine.shown
  dirty ref := (engine.entryOf ref).dirty
  mapped := engine.mapped
  busy := engine.busy
  held ref := final (.entry ref)
  backing lsa := final (.slice lsa)
  stored := contents engine.slices engine.translated

/-- The entry of the request that is being translated, and whether it is between two slices. -/
def claim : Option (Bool × BufferRef) := engine.busy.map fun busy => (busy.1.evicts, busy.2.1)

def loose (kind : BufferKind) : Option Nat :=
  match engine.claim with
  | some (true, ref) => if ref.kind = kind then some ref.entry else none
  | _ => none

structure Filing (engine : Engine Tag) : Prop where
  filed : ∀ kind, kind ≠ .tempDataBuf → (engine.buffer kind).Filed (engine.loose kind)
  inside : ∀ {evicts ref}, engine.claim = some (evicts, ref) → engine.Inside ref

abbrev SameContent (engine engine' : Engine Tag) : Prop :=
  ∀ kind, (engine'.buffer kind).content = (engine.buffer kind).content

end Definitions

variable {engine engine' : Engine Tag} {tag : Tag} {ref : BufferRef} {lsa : Nat} {phase : Phase}
  {final : Image Tag}

theorem shown_eq_some : engine.shown ref = some lsa ↔
    engine.Inside ref ∧ (engine.entryOf ref).logicalSliceAddr = some lsa := by
  simp [shown]

theorem inside_congr (size : ∀ kind, (engine'.buffer kind).size = (engine.buffer kind).size) :
    engine'.Inside ref ↔ engine.Inside ref := by
  simp only [Inside, size]

theorem shown_congr (size : ∀ kind, (engine'.buffer kind).size = (engine.buffer kind).size)
    (address : ∀ ref : BufferRef,
      (engine'.entryOf ref).logicalSliceAddr = (engine.entryOf ref).logicalSliceAddr) :
    engine'.shown = engine.shown := by
  funext ref
  simp only [shown, inside_congr size, address]

theorem busy_congr (current : engine'.stage.current = engine.stage.current)
    (phase : ∀ request, engine'.stage.phase request = engine.stage.phase request)
    (fixed : ∀ tag, engine'.stage.current = some tag →
      (engine'.pool tag).fixed = (engine.pool tag).fixed) : engine'.busy = engine.busy := by
  unfold busy
  rw [current] at fixed ⊢
  refine Option.bind_congr fun tag isCurrent => ?_
  refine (Request.field_of_fixed (·.busy _) (fun _ => ?_) (fixed tag isCurrent)).trans ?_
  · unfold Request.busy
    rw [phase, phase]
    cases engine.stage <;> rfl
  · unfold Request.busy
    rw [phase]

theorem busy_of_fixed {stage : Stage Tag} (isStage : engine'.stage = stage)
    (current : stage.current = some tag)
    (fixed : (engine'.pool tag).fixed = (engine.pool tag).fixed)
    (uses : (engine.pool tag).dataBuf = some ref) : engine'.busy =
      some (stage.phase (engine.pool tag), ref, (engine.pool tag).logicalSliceAddr) := by
  unfold busy
  rw [isStage, current, Option.bind_some,
    Request.field_of_fixed (·.busy stage) (fun _ => by cases stage <;> rfl) fixed]
  simp [Request.busy, uses]

theorem claim_of_busy (busy : engine.busy = some (phase, ref, lsa)) :
    engine.claim = some (phase.evicts, ref) := by
  simp [claim, busy]

/-- The slices that the entries show stay, and so do the dirty entries. -/
theorem cache_of_content (content : SameContent engine engine') :
    engine'.cache final = { engine.cache final with
      mapped := engine'.mapped
      busy := engine'.busy
      stored := contents engine'.slices engine'.translated } :=
  Cache.ext
    (shown_congr (fun kind => BufferMap.size_of_content (content kind)) fun ref =>
      BufferMap.lsa_of_content (content ref.kind) ref.entry)
    (funext fun ref => BufferMap.dirty_of_content (content ref.kind) ref.entry)
    rfl rfl rfl rfl rfl

namespace Filing

theorem congr (filing : Filing engine) (content : SameContent engine engine')
    (claim : engine'.claim = engine.claim) : Filing engine' where
  filed kind data := by
    unfold loose
    rw [claim]
    exact (filing.filed kind data).of_content (content kind)
  inside := by
    intro evicts ref claimed
    rw [inside_congr fun kind => BufferMap.size_of_content (content kind)]
    exact filing.inside (claim ▸ claimed)

section

variable (filing : Filing engine) (idle : engine.busy = none)
include filing idle

/-- Between two translations every entry with a slice is in its bucket. -/
theorem filed_of_idle {kind : BufferKind}
    (data : kind ≠ .tempDataBuf) : (engine.buffer kind).Filed none := by
  have filed := filing.filed kind data
  unfold loose claim at filed
  rwa [idle] at filed

theorem shown_of_hit (found : engine.checkHit lsa = some ref) : engine.shown ref = some lsa := by
  have filed := @filed_of_idle _ _ filing idle
  unfold checkHit at found
  split at found
  next isFound =>
    cases found
    obtain ⟨inside, _, address⟩ := (filed (by decide)).find_eq_some_iff.1 isFound
    exact shown_eq_some.2 ⟨⟨by simp, inside⟩, address⟩
  · obtain ⟨entry, isFound, rfl⟩ := Option.map_eq_some_iff.1 found
    obtain ⟨inside, _, address⟩ := (filed (by decide)).find_eq_some_iff.1 isFound
    exact shown_eq_some.2 ⟨⟨by simp, inside⟩, address⟩

theorem shown_of_miss
    (absent : engine.checkHit lsa = none) (ref : BufferRef) : engine.shown ref ≠ some lsa := by
  rw [Ne, shown_eq_some]
  rintro ⟨⟨data, inside⟩, address⟩
  have filed := filing.filed_of_idle idle data
  unfold checkHit at absent
  split at absent
  · cases absent
  next inData =>
    have inCcmd := Option.map_eq_none_iff.1 absent
    obtain ⟨kind, entry⟩ := ref
    cases kind with
    | dataBuf => exact filed.find_eq_none_iff.1 inData entry inside address
    | ccmdDataBuf => exact filed.find_eq_none_iff.1 inCcmd entry inside address
    | tempDataBuf => exact data rfl

end

end Filing

/-! ## The moves that change the buffers -/

section Buffers

variable [DecidableEq Tag] {stage : Stage Tag} {map : BufferMap Tag}

theorem busy_takeSlice (current : stage.current = some tag) :
    (engine.takeSlice tag stage ref map).busy =
      some (stage.phase (engine.pool tag), ref, (engine.pool tag).logicalSliceAddr) := by
  have phase : ∀ request : Request Tag, stage.phase { request with
      reqQueueType := none
      dataBuf := some ref } = stage.phase request := fun _ => by cases stage <;> rfl
  simp [busy, Request.busy, takeSlice, Engine.modify, Engine.takeFrom, current, phase]

/-- A request is taken from the slice queue with an entry whose place in the lists changes. -/
theorem cache_takeSlice (size : map.size = (engine.buffer ref.kind).size)
    (dataBuf : map.dataBuf = (engine.buffer ref.kind).dataBuf)
    (current : stage.current = some tag) :
    (engine.takeSlice tag stage ref map).cache final = { engine.cache final with
      busy := some (stage.phase (engine.pool tag), ref, (engine.pool tag).logicalSliceAddr) } := by
  have entries := (Function.forall_update_iff engine.buffer (a := ref.kind) (b := map)
    fun kind map => map.size = (engine.buffer kind).size ∧
      map.dataBuf = (engine.buffer kind).dataBuf).2 ⟨⟨size, dataBuf⟩, fun _ _ => ⟨rfl, rfl⟩⟩
  have same : ∀ other : BufferRef, (engine.takeSlice tag stage ref map).entryOf other =
      engine.entryOf other := fun other => congrFun (entries other.kind).2 other.entry
  exact Cache.ext (shown_congr (fun kind => (entries kind).1) fun other => by rw [same])
    (funext fun other => congrArg BufferEntry.dirty (same other)) rfl (busy_takeSlice current)
    rfl rfl rfl

theorem Filing.takeSlice (filing : Filing engine) (idle : engine.busy = none)
    (inside : engine.Inside ref)
    (current : stage.current = some tag) (size : map.size = (engine.buffer ref.kind).size)
    (own : map.Filed
      (if (stage.phase (engine.pool tag)).evicts = true then some ref.entry else none)) :
    Filing (engine.takeSlice tag stage ref map) := by
  have claim := claim_of_busy (@busy_takeSlice _ engine _ ref _ _ map current)
  constructor
  · unfold loose
    rw [claim]
    refine (Function.forall_update_iff engine.buffer fun kind map =>
      kind ≠ .tempDataBuf → map.Filed _).2 ⟨fun _ => ?_, fun kind other data => ?_⟩
    · cases evicts : (stage.phase (engine.pool tag)).evicts <;> simpa [evicts] using own
    · cases (stage.phase (engine.pool tag)).evicts <;>
        simpa [other.symm] using filing.filed_of_idle idle data
  · intro evicts other claimed
    rw [claim] at claimed
    cases claimed
    refine ⟨inside.1, ?_⟩
    show ref.entry < (update engine.buffer ref.kind map ref.kind).size
    rw [update_self, size]
    exact inside.2

omit [DecidableEq Tag] in
theorem entryOf_bindTo (engine : Engine Tag) (tag : Tag) (ref other : BufferRef) :
    (engine.bindTo tag ref).entryOf other =
      if other = ref then
        { engine.entryOf ref with
          logicalSliceAddr := some (engine.pool tag).logicalSliceAddr
          dirty := false }
      else engine.entryOf other := by
  obtain ⟨kind, entry⟩ := ref
  obtain ⟨kind', entry'⟩ := other
  unfold entryOf bindTo
  by_cases sameKind : kind' = kind
  · subst sameKind
    by_cases sameEntry : entry' = entry
    · subst sameEntry
      simp [BufferMap.bind, BufferMap.putToHashList, BufferMap.setEntry]
    · simp [BufferMap.bind, BufferMap.putToHashList, BufferMap.setEntry, sameEntry]
  · simp [sameKind]

omit [DecidableEq Tag] in
theorem size_bindTo : ∀ kind, ((engine.bindTo tag ref).buffer kind).size =
    (engine.buffer kind).size :=
  (Function.forall_update_iff engine.buffer fun kind map =>
    map.size = (engine.buffer kind).size).2 ⟨rfl, fun _ _ => rfl⟩

omit [DecidableEq Tag] in
theorem busy_bindTo (uses : (engine.pool tag).dataBuf = some ref) :
    (engine.bindTo tag ref).busy =
      some (.fetching, ref, (engine.pool tag).logicalSliceAddr) :=
  @busy_of_fixed _ engine (engine.bindTo tag ref) tag ref _ rfl rfl rfl uses

omit [DecidableEq Tag] in
theorem cache_bindTo (inside : engine.Inside ref) (uses : (engine.pool tag).dataBuf = some ref) :
    (engine.bindTo tag ref).cache final = { engine.cache final with
      shown := update engine.shown ref (some (engine.pool tag).logicalSliceAddr)
      dirty := update (fun ref => (engine.entryOf ref).dirty) ref false
      busy := some (.fetching, ref, (engine.pool tag).logicalSliceAddr) } := by
  refine Cache.ext (funext fun other => ?_) (funext fun other => ?_) rfl
    (busy_bindTo uses) rfl rfl rfl
  · show (engine.bindTo tag ref).shown other = update engine.shown ref _ other
    simp only [shown, inside_congr size_bindTo, entryOf_bindTo]
    by_cases same : other = ref
    · subst same
      simp [inside]
    · simp [same, shown]
  · refine (congrArg BufferEntry.dirty (entryOf_bindTo engine tag ref other)).trans ?_
    by_cases same : other = ref <;> simp [same]

omit [DecidableEq Tag] in
theorem Filing.bindTo (filing : Filing engine)
    (busy : engine.busy = some (.binding, ref, (engine.pool tag).logicalSliceAddr))
    (uses : (engine.pool tag).dataBuf = some ref)
    (absent : ∀ other, engine.shown other ≠ some (engine.pool tag).logicalSliceAddr) :
    Filing (engine.bindTo tag ref) := by
  have before := claim_of_busy busy
  have inside := filing.inside before
  have claim := claim_of_busy (busy_bindTo uses)
  constructor
  · unfold loose
    rw [claim]
    refine (Function.forall_update_iff engine.buffer fun kind map =>
      kind ≠ .tempDataBuf → map.Filed none).2 ⟨fun data => ?_, fun kind other data => ?_⟩
    · have filed := filing.filed ref.kind data
      apply BufferMap.Filed.bind (by simpa [loose, before, Phase.evicts] using filed) inside.2
      intro other inside' _ address
      exact absent ⟨ref.kind, other⟩ (shown_eq_some.2 ⟨⟨data, inside'⟩, address⟩)
    · have filed := filing.filed kind data
      simpa [loose, before, Phase.evicts, other.symm] using filed
  · intro evicts other claimed
    rw [claim] at claimed
    cases claimed
    exact (inside_congr size_bindTo).2 inside

/-- A slice request becomes a DMA request; the entry of a write becomes dirty. -/
theorem buffer_makeDma (engine : Engine Tag) (tag : Tag) (ref : BufferRef) (kind : BufferKind) :
    ((engine.makeDma tag ref).buffer kind).content =
      (if cmdCode (engine.pool tag) = .write ∧ kind = ref.kind then
        (engine.buffer ref.kind).setDirty ref.entry
      else engine.buffer kind).content := by
  refine (content_linked _ ref tag kind).trans ?_
  by_cases write : cmdCode (engine.pool tag) = .write
  · by_cases same : kind = ref.kind
    · subst same
      simp [Engine.modify, write]
    · simp [Engine.modify, write, same]
  · simp [Engine.modify, write]

omit [DecidableEq Tag] in
theorem address_setDirty (map : BufferMap Tag) (entry other : Nat) :
    (map.setDirty entry).address other = map.address other := by
  simp only [BufferMap.address, BufferMap.setDirty, BufferMap.setEntry, update_apply]
  split <;> simp [*]

theorem Filing.makeDma (filing : Filing engine)
    (busy : engine.busy = some (phase, ref, lsa)) (bound : phase.evicts = false) :
    Filing (engine.makeDma tag ref) := by
  have claim := claim_of_busy busy
  constructor
  · intro kind data
    have filed := filing.filed kind data
    unfold loose at filed
    rw [claim, bound] at filed
    apply BufferMap.Filed.of_content _ (buffer_makeDma engine tag ref kind)
    split
    next same =>
      rw [← same.2]
      exact filed.congr rfl (address_setDirty _ _) rfl (.refl _)
    · exact filed
  · intro evicts other claimed
    cases claimed

theorem cache_makeDma (engine : Engine Tag) (tag : Tag) (ref : BufferRef) :
    (engine.makeDma tag ref).cache final = { engine.cache final with
      dirty := fun other => (engine.entryOf other).dirty ||
        decide (cmdCode (engine.pool tag) = .write ∧ other = ref)
      busy := none
      stored := contents engine.slices (engine.translated + 1) } := by
  have content := buffer_makeDma engine tag ref
  refine Cache.ext (shown_congr (fun kind => ?_) fun other => ?_) (funext fun other => ?_) rfl
    rfl rfl rfl rfl
  · rw [BufferMap.size_of_content (content kind)]
    split
    next same => rw [same.2]; rfl
    · rfl
  · refine (BufferMap.lsa_of_content (content other.kind) other.entry).trans ?_
    split
    next same =>
      rw [← same.2]
      exact address_setDirty _ _ _
    · rfl
  · refine (BufferMap.dirty_of_content (content other.kind) other.entry).trans ?_
    obtain ⟨kind, entry⟩ := ref
    obtain ⟨kind', entry'⟩ := other
    by_cases write : cmdCode (engine.pool tag) = .write
    · by_cases sameKind : kind' = kind
      · subst sameKind
        by_cases sameEntry : entry' = entry
        · subst sameEntry
          simp [entryOf, write, BufferMap.setDirty, BufferMap.setEntry]
        · simp [entryOf, write, BufferMap.setDirty, BufferMap.setEntry, sameEntry]
      · simp [entryOf, write, sameKind]
    · simp [entryOf, write]

end Buffers

/-! ## The main loop -/

structure Buffered (engine : Engine Tag) (final : Image Tag) : Prop where
  filing : Filing engine
  reached : Reached (engine.cache final)

namespace Buffered

theorem congr (buffered : Buffered engine final) (content : SameContent engine engine')
    (busy : engine'.busy = engine.busy) (mapped : engine'.mapped = engine.mapped)
    (stored : contents engine'.slices engine'.translated =
      contents engine.slices engine.translated) : Buffered engine' final where
  filing := buffered.filing.congr content (by rw [claim, busy, claim])
  reached := by
    rw [cache_of_content content, busy, mapped, stored]
    exact buffered.reached

theorem aside [DecidableEq Tag] (buffered : Buffered engine final) (aside : Aside engine engine') :
    Buffered engine' final := by
  apply buffered.congr aside.content _ aside.mapped
  · rw [aside.slices, aside.translated]
  · apply busy_congr
    · rw [aside.stage]
    · intro request
      rw [aside.stage]
    · exact fun tag _ => aside.fixed tag

/-- The translation goes on and leaves the lists of the buffers alone. -/
theorem goOn {final' : Image Tag} {phase' : Phase} {next : Cache BufferRef Nat Nat HostBlock}
    (buffered : Buffered engine final) (content : SameContent engine engine')
    (before : engine.busy = some (phase, ref, lsa)) (after : engine'.busy = some (phase', ref, lsa))
    (evicts : phase'.evicts = phase.evicts) (step : Step (engine.cache final) next)
    (isNext : { engine.cache final' with
      mapped := engine'.mapped
      busy := engine'.busy
      stored := contents engine'.slices engine'.translated } = next) : Buffered engine' final' where
  filing := by
    apply buffered.filing.congr content
    rw [claim_of_busy before, claim_of_busy after, evicts]
  reached := buffered.reached.tail_eq step ((cache_of_content content).trans isNext)

variable [DecidableEq Tag] {allowed : Engine Tag → Event Tag → Prop}

theorem fixed_prepareWriteBack (engine : Engine Tag) (tag write : Tag) (ref : BufferRef)
    (lsa : Nat) : ((engine.prepareWriteBack tag write ref lsa).pool write).fixed =
      ((engine.pool write).fillNand (engine.pool tag) .write lsa ref).fixed := by
  refine (fixed_linked _ ref write write).trans ?_
  simp [Engine.modify]

section

variable (buffered : Buffered engine final)
include buffered

theorem prepareWriteBack {write : Tag}
    (before : engine.busy = some (.flushing, ref, (engine.pool tag).logicalSliceAddr))
    (after : (engine.prepareWriteBack tag write ref lsa).busy =
      some (.binding, ref, (engine.pool tag).logicalSliceAddr))
    (shows : (engine.entryOf ref).logicalSliceAddr = some lsa) :
    Buffered (engine.prepareWriteBack tag write ref lsa)
      (((engine.prepareWriteBack tag write ref lsa).transfer write).apply final) := by
  have inside := buffered.filing.inside (claim_of_busy before)
  have content := content_linked ({ engine with
    stage := .binding tag
    handed := engine.handed ++ [write] }.modify write
      (·.fillNand (engine.pool tag) .write lsa ref)) ref write
  have transfer : (engine.prepareWriteBack tag write ref lsa).transfer write =
      ⟨.slice lsa, .entry ref, id⟩ :=
    (Request.transfer_of_fixed (fixed_prepareWriteBack engine tag write ref lsa)).trans
      (Request.transfer_write rfl rfl rfl inside.1)
  rw [transfer]
  refine buffered.goOn content before after rfl
    (.writeBack before (shown_eq_some.2 ⟨inside, shows⟩)) (Cache.ext rfl rfl rfl after rfl ?_ rfl)
  funext other
  simp [cache, Copy.apply, update_apply]

theorem prepareFetch {read : Tag} {whole : Bool}
    (before : engine.busy = some (.fetching, ref, (engine.pool tag).logicalSliceAddr))
    (after : (engine.prepareFetch tag read ref).busy =
      some (.ready whole, ref, (engine.pool tag).logicalSliceAddr)) :
    Buffered (engine.prepareFetch tag read ref)
      (((engine.prepareFetch tag read ref).transfer read).apply final) := by
  have inside := buffered.filing.inside (claim_of_busy before)
  have content := content_linked (({ engine with
    stage := .selectingFetch tag read
    handed := engine.handed ++ [read] }.takeFrom .free read).modify read
      (·.fillNand (engine.pool tag) .read (engine.pool tag).logicalSliceAddr ref)) ref read
  have fixed : ((engine.prepareFetch tag read ref).pool read).fixed =
      ((engine.pool read).fillNand (engine.pool tag) .read (engine.pool tag).logicalSliceAddr
        ref).fixed := by
    refine (fixed_linked _ ref read read).trans ?_
    simp [Engine.modify, Engine.takeFrom, Request.fillNand, Request.fixed, Request.core]
  have transfer : (engine.prepareFetch tag read ref).transfer read =
      ⟨.entry ref, .slice (engine.pool tag).logicalSliceAddr, id⟩ :=
    (Request.transfer_of_fixed fixed).trans (Request.transfer_read rfl rfl rfl inside.1)
  rw [transfer]
  refine buffered.goOn content before after rfl (.fetch before)
    (Cache.ext rfl rfl rfl after ?_ rfl rfl)
  funext other
  simp [cache, Copy.apply, update_apply]

/-- A slice request becomes a DMA request.  The data of a write are still to come. -/
theorem makeDma {slice : Slice}
    (busy : engine.busy = some (.ready (engine.pool tag).whole, ref,
      (engine.pool tag).logicalSliceAddr))
    (uses : (engine.pool tag).dataBuf = some ref)
    (found : engine.slices[engine.translated]? = some slice)
    (number : (engine.pool tag).sliceNo = engine.translated)
    (carries : (engine.pool tag).Carries slice)
    (code : (engine.pool tag).reqCode = slice.code.reqCode)
    (wellFormed : ∀ slice ∈ engine.slices, slice.WellFormed) :
    Buffered (engine.makeDma tag ref)
      (((engine.makeDma tag ref).transfer tag).apply final) := by
  have isCode : cmdCode (engine.pool tag) = slice.code := Tracks.cmdCode_of_reqCode code
  refine ⟨buffered.filing.makeDma busy rfl, ?_⟩
  rw [cache_makeDma]
  cases direction : slice.code with
  | read =>
    have transfer : (engine.makeDma tag ref).transfer tag = ⟨.answer tag, .entry ref, id⟩ :=
      (Request.transfer_of_fixed (fixed_makeDma engine tag ref)).trans
        (Request.transfer_tx rfl (by rw [isCode, direction]; rfl) uses)
    have partly : (engine.pool tag).whole = false := by
      simp [Request.whole, code, direction, CmdCode.reqCode]
    rw [partly] at busy
    rw [transfer]
    refine buffered.reached.tail_eq (.read busy) (Cache.ext rfl ?_ rfl rfl rfl rfl ?_)
    · funext other
      simp [cache, isCode, direction]
    · funext lsa block
      exact (contents_succ found).trans (by simp [Slice.written, direction, cache])
  | write =>
    have transfer : (engine.makeDma tag ref).transfer tag =
        ⟨.entry ref, .entry ref, overwrite (engine.pool tag).hostData⟩ :=
      (Request.transfer_of_fixed (fixed_makeDma engine tag ref)).trans
        (Request.transfer_rx rfl (by rw [isCode, direction]; rfl) uses)
    have written : ∀ lsa, slice.written engine.translated lsa =
        if lsa = (engine.pool tag).logicalSliceAddr then (engine.pool tag).hostData
        else fun _ => none := by
      intro lsa
      funext block
      by_cases same : lsa = (engine.pool tag).logicalSliceAddr
      · simp [same, Slice.written, Request.hostData, Request.Covers, direction, carries.lsa,
          carries.offset, carries.count, carries.startIndex, number]
      · have differs : slice.logicalSliceAddr ≠ lsa := fun equal =>
          same (equal.symm.trans carries.lsa.symm)
        simp [same, Slice.written, differs]
    have all : (engine.pool tag).whole = true → ∀ block,
        contents engine.slices engine.translated (engine.pool tag).logicalSliceAddr block ≠
          none → (engine.pool tag).hostData block ≠ none := by
      intro whole block stored
      obtain ⟨data, isStored⟩ := Option.ne_none_iff_exists'.1 stored
      have small := contents_lt wellFormed isStored
      have fits := (wellFormed slice (List.mem_of_getElem? found)).fits
      simp only [Request.whole, Bool.decide_and, Bool.and_eq_true, decide_eq_true_eq] at whole
      rw [← carries.offset, ← carries.count] at fits
      have covers : (engine.pool tag).Covers block := by
        unfold Request.Covers
        omega
      simp [Request.hostData, covers]
    rw [transfer]
    refine buffered.reached.tail_eq (.write busy all)
      (Cache.ext rfl ?_ rfl rfl ?_ rfl ?_)
    · funext other
      simp [cache, isCode, direction, update_apply, Bool.or_comm]
    · funext other
      simp [cache, Copy.apply, update_apply]
    · funext lsa block
      refine (contents_succ found).trans ?_
      rw [written]
      by_cases same : lsa = (engine.pool tag).logicalSliceAddr
      · subst same
        simp [cache, overwrite]
      · simp [cache, same]

/-- The requests of the garbage collector move nothing between the buffers and the flash. -/
theorem prepareGc {stage : Stage Tag} {gc : GcRequest} {new : Tag}
    (fixed : ∀ tag, engine.stage.current = some tag →
      ({ engine with stage := stage }.prepareGc gc new).stage.current = some tag →
      (({ engine with stage := stage }.prepareGc gc new).pool tag).fixed = (engine.pool tag).fixed)
    (same : ∀ request, (stage.current, stage.phase request) =
      (engine.stage.current, engine.stage.phase request)) :
    Buffered ({ engine with stage := stage }.prepareGc gc new)
      ((({ engine with stage := stage }.prepareGc gc new).transfer new).apply final) := by
  have transfer : ({ engine with stage := stage }.prepareGc gc new).transfer new =
      ⟨.answer new, .answer new, id⟩ := by
    refine (Request.transfer_of_fixed (fixed_prepareGc_new _ gc new)).trans ?_
    cases gc <;> rfl
  have nothing : Copy.apply ⟨.answer new, .answer new, id⟩ final = final :=
    update_eq_self _ _
  have isStage := stage_prepareGc { engine with stage := stage } gc new
  have current : ({ engine with stage := stage }.prepareGc gc new).stage.current =
      engine.stage.current := isStage ▸ congrArg Prod.fst (same (engine.pool new))
  rw [transfer, nothing]
  refine buffered.congr (content_prepareGc { engine with stage := stage } gc new)
    (busy_congr current ?_ fun tag isCurrent => fixed tag (current ▸ isCurrent) isCurrent) ?_
    (congrArg (fun ledger => contents ledger.slices ledger.translated)
      (Tracks.ledger_prepareGc { engine with stage := stage } gc new))
  · intro request
    rw [isStage]
    exact congrArg Prod.snd (same request)
  · unfold Engine.prepareGc
    cases gc.dataBuf <;> rfl

end

/-- Every move of the main loop is a step of the cache or leaves it as it is. -/
theorem main {after : Moment Tag} {answers : Tag → Nat → Option HostBlock}
    (buffered : Buffered engine (engine.settled answers)) (sound : Sound engine none)
    (quiet : engine.poll = .idle) (move : MainMove allowed engine after) :
    Buffered after.engine (after.engine.settled answers) := by
  obtain ⟨kept, handsOver⟩ := settles_main sound quiet move answers
  have fixed : ∀ tag, engine.stage.current = some tag → after.engine.stage.current = some tag →
      (after.engine.pool tag).fixed = (engine.pool tag).fixed := fun _ =>
    fixed_of_current sound.queues move
  have slices := @slices_of_main _ _ _ _ _ move
  have idle : engine.stage.current = none → engine.busy = none := fun none_current => by
    simp [busy, none_current]
  cases move with
  | accept _ _ accepted =>
    obtain ⟨isIdle, _, rfl⟩ := accept_eq_some accepted
    rw [kept rfl]
    exact buffered.congr (fun _ => rfl) (idle (by rw [isIdle]; rfl)).symm rfl
      (contents_of_kept sound.balanced.translated_le slices)
  | cutInto stage | cutAll stage | translateAll stage =>
    rw [kept rfl]
    exact buffered.congr (fun _ => rfl) (idle (by rw [stage]; rfl)).symm rfl rfl
  | hit _ stage _ found =>
    have isIdle := idle (by rw [stage]; rfl)
    have shows := buffered.filing.shown_of_hit isIdle found
    have inside := (shown_eq_some.1 shows).1
    rw [kept rfl]
    exact ⟨buffered.filing.takeSlice isIdle inside rfl rfl
        ((buffered.filing.filed_of_idle isIdle inside.1).touch inside.2),
      buffered.reached.tail_eq (.hit isIdle shows) (cache_takeSlice rfl rfl rfl)⟩
  | @miss tag rest kind entry map stage _ absent chosen allocated =>
    have isIdle := idle (by rw [stage]; rfl)
    have data : kind ≠ .tempDataBuf := chosen ▸ missKind_ne _
    obtain ⟨inside, own⟩ := (buffered.filing.filed_of_idle isIdle data).allocate allocated
    obtain ⟨size, dataBuf⟩ := BufferMap.allocate_fields allocated
    rw [kept rfl]
    exact ⟨@Filing.takeSlice _ _ _ ⟨kind, entry⟩ _ _ _ buffered.filing isIdle ⟨data, inside⟩
        rfl size own,
      buffered.reached.tail_eq (.miss isIdle (buffered.filing.shown_of_miss isIdle absent))
        (@cache_takeSlice _ _ _ ⟨kind, entry⟩ _ _ _ _ size dataBuf rfl)⟩
  | @skipEviction tag ref stage uses clean =>
    have before := busy_of_fixed stage rfl rfl uses
    have after := @busy_of_fixed _ engine { engine with stage := .binding tag } tag ref _
      rfl rfl rfl uses
    rw [kept rfl]
    exact buffered.goOn (fun _ => rfl) before after rfl (.skipWriteBack before clean)
      (Cache.ext rfl rfl rfl after rfl rfl rfl)
  | @holdWriteSlot tag write ref lsa free gcRequests stage uses _ shows =>
    have before := busy_of_fixed stage rfl rfl uses
    have after := @busy_of_fixed _ engine (engine.holdWriteSlot tag write lsa gcRequests) tag
      ref _ rfl rfl (fixed tag (by rw [stage]; rfl) rfl) uses
    have inside := buffered.filing.inside (claim_of_busy before)
    rw [kept rfl]
    exact buffered.goOn (fun _ => rfl) before after rfl
      (.hold before (shown_eq_some.2 ⟨inside, shows⟩)) (Cache.ext rfl rfl rfl after rfl rfl rfl)
  | prepareGcRead stage | prepareGc stage =>
    rw [handsOver _ (handed_prepareGc _ _ _)]
    exact buffered.prepareGc fixed fun _ => by rw [stage]; rfl
  | resumeGc stage | resumeFetch stage =>
    rw [kept rfl]
    refine buffered.congr (fun _ => rfl) ?_ rfl rfl
    apply busy_congr <;> simp [stage, Stage.current, Stage.phase]
  | @prepareWriteBack tag write ref lsa stage uses shows =>
    rw [handsOver _ rfl]
    exact buffered.prepareWriteBack (busy_of_fixed stage rfl rfl uses)
      (busy_of_fixed rfl rfl (fixed tag (by rw [stage]; rfl) rfl) uses) shows
  | @bindTo tag ref stage uses =>
    have before := busy_of_fixed stage rfl rfl uses
    have inside := buffered.filing.inside (claim_of_busy before)
    rw [kept rfl]
    exact ⟨buffered.filing.bindTo before uses (buffered.reached.faithful.absent before rfl),
      buffered.reached.tail_eq (.bind before) (cache_bindTo inside uses)⟩
  | @skipFetch tag stage unneeded =>
    rw [kept rfl]
    cases uses : (engine.pool tag).dataBuf with
    | none =>
      refine buffered.congr (fun _ => rfl) ?_ rfl rfl
      simp [busy, Request.busy, stage, Stage.current, uses]
    | some ref =>
      have before := busy_of_fixed stage rfl rfl uses
      have after := @busy_of_fixed _ engine { engine with stage := .finishing tag } tag ref _
        rfl rfl rfl uses
      refine buffered.goOn (fun _ => rfl) before after rfl (.skipFetch before ?_)
        (Cache.ext rfl rfl rfl after rfl rfl rfl)
      obtain ⟨_, _, slice, _, _, code⟩ := sound.tracks.current_slice
        (show engine.stage.current = some tag by rw [stage]; rfl)
      cases mapped : engine.mapped (engine.pool tag).logicalSliceAddr with
      | false => exact .inr mapped
      | true =>
        left
        cases direction : slice.code <;>
          simp_all [needsFetch, Request.whole, CmdCode.reqCode]
  | @prepareFetch tag read ref free stage uses =>
    rw [handsOver _ rfl]
    exact buffered.prepareFetch (busy_of_fixed stage rfl rfl uses)
      (busy_of_fixed rfl rfl (fixed tag (by rw [stage]; rfl) rfl) uses)
  | @makeDma tag ref stage uses =>
    obtain ⟨number, _, slice, found, carries, code⟩ := sound.tracks.current_slice
      (show engine.stage.current = some tag by rw [stage]; rfl)
    rw [handsOver _ rfl]
    exact buffered.makeDma (busy_of_fixed stage rfl rfl uses) uses found number carries code
      sound.balanced.wellFormed

end Buffered

end Engine
end RwRbuf.Firmware.Requests
