import RwRbuf.Firmware.DmaOrder

/-! # The polls go on

A visit of a poll waits only in `IssueNvmeDmaReq`, when the DMA engine has no room for the
commands of a request.  Once the engine has served what it was given it has room, and every
visit returns.
-/

namespace RwRbuf.Firmware.Requests

open Function

variable {Tag : Type}

namespace Engine

/-- Every request handed over is a flash request or a DMA request with its buffer entry. -/
def LowLevel (engine : Engine Tag) : Prop :=
  ∀ tag ∈ engine.handed, (engine.pool tag).reqType = .nand ∨
    ((engine.pool tag).reqType = .nvmeDma ∧ ∃ ref, (engine.pool tag).dataBuf = some ref)

variable [DecidableEq Tag] {engine engine' : Engine Tag} {inHand : Option Tag} {tag : Tag}
  {allowed : Engine Tag → Event Tag → Prop}

namespace LowLevel

theorem new_of_main {after : Moment Tag} (move : MainMove allowed engine after)
    (listed : tag ∈ after.engine.handed) (new : tag ∉ engine.handed) :
    (after.engine.pool tag).reqType = .nand ∨
      ((after.engine.pool tag).reqType = .nvmeDma ∧
        ∃ ref, (after.engine.pool tag).dataBuf = some ref) := by
  have appended : ∀ {last : Tag}, tag ∈ engine.handed ++ [last] → tag = last := by
    intro last member
    rcases List.mem_append.1 member with old | isLast
    · exact absurd old new
    · exact List.mem_singleton.1 isLast
  cases move with
  | accept _ _ accepted =>
    rw [(accept_eq accepted).2.2.2.2] at listed
    exact absurd listed new
  | prepareGcRead | prepareGc =>
    rw [handed_prepareGc] at listed
    rw [appended listed]
    exact .inl (Fresh.reqType_prepareGc _ _ _)
  | @prepareWriteBack origin write ref lsa =>
    rw [appended listed]
    left
    refine (Request.field_of_fixed (·.reqType) (fun _ => rfl)
      (fixed_linked _ ref write write)).trans ?_
    simp [Engine.modify, Request.fillNand]
  | @prepareFetch origin read ref =>
    rw [appended listed]
    left
    refine (Request.field_of_fixed (·.reqType) (fun _ => rfl)
      (fixed_linked _ ref read read)).trans ?_
    simp [Engine.modify, Request.fillNand]
  | @makeDma origin ref stage uses =>
    rw [appended listed]
    refine .inr ⟨reqType_makeDma _ _ _, ref, ?_⟩
    rw [Request.field_of_fixed (·.dataBuf) (fun _ => rfl) (fixed_makeDma engine origin ref)]
    exact uses
  | _ => exact absurd listed new

theorem move {before after : Moment Tag} (lowLevel : LowLevel before.engine)
    (sound : Sound before.engine before.inHand) (move : Move allowed before after) :
    LowLevel after.engine := by
  have keeps := keeps_of_move sound.chains sound.queues sound.tracks move
  intro tag listed
  by_cases old : tag ∈ before.engine.handed
  · have fixed := keeps.fixed tag old
    rw [Request.field_of_fixed (·.reqType) (fun _ => rfl) fixed,
      Request.field_of_fixed (·.dataBuf) (fun _ => rfl) fixed]
    exact lowLevel tag old
  · rcases aside_or_main move with aside | ⟨engine, rfl, _, main⟩
    · exact absurd (aside.handed listed) old
    · exact new_of_main main listed old

end LowLevel

/-! ## The flash requests -/

abbrev IsFlashQueue (which : ReqQueueType) : Prop := which = .nand ∨ which = .blockedByRowAddrDep

omit [DecidableEq Tag] in
def FlashQueued (engine : Engine Tag) : Prop :=
  ∀ tag which, IsFlashQueue which →
    (engine.pool tag).reqQueueType = some which → (engine.pool tag).reqType = .nand

variable {other : Tag}

theorem mem_of_putTo {which target : ReqQueueType} (differs : which ≠ target)
    (queued : tag ∈ (engine.putTo target other).queue which) : tag ∈ engine.queue which := by
  simpa [Engine.putTo, differs] using queued

theorem mem_putTo_self {which : ReqQueueType} :
    tag ∈ (engine.putTo which other).queue which ↔ tag ∈ engine.queue which ∨ tag = other := by
  simp [Engine.putTo]

theorem mem_of_takeFrom {which source : ReqQueueType}
    (queued : tag ∈ (engine.takeFrom source other).queue which) : tag ∈ engine.queue which := by
  by_cases same : which = source
  · subst same
    exact List.mem_of_mem_erase (by simpa [Engine.takeFrom] using queued)
  · simpa [Engine.takeFrom, same] using queued

variable {target : Option Tag}

theorem mem_of_drop {ended : Engine Tag} {which source : ReqQueueType} (notFree : which ≠ .free)
    (queued : tag ∈ (Moment.release (((ended.takeFrom source other).putTo .free other).unlink
      other) target).engine.queue which) : tag ∈ ended.queue which := by
  have unlinked : tag ∈ ((ended.takeFrom source other).putTo .free other).queue which := by
    revert queued
    exact Moment.release_cases (fun after _ => tag ∈ after.queue which →
      tag ∈ ((ended.takeFrom source other).putTo .free other).queue which) id
      fun _ _ _ => mem_of_takeFrom
  exact mem_of_takeFrom (mem_of_putTo notFree unlinked)

/-- What comes into the queues before the flash: the request in hand, if it is a flash
request. -/
theorem flash_of_move {before after : Moment Tag} (move : Move allowed before after)
    {which : ReqQueueType} (flash : IsFlashQueue which) (queued : tag ∈ after.engine.queue which) :
    (∃ which, IsFlashQueue which ∧ tag ∈ before.engine.queue which) ∨
      (before.inHand = some tag ∧ (before.engine.pool tag).reqType = .nand) := by
  have old : tag ∈ before.engine.queue which →
      (∃ which, IsFlashQueue which ∧ tag ∈ before.engine.queue which) ∨
        (before.inHand = some tag ∧ (before.engine.pool tag).reqType = .nand) :=
    fun member => .inl ⟨which, flash, member⟩
  have apart : ∀ other, other ≠ .nand → other ≠ .blockedByRowAddrDep → which ≠ other := by
    rintro other notNand notRow rfl
    exact flash.elim notNand notRow
  have notFree : which ≠ .free := apart _ (by decide) (by decide)
  cases move with
  | serve served =>
    obtain ⟨_, _, rfl⟩ := Option.map_eq_some_iff.1 served
    exact old queued
  | main _ move =>
    rw [queue_main move notFree (apart _ (by decide) (by decide))] at queued
    exact old queued
  | block | wait => exact old (mem_of_putTo (apart _ (by decide) (by decide)) queued)
  | @toNand engine hand target front nand choice =>
    by_cases same : which = target
    · subst same
      rcases mem_putTo_self.1 queued with member | rfl
      · exact old member
      · exact .inr ⟨rfl, nand⟩
    · exact old (mem_of_putTo same queued)
  | @issue engine hand direction ref =>
    have dmaQueue : which ≠ (engine.pool hand).dmaQueue := by
      unfold Request.dmaQueue
      split <;> exact apart _ (by decide) (by decide)
    exact old (mem_of_putTo dmaQueue queued)
  | dropNvmeDma | dropCustomCmd | dropNand =>
    have member := mem_of_drop notFree queued
    exact old member
  | @unlinkWaiting engine other rest done =>
    apply old
    revert queued
    exact Moment.release_cases (fun after _ => tag ∈ after.queue which →
      tag ∈ engine.queue which) id fun _ _ _ => mem_of_takeFrom
  | @rowAddrDepDone engine other quiet row =>
    by_cases same : which = .nand
    · subst same
      rcases mem_putTo_self.1 queued with member | rfl
      · exact old (mem_of_takeFrom member)
      · exact .inl ⟨_, .inr rfl, row⟩
    · exact old (mem_of_takeFrom (mem_of_putTo same queued))
  | _ => exact old queued

theorem FlashQueued.move {before after : Moment Tag} (flash : FlashQueued before.engine)
    (sound : Sound before.engine before.inHand) (move : Move allowed before after) :
    FlashQueued after.engine := by
  have queues := (sound.move move).queues
  have keeps := keeps_of_move sound.chains sound.queues sound.tracks move
  intro tag which isFlash queued
  obtain ⟨listed, type⟩ : tag ∈ before.engine.handed ∧
      (before.engine.pool tag).reqType = .nand := by
    rcases flash_of_move move isFlash (queues.mem_iff.2 queued) with
      ⟨which, isFlash, member⟩ | ⟨hand, type⟩
    · have marked := sound.queues.mem_iff.1 member
      refine ⟨(sound.chains.outstanding tag).2 (.inl ⟨which, marked, ?_⟩),
        flash tag which isFlash marked⟩
      rcases isFlash with rfl | rfl <;> decide
    · exact ⟨(sound.chains.outstanding tag).2 (.inr (.inr hand)), type⟩
  rw [Request.field_of_fixed (·.reqType) (fun _ => rfl) (keeps.fixed tag listed)]
  exact type

/-! ## The DMA engine -/

/-- The DMA engine works and nothing else happens. -/
abbrev DmaServes : Engine Tag → Engine Tag → Prop :=
  Relation.ReflTransGen fun engine engine' => ∃ direction, engine.serve direction = some engine'

def Drained (engine : Engine Tag) : Prop :=
  ∀ direction, (engine.dma direction).served = (engine.dma direction).issued

omit [DecidableEq Tag] in
theorem DmaServes.same (serves : DmaServes engine engine') :
    ∃ dma memory sent, engine' = { engine with dma := dma, memory := memory, sent := sent } := by
  induction serves with
  | refl => exact ⟨engine.dma, engine.memory, engine.sent, rfl⟩
  | tail _ last ih =>
    obtain ⟨direction, served⟩ := last
    obtain ⟨dma, memory, sent, rfl⟩ := ih
    obtain ⟨command, _, rfl⟩ := Option.map_eq_some_iff.1 served
    exact ⟨_, _, _, rfl⟩

omit [DecidableEq Tag] in
theorem exists_serves_direction (direction : Direction) (waiting : Nat) :
    ∀ engine : Engine Tag, (engine.dma direction).served + waiting =
        (engine.dma direction).issued →
      ∃ engine', DmaServes engine engine' ∧
        (engine'.dma direction).served = (engine'.dma direction).issued ∧
        ∀ other, other ≠ direction → engine'.dma other = engine.dma other := by
  induction waiting with
  | zero =>
    intro engine same
    exact ⟨engine, .refl, same, fun _ _ => rfl⟩
  | succ waiting ih =>
    intro engine count
    have inside : (engine.dma direction).served < (engine.dma direction).fifo.length := by
      unfold AutoDma.issued at count
      omega
    obtain ⟨engine', served⟩ : ∃ engine', engine.serve direction = some engine' := by
      unfold serve
      dsimp only
      rw [List.getElem?_eq_getElem inside]
      exact ⟨_, rfl⟩
    have dma : engine'.dma = update engine.dma direction
        { engine.dma direction with served := (engine.dma direction).served + 1 } := by
      obtain ⟨command, _, rfl⟩ := Option.map_eq_some_iff.1 served
      rfl
    obtain ⟨final, serves, all, others⟩ := ih engine' (by
      rw [dma, update_self]
      unfold AutoDma.issued at count ⊢
      dsimp only
      omega)
    refine ⟨final, .head ⟨direction, served⟩ serves, all, ?_⟩
    intro other differs
    rw [others other differs, dma]
    exact update_of_ne differs _ _

omit [DecidableEq Tag] in
theorem exists_drained (wellFormed : ∀ direction, (engine.dma direction).WellFormed) :
    ∃ engine', DmaServes engine engine' ∧ engine'.Drained := by
  obtain ⟨middle, serves, rx, same⟩ := exists_serves_direction .rx _ engine
    (Nat.add_sub_cancel' (wellFormed .rx).served)
  have txSame := same .tx (by decide)
  obtain ⟨final, serves', tx, same'⟩ := exists_serves_direction .tx _ middle
    (Nat.add_sub_cancel' (txSame ▸ (wellFormed .tx).served))
  refine ⟨final, serves.trans serves', ?_⟩
  intro direction
  cases direction with
  | rx =>
    rw [same' .rx (by decide)]
    exact rx
  | tx => exact tx

/-! ## The visits -/

/-- The block offsets are those that `set_auto_tx_dma` and `set_auto_rx_dma` take. -/
def OffsetsFit (engine : Engine Tag) : Prop :=
  ∀ slice ∈ engine.slices, slice.startIndex + slice.numOfNvmeBlock ≤ 256

structure Ready (engine : Engine Tag) (inHand : Option Tag) : Prop where
  sound : Sound engine inHand
  lowLevel : LowLevel engine
  drained : Drained engine
  fit : OffsetsFit engine

namespace Ready

omit [DecidableEq Tag] in
theorem accepts (ready : Ready engine inHand) (live : engine.Live inHand tag)
    (direction : Direction) (ref : BufferRef) :
    (engine.dma direction).accepts ((engine.pool tag).dmaCommands ref) := by
  obtain ⟨_, slice, found, carries, _⟩ := ready.sound.tracks.live tag live
  have fits := ready.fit slice (List.mem_of_getElem? found)
  obtain ⟨_, _, _, few⟩ :=
    commands_of_live ready.sound.tracks ready.sound.balanced live ref
  constructor
  · rw [ready.drained direction]
    exact Nat.add_le_add_left (few.trans (by decide)) _
  · intro command member
    obtain ⟨index, inside, rfl⟩ := List.mem_map.1 member
    have below := List.mem_range.1 inside
    rw [carries.count] at below
    show (engine.pool tag).startIndex + index < 256
    rw [carries.startIndex]
    omega

omit [DecidableEq Tag] in
theorem direction_of_live (tracks : Tracks engine inHand) (live : engine.Live inHand tag) :
    ∃ direction, (engine.pool tag).direction = some direction := by
  obtain ⟨_, slice, _, _, code⟩ := tracks.live tag live
  unfold Request.direction
  rw [code]
  cases slice.code with
  | write => exact ⟨.rx, rfl⟩
  | read => exact ⟨.tx, rfl⟩

/-- `IssueNvmeDmaReq` returns. -/
theorem issueNvmeDmaReq (ready : Ready engine inHand) (live : engine.Live inHand tag)
    (listed : tag ∈ engine.handed) : ∃ engine', engine.issueNvmeDmaReq tag = some engine' := by
  obtain ⟨direction, direct⟩ := direction_of_live ready.sound.tracks live
  obtain ⟨ref, uses⟩ : ∃ ref, (engine.pool tag).dataBuf = some ref := by
    rcases ready.lowLevel tag listed with nand | ⟨_, uses⟩
    · rw [live.1] at nand
      cases nand
    · exact uses
  unfold Engine.issueNvmeDmaReq
  dsimp only
  rw [direct, uses]
  dsimp only
  split
  · exact ⟨_, rfl⟩
  · rw [if_pos (ready.accepts live direction ref)]
    exact ⟨_, rfl⟩

theorem putToLowLevelReqQ (ready : Ready engine (some tag)) (pass : Bool) :
    ∃ engine', engine.putToLowLevelReqQ tag pass = some engine' := by
  have listed : tag ∈ engine.handed :=
    (ready.sound.chains.outstanding tag).2 (.inr (.inr rfl))
  unfold Engine.putToLowLevelReqQ
  rcases ready.lowLevel tag listed with nand | ⟨dma, _⟩
  · rw [nand]
    exact ⟨_, rfl⟩
  · obtain ⟨issued, issue⟩ := ready.issueNvmeDmaReq ⟨dma, .inr (.inr (.inr rfl))⟩ listed
    rw [dma, issue]
    exact ⟨_, rfl⟩

theorem releaseTarget
    (ready : Ready (Moment.release engine target).engine (Moment.release engine target).inHand)
    (pass : Bool) : ∃ engine', engine.releaseTarget target pass = some engine' := by
  cases target with
  | none => exact ⟨engine, rfl⟩
  | some target =>
    unfold Engine.releaseTarget
    unfold Moment.release at ready
    dsimp only at ready ⊢
    split
    next blocked =>
      rw [if_pos blocked] at ready
      exact ready.putToLowLevelReqQ pass
    · exact ⟨_, rfl⟩

/-- What stays the same in a move that leaves the DMA engine and the commands alone. -/
theorem move {after : Moment Tag} (ready : Ready engine none)
    (move : Move allowed ⟨engine, none⟩ after) (dma : after.engine.dma = engine.dma)
    (slices : after.engine.slices = engine.slices) : Ready after.engine after.inHand where
  sound := ready.sound.move move
  lowLevel := ready.lowLevel.move ready.sound move
  drained := by
    unfold Drained
    rw [dma]
    exact ready.drained
  fit := by
    unfold OffsetsFit
    rw [slices]
    exact ready.fit

theorem release_fields (engine : Engine Tag) (target : Option Tag) :
    (Moment.release engine target).engine.dma = engine.dma ∧
      (Moment.release engine target).engine.slices = engine.slices :=
  Moment.release_cases (fun after _ => after.dma = engine.dma ∧ after.slices = engine.slices)
    ⟨rfl, rfl⟩ fun _ _ _ => ⟨rfl, rfl⟩

theorem releaseBlockedByBufDepReq (next : (engine.pool tag).nextBlockingReq = target)
    (ready : Ready (Moment.release (engine.unlink tag) target).engine
      (Moment.release (engine.unlink tag) target).inHand) (pass : Bool) :
    ∃ engine', engine.releaseBlockedByBufDepReq tag pass = some engine' := by
  unfold Engine.releaseBlockedByBufDepReq
  rw [next]
  exact ready.releaseTarget pass

theorem visitNvmeDma {rest : List Tag} {done : Direction → Bool} (ready : Ready engine none)
    (walk : engine.poll = .nvmeDma (tag :: rest) done) (pass : Bool) :
    ∃ engine', engine.visitNvmeDma tag rest done pass = some engine' := by
  unfold Engine.visitNvmeDma
  dsimp only
  split
  next answer =>
    rw [answer]
    have fields := @release_fields Tag _
    have moved := ready.move (@Move.dropNvmeDma Tag _ (fun _ _ => True) engine tag rest done _
      walk rfl (Bool.or_eq_true _ _ ▸ answer)) (fields _ _).1 (fields _ _).2
    exact releaseBlockedByBufDepReq (next_dropped _ _ tag) moved pass
  · exact ⟨_, rfl⟩

end Ready

/-- What a release leaves alone: it moves a request that was blocked by its buffer entry. -/
structure Spares (engine engine' : Engine Tag) : Prop where
  poll : engine'.poll = engine.poll
  served : ∀ direction, (engine'.dma direction).served = (engine.dma direction).served
  stage : engine'.stage = engine.stage
  handed : engine'.handed = engine.handed
  free : engine'.queue .free = engine.queue .free
  others : ∀ tag, (engine.pool tag).reqQueueType ≠ some .blockedByBufDep →
    (engine'.pool tag).core = (engine.pool tag).core

theorem kept_putToLowLevelReqQ {pass : Bool}
    (put : engine.putToLowLevelReqQ tag pass = some engine') :
    engine'.poll = engine.poll ∧
      (∀ direction, (engine'.dma direction).served = (engine.dma direction).served) ∧
      engine'.stage = engine.stage ∧ engine'.handed = engine.handed ∧
      engine'.queue .free = engine.queue .free ∧
      ∀ other, other ≠ tag → engine'.pool other = engine.pool other := by
  have queued : ∀ (issued : Engine Tag) (which : ReqQueueType), which ≠ .free →
      (issued.putTo which tag).queue .free = issued.queue .free := by
    intro issued which used
    exact update_of_ne used.symm _ _
  unfold Engine.putToLowLevelReqQ at put
  split at put
  · obtain ⟨issued, issue, rfl⟩ := Option.map_eq_some_iff.1 put
    have first : issued.poll = engine.poll ∧
        (∀ direction, (issued.dma direction).served = (engine.dma direction).served) ∧
        issued.stage = engine.stage ∧ issued.handed = engine.handed ∧
        issued.queue .free = engine.queue .free ∧
        ∀ other, other ≠ tag → issued.pool other = engine.pool other := by
      obtain ⟨direction, ref, _, _, ⟨_, rfl⟩ | ⟨_, _, rfl⟩⟩ := issueNvmeDmaReq_eq_some issue
      · exact ⟨rfl, fun _ => rfl, rfl, rfl, rfl, fun _ _ => rfl⟩
      · refine ⟨rfl, ?_, rfl, rfl, rfl, fun other differs => update_of_ne differs _ _⟩
        intro other
        by_cases same : other = direction
        · subst same
          simp [Engine.issueTo, AutoDma.issue]
        · simp [Engine.issueTo, same]
    obtain ⟨poll, served, stage, handed, free, others⟩ := first
    split
    · refine ⟨poll, served, stage, handed, (queued _ _ (by decide)).trans free, ?_⟩
      intro other differs
      exact (Fresh.pool_putTo_of_ne differs).trans (others other differs)
    · refine ⟨poll, served, stage, handed, (queued _ _ (by decide)).trans free, ?_⟩
      intro other differs
      exact (Fresh.pool_putTo_of_ne differs).trans (others other differs)
  · cases put
    split
    · exact ⟨rfl, fun _ => rfl, rfl, rfl, queued _ _ (by decide), fun _ differs =>
        Fresh.pool_putTo_of_ne differs⟩
    · exact ⟨rfl, fun _ => rfl, rfl, rfl, queued _ _ (by decide), fun _ differs =>
        Fresh.pool_putTo_of_ne differs⟩
  · cases put

theorem spares_release {pass : Bool}
    (released : engine.releaseBlockedByBufDepReq tag pass = some engine') :
    Spares engine engine' := by
  have core : ∀ other, ((engine.unlink tag).pool other).core = (engine.pool other).core :=
    unlinkPool_core engine.pool tag
  have unlinked : Spares engine (engine.unlink tag) :=
    ⟨rfl, fun _ => rfl, rfl, rfl, rfl, fun other _ => core other⟩
  unfold Engine.releaseBlockedByBufDepReq Engine.releaseTarget at released
  split at released
  · cases released
    exact unlinked
  next target _ =>
    split at released
    next blocked =>
      obtain ⟨poll, served, stage, handed, free, others⟩ := kept_putToLowLevelReqQ released
      refine ⟨poll, served, stage, handed, ?_, ?_⟩
      · rw [free]
        simp [Engine.takeFrom, Engine.unlink]
      · intro other elsewhere
        have differs : other ≠ target := by
          rintro rfl
          rw [Request.field_of_core (·.reqQueueType) (fun _ => rfl) (core other)] at blocked
          exact elsewhere blocked
        rw [others other differs, Fresh.pool_takeFrom_of_ne differs]
        exact core other
    · cases released
      exact unlinked

/-- A visit of the NVMe-DMA queue removes the request or goes on. -/
theorem visitNvmeDma_cases {rest : List Tag} {done : Direction → Bool} {pass : Bool}
    (visited : engine.visitNvmeDma tag rest done pass = some engine') :
    (engine.answered tag done = true ∧
        Spares ({ engine with
          poll := .nvmeDma rest (update done (engine.pool tag).walkDirection true)
            }.dropNvmeDma tag) engine') ∨
      (engine.answered tag done = false ∧ engine' = { engine with
        poll := .nvmeDma rest (update done (engine.pool tag).walkDirection false) }) := by
  unfold Engine.visitNvmeDma at visited
  dsimp only at visited
  split at visited
  next answer =>
    rw [answer] at visited
    exact .inl ⟨answer, spares_release visited⟩
  next answer =>
    rw [Bool.not_eq_true] at answer
    rw [answer] at visited
    cases visited
    exact .inr ⟨answer, rfl⟩

def RxClear (engine : Engine Tag) (tag : Tag) : Prop :=
  (engine.pool tag).reqCode = .rxDma ∨
    (engine.customIoCmd (engine.pool tag).nvmeCmdSlotTag).notCompletedRxCount = 0

/-- A visit of the custom queue removes an issued request that is done, goes on, or issues a
request that is not issued. -/
def CustomVisit (engine engine' : Engine Tag) (tag : Tag) (rest : List Tag)
    (done : Direction → Bool) : Prop :=
  (engine.RxClear tag ∧ (engine.pool tag).issuedFlag = true ∧ engine.answered tag done = true ∧
      Spares ({ engine with
        poll := .customCmd rest (update done (engine.pool tag).walkDirection true)
          }.dropCustomCmd tag) engine') ∨
    ((engine.RxClear tag → (engine.pool tag).issuedFlag = true ∧
        engine.answered tag done = false) ∧
      ∃ done', engine' = { engine with poll := .customCmd rest done' }) ∨
    ((engine.pool tag).issuedFlag = false ∧ ∃ direction ref,
      engine' = { engine with poll := .customCmd rest done }.issueTo direction ref tag)

section

variable {rest : List Tag} {done : Direction → Bool} {pass : Bool}
  (front : (engine.pool tag).prevBlockingReq = none)
include front

theorem visitCustomCmdRequest_cases (clear : engine.RxClear tag)
    (visited : engine.visitCustomCmdRequest tag rest done (engine.pool tag).walkDirection pass =
      some engine') : CustomVisit engine engine' tag rest done := by
  unfold Engine.visitCustomCmdRequest at visited
  dsimp only at visited
  split at visited
  next issued =>
    split at visited
    next answer =>
      rw [answer] at visited
      exact .inl ⟨clear, issued, answer, spares_release visited⟩
    next answer =>
      cases visited
      exact .inr (.inl ⟨fun _ => ⟨issued, Bool.not_eq_true _ ▸ answer⟩, _, rfl⟩)
  next waiting =>
    rw [if_pos (by simp [checkBufDep, front])] at visited
    obtain ⟨direction, ref, _, _, ⟨waits, _⟩ | ⟨_, _, rfl⟩⟩ := issueNvmeDmaReq_eq_some visited
    · exfalso
      rcases clear with rx | none_counted
      · have tx : (engine.pool tag).reqCode = .txDma := waits.1
        rw [rx] at tx
        cases tx
      · exact waits.2.2.2 none_counted
    · exact .inr (.inr ⟨Bool.not_eq_true _ ▸ waiting, direction, ref, rfl⟩)

theorem visitCustomCmd_cases (visited : engine.visitCustomCmd tag rest done pass = some engine') :
    CustomVisit engine engine' tag rest done := by
  unfold Engine.visitCustomCmd at visited
  dsimp only at visited
  split at visited
  next rx =>
    have direct : (engine.pool tag).walkDirection = .rx := if_pos rx
    rw [← direct] at visited
    exact visitCustomCmdRequest_cases front (.inl rx) visited
  next tx =>
    split at visited
    next none_counted =>
      have direct : (engine.pool tag).walkDirection = .tx := if_neg tx
      rw [← direct] at visited
      exact visitCustomCmdRequest_cases front (.inr none_counted) visited
    next counted =>
      cases visited
      refine .inr (.inl ⟨?_, done, rfl⟩)
      rintro (rx | none_counted)
      · exact absurd rx tx
      · exact absurd none_counted counted

end

end Engine
end RwRbuf.Firmware.Requests
