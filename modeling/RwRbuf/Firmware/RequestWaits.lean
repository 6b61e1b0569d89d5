import RwRbuf.Firmware.RequestOrder

/-! # Who waits for whom

A request waits for the one before it on its buffer entry, and a Tx request of a write-read
command waits for the Rx requests of its slot.  As long as the slot of a command with
outstanding requests is not given to another command, both rules only point to requests that
were handed over earlier, so they never close a cycle.
-/

namespace RwRbuf.Firmware.Requests

namespace Ledger

variable {ledger ledger' : Ledger}

/-- No outstanding slice of a write-read command uses the slot of the command. -/
def SlotUnused (ledger : Ledger) (cmd : NvmeIoCmd) : Prop :=
  ∀ sliceNo ∈ ledger.outstanding, ∀ slice, ledger.slices[sliceNo]? = some slice →
    slice.customCmd = true → slice.nvmeCmdSlotTag ≠ cmd.cmdSlotTag

/-- The slices of write-read commands that are not finished and use one slot belong to one
command. -/
def SlotsSeparate (ledger : Ledger) : Prop :=
  ∀ first second earlier later, ledger.slices[first]? = some earlier →
    ledger.slices[second]? = some later → first ∉ ledger.finished → second ∉ ledger.finished →
    earlier.customCmd = true → later.customCmd = true →
    earlier.nvmeCmdSlotTag = later.nvmeCmdSlotTag → earlier.command = later.command

private theorem SlotsSeparate.accept (separate : ledger.SlotsSeparate) {cmd : NvmeIoCmd}
    (idle : ledger.translated = ledger.slices.length) (unused : ledger.SlotUnused cmd) :
    (ledger.accept cmd).SlotsSeparate := by
  -- an old unfinished slice of a write-read command has another slot than the new command
  have apart : ∀ sliceNo slice, ledger.slices[sliceNo]? = some slice →
      sliceNo ∉ ledger.finished → slice.customCmd = true →
      slice.nvmeCmdSlotTag ≠ cmd.cmdSlotTag := by
    intro sliceNo slice found unfinished custom
    refine unused sliceNo (mem_outstanding.2 ⟨?_, unfinished⟩) slice found custom
    rw [idle]
    exact (List.getElem?_eq_some_iff.1 found).1
  intro first second earlier later found found' unfinished unfinished' custom custom' slot
  rcases getElem?_accept found with old | ⟨_, new⟩
  · rcases getElem?_accept found' with old' | ⟨_, new'⟩
    · exact separate first second earlier later old old' unfinished unfinished' custom custom' slot
    · obtain ⟨_, used, _⟩ := NvmeIoCmd.shares_of_mem_slices new'
      exact absurd (slot.trans used) (apart first earlier old unfinished custom)
  · obtain ⟨command, used, _⟩ := NvmeIoCmd.shares_of_mem_slices new
    rcases getElem?_accept found' with old' | ⟨_, new'⟩
    · exact absurd (slot.symm.trans used) (apart second later old' unfinished' custom')
    · rw [command, (NvmeIoCmd.shares_of_mem_slices new').1]

theorem SlotsSeparate.step {calm : Ledger → Slice → Prop} (separate : ledger.SlotsSeparate)
    (step : Step SlotUnused calm ledger ledger') : ledger'.SlotsSeparate := by
  cases step with
  | accept idle _ unused => exact separate.accept idle unused
  | count => exact separate
  | finish =>
    intro first second earlier later found found' unfinished unfinished'
    exact separate first second earlier later found found'
      (fun member => unfinished (List.mem_cons_of_mem _ member))
      (fun member => unfinished' (List.mem_cons_of_mem _ member))

theorem SlotsSeparate.initial : Ledger.initial.SlotsSeparate := by
  intro first second earlier later found
  cases found

end Ledger

/-- In a list without repetition an item stands before the ones behind it. -/
private theorem idxOf_lt_of_sublist {Item : Type} [DecidableEq Item] {items : List Item}
    {first second : Item} (nodup : items.Nodup) (inOrder : [first, second].Sublist items) :
    items.idxOf first < items.idxOf second := by
  induction items with
  | nil => cases inOrder
  | cons item items ih =>
    obtain ⟨absent, nodup'⟩ := List.nodup_cons.1 nodup
    cases inOrder with
    | cons _ later =>
      have different : first ≠ item := fun same =>
        absent (same ▸ later.subset (by simp))
      have different' : second ≠ item := fun same =>
        absent (same ▸ later.subset (by simp))
      rw [List.idxOf_cons_ne _ different.symm, List.idxOf_cons_ne _ different'.symm]
      exact Nat.succ_lt_succ (ih nodup' later)
    | cons_cons _ later =>
      have different : second ≠ first := fun same =>
        absent (same ▸ later.subset (by simp))
      rw [List.idxOf_cons_self, List.idxOf_cons_ne _ different.symm]
      exact Nat.succ_pos _

variable {Tag : Type} [DecidableEq Tag]

namespace Engine

section Relation

variable (engine : Engine Tag)

/-- A command comes in a slot that no outstanding request of a write-read command uses. -/
def SlotUnused : Event Tag → Prop
  | .command cmd => ∀ tag, engine.Live none tag → (engine.pool tag).customCmd = true →
      (engine.pool tag).nvmeCmdSlotTag ≠ cmd.cmdSlotTag
  | _ => True

/-- A request waits for the previous one on its buffer entry, and a Tx request of a write-read
command for the unfinished Rx requests that are counted in its slot. -/
inductive WaitsFor : Tag → Tag → Prop
  | buffer {tag target : Tag} (prev : (engine.pool tag).prevBlockingReq = some target) :
      WaitsFor tag target
  | rx {tag target : Tag} (live : engine.Live none tag) (live' : engine.Live none target)
      (custom : (engine.pool tag).customCmd = true)
      (custom' : (engine.pool target).customCmd = true)
      (tx : (engine.pool tag).reqCode = .txDma) (rx : (engine.pool target).reqCode = .rxDma)
      (slot : (engine.pool tag).nvmeCmdSlotTag = (engine.pool target).nvmeCmdSlotTag) :
      WaitsFor tag target

/-- The request was handed to `SelectLowLevelReqQ` before the other one. -/
def Earlier (target tag : Tag) : Prop :=
  target ∈ engine.handed ∧ tag ∈ engine.handed ∧
    engine.handed.idxOf target < engine.handed.idxOf tag

end Relation

variable {engine : Engine Tag} {tag target : Tag}

omit [DecidableEq Tag] in
theorem permits_slotUnused :
    Tracks.Permits (SlotUnused : Engine Tag → Event Tag → Prop) Ledger.SlotUnused
      fun _ _ => True where
  fresh := by
    intro engine cmd tracks unused sliceNo outstanding slice found custom
    obtain ⟨tag, live, number⟩ := tracks.accounted sliceNo outstanding
    obtain ⟨_, carried, found', carries, _⟩ := tracks.live tag live
    have same : engine.slices[sliceNo]? = some slice := found
    rw [number, same] at found'
    cases found'
    rw [← carries.slot]
    exact unused tag live (carries.custom.trans custom)
  calm := fun _ _ _ _ _ _ _ => trivial

omit [DecidableEq Tag] in
theorem Live.mem_handed (live : engine.Live none tag) (chains : Chains engine none) :
    tag ∈ engine.handed := by
  rw [chains.outstanding]
  rcases live.2 with queued | queued | queued | held
  · exact .inl ⟨_, queued, by decide, by decide⟩
  · exact .inl ⟨_, queued, by decide, by decide⟩
  · exact .inl ⟨_, queued, by decide, by decide⟩
  · cases held

theorem earlier_of_prev (chains : Chains engine none)
    (prev : (engine.pool tag).prevBlockingReq = some target) : engine.Earlier target tag := by
  obtain ⟨ref, front, back, split⟩ := chains.chained.prev_mem prev
  have chain : (engine.chainState.chain ref).Sublist engine.handed := List.filter_sublist
  rw [split] at chain
  refine ⟨chain.subset (by simp), chain.subset (by simp), ?_⟩
  apply idxOf_lt_of_sublist chains.chained.nodup
  refine List.Sublist.trans ?_ chain
  exact ((List.nil_sublist back).cons_cons tag |>.cons_cons target).trans
    (List.sublist_append_right front _)

theorem earlier_of_sliceNo (ordered : Ordered engine) (listed : tag ∈ engine.handed)
    (listed' : target ∈ engine.handed) (dma : (engine.pool tag).reqType = .nvmeDma)
    (dma' : (engine.pool target).reqType = .nvmeDma)
    (less : (engine.pool target).sliceNo < (engine.pool tag).sliceNo) :
    engine.Earlier target tag := by
  have inside := List.idxOf_lt_length_of_mem listed
  have inside' := List.idxOf_lt_length_of_mem listed'
  refine ⟨listed', listed, ?_⟩
  rcases Nat.lt_trichotomy (engine.handed.idxOf target) (engine.handed.idxOf tag) with
    before | same | behind
  · exact before
  · have equal := (List.idxOf_inj listed').1 same
    rw [equal] at less
    exact absurd less (Nat.lt_irrefl _)
  · have reverse := List.pairwise_iff_getElem.1 ordered.sorted _ _ inside inside' behind
    rw [List.getElem_idxOf, List.getElem_idxOf] at reverse
    exact absurd (less.trans (reverse dma dma')) (Nat.lt_irrefl _)

omit [DecidableEq Tag] in
/-- The Rx request belongs to the command of the Tx request and to an earlier slice. -/
theorem rx_before_tx (tracks : Tracks engine none) (balanced : engine.ledger.Balanced)
    (separate : engine.ledger.SlotsSeparate) (live : engine.Live none tag)
    (live' : engine.Live none target) (custom : (engine.pool tag).customCmd = true)
    (custom' : (engine.pool target).customCmd = true)
    (tx : (engine.pool tag).reqCode = .txDma) (rx : (engine.pool target).reqCode = .rxDma)
    (slot : (engine.pool tag).nvmeCmdSlotTag = (engine.pool target).nvmeCmdSlotTag) :
    engine.commandOf tag = engine.commandOf target ∧
      (engine.pool target).sliceNo < (engine.pool tag).sliceNo := by
  obtain ⟨outstanding, slice, found, carries, code⟩ := tracks.live tag live
  obtain ⟨outstanding', written, found', carries', code'⟩ := tracks.live target live'
  have read : slice.code = .read := by
    rw [tx] at code
    cases codes : slice.code with
    | write => simp [codes, CmdCode.dmaCode] at code
    | read => rfl
  have write : written.code = .write := by
    rw [rx] at code'
    cases codes : written.code with
    | write => rfl
    | read => simp [codes, CmdCode.dmaCode] at code'
  have command : slice.command = written.command := by
    apply separate _ _ slice written found found' (Ledger.mem_outstanding.1 outstanding).2
      (Ledger.mem_outstanding.1 outstanding').2
    · exact carries.custom.symm.trans custom
    · exact carries'.custom.symm.trans custom'
    · rw [← carries.slot, ← carries'.slot]
      exact slot
  constructor
  · unfold commandOf
    rw [found, found', Option.map_some, Option.map_some, command]
  · rcases Nat.lt_trichotomy (engine.pool target).sliceNo (engine.pool tag).sliceNo with
      before | same | behind
    · exact before
    · rw [same, found] at found'
      cases found'
      rw [read] at write
      cases write
    · have readToo := (balanced.follows behind found found' command).code read
      rw [readToo] at write
      cases write

omit [DecidableEq Tag] in
/-- When the counter of the slot holds a Tx request back, one of the counted Rx requests is
still outstanding. -/
theorem exists_rx_of_waitsForRx (tracks : Tracks engine none)
    (balanced : engine.ledger.Balanced) (live : engine.Live none tag)
    (waits : engine.waitsForRx (engine.pool tag)) : ∃ target, engine.WaitsFor tag target := by
  obtain ⟨tx, custom, _, counted⟩ := waits
  have counter := balanced.counters .write (engine.pool tag).nvmeCmdSlotTag
  have some_counted : engine.ledger.outstanding.countP
      (engine.ledger.counts .write (engine.pool tag).nvmeCmdSlotTag) ≠ 0 := by
    intro zero
    rw [zero] at counter
    exact counted counter
  obtain ⟨sliceNo, outstanding, counts⟩ :=
    List.countP_pos_iff.1 (Nat.pos_of_ne_zero some_counted)
  obtain ⟨written, found, custom', write, slot⟩ := Ledger.counts_eq_true.1 counts
  obtain ⟨target, live', number⟩ := tracks.accounted sliceNo outstanding
  obtain ⟨_, carried, found', carries, code⟩ := tracks.live target live'
  have same : engine.slices[sliceNo]? = some written := found
  rw [number, same] at found'
  cases found'
  refine ⟨target, .rx live live' custom (carries.custom.trans custom') tx ?_ ?_⟩
  · rw [code, write]
    rfl
  · rw [carries.slot, slot]

theorem WaitsFor.earlier (sound : Sound engine none) (separate : engine.ledger.SlotsSeparate)
    (waits : engine.WaitsFor tag target) : engine.Earlier target tag := by
  cases waits with
  | buffer prev => exact earlier_of_prev sound.chains prev
  | rx live live' custom custom' tx rx slot =>
    obtain ⟨_, before⟩ := rx_before_tx sound.tracks sound.balanced separate live live' custom
      custom' tx rx slot
    exact earlier_of_sliceNo sound.ordered (live.mem_handed sound.chains)
      (live'.mem_handed sound.chains) live.1 live'.1 before

theorem idxOf_lt_of_transGen (earlier : ∀ tag target, engine.WaitsFor tag target →
      engine.Earlier target tag) (path : Relation.TransGen engine.WaitsFor tag target) :
    engine.handed.idxOf target < engine.handed.idxOf tag := by
  induction path with
  | single waits => exact (earlier _ _ waits).2.2
  | tail _ waits ih => exact (earlier _ _ waits).2.2.trans ih

end Engine

/-- In every reachable state the requests only wait for requests handed over earlier, a Tx
request only for Rx requests of its own command.  So there is no cycle, and as long as a
request is outstanding one of them waits for none; the guard of `IssueNvmeDmaReq` holds no
other requests back than this relation does. -/
theorem waits_for_earlier (config : Config) (engine : Engine config.Tag)
    (run : Relation.ReflTransGen (Fallible.EventStep Engine.step Engine.SlotUnused)
      config.initial engine) :
    (∀ tag target, engine.WaitsFor tag target → engine.Earlier target tag ∧
      ((engine.pool tag).prevBlockingReq = some target ∨
        engine.commandOf tag = engine.commandOf target)) ∧
      (∀ tag, ¬Relation.TransGen engine.WaitsFor tag tag) ∧
      (∀ tag, engine.Live none tag → engine.waitsForRx (engine.pool tag) →
        ∃ target, engine.WaitsFor tag target) ∧
      ∀ tag ∈ engine.handed, ∃ first ∈ engine.handed, ∀ target, ¬engine.WaitsFor first target := by
  have sound := sound_of_run run
  obtain ⟨_, _, past⟩ := ledger_of_run Engine.permits_slotUnused run
  have separate : engine.ledger.SlotsSeparate :=
    Fallible.run_invariant Ledger.SlotsSeparate .initial (fun _ _ before step => before.step step)
      past
  have earlier : ∀ tag target, engine.WaitsFor tag target → engine.Earlier target tag :=
    fun _ _ waits => waits.earlier sound separate
  refine ⟨?_, ?_, ?_, ?_⟩
  · intro tag target waits
    refine ⟨earlier tag target waits, ?_⟩
    cases waits with
    | buffer prev => exact .inl prev
    | rx live live' custom custom' tx rx slot =>
      exact .inr (Engine.rx_before_tx sound.tracks sound.balanced separate live live' custom
        custom' tx rx slot).1
  · intro tag path
    exact absurd (Engine.idxOf_lt_of_transGen earlier path) (Nat.lt_irrefl _)
  · intro tag live waits
    exact Engine.exists_rx_of_waitsForRx sound.tracks sound.balanced live waits
  · intro tag listed
    obtain ⟨first, rest, split⟩ := List.exists_cons_of_ne_nil (List.ne_nil_of_mem listed)
    refine ⟨first, by simp [split], ?_⟩
    intro target waits
    have before := (earlier first target waits).2.2
    rw [split, List.idxOf_cons_self] at before
    exact Nat.not_lt_zero _ before

/-- The Tx request of the command waits for its Rx request on the entry of their slice. -/
theorem waits_for_earlier_sameSlice :
    sameSliceEngine.WaitsFor ⟨1, by decide⟩ ⟨0, by decide⟩ ∧
      sameSliceEngine.Earlier ⟨0, by decide⟩ ⟨1, by decide⟩ := by
  have reached : Relation.ReflTransGen (Fallible.EventStep Engine.step Engine.SlotUnused)
      Config.oneDie.initial sameSliceEngine := by
    refine sameSliceEngine_reached ?_ fun _ _ => trivial
    intro tag live
    cases live.1
  have waits : sameSliceEngine.WaitsFor ⟨1, by decide⟩ ⟨0, by decide⟩ := .buffer (by decide)
  exact ⟨waits, ((waits_for_earlier _ _ reached).1 _ _ waits).1⟩

end RwRbuf.Firmware.Requests
