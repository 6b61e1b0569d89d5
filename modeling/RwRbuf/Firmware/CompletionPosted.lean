import RwRbuf.Firmware.RxBeforeTx

/-! # The completion of a write-read command

`CompleteTxforCustomIoCmd` posts the completion of a write-read command when both counters of
its slot are zero.  A slice is counted when it is translated, and between two slices of the
command the translation can wait for a slot and poll.  So the completion is posted once, after
the last request of the command, unless such a poll removes all requests counted so far.
-/

namespace RwRbuf.Firmware.Requests

open Function Fallible

/-- A write-read command reads at least one slice. -/
theorem NvmeIoCmd.exists_read {cmd : NvmeIoCmd} (custom : cmd.customCmd = true) (command : Nat) :
    ∃ read ∈ cmd.slices command, read.code = .read := by
  cases cmd with
  | read | write => cases custom
  | writeRead slot _ _ readStartLba nlbRead =>
    obtain ⟨read, member⟩ := List.exists_mem_of_ne_nil _
      (@reqTransNvmeToSlice_ne_nil command slot readStartLba nlbRead .read true)
    exact ⟨read, List.mem_append_right _ member, (shares_of_mem_reqTransNvmeToSlice member).1.code⟩

namespace Ledger

variable {ledger ledger' : Ledger} {sliceNo : Nat} {slice : Slice}

/-- The requests of all slices of the command are removed. -/
def Removed (ledger : Ledger) (command : Nat) : Prop :=
  ∀ sliceNo slice, ledger.slices[sliceNo]? = some slice → slice.command = command →
    sliceNo ∈ ledger.finished

/-- If the removal of the request posts the completion of its command, then all slices of the
command are counted. -/
def PostsLast (ledger : Ledger) (slice : Slice) : Prop :=
  (ledger.customIoCmd slice.nvmeCmdSlotTag).posts slice.code.dmaCode = true →
    ∀ other ∈ ledger.slices.drop ledger.translated, other.command ≠ slice.command

/-- An unfinished command holds its slot, and the completions posted are those of the commands
whose requests are removed. -/
structure Settled (ledger : Ledger) : Prop where
  owner : ∀ sliceNo slice, ledger.slices[sliceNo]? = some slice → slice.customCmd = true →
    sliceNo ∉ ledger.finished → ledger.slotOwner slice.nvmeCmdSlotTag = some slice.command
  reads : ∀ slice ∈ ledger.slices, slice.customCmd = true →
    ∃ read ∈ ledger.slices, read.command = slice.command ∧ read.code = .read
  rxFinished : ∀ sliceNo ∈ ledger.finished, ∀ slice, ledger.slices[sliceNo]? = some slice →
    slice.code = .read → ledger.RxFinished sliceNo
  known : ∀ command ∈ ledger.completions, command < ledger.commandCount
  nodup : ledger.completions.Nodup
  posted : ∀ slice ∈ ledger.slices, slice.customCmd = true →
    (slice.command ∈ ledger.completions ↔ ledger.Removed slice.command)

namespace Settled

theorem initial : Ledger.initial.Settled := by
  constructor <;> simp [Ledger.initial]

section

variable (settled : ledger.Settled) (balanced : ledger.Balanced)
include settled balanced

theorem accept {cmd : NvmeIoCmd} (free : ledger.slotOwner cmd.cmdSlotTag = none) :
    (ledger.accept cmd).Settled := by
  have finished_lt : ∀ sliceNo ∈ ledger.finished, sliceNo < ledger.slices.length :=
    fun sliceNo member => (balanced.finished_lt sliceNo member).trans_le balanced.translated_le
  constructor
  · intro sliceNo slice found custom unfinished
    show (if cmd.customCmd then _ else ledger.slotOwner) slice.nvmeCmdSlotTag = _
    rcases getElem?_accept found with old | ⟨_, new⟩
    · have owner := settled.owner sliceNo slice old custom unfinished
      split
      · rw [update_of_ne, owner]
        intro same
        rw [same, free] at owner
        cases owner
      · exact owner
    · obtain ⟨command, slot, kind, _⟩ := NvmeIoCmd.shares_of_mem_slices new
      rw [if_pos (kind.symm.trans custom), slot, update_self, command]
  · intro slice member custom
    rcases List.mem_append.1 member with old | new
    · obtain ⟨read, found, rest⟩ := settled.reads slice old custom
      exact ⟨read, List.mem_append_left _ found, rest⟩
    · obtain ⟨command, _, kind, _⟩ := NvmeIoCmd.shares_of_mem_slices new
      obtain ⟨read, found, code⟩ :=
        NvmeIoCmd.exists_read (kind.symm.trans custom) ledger.commandCount
      refine ⟨read, List.mem_append_right _ found, ?_, code⟩
      rw [command, (NvmeIoCmd.shares_of_mem_slices found).1]
  · intro sliceNo member slice found code
    have inside := finished_lt sliceNo member
    exact RxFinished.accept
      (settled.rxFinished sliceNo member slice (getElem?_of_accept inside found) code) balanced
      inside cmd
  · intro command member
    exact Nat.lt_succ_of_lt (settled.known command member)
  · exact settled.nodup
  · intro slice member custom
    rcases List.mem_append.1 member with old | new
    · refine (settled.posted slice old custom).trans ⟨?_, ?_⟩
      · intro removed sliceNo other found same
        rcases getElem?_accept found with before | ⟨_, after⟩
        · exact removed sliceNo other before same
        · have lt := balanced.known slice old
          rw [← same, (NvmeIoCmd.shares_of_mem_slices after).1] at lt
          exact absurd lt (Nat.lt_irrefl _)
      · intro removed sliceNo other found same
        refine removed sliceNo other ?_ same
        rw [← found]
        exact List.getElem?_append_left (List.getElem?_eq_some_iff.1 found).1
    -- the new command is not posted, and none of its slices is finished
    · constructor
      · intro posted
        have lt := settled.known _ posted
        rw [(NvmeIoCmd.shares_of_mem_slices new).1] at lt
        exact absurd lt (Nat.lt_irrefl _)
      · intro removed
        obtain ⟨index, inside, found⟩ := List.mem_iff_getElem.1 new
        have lt := finished_lt (ledger.slices.length + index) (removed _ slice
          (by simp [Ledger.accept, inside, found]) rfl)
        omega

end

section

variable (settled : ledger.Settled) (balanced : ledger.Balanced)
  (few : ledger.outstanding.length < 2 ^ 16) (found : ledger.slices[sliceNo]? = some slice)
  (counted : sliceNo < ledger.translated) (unfinished : sliceNo ∉ ledger.finished)
  (permitted : slice.customCmd = true → ledger.PostsLast slice)
include settled balanced few found counted unfinished permitted

/-- The removal of a request posts the completion exactly when it is the last one. -/
theorem posts_iff_removed (custom : slice.customCmd = true) :
    (ledger.customIoCmd slice.nvmeCmdSlotTag).posts slice.code.dmaCode = true ↔
      (ledger.finish sliceNo slice).Removed slice.command := by
  have after : (ledger.customIoCmd slice.nvmeCmdSlotTag).complete slice.code.dmaCode =
      (ledger.finish sliceNo slice).customIoCmd slice.nvmeCmdSlotTag := by
    simp [Ledger.finish, custom]
  have balanced' := balanced.finish found counted unfinished
  constructor
  · intro posts other slice' foundOther same
    obtain ⟨slot, kind⟩ := balanced.same_slot foundOther found same
    have inside : other < ledger.translated := by
      by_contra late
      refine permitted custom posts slice' ?_ same
      apply List.mem_of_getElem? (i := other - ledger.translated)
      rw [List.getElem?_drop, Nat.add_sub_cancel' (Nat.not_lt.1 late)]
      exact foundOther
    apply balanced'.finished_of_counter_eq_zero _ foundOther inside (kind.trans custom)
    · rw [slot, ← after]
      exact ((CustomIoCmdCompleteEntry.posts_iff _ _).1 posts).2 _
    · rw [outstanding_finish]
      exact List.length_erase_le.trans_lt few
  · intro removed
    rw [CustomIoCmdCompleteEntry.posts_iff, after]
    constructor
    · cases code : slice.code with
      | read => rfl
      | write =>
        -- the read slices are finished, but only after the written ones
        obtain ⟨read, member, same, isRead⟩ :=
          settled.reads slice (List.mem_of_getElem? found) custom
        obtain ⟨index, foundRead⟩ := List.mem_iff_getElem?.1 member
        rcases List.mem_cons.1 (removed index read foundRead same) with rfl | before
        · rw [found] at foundRead
          cases foundRead
          rw [code] at isRead
          cases isRead
        · have kind := (balanced.same_slot foundRead found same).2
          exact absurd (settled.rxFinished index before read foundRead isRead read foundRead
            (kind.trans custom) sliceNo slice found same.symm code) unfinished
    · intro code
      rw [balanced'.counters, List.countP_eq_zero.2, Nat.zero_mod]
      intro index outstanding counts
      obtain ⟨other, foundOther, kind, _, slot⟩ := counts_eq_true.1 counts
      have left := (mem_outstanding.1 outstanding).2
      have owner := settled.owner index other foundOther kind
        fun member => left (List.mem_cons_of_mem _ member)
      rw [slot, settled.owner sliceNo slice found custom unfinished] at owner
      exact left (removed index other foundOther (Option.some.inj owner).symm)

theorem finish (noRx : slice.customCmd = true → slice.code = .read →
      (ledger.customIoCmd slice.nvmeCmdSlotTag).counter .write = 0) :
    (ledger.finish sliceNo slice).Settled := by
  have member := List.mem_of_getElem? found
  have unposted : slice.customCmd = true → slice.command ∉ ledger.completions :=
    fun custom posted => unfinished
      ((settled.posted slice member custom).1 posted sliceNo slice found rfl)
  have last := settled.posts_iff_removed balanced few found counted unfinished permitted
  constructor
  · intro other slice' foundOther kind left
    have before := settled.owner other slice' foundOther kind
      fun member => left (List.mem_cons_of_mem _ member)
    show (if _ then update ledger.slotOwner _ none else ledger.slotOwner) _ = _
    split
    next posts =>
      rw [Bool.and_eq_true] at posts
      rw [update_of_ne, before]
      intro same
      rw [same, settled.owner sliceNo slice found posts.1 unfinished] at before
      exact left ((last posts.1).1 posts.2 other slice' foundOther (Option.some.inj before).symm)
    · exact before
  · exact settled.reads
  · intro other finished slice' foundOther code read foundRead custom index written foundWritten
      same write
    apply List.mem_cons_of_mem
    rcases List.mem_cons.1 finished with rfl | before
    · have equal : slice = slice' := Option.some.inj (found.symm.trans foundOther)
      have equal' : slice = read := Option.some.inj (found.symm.trans foundRead)
      subst equal equal'
      exact balanced.written_finished few found counted custom code (noRx custom code)
        foundWritten same write
    · exact settled.rxFinished other before slice' foundOther code read foundRead custom index
        written foundWritten same write
  · intro command
    show command ∈ (if _ then _ else _) → _
    split
    · intro listed
      rcases List.mem_cons.1 listed with rfl | old
      · exact balanced.known slice member
      · exact settled.known command old
    · exact settled.known command
  · show List.Nodup (if _ then _ else _)
    split
    next posts =>
      rw [Bool.and_eq_true] at posts
      exact List.nodup_cons.2 ⟨unposted posts.1, settled.nodup⟩
    · exact settled.nodup
  · intro other listed kind
    show other.command ∈ (if _ then _ else _) ↔ _
    by_cases same : other.command = slice.command
    · obtain ⟨index, foundOther⟩ := List.mem_iff_getElem?.1 listed
      have custom := (balanced.same_slot foundOther found same).2.symm.trans kind
      rw [same, ← last custom, custom, Bool.true_and]
      split
      next posts => simp [posts]
      next posts => simp [posts, unposted custom]
    · have kept : other.command ∈ ledger.completions ↔
          (ledger.finish sliceNo slice).Removed other.command := by
        refine (settled.posted other listed kind).trans ⟨?_, ?_⟩
        · intro removed index slice' foundOther isSame
          exact List.mem_cons_of_mem _ (removed index slice' foundOther isSame)
        · intro removed index slice' foundOther isSame
          rcases List.mem_cons.1 (removed index slice' foundOther isSame) with rfl | old
          · rw [found] at foundOther
            cases foundOther
            exact absurd isSame.symm same
          · exact old
      rw [← kept]
      split
      · simp [same]
      · rfl

end

theorem step {fresh : Ledger → NvmeIoCmd → Prop} (settled : ledger.Settled)
    (balanced : ledger.Balanced) (few : ledger.outstanding.length < 2 ^ 16)
    (step : Step fresh PostsLast ledger ledger') : ledger'.Settled := by
  cases step with
  | accept _ free => exact settled.accept balanced free
  | count =>
    exact ⟨settled.owner, settled.reads, settled.rxFinished, settled.known, settled.nodup,
      settled.posted⟩
  | finish found counted unfinished noRx permitted =>
    exact settled.finish balanced few found counted unfinished permitted noRx

end Settled
end Ledger

namespace Engine

variable {Tag : Type}

/-- The request whose removal posts the completion of its command, if the event visits it. -/
def posting (engine : Engine Tag) (event : Event Tag) : Option Tag :=
  match event, engine.poll with
  | .visit _, .customCmd (tag :: _) done =>
    let request := engine.pool tag
    if request.issuedFlag ∧ engine.answered tag done ∧
        (engine.customIoCmd request.nvmeCmdSlotTag).posts request.reqCode then
      some tag
    else none
  | _, _ => none

/-- No completion is posted while slices of the command are not yet translated. -/
def PostsLast (engine : Engine Tag) (event : Event Tag) : Prop :=
  ∀ tag ∈ engine.posting event, ∀ slice ∈ engine.slices.drop engine.translated,
    slice.command ≠ engine.commandOf tag

instance (engine : Engine Tag) (event : Event Tag) : Decidable (engine.PostsLast event) :=
  inferInstanceAs (Decidable (∀ _ ∈ _, _))

theorem permits_postsLast :
    Tracks.Permits (PostsLast : Engine Tag → Event Tag → Prop) (fun _ _ => True)
      Ledger.PostsLast where
  fresh := fun _ _ _ _ => trivial
  calm := by
    intro engine tag rest done pass slice permitted walk issued answer found carries code posts
    have command : engine.commandOf tag = slice.command := by
      unfold commandOf
      rw [found]
      rfl
    rw [← command]
    apply permitted tag
    rw [← carries.slot, ← code] at posts
    have last : (engine.customIoCmd (engine.pool tag).nvmeCmdSlotTag).posts
        (engine.pool tag).reqCode = true := posts
    simp [posting, walk, issued, answered, answer, last]

end Engine

/-- The completion of every write-read command is posted once, when all its requests are
removed, as long as no poll removes the only counted request of a command with slices that are
not yet counted. -/
theorem completion_posted_once (config : Config) (engine : Engine config.Tag)
    (run : Relation.ReflTransGen (Fallible.EventStep Engine.step Engine.PostsLast)
      config.initial engine) :
    engine.completions.Nodup ∧ ∀ slice ∈ engine.slices, slice.customCmd = true →
      (slice.command ∈ engine.completions ↔ ∀ sliceNo other,
        engine.slices[sliceNo]? = some other → other.command = slice.command →
          sliceNo ∈ engine.finished) := by
  have both := run_of_moves
    (fun engine inHand => engine.Sound inHand ∧ engine.ledger.Settled)
    ⟨config.initial_sound, .initial⟩ ?_ run
  · exact ⟨both.2.nodup, both.2.posted⟩
  · rintro before after ⟨sound, settled⟩ move
    refine ⟨sound.move move, ?_⟩
    obtain ⟨_, same | step⟩ := sound.tracks.move Engine.permits_postsLast sound.queues
      sound.balanced move
    · rw [same]
      exact settled
    · exact settled.step sound.balanced ((Engine.outstanding_le sound.tracks).trans_lt
        config.card_lt) step

/-- The write-read command of one slice runs to its end. -/
def sameSliceDoneEvents {Tag : Type} : List (Event Tag) :=
  List.flatten [sameSliceEvents, sameSliceSentEvents, [.visit true, .endPoll],
    List.replicate 4 (.serve .tx), [.startPoll, .visit true, .visit true]]

theorem sameSliceDoneEvents_run :
    (runAllowed Engine.step Engine.PostsLast sameSliceDoneEvents Config.oneDie.initial).any
      (fun engine => engine.completions = [0] ∧ engine.slices.map Slice.customCmd = [true, true]) =
        true := by
  decide +kernel

/-- The completion is posted, and both requests of the command are removed. -/
theorem completion_posted_once_sameSlice :
    ∃ engine : Engine Config.oneDie.Tag, (engine.completions = [0] ∧
        engine.slices.map Slice.customCmd = [true, true]) ∧
      ∀ slice ∈ engine.slices, slice.customCmd = true →
        (slice.command ∈ engine.completions ↔ ∀ sliceNo other,
          engine.slices[sliceNo]? = some other → other.command = slice.command →
            sliceNo ∈ engine.finished) := by
  obtain ⟨engine, run, posted⟩ := (Option.any_eq_true _ _).1 sameSliceDoneEvents_run
  have reached := reaches_of_runAllowed _ run
  exact ⟨engine, of_decide_eq_true posted, (completion_posted_once _ _ reached).2⟩

/-- Plain commands leave the slice 2 in the flash and the entry of R-Buf dirty, with five slots
in use.  A write-read command takes the other 123 slots: it writes the slice 1 and reads this
and the 121 next ones.  For the slice 2 it waits for two slots, one to evict the entry and
one to fetch the slice; in the first wait its Rx request is removed and in the second one the
Tx request of slice 1. -/
def earlyPostEvents {Tag : Type} : List (Event Tag) :=
  let advances (count : Nat) : List (Event Tag) := List.replicate count (.advance ⟨[], true⟩)
  let poll : List (Event Tag) := .startPoll :: List.replicate 4 (.visit true)
  List.flatten [[.command (.read 0 8 3)], advances 8, [.command (.write 1 8 3)], advances 5,
    [.command (.read 2 0 3)], advances 9, [.command (.write 3 0 3)], advances 5,
    [.command (.writeRead 4 4 3 4 487)], advances 132, List.replicate 4 (.serve .rx), poll,
    [.endPoll], advances 3, List.replicate 8 (.serve .tx), poll]

theorem earlyPostEvents_run :
    (runEvents Engine.step earlyPostEvents Config.oneDie.initial).any (fun engine =>
      engine.completions = [4] ∧ engine.translated = 6 ∧
        (∀ sliceNo ∈ engine.finished, sliceNo < 6) ∧
        (engine.slices.drop 6).map Slice.command = List.replicate 121 4) = true := by
  decide +kernel

/-- The completion of the write-read command is posted, and of the slices that it reads only
the first one is counted. -/
theorem early_completion_posted :
    ∃ engine, Relation.ReflTransGen (Fallible.EventStep Engine.step fun _ _ => True)
        Config.oneDie.initial engine ∧
      engine.completions = [4] ∧ engine.translated = 6 ∧
      (∀ sliceNo ∈ engine.finished, sliceNo < 6) ∧
      (engine.slices.drop 6).map Slice.command = List.replicate 121 4 := by
  obtain ⟨engine, run, posted⟩ := (Option.any_eq_true _ _).1 earlyPostEvents_run
  exact ⟨engine, reaches_of_runEvents _ (fun _ _ _ => trivial) run, of_decide_eq_true posted⟩

end RwRbuf.Firmware.Requests
