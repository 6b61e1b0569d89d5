import RwRbuf.Firmware.DmaProgress

/-! # `SyncAvailFreeReq`

`GetFromFreeReqQ` waits in this loop until a slot is free.  The loop polls, and the polls free
the slots of the requests that were handed over.  If all slots are held by slices that are not
translated yet, nothing was handed over, and the loop never ends.
-/

namespace RwRbuf.Firmware.Requests

variable {Tag : Type} [DecidableEq Tag]

namespace Engine

variable {engine engine' : Engine Tag} {tag : Tag}

omit [DecidableEq Tag] in
/-- The main loop needs a slot next. -/
def needsSlot (engine : Engine Tag) : Bool :=
  match engine.stage with
  | .cutting (_ :: _) => true
  | .evicting tag => (engine.pool tag).dataBuf.any fun ref => (engine.entryOf ref).dirty
  | .collecting _ _ (_ :: _) => true
  | .fetching tag => engine.needsFetch (engine.pool tag)
  | _ => false

structure Full (engine : Engine Tag) : Prop where
  cutting : ∃ slice rest, engine.stage = .cutting (slice :: rest)
  empty : ∀ which, which ≠ .slice → engine.queue which = []
  walked : ∀ which remaining, engine.poll.walk = some (which, remaining) → remaining = []

theorem Full.step {event : Event Tag} (full : engine.Full)
    (taken : engine.step event = some engine') : engine'.Full ∧ engine'.stage = engine.stage := by
  obtain ⟨slice, rest, stage⟩ := full.cutting
  have polled : ∀ poll : Poll Tag,
      (∀ which remaining, poll.walk = some (which, remaining) → remaining = []) →
      { engine with poll := poll }.Full := fun _ walked => ⟨full.cutting, full.empty, walked⟩
  have starts : ∀ which, which ≠ .slice → (engine.queue which).reverse = [] := by
    intro which kind
    rw [full.empty which kind]
    rfl
  unfold Engine.step at taken
  cases event with
  | serve direction =>
    obtain ⟨_, _, rfl⟩ := Option.map_eq_some_iff.1 taken
    exact ⟨⟨full.cutting, full.empty, full.walked⟩, rfl⟩
  | command cmd => cases poll : engine.poll <;> simp [poll, accept, stage] at taken
  | advance answer =>
    cases poll : engine.poll <;>
      simp [poll, advance, stage, cutSlice, full.empty .free (by decide)] at taken
  | startPoll =>
    dsimp only at taken
    split at taken
    · split at taken
      · cases taken
        refine ⟨polled _ ?_, rfl⟩
        rintro which remaining ⟨⟩
        exact starts .nvmeDma (by decide)
      · cases taken
    · cases taken
  | visit pass =>
    replace taken : engine.visit pass = some engine' := taken
    unfold visit at taken
    split at taken
    next walk => cases full.walked .nvmeDma _ (by rw [walk]; rfl)
    · cases taken
      refine ⟨polled _ ?_, rfl⟩
      rintro which remaining ⟨⟩
      exact starts .customCmd (by decide)
    next walk => cases full.walked .customCmd _ (by rw [walk]; rfl)
    · cases taken
      exact ⟨polled _ (fun _ _ walk => by cases walk), rfl⟩
    · cases taken
  | nandDone tag pass =>
    cases poll : engine.poll <;>
      simp [poll, selectiveGetFromNandReqQ, full.empty .nand (by decide)] at taken
  | rowAddrDepDone tag =>
    cases poll : engine.poll <;> simp [poll, releaseBlockedByRowAddrDepReq,
      full.empty .blockedByRowAddrDep (by decide)] at taken
  | endPoll =>
    dsimp only at taken
    split at taken
    · cases taken
      exact ⟨polled _ (fun _ _ walk => by cases walk), rfl⟩
    · cases taken

theorem reaches_full (free : List Tag) :
    ∀ (engine : Engine Tag) (rest : List Slice), engine.queue .free = free →
      engine.stage = .cutting rest → engine.poll = .idle → free.length < rest.length →
      (∀ which, which ≠ .slice → which ≠ .free → engine.queue which = []) →
      ∃ engine', Relation.ReflTransGen (Fallible.EventStep step fun _ _ => True) engine engine' ∧
        engine'.Full := by
  induction free with
  | nil =>
    intro engine rest none_free stage quiet longer empty
    refine ⟨engine, .refl, ?_, ?_, ?_⟩
    · obtain ⟨slice, rest', rfl⟩ := List.exists_cons_of_length_pos longer
      exact ⟨slice, rest', stage⟩
    · intro which kind
      by_cases isFree : which = .free
      · rw [isFree, none_free]
      · exact empty which kind isFree
    · intro which remaining walk
      rw [quiet] at walk
      cases walk
  | cons tag free ih =>
    intro engine rest head stage quiet longer empty
    obtain ⟨slice, rest', rfl⟩ := List.exists_cons_of_length_pos (Nat.zero_lt_of_lt longer)
    have taken : engine.step (.advance ⟨[], true⟩) = some (engine.cutInto slice rest' tag) := by
      unfold step
      dsimp only
      rw [quiet]
      dsimp only
      rw [advance, stage]
      dsimp only
      rw [cutSlice, head]
    obtain ⟨engine', later, full⟩ := ih (engine.cutInto slice rest' tag) rest'
      (by simp [cutInto, Engine.putTo, Engine.modify, Engine.takeFrom, head]) rfl quiet
      (Nat.lt_of_succ_lt_succ longer)
      (by
        intro which kind isFree
        simpa [cutInto, Engine.putTo, Engine.modify, Engine.takeFrom, kind, isFree] using
          empty which kind isFree)
    exact ⟨engine', .head ⟨_, trivial, taken⟩ later, full⟩

end Engine

/-- A command with more slices than there are slots comes when no request is outstanding.
Then the firmware waits for a slot, and whatever happens it waits forever. -/
theorem syncAvailFreeReq_hangs (config : Config) (engine : Engine config.Tag)
    (run : Relation.ReflTransGen (Fallible.EventStep Engine.step fun _ _ => True) config.initial
      engine) (between : engine.stage = .idle) (quiet : engine.poll = .idle)
    (settled : engine.handed = []) (cmd : NvmeIoCmd)
    (unowned : engine.slotOwner cmd.cmdSlotTag = none)
    (long : config.poolSize < (cmd.slices engine.commandCount).length) :
    ∃ waiting, Relation.ReflTransGen (Fallible.EventStep Engine.step fun _ _ => True) engine
        waiting ∧ waiting.needsSlot = true ∧ ∀ after,
      Relation.ReflTransGen (Fallible.EventStep Engine.step fun _ _ => True) waiting after →
        after.queue .free = [] ∧ after.stage = waiting.stage := by
  have sound := sound_of_run run
  have accepts : ∃ accepted, engine.step (.command cmd) = some accepted ∧
      accepted.queue = engine.queue ∧ accepted.poll = .idle ∧
      accepted.stage = .cutting (cmd.slices engine.commandCount) := by
    unfold Engine.step Engine.accept
    dsimp only
    rw [quiet]
    dsimp only
    rw [between]
    dsimp only
    rw [if_pos unowned]
    exact ⟨_, rfl, rfl, rfl, rfl⟩
  obtain ⟨accepted, taken, queue, poll, stage⟩ := accepts
  have few : (engine.queue .free).length < (cmd.slices engine.commandCount).length := by
    have bound := (List.subperm_of_subset (sound.queues.consistent.nodup .free)
      fun tag _ => List.mem_finRange tag).length_le
    rw [List.length_finRange] at bound
    exact bound.trans_lt long
  have empty : ∀ which, which ≠ .slice → which ≠ .free → engine.queue which = [] := by
    intro which notSlice notFree
    apply List.eq_nil_iff_forall_not_mem.2
    intro tag member
    have listed := (sound.chains.outstanding tag).2
      (.inl ⟨which, sound.queues.mem_iff.1 member, notFree, notSlice⟩)
    rw [settled] at listed
    cases listed
  obtain ⟨waiting, cuts, full⟩ := Engine.reaches_full _ accepted _ rfl stage poll
    (by rw [queue]; exact few) (by rw [queue]; exact empty)
  refine ⟨waiting, .head ⟨_, trivial, taken⟩ cuts, ?_, ?_⟩
  · obtain ⟨slice, rest, cutting⟩ := full.cutting
    unfold Engine.needsSlot
    rw [cutting]
  · intro after later
    have kept := Fallible.run_invariant
      (fun after : Engine config.Tag => after.Full ∧ after.stage = waiting.stage) ⟨full, rfl⟩ ?_
      later
    · exact ⟨kept.1.empty .free (by decide), kept.2⟩
    · rintro before after ⟨full, stage⟩ ⟨_, _, taken⟩
      obtain ⟨full', same⟩ := full.step taken
      exact ⟨full', same.trans stage⟩

/-- With one die a read of 516 blocks, which the handlers accept, stops the firmware. -/
theorem syncAvailFreeReq_hangs_longRead :
    NvmeIoCmd.Accepted 1000 (.read 0 0 515) ∧
    ∃ waiting, Relation.ReflTransGen (Fallible.EventStep Engine.step fun _ _ => True)
        Config.oneDie.initial waiting ∧ waiting.needsSlot = true ∧ ∀ after,
      Relation.ReflTransGen (Fallible.EventStep Engine.step fun _ _ => True) waiting after →
        after.queue .free = [] ∧ after.stage = waiting.stage :=
  ⟨⟨by decide, by decide⟩, syncAvailFreeReq_hangs Config.oneDie _ .refl rfl rfl rfl
    (.read 0 0 515) rfl (by decide +kernel)⟩

end RwRbuf.Firmware.Requests
