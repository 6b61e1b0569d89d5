import RwRbuf.Firmware.HostTimeTable
import Mathlib.Data.List.Nodup
import Mathlib.Data.List.Range

/-! # The work behind the timing table

The counters of the timing table stand for work: the slices that are cut and not finished,
and the eviction writes.  Here the work goes on in steps, each with the call that it makes,
and the table stays exact as long as the calls are ones that it can count.
-/

namespace RwRbuf.Firmware.Requests

/-- The calls of the timing functions, with what they stand for: the slice that is cut, the
command of the DMA request that is removed, and whether a completed write evicts an entry. -/
inductive TimeCall
  | nothing
  | allocateNvmeDmaCnt (slice : Slice)
  | allocateNandReqCnt (cmdSlotTag : Nat)
  | nvmeDmaEnd (cmdSlotTag command : Nat)
  | nandReqEnd (cmdSlotTag : Nat) (evicts : Bool)

def HostTimeTable.call (table : HostTimeTable) (now : Nat) : TimeCall → HostTimeTable
  | .nothing => table
  | .allocateNvmeDmaCnt slice => table.allocateNvmeDmaCnt slice.nvmeCmdSlotTag
  | .allocateNandReqCnt cmdSlotTag => table.allocateNandReqCntForBufferEviction cmdSlotTag
  | .nvmeDmaEnd cmdSlotTag command => table.getTimeHostReqNvmeDmaEnd cmdSlotTag command now
  | .nandReqEnd cmdSlotTag _ => table.getTimeBufferEvictNandReqEnd cmdSlotTag now

/-- The work of the commands: their slices, how many of them were cut and translated, those
whose DMA requests were removed, and the slots of the eviction writes not yet completed. -/
structure Workload where
  slices : List Slice
  commandCount : Nat
  cut : Nat
  translated : Nat
  finished : List Nat
  writes : List Nat

namespace Workload

variable (work : Workload)

def openSlices : List Nat :=
  (List.range work.cut).filter fun sliceNo => sliceNo ∉ work.finished

/-- The slots of the open slices. -/
def openSlots : List Nat :=
  work.openSlices.filterMap fun sliceNo => (work.slices[sliceNo]?).map Slice.nvmeCmdSlotTag

def Done (command : Nat) : Prop :=
  ∀ sliceNo slice, work.slices[sliceNo]? = some slice → slice.command = command →
    sliceNo ∈ work.finished

/-- The work goes on, and a timing function is called.  The commands are cut completely
before they are translated, and the garbage collector's writes end like evictions. -/
inductive Step : TimeCall → Workload → Workload → Prop
  | accept {work : Workload} {cmd : NvmeIoCmd} (cut : work.cut = work.slices.length) :
      Step .nothing work
        { work with
          slices := work.slices ++ cmd.slices work.commandCount
          commandCount := work.commandCount + 1 }
  | cut {work : Workload} {slice : Slice} (next : work.slices[work.cut]? = some slice) :
      Step (.allocateNvmeDmaCnt slice) work { work with cut := work.cut + 1 }
  | translate {work : Workload} (cut : work.cut = work.slices.length) :
      Step .nothing work { work with translated := work.translated + 1 }
  | finish {work : Workload} {sliceNo : Nat} {slice : Slice}
      (found : work.slices[sliceNo]? = some slice) (counted : sliceNo < work.translated)
      (unfinished : sliceNo ∉ work.finished) :
      Step (.nvmeDmaEnd slice.nvmeCmdSlotTag slice.command) work
        { work with finished := sliceNo :: work.finished }
  | evict {work : Workload} {cmdSlotTag : Nat} :
      Step (.allocateNandReqCnt cmdSlotTag) work
        { work with writes := work.writes ++ [cmdSlotTag] }
  | evicted {work : Workload} {cmdSlotTag : Nat} {rest : List Nat}
      (written : work.writes.Perm (cmdSlotTag :: rest)) :
      Step (.nandReqEnd cmdSlotTag true) work { work with writes := rest }
  | collected {work : Workload} {cmdSlotTag : Nat} :
      Step (.nandReqEnd cmdSlotTag false) work work
  | quiet {work : Workload} : Step .nothing work work

/-- What the request engine guarantees of its work. -/
structure WellFormed : Prop where
  finished_lt : ∀ sliceNo ∈ work.finished, sliceNo < work.translated
  translated_le : work.translated ≤ work.cut
  cut_le : work.cut ≤ work.slices.length
  known : ∀ slice ∈ work.slices, slice.command < work.commandCount
  sameSlot : ∀ (first second : Nat) (slice other : Slice),
    work.slices[first]? = some slice → work.slices[second]? = some other →
    slice.command = other.command → slice.nvmeCmdSlotTag = other.nvmeCmdSlotTag
  fewSlots : work.openSlots.length < 2 ^ 32
  fewWrites : work.writes.length < 2 ^ 32

def Alone (slice : Slice) : Prop :=
  ∀ sliceNo ∈ work.openSlices, ∀ other ∈ work.slices[sliceNo]?,
    other.nvmeCmdSlotTag = slice.nvmeCmdSlotTag → other.command = slice.command

instance (slice : Slice) : Decidable (work.Alone slice) :=
  inferInstanceAs (Decidable (∀ sliceNo ∈ work.openSlices, ∀ other ∈ work.slices[sliceNo]?, _))

end Workload

/-- A call that the table can count: a command is cut into a slot without open work of
another command, the table is initialised only after the last open request, and a write that
ends is an eviction. -/
def HostTimeTable.Careful (table : HostTimeTable) (work : Workload) : TimeCall → Prop
  | .allocateNvmeDmaCnt slice => work.Alone slice
  | .nvmeDmaEnd cmdSlotTag _ =>
    (table.entry cmdSlotTag).nvmeDmaCnt = 1 →
      table.bufferWritePoint = printBufferEntryCnt →
      work.openSlices.length = 1 ∧ work.writes = []
  | .nandReqEnd _ evicts => evicts = true
  | _ => True

instance (table : HostTimeTable) (work : Workload) (call : TimeCall) :
    Decidable (table.Careful work call) :=
  match call with
  | .nothing => .isTrue trivial
  | .allocateNvmeDmaCnt slice => inferInstanceAs (Decidable (work.Alone slice))
  | .allocateNandReqCnt _ => .isTrue trivial
  | .nvmeDmaEnd _ _ => inferInstanceAs (Decidable (_ → _ → _ ∧ _))
  | .nandReqEnd _ _ => inferInstanceAs (Decidable (_ = _))

namespace Workload

variable {work : Workload}

theorem mem_openSlices {sliceNo : Nat} :
    sliceNo ∈ work.openSlices ↔ sliceNo < work.cut ∧ sliceNo ∉ work.finished := by
  simp [openSlices]

theorem mem_openSlots {cmdSlotTag : Nat} :
    cmdSlotTag ∈ work.openSlots ↔
      ∃ sliceNo ∈ work.openSlices, ∃ slice, work.slices[sliceNo]? = some slice ∧
        slice.nvmeCmdSlotTag = cmdSlotTag := by
  simp [openSlots, List.mem_filterMap]

theorem openSlots_accept (wellFormed : work.WellFormed) (more : List Slice) (count : Nat) :
    { work with slices := work.slices ++ more, commandCount := count }.openSlots =
      work.openSlots := by
  apply List.filterMap_congr
  intro sliceNo isOpen
  have below : sliceNo < work.slices.length :=
    (mem_openSlices.1 isOpen).1.trans_le wellFormed.cut_le
  dsimp only
  rw [List.getElem?_append_left below]

theorem openSlots_cut (wellFormed : work.WellFormed) {slice : Slice}
    (next : work.slices[work.cut]? = some slice) :
    { work with cut := work.cut + 1 }.openSlots = work.openSlots ++ [slice.nvmeCmdSlotTag] := by
  have fresh : work.cut ∉ work.finished := fun finished =>
    absurd (wellFormed.finished_lt _ finished) (Nat.not_lt.2 wellFormed.translated_le)
  unfold openSlots openSlices
  simp only [List.range_succ, List.filter_append, List.filterMap_append]
  simp [fresh, next]

theorem openSlices_finish {sliceNo : Nat} (isOpen : sliceNo ∈ work.openSlices) :
    work.openSlices.Perm
      (sliceNo :: { work with finished := sliceNo :: work.finished }.openSlices) := by
  have nodup : ∀ work : Workload, work.openSlices.Nodup := fun _ => List.nodup_range.filter _
  have absent : sliceNo ∉ { work with finished := sliceNo :: work.finished }.openSlices := by
    simp [mem_openSlices]
  rw [List.perm_ext_iff_of_nodup (nodup _) (List.nodup_cons.2 ⟨absent, nodup _⟩)]
  intro other
  obtain ⟨below, unfinished⟩ := mem_openSlices.1 isOpen
  by_cases same : other = sliceNo
  · subst same
    simp [isOpen]
  · simp [mem_openSlices, same]

theorem openSlots_finish {sliceNo : Nat} {slice : Slice}
    (found : work.slices[sliceNo]? = some slice) (isOpen : sliceNo ∈ work.openSlices) :
    work.openSlots.Perm (slice.nvmeCmdSlotTag ::
      { work with finished := sliceNo :: work.finished }.openSlots) := by
  have slots := (openSlices_finish isOpen).filterMap
    fun sliceNo => (work.slices[sliceNo]?).map Slice.nvmeCmdSlotTag
  rw [List.filterMap_cons_some (by rw [found]; rfl)] at slots
  exact slots

end Workload

namespace HostTimeTable

variable {table : HostTimeTable} {work : Workload}

/-- The counters of the table are exact, and the end time of a command is recorded once when
it is done and not before. -/
structure Exact (table : HostTimeTable) (work : Workload) : Prop where
  nvmeDmaCnt : ∀ cmdSlotTag,
    (table.entry cmdSlotTag).nvmeDmaCnt = work.openSlots.count cmdSlotTag
  nandReqCnt : ∀ cmdSlotTag, (table.entry cmdSlotTag).nandReqCnt = work.writes.count cmdSlotTag
  recorded : ∀ command, command < work.commandCount → work.Done command →
    (table.ends.map EndRecord.command).count command = 1
  unrecorded : ∀ command, ¬work.Done command →
    (table.ends.map EndRecord.command).count command = 0

/-- With what carries this along a run: the open slices of a slot belong to one command, and
a command that is being translated is cut completely. -/
structure Accurate (table : HostTimeTable) (work : Workload) : Prop extends
    Exact table work where
  noEnd : ∀ cmdSlotTag, (table.entry cmdSlotTag).nvmeDmaEnd = 0
  endsKnown : ∀ record ∈ table.ends, record.command < work.commandCount
  separate : ∀ sliceNo ∈ work.openSlices, ∀ slice, work.slices[sliceNo]? = some slice →
    work.Alone slice
  whole : ∀ (first second : Nat) (slice other : Slice), first < work.translated →
    work.slices[first]? = some slice → work.slices[second]? = some other →
    slice.command = other.command → second < work.cut

variable {cmdSlotTag : Nat}

/-- A counter for each slot that is the number of its occurrences in a list goes up. -/
theorem count_wordUp {slots : List Nat} (few : slots.length + 1 < 2 ^ 32) (other : Nat) :
    (if other = cmdSlotTag then wordUp (slots.count other) else slots.count other) =
      (slots ++ [cmdSlotTag]).count other := by
  have le : slots.count other ≤ slots.length := List.count_le_length
  rw [List.count_append, List.count_singleton]
  by_cases same : other = cmdSlotTag
  · subst same
    simp only [if_pos, beq_self_eq_true, wordUp]
    exact Nat.mod_eq_of_lt (by omega)
  · have different : ¬cmdSlotTag = other := fun equal => same equal.symm
    simp [same, different]

/-- One of its occurrences ends, and the counter is not zero before. -/
theorem count_wordDown {slots rest : List Nat}
    (perm : slots.Perm (cmdSlotTag :: rest)) (other : Nat) :
    (if other = cmdSlotTag then wordDown (slots.count other) else slots.count other) =
      rest.count other := by
  rw [perm.count_eq, List.count_cons]
  by_cases same : other = cmdSlotTag
  · subst same
    simp [wordDown]
  · have different : ¬cmdSlotTag = other := fun equal => same equal.symm
    simp [same, different]

namespace Accurate

theorem count_ends (accurate : Accurate table work) {command : Nat}
    (later : work.commandCount ≤ command) :
    (table.ends.map EndRecord.command).count command = 0 := by
  apply List.count_eq_zero.2
  intro listed
  obtain ⟨record, member, rfl⟩ := List.mem_map.1 listed
  exact absurd (accurate.endsKnown record member) (Nat.not_lt.2 later)

section Accept

variable {cmd : NvmeIoCmd}

/-- The work with one command more. -/
private abbrev accepted (work : Workload) (cmd : NvmeIoCmd) : Workload :=
  { work with
    slices := work.slices ++ cmd.slices work.commandCount
    commandCount := work.commandCount + 1 }

private theorem slice_of_accepted {sliceNo : Nat} {slice : Slice}
    (found : (accepted work cmd).slices[sliceNo]? = some slice) :
    work.slices[sliceNo]? = some slice ∨
      (work.slices.length ≤ sliceNo ∧ slice.command = work.commandCount) := by
  rcases Nat.lt_or_ge sliceNo work.slices.length with old | new
  · rw [List.getElem?_append_left old] at found
    exact .inl found
  · rw [List.getElem?_append_right new] at found
    exact .inr ⟨new, (NvmeIoCmd.shares_of_mem_slices (List.mem_of_getElem? found)).1⟩

private theorem old_slice {sliceNo : Nat} {slice : Slice}
    (found : work.slices[sliceNo]? = some slice) :
    (accepted work cmd).slices[sliceNo]? = some slice := by
  rw [List.getElem?_append_left (List.getElem?_eq_some_iff.1 found).1]
  exact found

private theorem not_done_accepted (wellFormed : work.WellFormed) :
    ¬(accepted work cmd).Done work.commandCount := by
  intro done
  have nonempty : cmd.slices work.commandCount ≠ [] := by
    cases cmd with
    | read | write => exact reqTransNvmeToSlice_ne_nil
    | writeRead => exact List.append_ne_nil_of_left_ne_nil reqTransNvmeToSlice_ne_nil _
  obtain ⟨slice, rest, slices⟩ := List.exists_cons_of_ne_nil nonempty
  have found : (accepted work cmd).slices[work.slices.length]? = some slice := by
    rw [List.getElem?_append_right le_rfl, slices, Nat.sub_self]
    rfl
  have finished := done _ slice found
    (NvmeIoCmd.shares_of_mem_slices (slices ▸ List.mem_cons_self)).1
  have below := wellFormed.finished_lt _ finished
  have bounds := wellFormed.translated_le.trans wellFormed.cut_le
  exact absurd below (Nat.not_lt.2 bounds)

theorem accept (accurate : Accurate table work) (wellFormed : work.WellFormed)
    (cut : work.cut = work.slices.length) : Accurate table (accepted work cmd) := by
  have done : ∀ command, command ≠ work.commandCount →
      ((accepted work cmd).Done command ↔ work.Done command) := by
    intro command old
    constructor
    · intro done sliceNo slice found same
      exact done sliceNo slice (old_slice found) same
    · intro done sliceNo slice found same
      rcases slice_of_accepted found with before | ⟨_, new⟩
      · exact done sliceNo slice before same
      · exact absurd (same.symm.trans new) old
  have isOpen : ∀ sliceNo ∈ work.openSlices, ∀ slice,
      (accepted work cmd).slices[sliceNo]? = some slice → work.slices[sliceNo]? = some slice := by
    intro sliceNo member slice found
    rw [List.getElem?_append_left (cut ▸ (Workload.mem_openSlices.1 member).1)] at found
    exact found
  constructor
  · constructor
    · intro cmdSlotTag
      rw [Workload.openSlots_accept wellFormed]
      exact accurate.nvmeDmaCnt cmdSlotTag
    · exact accurate.nandReqCnt
    · intro command known ended
      have old : command ≠ work.commandCount := by
        rintro rfl
        exact not_done_accepted wellFormed ended
      exact accurate.recorded command
        (lt_of_le_of_ne (Nat.lt_succ_iff.1 known) old) ((done command old).1 ended)
    · intro command unfinished
      by_cases old : command = work.commandCount
      · exact accurate.count_ends old.ge
      · exact accurate.unrecorded command fun ended => unfinished ((done command old).2 ended)
  · exact accurate.noEnd
  · intro record member
    exact (accurate.endsKnown record member).trans (Nat.lt_succ_self _)
  · intro sliceNo member slice found other otherOpen otherSlice otherFound
    exact accurate.separate sliceNo member slice (isOpen sliceNo member slice found) other otherOpen
      otherSlice (isOpen other otherOpen otherSlice otherFound)
  · intro first second slice other translated foundFirst foundSecond same
    have below : first < work.slices.length := by
      rw [← cut]
      exact translated.trans_le wellFormed.translated_le
    have before : work.slices[first]? = some slice := by
      rw [List.getElem?_append_left below] at foundFirst
      exact foundFirst
    rcases slice_of_accepted foundSecond with old | ⟨_, new⟩
    · exact accurate.whole first second slice other translated before old same
    · have known := wellFormed.known slice (List.mem_of_getElem? before)
      exact absurd (same.trans new) known.ne

end Accept

section

variable (accurate : Accurate table work)
include accurate

theorem cutSlice (wellFormed : work.WellFormed)
    (few : work.openSlots.length + 1 < 2 ^ 32) {slice : Slice}
    (next : work.slices[work.cut]? = some slice) (alone : work.Alone slice) :
    Accurate (table.allocateNvmeDmaCnt slice.nvmeCmdSlotTag)
      { work with cut := work.cut + 1 } := by
  constructor
  · constructor
    · intro cmdSlotTag
      rw [Workload.openSlots_cut wellFormed next, ← count_wordUp few, ← accurate.nvmeDmaCnt]
      apply field_modify (·.nvmeDmaCnt)
      intro entry
      rfl
    · intro cmdSlotTag
      rw [← accurate.nandReqCnt]
      apply field_modify_kept (·.nandReqCnt)
      intro entry
      rfl
    · exact accurate.recorded
    · exact accurate.unrecorded
  · intro cmdSlotTag
    rw [← accurate.noEnd cmdSlotTag]
    apply field_modify_kept (·.nvmeDmaEnd)
    intro entry
    rfl
  · exact accurate.endsKnown
  · -- two open slices of the slot: at most one of them is the new one
    intro sliceNo member first found other otherMember second otherFound same
    have earlier : ∀ {number : Nat} {open' : Slice},
        number ∈ { work with cut := work.cut + 1 }.openSlices →
        work.slices[number]? = some open' →
        (number ∈ work.openSlices ∧ work.slices[number]? = some open') ∨ open' = slice := by
      intro number open' isOpen found
      obtain ⟨below, unfinished⟩ := Workload.mem_openSlices.1 isOpen
      rcases Nat.lt_succ_iff_lt_or_eq.1 below with old | rfl
      · exact .inl ⟨Workload.mem_openSlices.2 ⟨old, unfinished⟩, found⟩
      · rw [next] at found
        exact .inr (Option.some.inj found).symm
    rcases earlier member found with ⟨firstOpen, firstFound⟩ | rfl
    · rcases earlier otherMember otherFound with ⟨secondOpen, secondFound⟩ | rfl
      · exact accurate.separate sliceNo firstOpen first firstFound other secondOpen second
          secondFound same
      · exact (alone sliceNo firstOpen first firstFound same.symm).symm
    · rcases earlier otherMember otherFound with ⟨secondOpen, secondFound⟩ | rfl
      · exact alone other secondOpen second secondFound same
      · rfl
  · intro first second earlier later translated foundFirst foundSecond same
    exact (accurate.whole first second earlier later translated foundFirst foundSecond
      same).trans (Nat.lt_succ_self _)

theorem translateSlice (cut : work.cut = work.slices.length) :
    Accurate table { work with translated := work.translated + 1 } :=
  { accurate with
    whole := by
      intro first second slice other _ _ found _
      rw [cut]
      exact (List.getElem?_eq_some_iff.1 found).1 }

theorem ofWrites {slots : List Nat} {table' : HostTimeTable}
    (nandReqCnt : ∀ cmdSlotTag, (table'.entry cmdSlotTag).nandReqCnt = slots.count cmdSlotTag)
    (nvmeDmaCnt : ∀ cmdSlotTag,
      (table'.entry cmdSlotTag).nvmeDmaCnt = (table.entry cmdSlotTag).nvmeDmaCnt)
    (nvmeDmaEnd : ∀ cmdSlotTag,
      (table'.entry cmdSlotTag).nvmeDmaEnd = (table.entry cmdSlotTag).nvmeDmaEnd)
    (ends : table'.ends = table.ends) : Accurate table' { work with writes := slots } where
  nvmeDmaCnt := fun cmdSlotTag => (nvmeDmaCnt cmdSlotTag).trans (accurate.nvmeDmaCnt cmdSlotTag)
  nandReqCnt := nandReqCnt
  recorded := by
    rw [ends]
    exact accurate.recorded
  unrecorded := by
    rw [ends]
    exact accurate.unrecorded
  noEnd := fun cmdSlotTag => (nvmeDmaEnd cmdSlotTag).trans (accurate.noEnd cmdSlotTag)
  endsKnown := by
    rw [ends]
    exact accurate.endsKnown
  separate := accurate.separate
  whole := accurate.whole

theorem evict (few : work.writes.length + 1 < 2 ^ 32) :
    Accurate (table.allocateNandReqCntForBufferEviction cmdSlotTag)
      { work with writes := work.writes ++ [cmdSlotTag] } := by
  apply accurate.ofWrites
  · intro other
    rw [← count_wordUp few, ← accurate.nandReqCnt]
    apply field_modify (·.nandReqCnt)
    intro entry
    rfl
  · apply field_modify_kept (·.nvmeDmaCnt)
    intro entry
    rfl
  · apply field_modify_kept (·.nvmeDmaEnd)
    intro entry
    rfl
  · rfl

theorem evicted (now : Nat) {rest : List Nat} (written : work.writes.Perm (cmdSlotTag :: rest)) :
    Accurate (table.getTimeBufferEvictNandReqEnd cmdSlotTag now) { work with writes := rest } := by
  apply accurate.ofWrites
  · intro other
    rw [← count_wordDown written, ← accurate.nandReqCnt]
    apply field_modify (·.nandReqCnt)
    intro entry
    rfl
  · apply field_modify_kept (·.nvmeDmaCnt)
    intro entry
    rfl
  · apply field_modify_kept (·.nvmeDmaEnd)
    intro entry
    rfl
  · rfl

end

section Finish

variable {sliceNo : Nat} {slice : Slice}

/-- The work with one slice finished. -/
private abbrev finished (work : Workload) (sliceNo : Nat) : Workload :=
  { work with finished := sliceNo :: work.finished }

/-- The count of the slot is one exactly when the slice is the last open one of its command. -/
theorem endsAt_iff (accurate : Accurate table work) (wellFormed : work.WellFormed)
    (found : work.slices[sliceNo]? = some slice) (counted : sliceNo < work.translated)
    (unfinished : sliceNo ∉ work.finished) :
    table.EndsAt slice.nvmeCmdSlotTag ↔ (finished work sliceNo).Done slice.command := by
  have isOpen : sliceNo ∈ work.openSlices :=
    Workload.mem_openSlices.2 ⟨counted.trans_le wellFormed.translated_le, unfinished⟩
  have perm := Workload.openSlots_finish found isOpen
  have zero : table.EndsAt slice.nvmeCmdSlotTag ↔
      slice.nvmeCmdSlotTag ∉ (finished work sliceNo).openSlots := by
    have down := count_wordDown perm slice.nvmeCmdSlotTag
    rw [if_pos rfl, ← accurate.nvmeDmaCnt] at down
    unfold EndsAt
    rw [down, List.count_eq_zero]
    exact and_iff_left (accurate.noEnd _)
  rw [zero]
  constructor
  · intro absent other otherSlice otherFound same
    by_contra open'
    apply absent
    refine Workload.mem_openSlots.2 ⟨other, Workload.mem_openSlices.2 ⟨?_, open'⟩, otherSlice,
      otherFound, wellFormed.sameSlot other sliceNo otherSlice slice otherFound found same⟩
    exact accurate.whole sliceNo other slice otherSlice counted found otherFound same.symm
  · intro done listed
    obtain ⟨other, otherOpen, otherSlice, otherFound, same⟩ := Workload.mem_openSlots.1 listed
    obtain ⟨below, open'⟩ := Workload.mem_openSlices.1 otherOpen
    have before : other ∈ work.openSlices :=
      Workload.mem_openSlices.2 ⟨below, fun old => open' (List.mem_cons_of_mem _ old)⟩
    apply open'
    apply done other otherSlice otherFound
    exact accurate.separate sliceNo isOpen slice found other before otherSlice otherFound same

/-- The other commands are done as before. -/
private theorem done_finished (found : work.slices[sliceNo]? = some slice) {command : Nat}
    (different : command ≠ slice.command) :
    (finished work sliceNo).Done command ↔ work.Done command := by
  constructor
  · intro done other otherSlice otherFound same
    rcases List.mem_cons.1 (done other otherSlice otherFound same) with rfl | old
    · rw [found] at otherFound
      cases otherFound
      exact absurd same.symm different
    · exact old
  · intro done other otherSlice otherFound same
    exact List.mem_cons_of_mem _ (done other otherSlice otherFound same)

theorem finish (accurate : Accurate table work) (wellFormed : work.WellFormed) (now : Nat)
    (found : work.slices[sliceNo]? = some slice) (counted : sliceNo < work.translated)
    (unfinished : sliceNo ∉ work.finished)
    (careful : table.Careful work (.nvmeDmaEnd slice.nvmeCmdSlotTag slice.command)) :
    Accurate (table.getTimeHostReqNvmeDmaEnd slice.nvmeCmdSlotTag slice.command now)
      (finished work sliceNo) := by
  have isOpen : sliceNo ∈ work.openSlices :=
    Workload.mem_openSlices.2 ⟨counted.trans_le wellFormed.translated_le, unfinished⟩
  have slots := Workload.openSlots_finish found isOpen
  have ends := accurate.endsAt_iff wellFormed found counted unfinished
  have notDone : ¬work.Done slice.command := fun done =>
    unfinished (done sliceNo slice found rfl)
  have settled : table.EndsAt slice.nvmeCmdSlotTag →
      table.bufferWritePoint = printBufferEntryCnt →
      ∀ other, (other ≠ slice.nvmeCmdSlotTag → (table.entry other).nvmeDmaCnt = 0) ∧
        (table.entry other).nandReqCnt = 0 := by
    intro last full
    have one : (table.entry slice.nvmeCmdSlotTag).nvmeDmaCnt = 1 := by
      have down := last.1
      unfold wordDown at down
      split at down
      · cases down
      · omega
    obtain ⟨single, noWrites⟩ := careful one full
    have empty : (finished work sliceNo).openSlices = [] := by
      have lengths := (Workload.openSlices_finish isOpen).length_eq
      rw [single, List.length_cons] at lengths
      exact List.eq_nil_of_length_eq_zero (Nat.succ.inj lengths).symm
    have noSlots : (finished work sliceNo).openSlots = [] := by
      unfold Workload.openSlots
      rw [empty]
      rfl
    intro other
    rw [accurate.nvmeDmaCnt, accurate.nandReqCnt, noWrites, slots.count_eq, noSlots]
    refine ⟨fun different => ?_, rfl⟩
    exact List.count_eq_zero.2 fun listed => different (List.mem_singleton.1 listed)
  constructor
  · constructor
    · intro cmdSlotTag
      rw [(counters_getTimeHostReqNvmeDmaEnd settled cmdSlotTag).1, ← count_wordDown slots,
        ← accurate.nvmeDmaCnt]
      apply field_modify (·.nvmeDmaCnt)
      intro entry
      rfl
    · intro cmdSlotTag
      rw [(counters_getTimeHostReqNvmeDmaEnd settled cmdSlotTag).2, ← accurate.nandReqCnt]
      apply field_modify_kept (·.nandReqCnt)
      intro entry
      rfl
    · intro command known done
      rw [ends_getTimeHostReqNvmeDmaEnd]
      by_cases same : command = slice.command
      · subst same
        rw [if_pos (ends.2 done), List.map_cons, List.count_cons_self,
          accurate.unrecorded _ notDone]
      · have before := accurate.recorded command known ((done_finished found same).1 done)
        split
        · rw [List.map_cons, List.count_cons_of_ne (Ne.symm same), before]
        · exact before
    · intro command open'
      rw [ends_getTimeHostReqNvmeDmaEnd]
      by_cases same : command = slice.command
      · subst same
        rw [if_neg fun last => open' (ends.1 last)]
        exact accurate.unrecorded _ notDone
      · have before := accurate.unrecorded command
          fun done => open' ((done_finished found same).2 done)
        split
        · rw [List.map_cons, List.count_cons_of_ne (Ne.symm same), before]
        · exact before
  · exact nvmeDmaEnd_getTimeHostReqNvmeDmaEnd accurate.noEnd
  · intro record member
    rw [ends_getTimeHostReqNvmeDmaEnd] at member
    split at member
    · rcases List.mem_cons.1 member with rfl | old
      · exact wellFormed.known slice (List.mem_of_getElem? found)
      · exact accurate.endsKnown record old
    · exact accurate.endsKnown record member
  · intro first member firstSlice foundFirst second otherMember secondSlice foundSecond
    have before : ∀ number ∈ (finished work sliceNo).openSlices, number ∈ work.openSlices := by
      intro number member
      obtain ⟨below, open'⟩ := Workload.mem_openSlices.1 member
      exact Workload.mem_openSlices.2 ⟨below, fun old => open' (List.mem_cons_of_mem _ old)⟩
    exact accurate.separate first (before first member) firstSlice foundFirst second
      (before second otherMember) secondSlice foundSecond
  · exact accurate.whole

end Finish

theorem step (accurate : Accurate table work) (wellFormed : work.WellFormed) (now : Nat)
    {call : TimeCall} {work' : Workload} (step : Workload.Step call work work')
    (wellFormed' : work'.WellFormed) (careful : table.Careful work call) :
    Accurate (table.call now call) work' := by
  cases step with
  | accept cut => exact accurate.accept wellFormed cut
  | cut next =>
    refine accurate.cutSlice wellFormed ?_ next careful
    have few := wellFormed'.fewSlots
    rw [Workload.openSlots_cut wellFormed next, List.length_append] at few
    exact few
  | translate cut => exact accurate.translateSlice cut
  | finish found counted unfinished =>
    exact accurate.finish wellFormed now found counted unfinished careful
  | evict =>
    refine accurate.evict ?_
    have few := wellFormed'.fewWrites
    rw [List.length_append] at few
    exact few
  | evicted written => exact accurate.evicted now written
  | collected => cases careful
  | quiet => exact accurate

end Accurate

/-- The counter that a call takes down is not zero. -/
def CountsDown (table : HostTimeTable) : TimeCall → Prop
  | .nvmeDmaEnd cmdSlotTag _ => 0 < (table.entry cmdSlotTag).nvmeDmaCnt
  | .nandReqEnd cmdSlotTag _ => 0 < (table.entry cmdSlotTag).nandReqCnt
  | _ => True

theorem Exact.countsDown (exact : Exact table work) (wellFormed : work.WellFormed)
    {call : TimeCall} {work' : Workload} (step : Workload.Step call work work')
    (careful : table.Careful work call) : table.CountsDown call := by
  cases step with
  | finish found counted unfinished =>
    have isOpen := Workload.mem_openSlices.2
      ⟨counted.trans_le wellFormed.translated_le, unfinished⟩
    show 0 < _
    rw [exact.nvmeDmaCnt, List.count_pos_iff]
    exact Workload.mem_openSlots.2 ⟨_, isOpen, _, found, rfl⟩
  | evicted written =>
    show 0 < _
    rw [exact.nandReqCnt, List.count_pos_iff]
    exact written.mem_iff.2 List.mem_cons_self
  | collected => cases careful
  | accept | cut | translate | evict | quiet => trivial

end HostTimeTable
end RwRbuf.Firmware.Requests
