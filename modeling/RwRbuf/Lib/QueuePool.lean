import Mathlib.Algebra.BigOperators.Group.Finset.Piecewise
import Mathlib.Data.Fintype.Defs
import Mathlib.Data.List.Nodup
import Mathlib.Logic.Function.Basic

/-! # A pool of items kept in queues

Each item of a pool is in one queue or is held outside the queues, and carries a mark that
names its queue.  The rules here keep the marks and the queues in step while items are taken
out and put back, one at a time or along a path of such operations.
-/

namespace QueuePool

open Function

variable {Queue Item : Type*} [DecidableEq Queue] [DecidableEq Item]

/-- `loose` lists the items outside the queues that are in use, in the order in which they
were taken. -/
structure State (Queue Item : Type*) where
  mark : Item → Option Queue
  queue : Queue → List Item
  loose : List Item

namespace State

variable (state : State Queue Item)

def take (which : Queue) (item : Item) : State Queue Item where
  mark := update state.mark item none
  queue := update state.queue which ((state.queue which).erase item)
  loose := state.loose ++ [item]

def put (which : Queue) (item : Item) : State Queue Item where
  mark := update state.mark item (some which)
  queue := update state.queue which (state.queue which ++ [item])
  loose := state.loose.dropLast

theorem length_put (which other : Queue) (item : Item) :
    ((state.put which item).queue other).length =
      (state.queue other).length + if other = which then 1 else 0 := by
  show (update state.queue which _ other).length = _
  by_cases same : other = which
  · subst same
    simp
  · simp [same]

theorem length_take {which : Queue} {item : Item} (member : item ∈ state.queue which)
    (other : Queue) : (state.queue other).length =
      ((state.take which item).queue other).length + if other = which then 1 else 0 := by
  show _ = (update state.queue which _ other).length + _
  by_cases same : other = which
  · subst same
    rw [update_self, if_pos rfl, List.length_erase_add_one member]
  · simp [same]

/-- The marks say where the items are. -/
structure Consistent (state : State Queue Item) : Prop where
  mem_iff : ∀ {which item}, item ∈ state.queue which ↔ state.mark item = some which
  nodup : ∀ which, (state.queue which).Nodup
  unmarked : ∀ {item}, item ∈ state.loose → state.mark item = none
  loose_nodup : state.loose.Nodup

namespace Consistent

variable {state : State Queue Item} {which : Queue} {item : Item}

omit [DecidableEq Queue] [DecidableEq Item] in
theorem not_loose (consistent : state.Consistent) (member : item ∈ state.queue which) :
    item ∉ state.loose := by
  intro loose
  have marked := consistent.mem_iff.1 member
  rw [consistent.unmarked loose] at marked
  cases marked

theorem take (consistent : state.Consistent) (member : item ∈ state.queue which) :
    (state.take which item).Consistent := by
  have itemMark := consistent.mem_iff.1 member
  constructor
  · intro queue other
    show other ∈ update state.queue which _ queue ↔ update state.mark item none other = some queue
    by_cases same : other = item
    · subst same
      by_cases sameQueue : queue = which
      · subst sameQueue
        simp [(consistent.nodup queue).not_mem_erase]
      · have elsewhere : other ∉ state.queue queue := by
          rw [consistent.mem_iff, itemMark]
          simpa using Ne.symm sameQueue
        simp [sameQueue, elsewhere]
    · by_cases sameQueue : queue = which
      · subst sameQueue
        simp [same, List.mem_erase_of_ne, consistent.mem_iff]
      · simp [same, sameQueue, consistent.mem_iff]
  · intro queue
    show (update state.queue which _ queue).Nodup
    by_cases sameQueue : queue = which
    · subst sameQueue
      simpa using (consistent.nodup queue).erase item
    · simpa [sameQueue] using consistent.nodup queue
  · intro other loose
    show update state.mark item none other = none
    by_cases same : other = item
    · simp [same]
    · rcases List.mem_append.1 loose with before | new
      · simpa [same] using consistent.unmarked before
      · exact absurd (List.mem_singleton.1 new) same
  · exact List.nodup_append.2 ⟨consistent.loose_nodup, List.nodup_singleton _, by
      intro other before new member' equal
      rw [List.mem_singleton.1 member'] at equal
      exact consistent.not_loose member (equal ▸ before)⟩

theorem put (consistent : state.Consistent) {rest : List Item}
    (last : state.loose = rest ++ [item]) : (state.put which item).Consistent := by
  have itemMark : state.mark item = none := consistent.unmarked (by simp [last])
  have parts := List.nodup_append.1 (last ▸ consistent.loose_nodup)
  have outside : ∀ queue, item ∉ state.queue queue := by
    intro queue
    rw [consistent.mem_iff, itemMark]
    simp
  constructor
  · intro queue other
    show other ∈ update state.queue which _ queue ↔
      update state.mark item (some which) other = some queue
    by_cases same : other = item
    · subst same
      by_cases sameQueue : queue = which
      · subst sameQueue
        simp
      · simp [sameQueue, outside queue, Ne.symm sameQueue]
    · by_cases sameQueue : queue = which
      · subst sameQueue
        simp [same, consistent.mem_iff]
      · simp [same, sameQueue, consistent.mem_iff]
  · intro queue
    show (update state.queue which _ queue).Nodup
    by_cases sameQueue : queue = which
    · subst sameQueue
      rw [update_self, List.nodup_append]
      refine ⟨consistent.nodup queue, List.nodup_singleton _, ?_⟩
      rintro other before new new' rfl
      exact outside queue (List.mem_singleton.1 new' ▸ before)
    · simpa [sameQueue] using consistent.nodup queue
  · intro other loose
    show update state.mark item (some which) other = none
    have before : other ∈ rest := by simpa [put, State.put, last] using loose
    have same : other ≠ item := parts.2.2 other before item (List.mem_singleton_self _)
    rw [update_of_ne same]
    exact consistent.unmarked (by simp [last, before])
  · show (state.loose.dropLast).Nodup
    rw [last, List.dropLast_concat]
    exact parts.1

end Consistent

inductive Op (Queue Item : Type*)
  | take (which : Queue) (item : Item)
  | put (which : Queue) (item : Item)

omit [DecidableEq Queue] [DecidableEq Item] in
def Op.map {Part : Type*} (whole : Part → Queue) : Op Part Item → Op Queue Item
  | .take part item => .take (whole part) item
  | .put part item => .put (whole part) item

def apply : Op Queue Item → State Queue Item
  | .take which item => state.take which item
  | .put which item => state.put which item

omit [DecidableEq Queue] [DecidableEq Item] in
/-- What can be done: any item of a queue is taken, but only the first one of a queue in
`headOnly`; the item that was taken last is put. -/
def Permits (headOnly : Queue → Prop) : Op Queue Item → Prop
  | .take which item => item ∈ state.queue which ∧
      (headOnly which → (state.queue which).head? = some item)
  | .put _ item => ∃ rest, state.loose = rest ++ [item]

inductive Path (headOnly : Queue → Prop) :
    State Queue Item → List (Op Queue Item) → State Queue Item → Prop
  | nil {state : State Queue Item} : Path headOnly state [] state
  | cons {state final : State Queue Item} {op : Op Queue Item} {ops : List (Op Queue Item)}
      (permitted : state.Permits headOnly op) (rest : Path headOnly (state.apply op) ops final) :
      Path headOnly state (op :: ops) final

theorem Path.append {headOnly : Queue → Prop} {first middle last : State Queue Item}
    {ops ops' : List (Op Queue Item)} (path : Path headOnly first ops middle)
    (path' : Path headOnly middle ops' last) : Path headOnly first (ops ++ ops') last := by
  induction path with
  | nil => exact path'
  | cons permitted _ ih => exact .cons permitted (ih path')

namespace Consistent

variable {state : State Queue Item} {headOnly : Queue → Prop}

theorem apply (consistent : state.Consistent) {op : Op Queue Item}
    (permitted : state.Permits headOnly op) : (state.apply op).Consistent := by
  cases op with
  | take which item => exact consistent.take permitted.1
  | put which item =>
    obtain ⟨rest, last⟩ := permitted
    exact consistent.put last

theorem path {final : State Queue Item} {ops : List (Op Queue Item)}
    (consistent : state.Consistent) (path : Path headOnly state ops final) : final.Consistent := by
  induction path with
  | nil => exact consistent
  | cons permitted _ ih => exact ih (consistent.apply permitted)

end Consistent

def Complete (state : State Queue Item) : Prop :=
  ∀ item, state.mark item = none → item ∈ state.loose

theorem Complete.apply {state : State Queue Item} {headOnly : Queue → Prop}
    {op : Op Queue Item} (complete : state.Complete) (permitted : state.Permits headOnly op) :
    (state.apply op).Complete := by
  intro other unmarked
  cases op with
  | take which item =>
    replace unmarked : update state.mark item none other = none := unmarked
    show other ∈ state.loose ++ [item]
    by_cases same : other = item
    · simp [same]
    · rw [update_of_ne same] at unmarked
      exact List.mem_append_left _ (complete other unmarked)
  | put which item =>
    obtain ⟨rest, last⟩ := permitted
    replace unmarked : update state.mark item (some which) other = none := unmarked
    show other ∈ state.loose.dropLast
    have different : other ≠ item := by
      rintro rfl
      simp at unmarked
    rw [update_of_ne different] at unmarked
    have member := complete other unmarked
    rw [last, List.mem_append, List.mem_singleton] at member
    rw [last, List.dropLast_concat]
    exact member.resolve_right different

theorem Complete.path {state final : State Queue Item} {headOnly : Queue → Prop}
    {ops : List (Op Queue Item)} (complete : state.Complete)
    (path : Path headOnly state ops final) : final.Complete := by
  induction path with
  | nil => exact complete
  | cons permitted _ ih => exact ih (complete.apply permitted)

/-! ## Queues in parts

A queue may stand for several queues taken together.  A finer mark then says in which of
them an item is, and each keeps the order of the whole.
-/

section Split

variable {Part : Type*} [DecidableEq Part] {whole : Part → Queue} {mark : Item → Option Part}

omit [DecidableEq Queue] [DecidableEq Item] in
def split (whole : Part → Queue) (mark : Item → Option Part) : State Part Item where
  mark := mark
  queue := fun part => (state.queue (whole part)).filter fun item => mark item = some part
  loose := state.loose

def Refines (state : State Queue Item) (whole : Part → Queue) (mark : Item → Option Part) : Prop :=
  ∀ item, state.mark item = (mark item).map whole

variable {state : State Queue Item} {part : Part} {item : Item}

omit [DecidableEq Queue] [DecidableEq Item] in
theorem Consistent.split (consistent : state.Consistent) (refines : state.Refines whole mark) :
    (state.split whole mark).Consistent := by
  constructor
  · intro part item
    show item ∈ List.filter _ _ ↔ mark item = some part
    rw [List.mem_filter, decide_eq_true_eq]
    constructor
    · exact And.right
    · intro marked
      refine ⟨consistent.mem_iff.2 ?_, marked⟩
      rw [refines item, marked, Option.map_some]
  · intro part
    exact (consistent.nodup _).filter _
  · intro item loose
    have unmarked := consistent.unmarked loose
    rw [refines item, Option.map_eq_none_iff] at unmarked
    exact unmarked
  · exact consistent.loose_nodup

omit [DecidableEq Part] in
theorem Refines.take (refines : state.Refines whole mark) (which : Queue) :
    (state.take which item).Refines whole (update mark item none) := by
  intro other
  show update state.mark item none other = _
  by_cases same : other = item
  · simp [same]
  · simp [same, refines other]

omit [DecidableEq Part] in
theorem Refines.put (refines : state.Refines whole mark) :
    (state.put (whole part) item).Refines whole (update mark item (some part)) := by
  intro other
  show update state.mark item (some (whole part)) other = _
  by_cases same : other = item
  · simp [same]
  · simp [same, refines other]

/-- A change of the finer mark of an item does not matter to a queue without the item. -/
private theorem filter_update {items : List Item} {value : Option Part} (outside : item ∉ items) :
    (items.filter fun other => update mark item value other = some part) =
      items.filter fun other => mark other = some part := by
  apply List.filter_congr
  intro other member
  have different : other ≠ item := by
    rintro rfl
    exact outside member
  rw [update_of_ne different]

theorem split_take (consistent : state.Consistent) (refines : state.Refines whole mark)
    (marked : mark item = some part) :
    (state.take (whole part) item).split whole (update mark item none) =
      (state.split whole mark).take part item := by
  have itemMark : state.mark item = some (whole part) := by
    rw [refines item, marked, Option.map_some]
  unfold split take
  congr 1
  funext other
  dsimp only
  by_cases sameQueue : whole other = whole part
  · have erased := (consistent.nodup (whole part)).erase_eq_filter item
    have absent : item ∉ (state.queue (whole part)).erase item :=
      (consistent.nodup _).not_mem_erase
    rw [sameQueue, update_self, filter_update absent, erased, List.filter_filter]
    by_cases same : other = part
    · subst same
      rw [update_self, ((consistent.nodup _).filter _).erase_eq_filter, List.filter_filter]
      apply List.filter_congr
      intro next _
      rw [Bool.and_comm]
    · rw [update_of_ne same, sameQueue]
      apply List.filter_congr
      intro next _
      by_cases isItem : next = item
      · subst isItem
        simp [marked, Ne.symm same]
      · simp [isItem]
  · have same : other ≠ part := by
      rintro rfl
      exact sameQueue rfl
    have absent : item ∉ state.queue (whole other) := by
      rw [consistent.mem_iff, itemMark]
      simpa using Ne.symm sameQueue
    rw [update_of_ne sameQueue, update_of_ne same, filter_update absent]

theorem split_put (fresh : ∀ which, item ∉ state.queue which) :
    (state.put (whole part) item).split whole (update mark item (some part)) =
      (state.split whole mark).put part item := by
  unfold split put
  congr 1
  funext other
  dsimp only
  by_cases same : other = part
  · subst same
    rw [update_self, update_self, List.filter_append, filter_update (fresh _)]
    simp
  · rw [update_of_ne same]
    by_cases sameQueue : whole other = whole part
    · rw [sameQueue, update_self, List.filter_append, filter_update (fresh _)]
      simp [Ne.symm same]
    · rw [update_of_ne sameQueue, filter_update (fresh _)]

omit [DecidableEq Queue] [DecidableEq Item] in
theorem split_queue_of_only (consistent : state.Consistent) (refines : state.Refines whole mark)
    (only : ∀ other, whole other = whole part → other = part) :
    (state.split whole mark).queue part = state.queue (whole part) := by
  apply List.filter_eq_self.2
  intro item member
  have marked := consistent.mem_iff.1 member
  rw [refines item] at marked
  obtain ⟨other, finer, same⟩ := Option.map_eq_some_iff.1 marked
  rw [finer, only other same, decide_eq_true_eq]

omit [DecidableEq Item] in
private theorem sum_length_filter {Index : Type*} [Fintype Index] [DecidableEq Index]
    {partOf : Index → Part} (injective : Function.Injective partOf) {items : List Item}
    (covered : ∀ item ∈ items, ∃ index, mark item = some (partOf index)) :
    ∑ index, (items.filter fun item => mark item = some (partOf index)).length =
      items.length := by
  induction items with
  | nil => simp
  | cons item rest ih =>
    obtain ⟨index, marked⟩ := covered item List.mem_cons_self
    have one : ∀ other, (List.filter (fun item => mark item = some (partOf other))
        (item :: rest)).length = (if index = other then 1 else 0) +
          (rest.filter fun item => mark item = some (partOf other)).length := by
      intro other
      by_cases same : index = other
      · subst same
        simp [marked, Nat.add_comm]
      · have differs : partOf index ≠ partOf other := fun equal => same (injective equal)
        simp [marked, same, differs]
    rw [Finset.sum_congr rfl fun other _ => one other, Finset.sum_add_distrib,
      Finset.sum_ite_eq Finset.univ index, if_pos (Finset.mem_univ _),
      ih fun other member => covered other (List.mem_cons_of_mem _ member),
      List.length_cons, Nat.add_comm]

omit [DecidableEq Queue] [DecidableEq Item] in
theorem sum_length_split {Index : Type*} [Fintype Index] [DecidableEq Index]
    {partOf : Index → Part} (consistent : state.Consistent) (refines : state.Refines whole mark)
    (injective : Function.Injective partOf) {which : Queue}
    (parts : ∀ part, whole part = which ↔ ∃ index, part = partOf index) :
    ∑ index, ((state.split whole mark).queue (partOf index)).length =
      (state.queue which).length := by
  have same : ∀ index, whole (partOf index) = which := fun index => (parts _).2 ⟨index, rfl⟩
  have covered : ∀ item ∈ state.queue which, ∃ index, mark item = some (partOf index) := by
    intro item member
    have marked := consistent.mem_iff.1 member
    rw [refines item] at marked
    obtain ⟨part, finer, within⟩ := Option.map_eq_some_iff.1 marked
    obtain ⟨index, rfl⟩ := (parts part).1 within
    exact ⟨index, finer⟩
  unfold split
  dsimp only
  rw [Finset.sum_congr rfl fun index _ => by rw [same index]]
  exact sum_length_filter injective covered

end Split
end State
end QueuePool
