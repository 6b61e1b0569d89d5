import Mathlib.Logic.Function.Basic

/-! # Outstanding copies

A store moves data between its places, but not always in the order in which the moves were
handed over.  What it will hold when all of them are done is found by replaying them in the
order of the handover.  A move that is carried out early leaves this unchanged if it uses no
place of the moves that were handed over before it.
-/

namespace PendingOperations

open Function

variable {Item Place Value : Type*}

structure Copy (Place Value : Type*) where
  target : Place
  source : Place
  value : Value → Value

variable [DecidableEq Place]

namespace Copy

variable {copy first second : Copy Place Value} {place : Place} {state : Place → Value}

def apply (copy : Copy Place Value) (state : Place → Value) : Place → Value :=
  update state copy.target (copy.value (state copy.source))

omit [DecidableEq Place] in
def Uses (copy : Copy Place Value) (place : Place) : Prop :=
  place = copy.target ∨ place = copy.source

theorem apply_self {target source : Place} {value : Value → Value} :
    apply ⟨target, source, value⟩ state target = value (state source) :=
  update_self ..

theorem apply_of_ne (differs : place ≠ copy.target) : copy.apply state place = state place :=
  update_of_ne differs ..

theorem apply_comm (apart : ∀ place, first.Uses place → ¬second.Uses place) :
    first.apply (second.apply state) = second.apply (first.apply state) := by
  have source : first.source ≠ second.target := fun same =>
    apart first.source (.inr rfl) (.inl same)
  have target : second.source ≠ first.target := fun same =>
    apart first.target (.inl rfl) (.inr same.symm)
  have targets : first.target ≠ second.target := fun same =>
    apart first.target (.inl rfl) (.inl same)
  unfold apply
  rw [update_of_ne source, update_of_ne target]
  exact update_comm targets.symm ..

end Copy

def settle (copies : Item → Copy Place Value) (items : List Item) (state : Place → Value) :
    Place → Value :=
  items.foldl (fun state item => (copies item).apply state) state

variable {copies copies' : Item → Copy Place Value} {items front back : List Item} {item : Item}
  {state : Place → Value}

theorem settle_append (items : List Item) (item : Item) :
    settle copies (items ++ [item]) state = (copies item).apply (settle copies items state) := by
  simp [settle]

theorem settle_split (front back : List Item) (item : Item) :
    settle copies (front ++ item :: back) state =
      settle copies back ((copies item).apply (settle copies front state)) := by
  simp [settle]

theorem settle_congr (same : ∀ item ∈ items, copies' item = copies item) :
    settle copies' items state = settle copies items state := by
  unfold settle
  induction items generalizing state with
  | nil => rfl
  | cons item rest ih =>
    rw [List.foldl_cons, List.foldl_cons, same item List.mem_cons_self]
    exact ih fun other member => same other (List.mem_cons_of_mem _ member)

theorem settle_of_untouched {place : Place} (untouched : ∀ item ∈ items,
    place ≠ (copies item).target) : settle copies items state place = state place := by
  unfold settle
  induction items generalizing state with
  | nil => rfl
  | cons item rest ih =>
    rw [List.foldl_cons, ih fun other member => untouched other (List.mem_cons_of_mem _ member)]
    exact Copy.apply_of_ne (untouched item List.mem_cons_self)

/-- A copy that shares no place with the others can be made after them as well. -/
theorem settle_comm {early : Copy Place Value}
    (apart : ∀ item ∈ items, ∀ place, (copies item).Uses place → ¬early.Uses place) :
    settle copies items (early.apply state) = early.apply (settle copies items state) := by
  unfold settle
  induction items generalizing state with
  | nil => rfl
  | cons item rest ih =>
    rw [List.foldl_cons, Copy.apply_comm (apart item List.mem_cons_self)]
    exact ih fun other member => apart other (List.mem_cons_of_mem _ member)

/-- A copy is carried out before those that were handed over earlier. -/
theorem settle_execute
    (apart : ∀ other ∈ front, ∀ place, (copies other).Uses place → ¬(copies item).Uses place) :
    settle copies (front ++ back) ((copies item).apply state) =
      settle copies (front ++ item :: back) state := by
  have first := @settle_comm _ _ _ _ copies front state (copies item) apart
  unfold settle at first ⊢
  rw [List.foldl_append, List.foldl_append, first]
  rfl

/-- A copy is carried out early, and a later one makes it undone again. -/
theorem settle_absorb {early : Copy Place Value}
    (apart : ∀ other ∈ front, ∀ place, (copies other).Uses place → ¬early.Uses place)
    (absorbed : ∀ state, (copies item).apply (early.apply state) = (copies item).apply state) :
    settle copies (front ++ item :: back) (early.apply state) =
      settle copies (front ++ item :: back) state := by
  have first := @settle_comm _ _ _ _ copies front state early apart
  unfold settle at first ⊢
  rw [List.foldl_append, List.foldl_append, first, List.foldl_cons, List.foldl_cons, absorbed]

end PendingOperations
