import Mathlib.Data.List.Basic
import Mathlib.Logic.Relation

/-! # Rules for computations that may stop

A program that can stop on an assert is a function into `Except`.  The rules here
take such computations apart and carry an invariant through a bounded loop.
-/

namespace Fallible

open Relation

universe u

variable {Error State : Type*} {Value Result : Type u}

variable {first : Except Error Value}

theorem bind_eq_ok {next : Value → Except Error Result} {result : Result} :
    first >>= next = .ok result ↔ ∃ value, first = .ok value ∧ next value = .ok result := by
  cases first with
  | error stop =>
    constructor
    · intro impossible
      cases impossible
    · rintro ⟨value, impossible, _⟩
      cases impossible
  | ok value =>
    constructor
    · intro same
      exact ⟨value, rfl, same⟩
    · rintro ⟨_, ⟨⟩, same⟩
      exact same

theorem bind_eq_error {next : Value → Except Error Result} {stop : Error} :
    first >>= next = .error stop ↔
      first = .error stop ∨ ∃ value, first = .ok value ∧ next value = .error stop := by
  cases first with
  | error other | ok value => simp [bind, Except.bind]

theorem ok_of_toOption {value : Value}
    (found : first.toOption = some value) : first = .ok value := by
  cases first with
  | error stop => cases found
  | ok other => exact congrArg _ (Option.some.inj found)

section Loop

variable (body : State → Nat → Except Error State)

theorem foldlM_range_succ (count : Nat) (start : State) :
    (List.range (count + 1)).foldlM body start =
      (List.range count).foldlM body start >>= fun state => body state count := by
  rw [List.range_succ, List.foldlM_append]
  simp

variable {body}

/-- An invariant that every iteration keeps holds after a loop that did not stop. -/
theorem loop_invariant (Invariant : Nat → State → Prop) {count : Nat} {start final : State}
    (initial : Invariant 0 start)
    (step : ∀ index < count, ∀ state state', Invariant index state →
      body state index = .ok state' → Invariant (index + 1) state')
    (finished : (List.range count).foldlM body start = .ok final) : Invariant count final := by
  induction count generalizing final with
  | zero =>
    have : start = final := by simpa [pure, Except.pure] using finished
    exact this ▸ initial
  | succ count ih =>
    rw [foldlM_range_succ, bind_eq_ok] at finished
    obtain ⟨middle, beforeEq, lastEq⟩ := finished
    have middleHolds := ih (fun index bound => step index (by omega)) beforeEq
    exact step count (by omega) middle final middleHolds lastEq

/-- If no iteration stops while the invariant holds, then the loop does not stop. -/
theorem loop_total (Invariant : Nat → State → Prop) {count : Nat} {start : State}
    (initial : Invariant 0 start)
    (step : ∀ index < count, ∀ state, Invariant index state →
      ∃ state', body state index = .ok state' ∧ Invariant (index + 1) state') :
    ∃ final, (List.range count).foldlM body start = .ok final ∧ Invariant count final := by
  induction count with
  | zero => exact ⟨start, rfl, initial⟩
  | succ count ih =>
    obtain ⟨middle, middleEq, middleHolds⟩ := ih fun index bound => step index (by omega)
    obtain ⟨final, finalEq, finalHolds⟩ := step count (by omega) middle middleHolds
    refine ⟨final, ?_, finalHolds⟩
    rw [foldlM_range_succ, bind_eq_ok]
    exact ⟨middle, middleEq, finalEq⟩

end Loop

variable {start final : State}

/-- What holds at the start of a run and is kept by each step holds along the run. -/
theorem run_invariant {Step : State → State → Prop} (Invariant : State → Prop)
    (initial : Invariant start)
    (step : ∀ state state', Invariant state → Step state state' → Invariant state')
    (run : ReflTransGen Step start final) : Invariant final := by
  induction run with
  | refl => exact initial
  | tail _ last ih => exact step _ _ ih last

section Events

variable {Event : Type*} (step : State → Event → Option State)

/-- One event of a machine, at a state where it is allowed. -/
def EventStep (allowed : State → Event → Prop) (state state' : State) : Prop :=
  ∃ event, allowed state event ∧ step state event = some state'

/-- A list of events taken one after another. -/
def runEvents : List Event → State → Option State
  | [], state => some state
  | event :: rest, state => (step state event).bind (runEvents rest)

variable {step}

theorem reaches_mono {allowed permitted : State → Event → Prop}
    (weaker : ∀ state event, allowed state event → permitted state event)
    (run : ReflTransGen (EventStep step allowed) start final) :
    ReflTransGen (EventStep step permitted) start final := by
  apply ReflTransGen.mono _ start final run
  rintro state state' ⟨event, isAllowed, taken⟩
  exact ⟨event, weaker state event isAllowed, taken⟩

theorem reaches_of_runEvents {allowed : State → Event → Prop}
    (events : List Event) (always : ∀ event ∈ events, ∀ state, allowed state event)
    (taken : runEvents step events start = some final) :
    ReflTransGen (EventStep step allowed) start final := by
  induction events generalizing start with
  | nil =>
    cases taken
    exact .refl
  | cons event rest ih =>
    obtain ⟨middle, first, later⟩ := Option.bind_eq_some_iff.1 taken
    have tail := ih (fun next member => always next (List.mem_cons_of_mem _ member)) later
    exact .head ⟨event, always event List.mem_cons_self start, first⟩ tail

variable (step)

/-- A list of events taken one after another, as long as each is allowed. -/
def runAllowed (allowed : State → Event → Prop) [∀ state event, Decidable (allowed state event)] :
    List Event → State → Option State
  | [], state => some state
  | event :: rest, state =>
    if allowed state event then (step state event).bind (runAllowed allowed rest) else none

variable {step}

theorem reaches_of_runAllowed {allowed : State → Event → Prop}
    [∀ state event, Decidable (allowed state event)] (events : List Event)
    (taken : runAllowed step allowed events start = some final) :
    ReflTransGen (EventStep step allowed) start final := by
  induction events generalizing start with
  | nil =>
    cases taken
    exact .refl
  | cons event rest ih =>
    unfold runAllowed at taken
    split at taken
    next permitted =>
      obtain ⟨middle, first, later⟩ := Option.bind_eq_some_iff.1 taken
      exact .head ⟨event, permitted, first⟩ (ih later)
    · cases taken

end Events

end Fallible
