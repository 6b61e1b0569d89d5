import Mathlib.Logic.Function.Basic
import Mathlib.Logic.Relation

/-! # A write-back cache

The slots of a cache show some of the keys of a store.  What is written goes to the slot of
its key, and the store gets it when the slot is given to another key.  One key is served at a
time.  A key that no slot shows gets a slot in several steps: the value of the old key goes to
the store if it was changed, the slot is bound to the new key, and its value is fetched unless
the store has none or all of it is written next.
-/

namespace WriteBackCache

open Function

/-- How far a key is served.  All blocks of a slot that is `ready true` are written next. -/
inductive Phase
  | evicting
  | flushing
  | binding
  | fetching
  | ready (whole : Bool)

@[grind]
def Phase.evicts : Phase → Bool
  | evicting => true
  | flushing => true
  | binding => true
  | _ => false

@[ext]
structure Cache (Slot Key Block Data : Type) where
  shown : Slot → Option Key
  dirty : Slot → Bool
  mapped : Key → Bool
  busy : Option (Phase × Slot × Key)
  held : Slot → Block → Option Data
  backing : Key → Block → Option Data
  stored : Key → Block → Option Data

variable {Slot Key Block Data : Type}

def Cache.empty : Cache Slot Key Block Data where
  shown _ := none
  dirty _ := false
  mapped _ := false
  busy := none
  held _ _ := none
  backing _ _ := none
  stored _ _ := none

def Holds (actual expected : Block → Option Data) : Prop :=
  ∀ block data, expected block = some data → actual block = some data

def overwrite (new old : Block → Option Data) (block : Block) : Option Data :=
  (new block).or (old block)

variable [DecidableEq Slot] [DecidableEq Key]

inductive Step : Cache Slot Key Block Data → Cache Slot Key Block Data → Prop
  | hit {cache slot key whole} (idle : cache.busy = none) (shows : cache.shown slot = some key) :
      Step cache { cache with busy := some (.ready whole, slot, key) }
  | miss {cache slot key} (idle : cache.busy = none)
      (absent : ∀ slot, cache.shown slot ≠ some key) :
      Step cache { cache with busy := some (.evicting, slot, key) }
  | skipWriteBack {cache slot key} (busy : cache.busy = some (.evicting, slot, key))
      (clean : cache.dirty slot = false) :
      Step cache { cache with busy := some (.binding, slot, key) }
  | hold {cache slot key old} (busy : cache.busy = some (.evicting, slot, key))
      (shows : cache.shown slot = some old) :
      Step cache { cache with
        mapped := update cache.mapped old true
        busy := some (.flushing, slot, key) }
  | writeBack {cache slot key old} (busy : cache.busy = some (.flushing, slot, key))
      (shows : cache.shown slot = some old) :
      Step cache { cache with
        backing := update cache.backing old (cache.held slot)
        busy := some (.binding, slot, key) }
  | bind {cache slot key} (busy : cache.busy = some (.binding, slot, key)) :
      Step cache { cache with
        shown := update cache.shown slot (some key)
        dirty := update cache.dirty slot false
        busy := some (.fetching, slot, key) }
  | skipFetch {cache slot key whole} (busy : cache.busy = some (.fetching, slot, key))
      (unneeded : whole = true ∨ cache.mapped key = false) :
      Step cache { cache with busy := some (.ready whole, slot, key) }
  | fetch {cache slot key whole} (busy : cache.busy = some (.fetching, slot, key)) :
      Step cache { cache with
        held := update cache.held slot (cache.backing key)
        busy := some (.ready whole, slot, key) }
  | read {cache slot key} (busy : cache.busy = some (.ready false, slot, key)) :
      Step cache { cache with busy := none }
  | write {cache slot key whole new} (busy : cache.busy = some (.ready whole, slot, key))
      (all : whole = true → ∀ block, cache.stored key block ≠ none → new block ≠ none) :
      Step cache { cache with
        dirty := update cache.dirty slot true
        busy := none
        held := update cache.held slot (overwrite new (cache.held slot))
        stored := update cache.stored key (overwrite new (cache.stored key)) }

/-- Each key has one slot, and the key that is served has the one that it needs. -/
structure Placed (cache : Cache Slot Key Block Data) : Prop where
  unique : ∀ {slot other key}, cache.shown slot = some key → cache.shown other = some key →
    other = slot
  absent : ∀ {phase slot key}, cache.busy = some (phase, slot, key) → phase.evicts = true →
    ∀ other, cache.shown other ≠ some key
  bound : ∀ {phase slot key}, cache.busy = some (phase, slot, key) → phase.evicts = false →
    cache.shown slot = some key
  clean : ∀ {slot key}, cache.busy = some (.fetching, slot, key) → cache.dirty slot = false
  room : ∀ {slot key old}, cache.busy = some (.flushing, slot, key) →
    cache.shown slot = some old → cache.mapped old = true

/-- Every value that was written is in the slot of its key or in the store. -/
structure Faithful (cache : Cache Slot Key Block Data) : Prop extends Placed cache where
  held : ∀ {slot key}, cache.shown slot = some key →
    (∀ other, cache.busy ≠ some (.fetching, slot, other) ∧
      cache.busy ≠ some (.ready true, slot, other)) →
    Holds (cache.held slot) (cache.stored key)
  backed : ∀ {key}, (∀ slot, cache.shown slot = some key →
      cache.dirty slot = false ∨ ∃ other, cache.busy = some (.binding, slot, other)) →
    ∀ block data, cache.stored key block = some data →
      cache.mapped key = true ∧ cache.backing key block = some data

variable {cache cache' : Cache Slot Key Block Data}

theorem Placed.step (placed : Placed cache) (step : Step cache cache') : Placed cache' := by
  obtain ⟨unique, absent, bound, clean, room⟩ := placed
  cases step with
  | bind => constructor <;> grind
  | _ => exact ⟨unique, by grind, by grind, by grind, by grind⟩

theorem Faithful.step (faithful : Faithful cache) (step : Step cache cache') : Faithful cache' := by
  have placed := faithful.toPlaced.step step
  obtain ⟨⟨unique, _, bound, clean, room⟩, held, backed⟩ := faithful
  cases step with
  | hit busy | miss busy | skipWriteBack busy | read busy =>
    refine ⟨placed, ?_, ?_⟩
    · exact fun shown _ => held shown (by simp [busy])
    · exact fun saved => backed fun other shown => by grind
  | hold busy shows =>
    refine ⟨placed, ?_, ?_⟩
    · exact fun shown _ => held shown (by simp [busy])
    · intro key saved block data written
      have before := backed (fun other shown => by grind) block data written
      grind
  | @writeBack slot key old busy shows =>
    refine ⟨placed, ?_, ?_⟩
    · exact fun shown _ => held shown (by simp [busy])
    · intro other saved block data written
      by_cases same : other = old
      · subst same
        have before := held shows (by simp [busy]) block data written
        exact ⟨room busy shows, by simpa using before⟩
      · have before := backed (fun another shown => by grind) block data written
        simpa [same] using before
  | @bind slot key busy =>
    refine ⟨placed, ?_, ?_⟩
    · intro other key' shown filled
      have differs : other ≠ slot := by grind
      exact held (by simpa [differs] using shown) (by simp [busy])
    · intro key' saved
      refine backed fun other shown => ?_
      by_cases same : other = slot
      · exact .inr ⟨key, same ▸ busy⟩
      · have before := saved other
        grind
  | @skipFetch slot key whole busy unneeded =>
    have shows := bound busy rfl
    refine ⟨placed, ?_, ?_⟩
    · intro other key' shown filled block data written
      by_cases same : other = slot
      · -- nothing was written to a key that the store does not know
        have isKey : key' = key := by grind
        have before := backed (fun another shown => by grind) block data written
        grind
      · exact held shown (by grind) block data written
    · exact fun saved => backed fun other shown => by grind
  | @fetch slot key whole busy =>
    have shows := bound busy rfl
    refine ⟨placed, ?_, ?_⟩
    · intro other key' shown filled block data written
      by_cases same : other = slot
      · have isKey : key' = key := by grind
        have before := backed (fun another shown => by grind) block data written
        subst same isKey
        simpa using before.2
      · have before := held shown (by grind) block data written
        simpa [same] using before
    · exact fun saved => backed fun other shown => by grind
  | @write slot key whole new busy all =>
    have shows := bound busy rfl
    refine ⟨placed, ?_, ?_⟩
    · intro other key' shown filled block data written
      by_cases same : other = slot
      · have isKey : key' = key := by grind
        subst same isKey
        simp only [update_self, overwrite] at written ⊢
        rcases Option.or_eq_some_iff.1 written with isNew | ⟨notNew, isOld⟩
        · simp [isNew]
        · have before := held shows (by grind) block data isOld
          simp [notNew, before]
      · have differs : key' ≠ key := by grind
        have before := held shown (by grind) block data (by simpa [differs] using written)
        simpa [same] using before
    · intro key' saved block data written
      have differs : key' ≠ key := by grind
      exact backed (fun other shown => by grind) block data (by simpa [differs] using written)

/-- The cache is reached from the empty one. -/
def Reached (cache : Cache Slot Key Block Data) : Prop :=
  Relation.ReflTransGen Step .empty cache

theorem Reached.faithful (reached : Reached cache) : Faithful cache := by
  induction reached with
  | refl =>
    refine ⟨?_, by simp [Cache.empty], by simp [Cache.empty]⟩
    constructor <;> simp [Cache.empty]
  | tail _ step faithful => exact faithful.step step

theorem Reached.tail_eq {next : Cache Slot Key Block Data} (reached : Reached cache)
    (step : Step cache next) (same : cache' = next) : Reached cache' :=
  same ▸ reached.tail step

end WriteBackCache
