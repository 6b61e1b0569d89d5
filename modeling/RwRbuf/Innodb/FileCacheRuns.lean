import Mathlib.Data.Finset.Card
import RwRbuf.Innodb.RwMutexEntry

/-! # Runs of the file cache

The threads of the server open, use and close the files of the cache, and create, drop and
change tablespaces.  `fil_validate` compares the counter of open files and the list of files
that can be closed with the files themselves.  Every section under the mutex of `fil_system`
keeps what it checks, so the states that a caller finds are valid.
-/

namespace RwRbuf.Innodb

/-- What `fil_validate` checks, for files in the chains of their spaces. -/
structure FilSystem.Accounted (config : ServerConfig) (sys : FilSystem) : Prop where
  nodup : sys.lru.Nodup
  mem_iff : ∀ id, id ∈ sys.lru ↔ (sys.node id).isOpen = true ∧ (sys.node id).nPending = 0 ∧
    (sys.space id.spaceId).any (·.belongsInLru config id.spaceId) = true
  pendingOpen : ∀ id, 0 < (sys.node id).nPending → (sys.node id).isOpen = true
  chained : ∀ id, (sys.node id).isOpen = true → ∃ space, sys.space id.spaceId = some space ∧
    id ∈ space.chain id.spaceId
  counted : ∃ files : Finset NodeId, (∀ id, id ∈ files ↔ (sys.node id).isOpen = true) ∧
    files.card = sys.nOpen

namespace FilCache

/-- No file is open, as after `fil_init`. -/
structure Initial (cache : FilCache) : Prop where
  node : ∀ id, (cache.node id).isOpen = false ∧ (cache.node id).nPending = 0
  lru : cache.lru = []
  nOpen : cache.nOpen = 0

/-- `other` stands for what the sections that neither open, use nor close a file do. -/
inductive Event
  | close (id : NodeId)
  | prepare (id : NodeId)
  | complete (id : NodeId) (type : IoType)
  | other (next : FilCache)

/-- A section that flushes or extends files, creates, renames or drops tablespaces, and
changes on the disk.  A space of which a file is open keeps its files. -/
structure Untouched (cache next : FilCache) : Prop where
  lru : next.lru = cache.lru
  nOpen : next.nOpen = cache.nOpen
  node : ∀ id, (next.node id).isOpen = (cache.node id).isOpen ∧
    (next.node id).nPending = (cache.node id).nPending
  space : ∀ id, (cache.node id).isOpen = true → ∀ space, cache.space id.spaceId = some space →
    ∃ later, next.space id.spaceId = some later ∧ later.purpose = space.purpose ∧
      later.files = space.files

def Allowed (cache : FilCache) : Event → Prop
  | .other next => cache.Untouched next
  | _ => True

def step (config : ServerConfig) (cache : FilCache) : Event → Option FilCache
  | .close id => cache.filNodeCloseFile config id
  | .prepare id =>
    match cache.space id.spaceId with
    | none => none
    | some space =>
      if id ∈ space.chain id.spaceId then
        match cache.toFilSystem.filNodePrepareForIo config space id with
        | .ok result => some { cache with toFilSystem := result.1 }
        | .error _ => none
      else none
  | .complete id type =>
    match cache.space id.spaceId with
    | none => none
    | some space =>
      match cache.toFilSystem.filNodeCompleteIo config space id type with
      | .ok sys => some { cache with toFilSystem := sys }
      | .error _ => none
  | .other next => some next

/-- The states in which the threads of a server find the cache. -/
def Reached (config : ServerConfig) (cache : FilCache) : Prop :=
  ∃ start : FilCache, start.Initial ∧
    Relation.ReflTransGen (Fallible.EventStep (step config) Allowed) start cache

end FilCache

namespace FilSystem

variable {config : ServerConfig} {sys sys' : FilSystem} {space : FilSpace} {id : NodeId}

section

variable (accounted : sys.Accounted config) (known : sys.space id.spaceId = some space)
include accounted known

/-- One file of a space is opened, used or closed, and the list and the counter follow. -/
theorem Accounted.change (member : id ∈ space.chain id.spaceId)
    (spaces : sys'.space = sys.space) (others : ∀ other ≠ id, sys'.node other = sys.node other)
    (nodup : sys'.lru.Nodup) (otherListed : ∀ other ≠ id, other ∈ sys'.lru ↔ other ∈ sys.lru)
    (listed : id ∈ sys'.lru ↔ (sys'.node id).isOpen = true ∧ (sys'.node id).nPending = 0 ∧
      space.belongsInLru config id.spaceId = true)
    (pendingOpen : 0 < (sys'.node id).nPending → (sys'.node id).isOpen = true)
    (counted : sys'.nOpen + (sys.node id).isOpen.toNat =
      sys.nOpen + (sys'.node id).isOpen.toNat) : sys'.Accounted config := by
  refine ⟨nodup, ?_, ?_, ?_, ?_⟩
  · intro other
    by_cases same : other = id
    · subst same
      rw [spaces, known, Option.any_some]
      exact listed
    · rw [otherListed other same, others other same, spaces]
      exact accounted.mem_iff other
  · intro other
    by_cases same : other = id
    · subst same
      exact pendingOpen
    · rw [others other same]
      exact accounted.pendingOpen other
  · intro other
    by_cases same : other = id
    · subst same
      exact fun _ => ⟨space, by rw [spaces, known], member⟩
    · rw [others other same, spaces]
      exact accounted.chained other
  · obtain ⟨files, exact_, card⟩ := accounted.counted
    have before := exact_ id
    refine ⟨if (sys'.node id).isOpen then insert id files else files.erase id, ?_, ?_⟩
    · intro other
      by_cases same : other = id
      · subst same
        split_ifs with isOpen <;> simp [isOpen]
      · rw [others other same, ← exact_ other]
        split_ifs <;> simp [same]
    · have wasOpen : (sys.node id).isOpen.toNat = if id ∈ files then 1 else 0 := by
        cases isOpen : (sys.node id).isOpen <;> simp [before, isOpen]
      rw [← card, wasOpen] at counted
      split_ifs with isOpen
      · rw [Finset.card_insert_eq_ite]
        simp only [isOpen, Bool.toNat_true] at counted
        split_ifs at counted ⊢ <;> omega
      · rw [Finset.card_erase_eq_ite]
        simp only [isOpen, Bool.toNat_false] at counted
        split_ifs at counted ⊢ with member
        · have present : 0 < files.card := Finset.card_pos.mpr ⟨id, member⟩
          omega
        · omega

theorem Accounted.prepared {size : Nat} (member : id ∈ space.chain id.spaceId) :
    (sys.prepared config space id size).Accounted config := by
  have before := accounted.mem_iff id
  rw [known, Option.any_some] at before
  have lru : (sys.prepared config space id size).lru = sys.lru.erase id := by
    rw [FilSystem.prepared]
    dsimp only
    split_ifs with listed
    · rfl
    · exact (List.erase_of_not_mem (mt before.mp listed)).symm
  refine accounted.change known member rfl (fun other different => if_neg different) ?_ ?_ ?_
    (fun _ => by rw [prepared_node_self]) ?_
  · rw [lru]
    exact accounted.nodup.erase id
  · intro other different
    rw [lru, List.mem_erase_of_ne different]
  · rw [lru, prepared_node_self]
    simp [accounted.nodup.not_mem_erase]
  · rw [prepared_node_self, FilSystem.prepared]
    cases (sys.node id).isOpen <;> simp

theorem Accounted.completed
    (completed : Completed config space id sys sys') : sys'.Accounted config := by
  have isOpen := accounted.pendingOpen id completed.pending
  obtain ⟨other, otherKnown, member⟩ := accounted.chained id isOpen
  obtain rfl : space = other := Option.some.inj (known.symm.trans otherKnown)
  have unlisted : id ∉ sys.lru := by
    rw [accounted.mem_iff]
    rintro ⟨_, idle, _⟩
    exact absurd completed.pending (by omega)
  have openStill := completed.isOpen_eq.trans isOpen
  refine accounted.change known member completed.space_eq completed.others ?_ ?_ ?_
    (fun _ => openStill) (by rw [completed.nOpen_eq, completed.isOpen_eq])
  · rw [completed.lru_eq]
    split_ifs
    · exact List.nodup_cons.mpr ⟨unlisted, accounted.nodup⟩
    · exact accounted.nodup
  · intro other different
    rw [completed.lru_eq]
    split_ifs
    · simp [different]
    · rfl
  · rw [completed.lru_eq, completed.nPending_eq]
    split_ifs with back
    · simp [openStill, back]
    · simpa [unlisted, openStill] using fun idle belongs => back ⟨idle, belongs⟩

end

end FilSystem

namespace FilCache

variable {config : ServerConfig} {cache closed : FilCache} {id : NodeId}

theorem filNodeCloseFile_eq_some (closing : cache.filNodeCloseFile config id = some closed) :
    ((cache.node id).isOpen = true ∧ (cache.node id).nPending = 0 ∧ cache.nOpen ≠ 0) ∧
      closed.toFilSystem =
        { cache.toFilSystem.setNode id { cache.node id with isOpen := false } with
          lru := if (cache.space id.spaceId).any (·.belongsInLru config id.spaceId) = true
            then cache.lru.erase id else cache.lru
          nOpen := cache.nOpen - 1 } := by
  unfold filNodeCloseFile at closing
  split at closing
  · cases closing
  next guard =>
    simp only [not_or, Bool.not_eq_false, Decidable.not_not] at guard
    obtain ⟨isOpen, idle, _, some_⟩ := guard
    refine ⟨⟨isOpen, idle, some_⟩, ?_⟩
    split at closing
    next belongs =>
      split at closing
      · cases closing
      · cases closing
        rw [if_pos belongs]
    next outside =>
      cases closing
      rw [if_neg outside]
      rfl

section

variable (accounted : cache.toFilSystem.Accounted config)
include accounted

theorem accounted_of_close (closing : cache.filNodeCloseFile config id = some closed) :
    closed.toFilSystem.Accounted config := by
  obtain ⟨⟨isOpen, idle, some_⟩, result⟩ := filNodeCloseFile_eq_some closing
  obtain ⟨space, known, member⟩ := accounted.chained id isOpen
  have before := accounted.mem_iff id
  rw [known, Option.any_some] at before
  rw [known, Option.any_some] at result
  have lru : closed.lru = cache.lru.erase id := by
    rw [result]
    dsimp only
    split_ifs with belongs
    · rfl
    · exact (List.erase_of_not_mem fun listed => belongs (before.mp listed).2.2).symm
  have node : closed.node id = { cache.node id with isOpen := false } := by
    rw [result]
    exact if_pos rfl
  refine accounted.change known member (by rw [result]; rfl) ?_ ?_ ?_ ?_ ?_ ?_
  · intro other different
    rw [result]
    exact if_neg different
  · rw [lru]
    exact accounted.nodup.erase id
  · intro other different
    rw [lru, List.mem_erase_of_ne different]
  · rw [lru, node]
    simp [accounted.nodup.not_mem_erase]
  · rw [node]
    simp [idle]
  · rw [node, result, isOpen]
    simp only [Bool.toNat_true, Bool.toNat_false]
    omega

theorem accounted_of_untouched
    {next : FilCache} (untouched : cache.Untouched next) : next.toFilSystem.Accounted config := by
  refine ⟨untouched.lru ▸ accounted.nodup, ?_, ?_, ?_, ?_⟩
  · intro id
    rw [untouched.lru, (untouched.node id).1, (untouched.node id).2, accounted.mem_iff id]
    refine and_congr_right fun isOpen => and_congr_right fun _ => ?_
    obtain ⟨space, known, _⟩ := accounted.chained id isOpen
    obtain ⟨later, laterKnown, purpose, _⟩ := untouched.space id isOpen space known
    rw [known, laterKnown, Option.any_some, Option.any_some, FilSpace.belongsInLru,
      FilSpace.belongsInLru, purpose]
  · intro id
    rw [(untouched.node id).1, (untouched.node id).2]
    exact accounted.pendingOpen id
  · intro id isOpen
    rw [(untouched.node id).1] at isOpen
    obtain ⟨space, known, member⟩ := accounted.chained id isOpen
    obtain ⟨later, laterKnown, _, files⟩ := untouched.space id isOpen space known
    refine ⟨later, laterKnown, ?_⟩
    rwa [FilSpace.chain, files]
  · obtain ⟨files, exact_, card⟩ := accounted.counted
    refine ⟨files, fun id => ?_, card.trans untouched.nOpen.symm⟩
    rw [(untouched.node id).1, exact_]

theorem accounted_of_step {event : Event}
    (allowed : cache.Allowed event) (taken : step config cache event = some closed) :
    closed.toFilSystem.Accounted config := by
  cases event with
  | close id => exact accounted_of_close accounted taken
  | prepare id =>
    rw [step] at taken
    split at taken
    · cases taken
    next space known =>
      split_ifs at taken with member
      rw [FilSystem.filNodePrepareForIo_eq] at taken
      split_ifs at taken
      · cases taken
        exact accounted
      · cases ready : cache.toFilSystem.readySize config space id with
        | none => simp [ready] at taken
        | some size =>
          simp only [ready] at taken
          cases taken
          exact accounted.prepared known member
  | complete id type =>
    rw [step] at taken
    split at taken
    · cases taken
    next space known =>
      by_cases idle : (cache.node id).nPending = 0
      · simp [FilSystem.filNodeCompleteIo, idle] at taken
      · obtain ⟨sys, completing, completed⟩ : ∃ sys,
            cache.toFilSystem.filNodeCompleteIo config space id type = .ok sys ∧
              FilSystem.Completed config space id cache.toFilSystem sys :=
          FilSystem.filNodeCompleteIo_total type (Nat.pos_of_ne_zero idle)
        rw [completing] at taken
        cases taken
        exact accounted.completed known completed
  | other next =>
    cases taken
    exact accounted_of_untouched accounted allowed

end

theorem Initial.accounted (initial : cache.Initial) : cache.toFilSystem.Accounted config where
  nodup := by simp [initial.lru]
  mem_iff id := by simp [initial.lru, (initial.node id).1]
  pendingOpen id pending := by simp [(initial.node id).2] at pending
  chained id isOpen := by simp [(initial.node id).1] at isOpen
  counted := ⟨∅, fun id => by simp [(initial.node id).1], by simp [initial.nOpen]⟩

theorem Reached.accounted (reached : cache.Reached config) :
    cache.toFilSystem.Accounted config := by
  obtain ⟨start, initial, run⟩ := reached
  exact Fallible.run_invariant (fun cache => cache.toFilSystem.Accounted config)
    initial.accounted
    (fun _ _ before ⟨_, allowed, taken⟩ => accounted_of_step before allowed taken) run

/-- The books of a reached cache are in order for the functions that close files. -/
theorem valid_of_accounted (accounted : cache.toFilSystem.Accounted config) :
    cache.Valid config where
  lru := by
    refine ⟨accounted.nodup, fun id space known => ?_⟩
    rw [accounted.mem_iff, known, Option.any_some]
  known id listed := by
    obtain ⟨space, known, _⟩ := accounted.chained id ((accounted.mem_iff id).mp listed).1
    exact ⟨space, known⟩
  counted := by
    obtain ⟨files, exact_, card⟩ := accounted.counted
    rw [← card, ← List.toFinset_card_of_nodup accounted.nodup]
    refine Finset.card_le_card fun id listed => ?_
    rw [exact_]
    exact ((accounted.mem_iff id).mp (List.mem_toFinset.mp listed)).1

end FilCache
end RwRbuf.Innodb
