import RwRbuf.Innodb.RwFileIo

/-! # Entering the mutex of the file cache for an RW command

`fil_mutex_enter_and_prepare_for_io` takes the mutex of `fil_system` and returns when the
caller may start input or output on a space: not while the space is being renamed, and not
before it has tried to close other files if a file of the space must be opened and too many
are open.  Otherwise it releases the mutex and tries again, and any other thread may change
the cache in between.  `fil_mutex_enter_and_prepare_for_rw_io` does this for two spaces.

One attempt is a function of the state that it finds.  A call is a list of such states.
-/

namespace RwRbuf.Innodb

/-- `SRV_LOG_SPACE_FIRST_ID` -/
def srvLogSpaceFirstId : Nat := 0xfffffff0

def AlwaysOpen (spaceId : Nat) : Prop := spaceId = 0 ∨ srvLogSpaceFirstId ≤ spaceId

instance (spaceId : Nat) : Decidable (AlwaysOpen spaceId) :=
  inferInstanceAs (Decidable (_ ∨ _))

structure FilCache extends FilSystem where
  /-- `stop_ios` of a space: it is about to be renamed. -/
  stopIos : Nat → Bool
  maxNOpen : Nat
  nPendingFlushes : NodeId → Nat
  beingExtended : NodeId → Bool

/-- How an attempt ends.  The mutex is held after `returned`, with the files that were closed
in this attempt closed; `tried` says whether it tried to close some. -/
inductive Attempt
  | returned (tried : Bool) (cache : FilCache)
  | waitsForRename
  | waitsForFiles (cache : FilCache)
  | aborted
  | nullPointer

namespace FilCache

variable (config : ServerConfig) (cache : FilCache) (spaceId : Nat)

def isStopped : Bool := (cache.space spaceId).isSome && cache.stopIos spaceId

def hasRoom : Prop := cache.nOpen < cache.maxNOpen

instance : Decidable cache.hasRoom := inferInstanceAs (Decidable (_ < _))

/-- The test `!space || UT_LIST_GET_FIRST(space->chain)->open`.  It reads through a null
pointer if the space has no file. -/
def firstFileOpen : Option Bool :=
  match cache.space spaceId with
  | none => some true
  | some space =>
    match space.chain spaceId with
    | [] => none
    | first :: _ => some (cache.node first).isOpen

/-! ## Closing files -/

def canClose (id : NodeId) : Bool :=
  (cache.node id).modificationCounter == (cache.node id).flushCounter &&
    cache.nPendingFlushes id == 0 && !cache.beingExtended id

/-- `fil_node_close_file` outside a shutdown; `none` if one of its checks fails. -/
def filNodeCloseFile (id : NodeId) : Option FilCache :=
  if (cache.node id).isOpen = false ∨ (cache.node id).nPending ≠ 0 ∨
      cache.canClose id = false ∨ cache.nOpen = 0 then none
  else if (cache.space id.spaceId).any (·.belongsInLru config id.spaceId) then
    if cache.lru = [] then none
    else some { cache with
      toFilSystem :=
        { cache.setNode id { cache.node id with isOpen := false } with
          lru := cache.lru.erase id, nOpen := cache.nOpen - 1 } }
  else some { cache with
    toFilSystem :=
      { cache.setNode id { cache.node id with isOpen := false } with nOpen := cache.nOpen - 1 } }

/-- `fil_try_to_close_file_in_LRU`: the last file of the list that can be closed is closed. -/
def filTryToCloseFileInLru : Option (FilCache × Bool) :=
  match cache.lru.reverse.find? cache.canClose with
  | none => some (cache, false)
  | some id => (cache.filNodeCloseFile config id).map (·, true)

/-- The loop `close_more`.  Each round but the last one closes a file, so one more round than
there are open files is enough. -/
def closeMore : Nat → FilCache → Option FilCache
  | 0, cache => some cache
  | rounds + 1, cache =>
    match cache.filTryToCloseFileInLru config with
    | none => none
    | some (closed, success) =>
      if success = true ∧ ¬closed.hasRoom then closeMore rounds closed else some closed

/-- The end of an attempt that finds too many files open, after `count` earlier ones. -/
def makeRoom (count : Nat) : Attempt :=
  match closeMore config (cache.nOpen + 1) cache with
  | none => .aborted
  | some closed =>
    if closed.hasRoom then .returned true closed
    else if 2 ≤ count then .returned true closed
    else .waitsForFiles closed

/-! ## The two functions -/

/-- An attempt of `fil_mutex_enter_and_prepare_for_io`. -/
def filMutexEnterAndPrepareForIo (count : Nat) : Attempt :=
  if AlwaysOpen spaceId then .returned false cache
  else if cache.isStopped spaceId then .waitsForRename
  else if cache.hasRoom then .returned false cache
  else match cache.firstFileOpen spaceId with
    | none => .nullPointer
    | some true => .returned false cache
    | some false => cache.makeRoom config count

/-- An attempt of `fil_mutex_enter_and_prepare_for_rw_io`. -/
def filMutexEnterAndPrepareForRwIo (spaceIdToRead count : Nat) : Attempt :=
  if AlwaysOpen spaceId ∨ AlwaysOpen spaceIdToRead then .returned false cache
  else if cache.isStopped spaceId && cache.isStopped spaceIdToRead then .waitsForRename
  else if cache.hasRoom then .returned false cache
  else match cache.firstFileOpen spaceId with
    | none => .nullPointer
    | some true => .returned false cache
    | some false =>
      match cache.firstFileOpen spaceIdToRead with
      | none => .nullPointer
      | some true => .returned false cache
      | some false => cache.makeRoom config count

/-- `count` after attempts that found these states and all went on to another attempt. -/
def countOf (attempt : FilCache → Nat → Attempt) : List FilCache → Nat → Option Nat
  | [], count => some count
  | found :: later, count =>
    match attempt found count with
    | .waitsForRename => countOf attempt later count
    | .waitsForFiles _ => countOf attempt later (count + 1)
    | _ => none

/-! ## What closing files changes -/

structure Closes (cache closed : FilCache) : Prop where
  space : closed.space = cache.space
  stopIos : closed.stopIos = cache.stopIos

def Exhausted : Prop := cache.lru.reverse.find? cache.canClose = none

/-- The list is right and every file in it is counted as open. -/
structure Valid (config : ServerConfig) (cache : FilCache) : Prop where
  lru : cache.LruValid config
  known : ∀ id ∈ cache.lru, ∃ space, cache.space id.spaceId = some space
  counted : cache.lru.length ≤ cache.nOpen

variable {config cache spaceId} {closed : FilCache} {count : Nat} {id : NodeId}

theorem Closes.refl (cache : FilCache) : cache.Closes cache := ⟨rfl, rfl⟩

theorem Closes.trans {last : FilCache} (first : cache.Closes closed)
    (second : closed.Closes last) : cache.Closes last :=
  ⟨second.space.trans first.space, second.stopIos.trans first.stopIos⟩

theorem Closes.isStopped (closes : cache.Closes closed) (spaceId : Nat) :
    closed.isStopped spaceId = cache.isStopped spaceId := by
  rw [FilCache.isStopped, FilCache.isStopped, closes.space, closes.stopIos]

theorem firstFileOpen_eq_none :
    cache.firstFileOpen spaceId = none ↔
      ∃ space, cache.space spaceId = some space ∧ space.chain spaceId = [] := by
  unfold firstFileOpen
  cases cache.space spaceId with
  | none => simp
  | some space =>
    cases chain : space.chain spaceId with
    | nil => simp [chain]
    | cons first later => simp [chain]

theorem Closes.firstFileOpen_ne_none (closes : cache.Closes closed)
    (exists_file : cache.firstFileOpen spaceId ≠ none) : closed.firstFileOpen spaceId ≠ none := by
  rw [Ne, firstFileOpen_eq_none] at exists_file ⊢
  rwa [closes.space]

/-- A file of a valid list that can be closed is closed, and the list stays valid. -/
theorem filNodeCloseFile_total (valid : cache.Valid config) (listed : id ∈ cache.lru)
    (closable : cache.canClose id = true) :
    ∃ closed, cache.filNodeCloseFile config id = some closed ∧ cache.Closes closed ∧
      closed.Valid config ∧ closed.nOpen + 1 = cache.nOpen := by
  obtain ⟨space, known⟩ := valid.known id listed
  obtain ⟨isOpen, idle, belongs⟩ := (valid.lru.mem_iff id space known).mp listed
  have length : 0 < cache.lru.length := List.length_pos_of_mem listed
  have counted := valid.counted
  have someOpen : cache.nOpen ≠ 0 := by omega
  have nonempty : cache.lru ≠ [] := List.ne_nil_of_mem listed
  refine ⟨{ cache with
      toFilSystem :=
        { cache.setNode id { cache.node id with isOpen := false } with
          lru := cache.lru.erase id, nOpen := cache.nOpen - 1 } },
    ?_, ⟨rfl, rfl⟩, ?_, by dsimp only; omega⟩
  · unfold filNodeCloseFile
    rw [if_neg (by simp [isOpen, idle, closable, someOpen]), known,
      if_pos (by simpa using belongs), if_neg nonempty]
  · constructor
    · constructor
      · exact valid.lru.nodup.erase id
      · intro other otherSpace otherKnown
        by_cases same : other = id
        · subst same
          simp [FilSystem.setNode, valid.lru.nodup.not_mem_erase]
        · have before := valid.lru.mem_iff other otherSpace otherKnown
          simp only [FilSystem.setNode, if_neg same]
          rw [List.mem_erase_of_ne same]
          exact before
    · intro other still
      exact valid.known other (List.mem_of_mem_erase still)
    · show (cache.lru.erase id).length ≤ cache.nOpen - 1
      rw [List.length_erase_of_mem listed]
      omega

/-- The loop ends, with room for a file or with nothing left to close. -/
theorem closeMore_total (rounds : Nat) : ∀ {cache : FilCache}, cache.Valid config →
    cache.nOpen < rounds →
    ∃ closed, closeMore config rounds cache = some closed ∧ cache.Closes closed ∧
      (closed.hasRoom ∨ closed.Exhausted) := by
  induction rounds with
  | zero =>
    intro cache _ enough
    omega
  | succ rounds ih =>
    intro cache valid enough
    unfold closeMore filTryToCloseFileInLru
    cases found : cache.lru.reverse.find? cache.canClose with
    | none =>
      refine ⟨cache, ?_, .refl cache, .inr found⟩
      simp
    | some id =>
      have listed : id ∈ cache.lru :=
        List.mem_reverse.mp (List.mem_of_find?_eq_some found)
      obtain ⟨closed, closing, closes, stillValid, fewer⟩ :=
        filNodeCloseFile_total valid listed (List.find?_some found)
      by_cases room : closed.hasRoom
      · refine ⟨closed, ?_, closes, .inl room⟩
        simp [closing, room]
      · obtain ⟨last, closingRest, closesRest, ending⟩ := ih stillValid (by omega)
        refine ⟨last, ?_, closes.trans closesRest, ending⟩
        simpa [closing, room] using closingRest

theorem makeRoom_total (valid : cache.Valid config) (count : Nat) :
    ∃ closed, cache.Closes closed ∧ (closed.hasRoom ∨ closed.Exhausted) ∧
      cache.makeRoom config count =
        if closed.hasRoom ∨ 2 ≤ count then .returned true closed else .waitsForFiles closed := by
  obtain ⟨closed, closing, closes, ending⟩ :=
    closeMore_total (cache.nOpen + 1) valid (Nat.lt_succ_self _)
  refine ⟨closed, closes, ending, ?_⟩
  rw [makeRoom, closing]
  by_cases room : closed.hasRoom <;> simp [room]

theorem closeMore_of_exhausted (exhausted : cache.Exhausted) (rounds : Nat) :
    closeMore config (rounds + 1) cache = some cache := by
  rw [closeMore, filTryToCloseFileInLru, show cache.lru.reverse.find? cache.canClose = none from
    exhausted]
  simp

theorem makeRoom_of_exhausted (exhausted : cache.Exhausted) (count : Nat) :
    cache.makeRoom config count =
      if cache.hasRoom ∨ 2 ≤ count then .returned true cache else .waitsForFiles cache := by
  rw [makeRoom, closeMore_of_exhausted exhausted]
  by_cases room : cache.hasRoom <;> simp [room]

/-! ## The two functions compared -/

/-- `fil_mutex_enter_and_prepare_for_io` returns in this state. -/
def Returns (config : ServerConfig) (cache : FilCache) (spaceId count : Nat) : Prop :=
  ∃ tried closed, cache.filMutexEnterAndPrepareForIo config spaceId count = .returned tried closed

def NothingToOpen (cache : FilCache) (spaceId spaceIdToRead : Nat) : Prop :=
  cache.firstFileOpen spaceId = some true ∧ cache.firstFileOpen spaceIdToRead = some true

/-- What a caller may rely on when the function for two spaces has returned in a state:
the function for one space would return there for each of them, after as many attempts; no
space is being renamed; and if it did not try to close files then it was not necessary. -/
structure LetsThrough (config : ServerConfig) (spaceId spaceIdToRead count : Nat) (tried : Bool)
    (cache : FilCache) : Prop where
  write : cache.Returns config spaceId count
  read : cache.Returns config spaceIdToRead count
  writeRunning : cache.isStopped spaceId = false
  readRunning : cache.isStopped spaceIdToRead = false
  tried : tried = false → cache.hasRoom ∨ cache.NothingToOpen spaceId spaceIdToRead

/-- Every call that returns in an attempt that finds this state returns rightly. -/
def EntersLikeIo (config : ServerConfig) (spaceId spaceIdToRead : Nat) (cache : FilCache) : Prop :=
  ∀ seen count tried closed,
    countOf (fun found => found.filMutexEnterAndPrepareForRwIo config spaceId spaceIdToRead)
      seen 0 = some count →
    cache.filMutexEnterAndPrepareForRwIo config spaceId spaceIdToRead count =
      .returned tried closed →
    LetsThrough config spaceId spaceIdToRead count tried closed

def MeetsNoFile (cache : FilCache) (spaceId spaceIdToRead : Nat) : Prop :=
  cache.firstFileOpen spaceId = none ∨
    (cache.firstFileOpen spaceId = some false ∧ cache.firstFileOpen spaceIdToRead = none)

/-- The two spaces agree in what the tests look at.  If a file of one space is always open then
nothing may hold up the other one. -/
def Agree (cache : FilCache) (spaceId spaceIdToRead : Nat) : Prop :=
  if AlwaysOpen spaceId ∨ AlwaysOpen spaceIdToRead then
    cache.isStopped spaceId = false ∧ cache.isStopped spaceIdToRead = false ∧
      (cache.hasRoom ∨ cache.NothingToOpen spaceId spaceIdToRead)
  else
    (¬cache.hasRoom ∧ cache.MeetsNoFile spaceId spaceIdToRead) ∨
      (cache.isStopped spaceId = cache.isStopped spaceIdToRead ∧
        (cache.isStopped spaceId = false → cache.hasRoom ∨
          cache.firstFileOpen spaceId = cache.firstFileOpen spaceIdToRead))

instance (spaceIdToRead : Nat) : Decidable (cache.NothingToOpen spaceId spaceIdToRead) :=
  inferInstanceAs (Decidable (_ ∧ _))

instance (spaceIdToRead : Nat) : Decidable (cache.MeetsNoFile spaceId spaceIdToRead) :=
  inferInstanceAs (Decidable (_ ∨ _))

instance (spaceIdToRead : Nat) : Decidable (cache.Agree spaceId spaceIdToRead) :=
  inferInstanceAs (Decidable (ite _ _ _))

variable {spaceIdToRead : Nat}

theorem returns_of_quiet (running : cache.isStopped spaceId = false)
    (quiet : cache.hasRoom ∨ cache.firstFileOpen spaceId = some true) (count : Nat) :
    cache.Returns config spaceId count := by
  refine ⟨false, cache, ?_⟩
  unfold filMutexEnterAndPrepareForIo
  by_cases always : AlwaysOpen spaceId
  · rw [if_pos always]
  · rw [if_neg always, if_neg (by simp [running])]
    rcases quiet with room | isOpen
    · rw [if_pos room]
    · simp [isOpen]

theorem letsThrough_of_quiet (write : cache.isStopped spaceId = false)
    (read : cache.isStopped spaceIdToRead = false)
    (quiet : cache.hasRoom ∨ cache.NothingToOpen spaceId spaceIdToRead) (count : Nat)
    (tried : Bool) : LetsThrough config spaceId spaceIdToRead count tried cache where
  write := returns_of_quiet write (quiet.imp_right And.left) count
  read := returns_of_quiet read (quiet.imp_right And.right) count
  writeRunning := write
  readRunning := read
  tried _ := quiet

/-- With enough attempts behind it the function for one space returns once nothing is left to
close. -/
theorem returns_of_exhausted (running : cache.isStopped spaceId = false)
    (exists_file : cache.firstFileOpen spaceId ≠ none)
    (ending : cache.hasRoom ∨ cache.Exhausted) (enough : cache.hasRoom ∨ 2 ≤ count) :
    cache.Returns config spaceId count := by
  by_cases room : cache.hasRoom
  · exact returns_of_quiet running (.inl room) count
  · obtain ⟨first, found⟩ := Option.ne_none_iff_exists'.mp exists_file
    cases first with
    | true => exact returns_of_quiet running (.inr found) count
    | false =>
      have many : cache.hasRoom ∨ 2 ≤ count := enough
      refine ⟨?_, cache, ?_⟩
      · exact !decide (AlwaysOpen spaceId)
      · unfold filMutexEnterAndPrepareForIo
        by_cases always : AlwaysOpen spaceId
        · simp [always]
        · rw [if_neg always, if_neg (by simp [running]), if_neg room, found]
          simp only [makeRoom_of_exhausted (ending.resolve_left room), if_pos many]
          simp [always]

/-! ## Attempts for two spaces that can both be closed -/

section Closable

variable (user : ¬(AlwaysOpen spaceId ∨ AlwaysOpen spaceIdToRead))
include user

theorem rwIo_of_room (running : (cache.isStopped spaceId && cache.isStopped spaceIdToRead) = false)
    (room : cache.hasRoom) (count : Nat) :
    cache.filMutexEnterAndPrepareForRwIo config spaceId spaceIdToRead count =
      .returned false cache := by
  simp [filMutexEnterAndPrepareForRwIo, user, running, room]

theorem rwIo_of_full (running : (cache.isStopped spaceId && cache.isStopped spaceIdToRead) = false)
    (full : ¬cache.hasRoom) (count : Nat) :
    cache.filMutexEnterAndPrepareForRwIo config spaceId spaceIdToRead count =
      match cache.firstFileOpen spaceId, cache.firstFileOpen spaceIdToRead with
      | none, _ => .nullPointer
      | some true, _ => .returned false cache
      | some false, none => .nullPointer
      | some false, some true => .returned false cache
      | some false, some false => cache.makeRoom config count := by
  simp only [filMutexEnterAndPrepareForRwIo, if_neg user, running, Bool.false_eq_true, if_false,
    if_neg full]
  rcases cache.firstFileOpen spaceId with _ | _ | _ <;>
    rcases cache.firstFileOpen spaceIdToRead with _ | _ | _ <;> rfl

/-- After two waits for files an attempt returns unless both spaces are being renamed. -/
theorem rwIo_returns (valid : cache.Valid config)
    (running : (cache.isStopped spaceId && cache.isStopped spaceIdToRead) = false)
    (hasFiles : ¬(¬cache.hasRoom ∧ cache.MeetsNoFile spaceId spaceIdToRead)) :
    ∃ tried closed, cache.Closes closed ∧
      cache.filMutexEnterAndPrepareForRwIo config spaceId spaceIdToRead 2 =
        .returned tried closed := by
  by_cases room : cache.hasRoom
  · exact ⟨false, cache, .refl cache, rwIo_of_room user running room 2⟩
  · rw [rwIo_of_full user running room]
    have found : ¬cache.MeetsNoFile spaceId spaceIdToRead := fun meets => hasFiles ⟨room, meets⟩
    obtain ⟨closed, closes, _, making⟩ := makeRoom_total valid 2
    unfold MeetsNoFile at found
    rcases first : cache.firstFileOpen spaceId with _ | _ | _
    · exact absurd (.inl first) found
    · rcases second : cache.firstFileOpen spaceIdToRead with _ | _ | _
      · exact absurd (.inr ⟨first, second⟩) found
      · refine ⟨true, closed, closes, ?_⟩
        rw [making, if_pos (.inr (Nat.le_refl 2))]
      · exact ⟨false, cache, .refl cache, rfl⟩
    · exact ⟨false, cache, .refl cache, rfl⟩

end Closable

/-- A cache in which no file is open, none may be opened and every space has a closed file. -/
def stuck : FilCache where
  space _ := some
    { purpose := .tablespace, flags := ⟨uncompressed, 0⟩, stopNewOps := false, files := 1 }
  node _ := ⟨1, false, 0, 0, 0⟩
  disk _ := none
  fibmap _ block := block
  lru := []
  nOpen := 0
  modificationCounter := 0
  unflushedSpaces := []
  stopIos _ := false
  maxNOpen := 0
  nPendingFlushes _ := 0
  beingExtended _ := false

theorem countOf_stuck (user : ¬(AlwaysOpen spaceId ∨ AlwaysOpen spaceIdToRead)) :
    countOf (fun found => found.filMutexEnterAndPrepareForRwIo config spaceId spaceIdToRead)
      [stuck, stuck] 0 = some 2 := by
  have closedFile : ∀ spaceId, stuck.firstFileOpen spaceId = some false := fun _ => rfl
  have waits : ∀ count, count < 2 →
      stuck.filMutexEnterAndPrepareForRwIo config spaceId spaceIdToRead count =
        .waitsForFiles stuck := by
    intro count few
    rw [rwIo_of_full user rfl (by decide), closedFile, closedFile]
    have exhausted : stuck.Exhausted := rfl
    dsimp only
    rw [makeRoom_of_exhausted exhausted, if_neg]
    rintro (room | many)
    · exact absurd room (by decide)
    · omega
  simp [countOf, waits]

/-! ## When they agree -/

theorem letsThrough_of_makeRoom {tried : Bool} (valid : cache.Valid config)
    (write : cache.isStopped spaceId = false) (read : cache.isStopped spaceIdToRead = false)
    (firstClosed : cache.firstFileOpen spaceId = some false)
    (secondClosed : cache.firstFileOpen spaceIdToRead = some false)
    (making : cache.makeRoom config count = .returned tried closed) :
    LetsThrough config spaceId spaceIdToRead count tried closed := by
  obtain ⟨last, closes, ending, total⟩ := makeRoom_total valid count
  rw [total] at making
  split_ifs at making with enough
  obtain ⟨rfl, rfl⟩ := Attempt.returned.inj making
  have running : ∀ other, cache.isStopped other = false → cache.firstFileOpen other = some false →
      last.isStopped other = false ∧ last.Returns config other count := by
    intro other still found
    have stopped := (closes.isStopped other).trans still
    have exists_file := closes.firstFileOpen_ne_none (by rw [found]; simp)
    exact ⟨stopped, returns_of_exhausted stopped exists_file ending enough⟩
  obtain ⟨writeStill, writeReturns⟩ := running spaceId write firstClosed
  obtain ⟨readStill, readReturns⟩ := running spaceIdToRead read secondClosed
  exact ⟨writeReturns, readReturns, writeStill, readStill, by simp⟩

/-- If a file of one space is always open then every attempt returns at once. -/
theorem entersLikeIo_of_alwaysOpen (always : AlwaysOpen spaceId ∨ AlwaysOpen spaceIdToRead) :
    EntersLikeIo config spaceId spaceIdToRead cache ↔
      cache.isStopped spaceId = false ∧ cache.isStopped spaceIdToRead = false ∧
        (cache.hasRoom ∨ cache.NothingToOpen spaceId spaceIdToRead) := by
  have attempt : ∀ count, cache.filMutexEnterAndPrepareForRwIo config spaceId spaceIdToRead
      count = .returned false cache := by
    intro count
    rw [filMutexEnterAndPrepareForRwIo, if_pos always]
  constructor
  · intro enters
    have through := enters [] 0 false cache rfl (attempt 0)
    exact ⟨through.writeRunning, through.readRunning, through.tried rfl⟩
  · rintro ⟨write, read, quiet⟩ seen count tried closed _ returned
    rw [attempt] at returned
    cases returned
    exact letsThrough_of_quiet write read quiet count false

section Closable

variable (user : ¬(AlwaysOpen spaceId ∨ AlwaysOpen spaceIdToRead)) (valid : cache.Valid config)
include user valid

theorem agree_of_entersLikeIo (enters : EntersLikeIo config spaceId spaceIdToRead cache)
    (hasFiles : ¬(¬cache.hasRoom ∧ cache.MeetsNoFile spaceId spaceIdToRead)) :
    cache.isStopped spaceId = cache.isStopped spaceIdToRead ∧
      (cache.isStopped spaceId = false → cache.hasRoom ∨
        cache.firstFileOpen spaceId = cache.firstFileOpen spaceIdToRead) := by
  cases running : cache.isStopped spaceId && cache.isStopped spaceIdToRead with
  | true =>
    rw [Bool.and_eq_true] at running
    rw [running.1, running.2]
    simp
  | false =>
    have through := fun tried closed =>
      enters [stuck, stuck] 2 tried closed (countOf_stuck user)
    obtain ⟨tried, closed, closes, returned⟩ := rwIo_returns user valid running hasFiles
    have write := (through tried closed returned).writeRunning
    have read := (through tried closed returned).readRunning
    rw [closes.isStopped] at write read
    refine ⟨write.trans read.symm, fun _ => ?_⟩
    by_cases room : cache.hasRoom
    · exact .inl room
    right
    have full := @rwIo_of_full config cache spaceId spaceIdToRead user running room 2
    have quiet : cache.filMutexEnterAndPrepareForRwIo config spaceId spaceIdToRead 2 =
        .returned false cache → cache.NothingToOpen spaceId spaceIdToRead := fun unchanged =>
      ((through false cache unchanged).tried rfl).resolve_left room
    rcases first : cache.firstFileOpen spaceId with _ | _ | _
    · exact absurd ⟨room, .inl first⟩ hasFiles
    · rcases second : cache.firstFileOpen spaceIdToRead with _ | _ | _
      · exact absurd ⟨room, .inr ⟨first, second⟩⟩ hasFiles
      · rfl
      · rw [first, second] at full
        exact absurd (first.symm.trans (quiet full).1) (by simp)
    · rw [first] at full
      exact (quiet full).2.symm

theorem entersLikeIo_of_agree (stopped : cache.isStopped spaceId = cache.isStopped spaceIdToRead)
    (agree : cache.isStopped spaceId = false → cache.hasRoom ∨
      cache.firstFileOpen spaceId = cache.firstFileOpen spaceIdToRead) :
    EntersLikeIo config spaceId spaceIdToRead cache := by
  intro seen count tried closed _ returned
  have write : cache.isStopped spaceId = false := by
    rw [← Bool.not_eq_true]
    intro both
    simp [filMutexEnterAndPrepareForRwIo, user, ← stopped, both] at returned
  have read : cache.isStopped spaceIdToRead = false := stopped.symm.trans write
  have running : (cache.isStopped spaceId && cache.isStopped spaceIdToRead) = false := by
    simp [write]
  by_cases room : cache.hasRoom
  · rw [rwIo_of_room user running room] at returned
    cases returned
    exact letsThrough_of_quiet write read (.inl room) count false
  · have same := (agree write).resolve_left room
    rw [rwIo_of_full user running room, ← same] at returned
    rcases first : cache.firstFileOpen spaceId with _ | _ | _
    · rw [first] at returned
      cases returned
    · rw [first] at returned
      exact letsThrough_of_makeRoom valid write read first (same.symm.trans first) returned
    · rw [first] at returned
      cases returned
      exact letsThrough_of_quiet write read (.inr ⟨first, same.symm.trans first⟩) count false

end Closable

/-- Every call for two spaces that returns in a state returns as the calls for each of them
would, exactly if the two spaces agree in that state. -/
theorem entersLikeIo_iff (valid : cache.Valid config) :
    EntersLikeIo config spaceId spaceIdToRead cache ↔ cache.Agree spaceId spaceIdToRead := by
  unfold Agree
  by_cases always : AlwaysOpen spaceId ∨ AlwaysOpen spaceIdToRead
  · rw [if_pos always]
    exact entersLikeIo_of_alwaysOpen always
  · rw [if_neg always]
    constructor
    · intro enters
      by_cases noFile : ¬cache.hasRoom ∧ cache.MeetsNoFile spaceId spaceIdToRead
      · exact .inl noFile
      · exact .inr (agree_of_entersLikeIo always valid enters noFile)
    · rintro (⟨full, noFile⟩ | ⟨stopped, agree⟩)
      · -- the server reads through a null pointer, so the attempt does not return
        intro seen count tried closed _ returned
        exfalso
        cases running : cache.isStopped spaceId && cache.isStopped spaceIdToRead with
        | true => simp [filMutexEnterAndPrepareForRwIo, always, running] at returned
        | false =>
          rw [rwIo_of_full always running full] at returned
          rcases noFile with first | ⟨first, second⟩
          · rw [first] at returned
            cases returned
          · rw [first, second] at returned
            cases returned
      · exact entersLikeIo_of_agree always valid stopped agree

/-- Two tables in open files, far from the limit; some spaces are being renamed. -/
def twoTables (stopIos : Nat → Bool) : FilCache where
  toFilSystem := FilSystem.twoTables uncompressed
  stopIos := stopIos
  maxNOpen := 300
  nPendingFlushes _ := 0
  beingExtended _ := false

theorem twoTables_valid (stopIos : Nat → Bool) :
    (twoTables stopIos).Valid FilSystem.defaultConfig where
  lru := by
    constructor
    · change ([⟨1, 0⟩, ⟨2, 0⟩] : List NodeId).Nodup
      decide
    · rintro ⟨spaceId, index⟩ space known
      simp only [twoTables, FilSystem.twoTables] at known ⊢
      split_ifs at known with first second
      · obtain rfl := Option.some.inj known
        by_cases head : index = 0
        · simp [first, head, FilSpace.belongsInLru, ServerConfig.isUserTablespaceId,
            FilSystem.defaultConfig]
        · simp [head]
      · obtain rfl := Option.some.inj known
        by_cases head : index = 0
        · simp [second, head, FilSpace.belongsInLru, ServerConfig.isUserTablespaceId,
            FilSystem.defaultConfig]
        · simp [head]
  known id listed := by
    have either : id = ⟨1, 0⟩ ∨ id = ⟨2, 0⟩ := by
      simpa [twoTables, FilSystem.twoTables] using listed
    rcases either with rfl | rfl <;> exact ⟨_, rfl⟩
  counted := Nat.le_refl 2

theorem entersLikeIo_twoTables :
    EntersLikeIo FilSystem.defaultConfig 1 2 (twoTables fun _ => false) :=
  (entersLikeIo_iff (twoTables_valid _)).mpr (by decide)

/-- The table that is to be written is being renamed: the function for its space waits and the
function for two spaces lets the RW command through. -/
theorem enters_while_renamed :
    let cache := twoTables fun spaceId => spaceId = 1
    cache.Valid FilSystem.defaultConfig ∧
      cache.filMutexEnterAndPrepareForRwIo FilSystem.defaultConfig 1 2 0 =
        .returned false cache ∧
      cache.filMutexEnterAndPrepareForIo FilSystem.defaultConfig 1 0 = .waitsForRename ∧
      ¬EntersLikeIo FilSystem.defaultConfig 1 2 cache := by
  refine ⟨twoTables_valid _, rfl, rfl, fun enters => ?_⟩
  have through := enters [] 0 false _ rfl rfl
  exact absurd through.writeRunning (by decide)

end FilCache
end RwRbuf.Innodb
