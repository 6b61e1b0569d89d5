import RwRbuf.Innodb.ReadCompletion
import Mathlib.Data.List.Infix

/-! # The lookup loop of `buf_page_get_gen`

Each iteration looks the page up under the page hash lock and ends in a block, or handles
the miss: some modes return, one sets a watch, the others read the page and try again.  A
block that an RW command is working on counts as absent.  Between any two sections of the
loop other threads may change the page hash, the flags of the block and the tablespace in
any way, so what an iteration finds at each section is left open.
-/

namespace RwRbuf.Innodb.PageLookup

/-- The access modes of `buf_page_get_gen`. -/
inductive GetMode
  | get
  | getIfInPool
  | peekIfInPool
  | getNoLatch
  | getIfInPoolOrWatch
  | getPossiblyFreed
deriving DecidableEq, Repr

inductive Hashed
  | absent
  | watch
  | page (block : BufBlock)

/-- What `buf_read_page` and the functions that it calls find. -/
structure ReadAttempt where
  server : ReadPageLow.Server
  zipSize : Nat
  surroundings : ReadPageLow.Surroundings
  answers : ReadPageLow.Answers

/-- The request is synchronous and for a page of any kind. -/
def ReadAttempt.request (page : PageId) (attempt : ReadAttempt) : ReadPageLow.Request :=
  ⟨page, true, attempt.zipSize, false, false⟩

/-- `buf_page_init_for_read` returns null because the page is in the pool. -/
def ReadAttempt.metInPool (page : PageId) (attempt : ReadAttempt) : Bool :=
  !(page.space == 0 && attempt.server.dblwrPageInside page.offset) &&
    (attempt.answers.inPool ||
      (ReadPageLow.zipOnly attempt.server (attempt.request page) &&
        !attempt.answers.tablespaceDeleted && attempt.answers.addedMeanwhile))

/-- How `buf_read_page` ends. -/
inductive ReadResult
  | read
  /-- No read was made: the page is already in the pool. -/
  | alreadyInPool
  | failed
  /-- An error that stops the server. -/
  | stopped
deriving DecidableEq, Repr

/-- `buf_read_page_low`, as `buf_read_page` calls it. -/
def readPageLow (page : PageId) (attempt : ReadAttempt) : ReadResult :=
  match ReadPageLow.bufReadPageLow attempt.server (attempt.request page) attempt.surroundings
      { attempt.answers with notIbufPage := false } with
  | .ok (.one _ _ _) => .read
  | .ok (.zero _) => if attempt.metInPool page then .alreadyInPool else .failed
  | .error _ => .stopped

/-- What one iteration finds. -/
structure Iteration where
  /-- The guessed block, if it still holds the page. -/
  guess : Option BufBlock
  hashed : Hashed
  /-- What `buf_pool_watch_set` finds under the exclusive page hash lock. -/
  watched : Hashed
  attempt : ReadAttempt
  /-- Whether the rest of the function sends the thread back to the loop, because it cannot
  decompress the page yet. -/
  busy : Bool

inductive Outcome
  | again (retries : Nat)
  | got (block : BufBlock)
  | returnNull
  /-- The watch is set or joined, and the function returns null. -/
  | watching
  /-- A field of the block is read and the block is null. -/
  | nullBlock
  /-- The abort after too many reads. -/
  | unableToRead
  /-- An abort inside the read. -/
  | stopped

/-- `BUF_PAGE_READ_MAX_RETRIES`. -/
def bufPageReadMaxRetries : Nat := 100

def rwFlag : Option BufBlock → Option Bool
  | some block => some (block.targetRwCmd || block.useRwCmd)
  | none => none

/-- `buf_pool_watch_set`, and the return of the modes that do not read. -/
def watchSet (iteration : Iteration) : Outcome :=
  match iteration.watched with
  | .page block => .got block
  | .watch => .watching
  | .absent => .watching

def readAndRetry (page : PageId) (iteration : Iteration) (retries : Nat) : Outcome :=
  match readPageLow page iteration.attempt with
  | .read => .again 0
  | .stopped => .stopped
  | _ => if retries < bufPageReadMaxRetries then .again (retries + 1) else .unableToRead

def miss (mode : GetMode) (page : PageId) (iteration : Iteration) (retries : Nat)
    (block : Option BufBlock) : Outcome :=
  match mode with
  | .getIfInPoolOrWatch =>
    match rwFlag block with
    | none => .nullBlock
    | some marked => if marked then .returnNull else watchSet iteration
  | .getIfInPool | .peekIfInPool => .returnNull
  | .get | .getNoLatch | .getPossiblyFreed => readAndRetry page iteration retries

/-- The block of the lookup, before its RW flags are tested. -/
def lookup (iteration : Iteration) : Option BufBlock :=
  match iteration.guess with
  | some block => some block
  | none =>
    match iteration.hashed with
    | .page block => some block
    | _ => none

def iterate (mode : GetMode) (page : PageId) (iteration : Iteration) (retries : Nat) : Outcome :=
  match lookup iteration with
  | some block =>
    if block.targetRwCmd || block.useRwCmd then miss mode page iteration retries none
    else if iteration.busy then .again retries
    else .got block
  | none => miss mode page iteration retries none

/-- The loop, for the iterations that it makes. -/
def loop (mode : GetMode) (page : PageId) : List Iteration → Nat → Outcome
  | [], retries => .again retries
  | iteration :: rest, retries =>
    match iterate mode page iteration retries with
    | .again retries' => loop mode page rest retries'
    | outcome => outcome

/-! ## What an iteration can do -/

/-- The page is in the page hash and no RW command is working on its block. -/
def Usable (iteration : Iteration) : Prop :=
  ∃ block, lookup iteration = some block ∧ block.targetRwCmd = false ∧ block.useRwCmd = false

/-- The modes that read an absent page. -/
def GetMode.reads : GetMode → Bool
  | .get | .getNoLatch | .getPossiblyFreed => true
  | _ => false

def readOf (mode : GetMode) (iteration : Iteration) : Option ReadAttempt :=
  match rwFlag (lookup iteration) with
  | some false => none
  | _ => if mode.reads then some iteration.attempt else none

section Iterate

variable {mode : GetMode} {page : PageId} {iteration : Iteration} {retries retries' : Nat}

theorem rwFlag_of_usable (usable : Usable iteration) : rwFlag (lookup iteration) = some false := by
  obtain ⟨block, found, target, use⟩ := usable
  simp [rwFlag, found, target, use]

theorem iterate_of_usable (mode : GetMode) (page : PageId) (retries : Nat)
    (flag : rwFlag (lookup iteration) = some false) :
    ∃ block, iterate mode page iteration retries =
      if iteration.busy then .again retries else .got block := by
  unfold iterate
  cases found : lookup iteration with
  | none =>
    rw [found] at flag
    cases flag
  | some block =>
    rw [found] at flag
    have unmarked : (block.targetRwCmd || block.useRwCmd) = false := Option.some.inj flag
    exact ⟨block, by simp only [unmarked, Bool.false_eq_true, if_false]⟩

theorem iterate_of_unusable (flag : rwFlag (lookup iteration) ≠ some false) :
    iterate mode page iteration retries = miss mode page iteration retries none := by
  unfold iterate
  cases found : lookup iteration with
  | none => rfl
  | some block =>
    rw [found] at flag
    have marked : (block.targetRwCmd || block.useRwCmd) = true := by
      cases held : block.targetRwCmd || block.useRwCmd with
      | true => rfl
      | false => exact absurd (congrArg some held) flag
    simp only [marked, if_true]

theorem miss_of_not_reads (waits : mode.reads = false) (page : PageId) (iteration : Iteration)
    (retries : Nat) :
    miss mode page iteration retries none = .nullBlock ∨
      miss mode page iteration retries none = .returnNull := by
  cases mode with
  | getIfInPoolOrWatch => exact .inl rfl
  | getIfInPool => exact .inr rfl
  | peekIfInPool => exact .inr rfl
  | get | getNoLatch | getPossiblyFreed => cases waits

theorem miss_of_reads (reads : mode.reads = true) :
    miss mode page iteration retries none = readAndRetry page iteration retries := by
  cases mode with
  | get => rfl
  | getNoLatch => rfl
  | getPossiblyFreed => rfl
  | getIfInPoolOrWatch | getIfInPool | peekIfInPool => cases reads

/-- An iteration that goes on or gives up has made a read, unless it found the page. -/
theorem read_of_iterate (flag : rwFlag (lookup iteration) ≠ some false) {outcome : Outcome}
    (goes : iterate mode page iteration retries = outcome)
    (notLeft : outcome ≠ .nullBlock ∧ outcome ≠ .returnNull) :
    readOf mode iteration = some iteration.attempt ∧
      readAndRetry page iteration retries = outcome := by
  rw [iterate_of_unusable flag] at goes
  cases reads : mode.reads with
  | false =>
    rcases miss_of_not_reads reads page iteration retries with left | left
    · exact absurd (goes.symm.trans left) notLeft.1
    · exact absurd (goes.symm.trans left) notLeft.2
  | true =>
    refine ⟨?_, (miss_of_reads reads).symm.trans goes⟩
    unfold readOf
    split
    next found => exact absurd found flag
    · simp [reads]

/-- A read was not made, or it failed. -/
abbrev NotRead (page : PageId) (attempt : ReadAttempt) : Prop :=
  readPageLow page attempt = .alreadyInPool ∨ readPageLow page attempt = .failed

theorem readAndRetry_cases (page : PageId) (iteration : Iteration) (retries : Nat) :
    (readPageLow page iteration.attempt = .read ∧
        readAndRetry page iteration retries = .again 0) ∨
      readAndRetry page iteration retries = .stopped ∨
      (NotRead page iteration.attempt ∧ readAndRetry page iteration retries =
        if retries < bufPageReadMaxRetries then .again (retries + 1) else .unableToRead) := by
  unfold readAndRetry NotRead
  cases readPageLow page iteration.attempt <;> simp

/-- An iteration goes on without a read, after a read, or after one that was not made. -/
theorem iterate_again (next : iterate mode page iteration retries = .again retries') :
    (readOf mode iteration = none ∧ retries' = retries) ∨
      ∃ attempt, readOf mode iteration = some attempt ∧
        ((readPageLow page attempt = .read ∧ retries' = 0) ∨
          (NotRead page attempt ∧ retries < bufPageReadMaxRetries ∧ retries' = retries + 1)) := by
  by_cases flag : rwFlag (lookup iteration) = some false
  · left
    obtain ⟨block, same⟩ := iterate_of_usable mode page retries flag
    rw [same] at next
    refine ⟨by simp [readOf, flag], ?_⟩
    split at next
    · exact (Outcome.again.inj next).symm
    · cases next
  · right
    obtain ⟨made, next⟩ := read_of_iterate flag next ⟨nofun, nofun⟩
    refine ⟨_, made, ?_⟩
    rcases readAndRetry_cases page iteration retries with
      ⟨read, again⟩ | stopped | ⟨notRead, ending⟩
    · exact .inl ⟨read, (Outcome.again.inj (again.symm.trans next)).symm⟩
    · cases stopped.symm.trans next
    · rw [ending] at next
      split_ifs at next with more
      exact .inr ⟨notRead, more, (Outcome.again.inj next).symm⟩

theorem iterate_unableToRead (ends : iterate mode page iteration retries = .unableToRead) :
    ∃ attempt, readOf mode iteration = some attempt ∧ NotRead page attempt ∧
      bufPageReadMaxRetries ≤ retries := by
  by_cases flag : rwFlag (lookup iteration) = some false
  · obtain ⟨block, same⟩ := iterate_of_usable mode page retries flag
    rw [same] at ends
    split at ends <;> cases ends
  · obtain ⟨made, ends⟩ := read_of_iterate flag ends ⟨nofun, nofun⟩
    refine ⟨_, made, ?_⟩
    rcases readAndRetry_cases page iteration retries with
      ⟨_, again⟩ | stopped | ⟨notRead, ending⟩
    · cases again.symm.trans ends
    · cases stopped.symm.trans ends
    · rw [ending] at ends
      split_ifs at ends with more
      exact ⟨notRead, by omega⟩

end Iterate

/-! ## Runs of the loop -/

section Loop

variable {mode : GetMode} {page : PageId}

/-- The reads of a run, in order. -/
def reads (mode : GetMode) (iterations : List Iteration) : List ReadAttempt :=
  iterations.filterMap (readOf mode)

/-- The abort means that the last reads were not made, one more than the limit. -/
theorem window_of_unableToRead {iterations : List Iteration} {retries : Nat}
    (ends : loop mode page iterations retries = .unableToRead)
    (bound : retries ≤ bufPageReadMaxRetries) :
    ∃ window, window <:+: reads mode iterations ∧
      (∀ attempt ∈ window, NotRead page attempt) ∧
      (window.length = bufPageReadMaxRetries + 1 ∨
        (window <+: reads mode iterations ∧
          window.length + retries = bufPageReadMaxRetries + 1)) := by
  induction iterations generalizing retries with
  | nil => cases ends
  | cons iteration rest ih =>
    unfold loop at ends
    split at ends
    next retries' next =>
      rcases iterate_again next with ⟨none, rfl⟩ | ⟨attempt, made, result⟩
      · have same : reads mode (iteration :: rest) = reads mode rest := by
          simp [reads, none]
        rw [same]
        exact ih ends bound
      · have more : reads mode (iteration :: rest) = attempt :: reads mode rest := by
          simp [reads, made]
        rw [more]
        rcases result with ⟨_, rfl⟩ | ⟨notMade, below, rfl⟩
        · obtain ⟨window, inside, all, size⟩ := ih ends (by omega)
          refine ⟨window, inside.trans (List.suffix_cons _ _).isInfix, all, .inl ?_⟩
          rcases size with size | ⟨_, size⟩ <;> omega
        · obtain ⟨window, inside, all, size | ⟨start, size⟩⟩ := ih ends (by omega)
          · exact ⟨window, inside.trans (List.suffix_cons _ _).isInfix, all, .inl size⟩
          · have start' := (List.prefix_cons_inj attempt).2 start
            refine ⟨attempt :: window, start'.isInfix, ?_, .inr ⟨start', ?_⟩⟩
            · intro other listed
              rcases List.mem_cons.1 listed with rfl | later
              · exact notMade
              · exact all other later
            · simp only [List.length_cons]
              omega
    · obtain ⟨attempt, made, notMade, limit⟩ := iterate_unableToRead ends
      have more : reads mode (iteration :: rest) = attempt :: reads mode rest := by
        simp [reads, made]
      rw [more]
      have start : [attempt] <+: attempt :: reads mode rest := by simp
      refine ⟨[attempt], start.isInfix, ?_, .inr ⟨start, ?_⟩⟩
      · simpa using notMade
      · simp only [List.length_singleton]
        omega

/-- A null block is used only by the mode that asks for a watch, at the first iteration that
does not find the page or finds it in the hands of an RW command. -/
theorem loop_ne_nullBlock {iterations : List Iteration} {retries : Nat}
    (found : mode = .getIfInPoolOrWatch → ∀ iteration ∈ iterations, Usable iteration) :
    loop mode page iterations retries ≠ .nullBlock := by
  induction iterations generalizing retries with
  | nil => nofun
  | cons iteration rest ih =>
    intro null
    unfold loop at null
    split at null
    · exact ih (fun watch next later => found watch next (List.mem_cons_of_mem _ later)) null
    · by_cases flag : rwFlag (lookup iteration) = some false
      · obtain ⟨block, same⟩ := iterate_of_usable mode page retries flag
        rw [same] at null
        split at null <;> cases null
      · rw [iterate_of_unusable flag] at null
        cases waits : mode.reads with
        | true =>
          rw [miss_of_reads waits, readAndRetry] at null
          split at null
          · cases null
          · cases null
          · split at null <;> cases null
        | false =>
          cases mode with
          | getIfInPoolOrWatch =>
            exact flag (rwFlag_of_usable (found rfl iteration List.mem_cons_self))
          | getIfInPool => cases null
          | peekIfInPool => cases null
          | get | getNoLatch | getPossiblyFreed => cases waits

theorem metInPool_of_alreadyInPool {attempt : ReadAttempt}
    (result : readPageLow page attempt = .alreadyInPool) : attempt.metInPool page = true := by
  unfold readPageLow at result
  split at result
  · cases result
  · split at result
    next met => exact met
    · cases result
  · cases result

/-- For every mode and every run of the loop in which the mode that asks for a watch always
finds the page unmarked, and in which no more than the allowed number of reads in a row
meet the page in the pool: no null block is used, a watch is set where the page is absent,
and the abort comes only after a read that failed. -/
theorem lookup_sound (mode : GetMode) (page : PageId) (iterations : List Iteration)
    (found : mode = .getIfInPoolOrWatch → ∀ iteration ∈ iterations, Usable iteration)
    (spread : ∀ window, window <:+: reads mode iterations →
      window.length = bufPageReadMaxRetries + 1 →
      ∃ attempt ∈ window, attempt.metInPool page = false) :
    loop mode page iterations 0 ≠ .nullBlock ∧
      (mode = .getIfInPoolOrWatch → (∃ iteration ∈ iterations, lookup iteration = none) →
        loop mode page iterations 0 = .watching) ∧
      (loop mode page iterations 0 = .unableToRead →
        ∃ attempt ∈ reads mode iterations, readPageLow page attempt = .failed) := by
  refine ⟨loop_ne_nullBlock found, ?_, ?_⟩
  · rintro watch ⟨iteration, listed, absent⟩
    obtain ⟨block, present, _⟩ := found watch iteration listed
    exact absurd (absent.symm.trans present) nofun
  · intro ends
    obtain ⟨window, inside, all, size⟩ := window_of_unableToRead ends (Nat.zero_le _)
    have size : window.length = bufPageReadMaxRetries + 1 := by
      rcases size with size | ⟨_, size⟩ <;> omega
    obtain ⟨attempt, listed, outside⟩ := spread window inside size
    refine ⟨attempt, inside.subset listed, ?_⟩
    rcases all attempt listed with present | failed
    · rw [metInPool_of_alreadyInPool present] at outside
      cases outside
    · exact failed

end Loop

/-- A block that holds a page, or one that is ready for it; `target` says that an RW command
has chosen its page as the victim. -/
def plainBlock (state : BufPageState) (target : Bool) : BufBlock where
  state := state
  bufFixCount := 0
  ioFix := .none
  oldestModification := 0
  targetRwCmd := target
  useRwCmd := false
  modifyClock := 0
  lock := ⟨0, false⟩
  frame := ⟨⟨51, 9⟩, 1⟩

/-- An iteration without a guess that finds `hashed` in the page hash, and whose read would
succeed if it was made. -/
def quietIteration (hashed : Hashed) (inPool : Bool) : Iteration where
  guess := none
  hashed := hashed
  watched := hashed
  attempt :=
    { server := ⟨16384, none, false⟩
      zipSize := 0
      surroundings := ⟨.freeList (plainBlock .notUsed false), fun page => ⟨page, 1⟩, false⟩
      answers := ⟨false, inPool, false, false, none, .intact⟩ }
  busy := false

theorem loop_refused {mode : GetMode} {page : PageId} {iteration : Iteration}
    (refused : ∀ retries, iterate mode page iteration retries =
      if retries < bufPageReadMaxRetries then .again (retries + 1) else .unableToRead)
    (rest : List Iteration) {more retries : Nat} (limit : retries + more ≤ bufPageReadMaxRetries) :
    loop mode page (List.replicate more iteration ++ rest) retries =
      loop mode page rest (retries + more) := by
  induction more generalizing retries with
  | zero => rfl
  | succ more ih =>
    rw [List.replicate_succ, List.cons_append, loop, refused, if_pos (by omega)]
    exact (ih (by omega)).trans (by rw [Nat.add_right_comm, Nat.add_assoc])

/-- An iteration in which the page is the victim of an RW command. -/
abbrev victimIteration : Iteration := quietIteration (.page (plainBlock .filePage true)) true

/-- The page is a victim until only one more read may be refused, and that read succeeds. -/
theorem lookup_sound_get :
    let iterations := List.replicate bufPageReadMaxRetries victimIteration ++
      [quietIteration .absent false, quietIteration (.page (plainBlock .filePage false)) true]
    loop .get ⟨51, 9⟩ iterations 0 = .got (plainBlock .filePage false) ∧
      loop .get ⟨51, 9⟩ iterations 0 ≠ .nullBlock := by
  refine ⟨loop_refused (fun _ => rfl) _ (Nat.le_refl _), (lookup_sound .get ⟨51, 9⟩ _ nofun ?_).1⟩
  intro window inside size
  rw [inside.eq_of_length (size.trans (by decide +kernel))]
  exact ⟨_, List.mem_filterMap.2 ⟨quietIteration .absent false, by simp, rfl⟩, rfl⟩

/-- With the mode that asks for a watch, an absent page makes the loop read a field of a
null block.  With the plain mode, a page that is the victim of an RW command for long
enough makes the loop abort, and no read has failed. -/
theorem lookup_unsound :
    loop .getIfInPoolOrWatch ⟨51, 9⟩ [quietIteration .absent false] 0 = .nullBlock ∧
      loop .get ⟨51, 9⟩ (List.replicate (bufPageReadMaxRetries + 1) victimIteration) 0 =
        .unableToRead ∧
      ∀ attempt ∈ reads .get (List.replicate (bufPageReadMaxRetries + 1) victimIteration),
        readPageLow ⟨51, 9⟩ attempt = .alreadyInPool := by
  refine ⟨rfl, ?_, ?_⟩
  · rw [List.replicate_succ']
    exact loop_refused (fun _ => rfl) [victimIteration] (Nat.le_refl _)
  · intro attempt listed
    obtain ⟨iteration, repeated, made⟩ := List.mem_filterMap.1 listed
    cases (List.mem_replicate.1 repeated).2
    cases made
    rfl

end RwRbuf.Innodb.PageLookup
