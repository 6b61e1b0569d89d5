import RwRbuf.Innodb.FileCacheRuns

/-! # Pages that cannot be accessed

`fil_io` reports a page whose space is gone, whose file is missing or that lies after the
last file.  An RW command should report the same for each of its two pages, and it should
leave the counts of pending operations and the list of files as they were before the call.
A call begins with the attempts to enter the mutex of `fil_system`, which may close files.
-/

namespace RwRbuf.Innodb
namespace FilSystem

variable {config : ServerConfig} {sys : FilSystem}

variable {exit : FilExit}

/-- Preparing the first file does not change how the second one fails, if that is another
file. -/
theorem openForIo_prepared_error {first second : NodeId} {firstSpace secondSpace : FilSpace}
    {size : Nat} (valid : sys.LruValid config)
    (firstKnown : sys.space first.spaceId = some firstSpace)
    (secondKnown : sys.space second.spaceId = some secondSpace)
    (stopped : (sys.prepared config firstSpace first size).openForIo config secondSpace second =
      .error exit) :
    sys.Missing second ∧
        exit = (sys.prepared config firstSpace first size).missingExit config secondSpace second ∨
      ¬sys.Missing second ∧ sys.readySize config secondSpace second = none ∧ exit = .aborted := by
  have different : second ≠ first := by
    rintro rfl
    obtain rfl : firstSpace = secondSpace := Option.some.inj (firstKnown.symm.trans secondKnown)
    rw [openForIo_eq, if_neg (prepared_not_missing size), prepared_readySize_self] at stopped
    cases stopped
  rw [openForIo_eq_error, prepared_missing_of_ne different,
    valid.readySize_prepared secondKnown (valid.prepared firstKnown) different] at stopped
  exact stopped

theorem checkStart_eq_error {space : FilSpace} {id : NodeId} {blockOffset : Nat} :
    sys.checkStart space id blockOffset = .error exit ↔
      ((sys.node id).size ≤ blockOffset ∧ id.spaceId ≠ 0 ∧ space.purpose = .tablespace) ∧
        exit = .aborted := by
  rw [checkStart]
  split_ifs with outside
  · simp [outside, eq_comm]
  · simp [outside]

variable {page : PageAddress}

theorem fileOffset_page_eq_error {size blockOffset : Nat} :
    config.fileOffset size page.zipSize blockOffset 0 (page.bytes config) = .error exit ↔
      ¬1 ≤ ulintSub size blockOffset ∧ exit = .aborted := by
  rw [fileOffset_page]
  split_ifs with whole
  · simp [whole]
  · simp [whole, eq_comm]

theorem sendRwIo_page_eq_error {idW idR : NodeId} {offsetW offsetR : Nat}
    :
    sys.sendRwIo config .write ⟨.write, idW, offsetW, page.bytes config⟩
        ⟨.read, idR, offsetR, page.bytes config⟩ = .error exit ↔
      page.bytes config ≠ config.univPageSize ∧ exit = .aborted := by
  rw [sendRwIo_page]
  split_ifs with whole
  · simp [whole]
  · simp [whole, eq_comm]

/-- The ways in which `fil_io` fails for a page of an existing space. -/
inductive Fails (config : ServerConfig) (sys : FilSystem) (ignore : Bool) (space : FilSpace)
    (page : PageId) : FilReport → Prop
  | beyond (lost : sys.findNode config (space.chain page.space) page.offset = none) :
      Fails config sys ignore space page (sys.beyondExit ignore).report
  | missing {found : NodeId × Nat}
      (located : sys.findNode config (space.chain page.space) page.offset = some found)
      (missing : sys.Missing found.1) :
      Fails config sys ignore space page (sys.missingExit config space found.1).report
  | notReady {found : NodeId × Nat}
      (located : sys.findNode config (space.chain page.space) page.offset = some found)
      (present : ¬sys.Missing found.1)
      (notReady : sys.readySize config space found.1 = none) :
      Fails config sys ignore space page .aborted
  | outside {found : NodeId × Nat} {size : Nat}
      (located : sys.findNode config (space.chain page.space) page.offset = some found)
      (present : ¬sys.Missing found.1)
      (ready : sys.readySize config space found.1 = some size)
      (outside : ¬InFile space found size) :
      Fails config sys ignore space page .aborted

theorem Fails.pageAccess {ignore : Bool} {space : FilSpace} {page : PageId} {report : FilReport}
    (fails : Fails config sys ignore space page report)
    (known : sys.space page.space = some space) :
    sys.pageAccess config ignore page = .error report := by
  cases fails with
  | beyond lost => simp [FilSystem.pageAccess, known, lost]
  | missing located missing => simp [FilSystem.pageAccess, known, located, missing]
  | notReady located present notReady =>
    simp [FilSystem.pageAccess, known, located, present, notReady]
  | outside located present ready outside =>
    simp [FilSystem.pageAccess, known, located, present, ready, outside]

/-- The file of the victim is missing while that of the page to read is open or can be
opened. -/
def OnlyVictimMissing (config : ServerConfig) (sys : FilSystem) (victim wanted : PageId) : Prop :=
  ∃ spaceW spaceR foundW foundR size,
    sys.space victim.space = some spaceW ∧ sys.space wanted.space = some spaceR ∧
    sys.findNode config (spaceW.chain victim.space) victim.offset = some foundW ∧
    sys.findNode config (spaceR.chain wanted.space) wanted.offset = some foundR ∧
    sys.Missing foundW.1 ∧ spaceW.belongsInLru config foundW.1.spaceId ∧
    sys.readySize config spaceR foundR.1 = some size

def BothAccessible (config : ServerConfig) (sys : FilSystem) (ignore : Bool)
    (victim wanted : PageId) : Prop :=
  (∃ found, sys.pageAccess config ignore victim = .ok found) ∧
    ∃ found, sys.pageAccess config ignore wanted = .ok found

theorem not_missing_of_readySize {space : FilSpace} {id : NodeId} {size : Nat}
    (ready : sys.readySize config space id = some size) : ¬sys.Missing id := by
  rintro ⟨closed, idle, _, gone⟩
  simp [readySize, closed, idle, gone] at ready

theorem complete_prepared {first second : NodeId} {firstSpace secondSpace : FilSpace}
    {size secondSize : Nat} {type : IoType} :
    ((sys.prepared config firstSpace first size).prepared config secondSpace second
        secondSize).filNodeCompleteIo config secondSpace second type ≠ .error exit ∧
      ∀ sys', ((sys.prepared config firstSpace first size).prepared config secondSpace second
          secondSize).filNodeCompleteIo config secondSpace second type = .ok sys' →
        sys'.filNodeCompleteIo config firstSpace first type ≠ .error exit := by
  obtain ⟨middle, completed, effect⟩ : ∃ middle, ((sys.prepared config firstSpace first
      size).prepared config secondSpace second secondSize).filNodeCompleteIo config secondSpace
        second type = .ok middle ∧ Completed config secondSpace second _ middle :=
    filNodeCompleteIo_total type (by simp)
  constructor
  · rw [completed]
    exact fun impossible => by cases impossible
  · intro sys' completed'
    obtain rfl := Except.ok.inj (completed.symm.trans completed')
    have pending : 0 < (middle.node first).nPending := by
      by_cases same : first = second
      · subst same
        rw [effect.nPending_eq, prepared_node_self, prepared_node_self]
        exact Nat.succ_pos _
      · rw [effect.others first same, prepared_node_of_ne same, prepared_node_self]
        exact Nat.succ_pos _
    obtain ⟨last, completedLast, _⟩ : ∃ last, middle.filNodeCompleteIo config firstSpace first
        type = .ok last ∧ Completed config firstSpace first middle last :=
      filNodeCompleteIo_total type pending
    rw [completedLast]
    exact fun impossible => by cases impossible

/-- An RW command that fails does so as `fil_io` fails for one of the two pages or because
the victim has no whole page, and it has changed nothing unless only the file of the victim
is missing. -/
theorem pageRwIo_eq_error {ignore : Bool} {victim wanted : PageAddress}
    {spaceW spaceR : FilSpace} (valid : sys.LruValid config)
    (knownW : sys.space victim.space = some spaceW) (knownR : sys.space wanted.space = some spaceR)
    (stopped : sys.pageRwIo config ignore victim wanted = .error exit) :
    (Fails config sys ignore spaceW victim.toPageId exit.report ∨
      Fails config sys ignore spaceR wanted.toPageId exit.report ∨
      BothAccessible config sys ignore victim.toPageId wanted.toPageId ∧
        victim.bytes config ≠ config.univPageSize) ∧
    ∀ err sys', exit = .failed err sys' →
      sys' = sys ∨ OnlyVictimMissing config sys victim.toPageId wanted.toPageId := by
  rw [pageRwIo, filIoWithRwCmd] at stopped
  simp only [knownW, knownR, Fallible.bind_eq_error, locate_eq_ok, locate_eq_error] at stopped
  obtain ⟨lostR, rfl⟩ | ⟨foundR, locatedR, ⟨lostW, rfl⟩ | ⟨foundW, locatedW, stopped⟩⟩ := stopped
  · refine ⟨.inr (.inl (.beyond lostR)), fun err sys' failed => Or.inl ?_⟩
    rw [beyondExit] at failed
    split_ifs at failed
    exact (FilExit.failed.inj failed).2.symm
  · refine ⟨.inl (.beyond lostW), fun err sys' failed => Or.inl ?_⟩
    rw [beyondExit] at failed
    split_ifs at failed
    exact (FilExit.failed.inj failed).2.symm
  obtain openR | ⟨sysR, openR, stopped⟩ := stopped
  · obtain ⟨missing, rfl⟩ | ⟨present, notReady, rfl⟩ := openForIo_eq_error.mp openR
    · refine ⟨.inr (.inl (.missing locatedR missing)), fun err sys' failed => Or.inl ?_⟩
      rw [missingExit] at failed
      split_ifs at failed
      exact (FilExit.failed.inj failed).2.symm
    · refine ⟨.inr (.inl (.notReady locatedR present notReady)), fun err sys' failed => ?_⟩
      cases failed
  obtain ⟨presentR, sizeR, readyR, rfl⟩ := openForIo_eq_ok.mp openR
  have knownR' : sys.space foundR.1.spaceId = some spaceR :=
    spaceId_of_findNode locatedR ▸ knownR
  have knownW' : sys.space foundW.1.spaceId = some spaceW :=
    spaceId_of_findNode locatedW ▸ knownW
  obtain openW | ⟨sysW, openW, stopped⟩ := stopped
  · obtain ⟨missing, rfl⟩ | ⟨present, notReady, rfl⟩ :=
      openForIo_prepared_error valid knownR' knownW' openW
    · rw [missingExit_report _ sys]
      refine ⟨.inl (.missing locatedW missing), fun err sys' failed => Or.inr ?_⟩
      rw [missingExit] at failed
      split_ifs at failed with belongs
      exact ⟨spaceW, spaceR, foundW, foundR, sizeR, knownW, knownR, locatedW, locatedR, missing,
        belongs, readyR⟩
    · refine ⟨.inl (.notReady locatedW present notReady), fun err sys' failed => ?_⟩
      cases failed
  obtain ⟨presentW, sizeW, readyW, rfl⟩ :=
    openForIo_prepared_ok knownR' knownW' presentR readyR openW
  simp only [checkStart_eq_ok, checkStart_eq_error, fileOffset_page_eq_ok,
    fileOffset_page_eq_error, checkBlockSize_page, sendRwIo_page_eq_ok, sendRwIo_page_eq_error,
    prepared_prepared_size knownR' knownW' readyR readyW, prepared_node_self] at stopped
  -- With both files open the command can only abort: a page is not in its file, or the victim
  -- has not the size of the server's pages.
  have outside : exit = .aborted ∧ (¬InFile spaceW foundW sizeW ∨ ¬InFile spaceR foundR sizeR ∨
      (InFile spaceW foundW sizeW ∧ InFile spaceR foundR sizeR) ∧
        victim.bytes config ≠ config.univPageSize) := by
    obtain ⟨outside, rfl⟩ | ⟨_, insideR, ⟨outside, rfl⟩ | ⟨_, insideW, ⟨cut, rfl⟩ |
      ⟨_, wholeR, ⟨cut, rfl⟩ | ⟨_, wholeW, impossible | ⟨_, _, ⟨part, rfl⟩ | ⟨_, _, impossible |
        ⟨completed, completedEq, impossible | ⟨_, _, impossible⟩⟩⟩⟩⟩⟩⟩⟩ := stopped
    · exact ⟨rfl, .inr (.inl fun inFile => inFile.1 outside)⟩
    · exact ⟨rfl, .inl fun inFile => inFile.1 outside⟩
    · exact ⟨rfl, .inr (.inl fun inFile => cut inFile.2)⟩
    · exact ⟨rfl, .inl fun inFile => cut inFile.2⟩
    · cases impossible
    · exact ⟨rfl, .inr (.inr ⟨⟨⟨insideW, wholeW.1⟩, insideR, wholeR.1⟩, part⟩)⟩
    · exact (complete_prepared.1 impossible).elim
    · exact (complete_prepared.2 completed completedEq impossible).elim
    · cases impossible
  obtain ⟨rfl, outsideW | outsideR | ⟨⟨inFileW, inFileR⟩, part⟩⟩ := outside
  · exact ⟨.inl (.outside locatedW presentW readyW outsideW), fun _ _ failed => by cases failed⟩
  · exact ⟨.inr (.inl (.outside locatedR presentR readyR outsideR)),
      fun _ _ failed => by cases failed⟩
  · refine ⟨.inr (.inr ⟨⟨⟨foundW, ?_⟩, foundR, ?_⟩, part⟩), fun _ _ failed => by cases failed⟩
    · exact pageAccess_eq_ok knownW locatedW presentW readyW inFileW
    · exact pageAccess_eq_ok knownR locatedR presentR readyR inFileR

/-- With only the file of the victim missing, the command returns after it has counted an
operation on the file of the page to read. -/
theorem OnlyVictimMissing.pageRwIo {victim wanted : PageAddress} {ignore : Bool}
    (lost : OnlyVictimMissing config sys victim.toPageId wanted.toPageId) :
    ∃ id sys', sys.pageRwIo config ignore victim wanted =
        .error (.failed .tablespaceDeleted sys') ∧
      (sys'.node id).nPending = (sys.node id).nPending + 1 := by
  obtain ⟨spaceW, spaceR, foundW, foundR, size, knownW, knownR, locatedW, locatedR, missing,
    belongs, ready⟩ := lost
  have present := not_missing_of_readySize ready
  have different : foundW.1 ≠ foundR.1 := by
    intro same
    rw [same] at missing
    exact present missing
  have stillMissing : (sys.prepared config spaceR foundR.1 size).Missing foundW.1 :=
    (prepared_missing_of_ne different size).mpr missing
  refine ⟨foundR.1, sys.prepared config spaceR foundR.1 size, ?_, by rw [prepared_node_self]⟩
  rw [FilSystem.pageRwIo, filIoWithRwCmd]
  simp only [knownW, knownR, locate_eq_ok.mpr locatedR, locate_eq_ok.mpr locatedW,
    openForIo_eq_ok.mpr ⟨present, size, ready, rfl⟩, bind, Except.bind]
  rw [openForIo_eq_error.mpr (Or.inl ⟨stillMissing, rfl⟩), missingExit, if_pos belongs]

theorem pageAccess_ne_nullPointer {ignore : Bool} {page : PageId} :
    sys.pageAccess config ignore page ≠ .error .nullPointer := by
  rw [pageAccess, beyondExit]
  simp only [missingExit]
  split
  · simp
  · split
    · split_ifs <;> simp [FilExit.report]
    · split_ifs
      · simp [FilExit.report]
      · simp [FilExit.report]
      · split
        · simp
        · split_ifs <;> simp

theorem pageIo_error_of_pageAccess {ignore : Bool} {report : FilReport}
    (type : IoType) (access : sys.pageAccess config ignore page.toPageId = .error report) :
    ∃ exit, exit.report = report ∧ sys.pageIo config type ignore page = .error exit := by
  obtain ⟨found, sys', access', _⟩ | ⟨exit, access', stopped⟩ :=
    sys.pageIo_pageAccess type ignore page
  · cases access.symm.trans access'
  · exact ⟨exit, (Except.error.inj (access.symm.trans access')).symm, stopped⟩

theorem pageAccess_of_pageIo_error {ignore : Bool} {type : IoType}
    (stopped : sys.pageIo config type ignore page = .error exit) :
    sys.pageAccess config ignore page.toPageId = .error exit.report := by
  obtain ⟨found, sys', _, succeeds⟩ | ⟨exit', access, stopped'⟩ :=
    sys.pageIo_pageAccess type ignore page
  · cases stopped.symm.trans succeeds
  · rw [access, Except.error.inj (stopped.symm.trans stopped')]

end FilSystem

namespace FilCache

variable {config : ServerConfig} {cache closed : FilCache} {spaceId spaceIdToRead : Nat}

/-! ## What the attempts to enter the mutex change -/

/-- The pending operations and the list of files that can be closed are the same. -/
def SameBooks (sys sys' : FilSystem) : Prop :=
  ∀ id, (sys'.node id).nPending = (sys.node id).nPending ∧ (id ∈ sys'.lru ↔ id ∈ sys.lru)

theorem closeMore_of_found {id : NodeId} {rounds : Nat}
    (found : cache.lru.reverse.find? cache.canClose = some id)
    (closing : closeMore config (rounds + 1) cache = some closed) :
    ∃ middle, cache.filNodeCloseFile config id = some middle ∧
      (closed = middle ∨ closeMore config rounds middle = some closed) := by
  rw [closeMore, filTryToCloseFileInLru, found] at closing
  cases first : cache.filNodeCloseFile config id with
  | none => simp [first] at closing
  | some middle =>
    simp only [first, Option.map_some] at closing
    split_ifs at closing
    · exact ⟨middle, rfl, .inr closing⟩
    · exact ⟨middle, rfl, .inl (Option.some.inj closing).symm⟩

theorem closeMore_keeps (Invariant : FilCache → Prop)
    (close : ∀ cache closed id, Invariant cache →
      cache.filNodeCloseFile config id = some closed → Invariant closed)
    (rounds : Nat) : ∀ {cache : FilCache}, Invariant cache →
      closeMore config rounds cache = some closed → Invariant closed := by
  induction rounds with
  | zero =>
    intro cache holds closing
    exact Option.some.inj closing ▸ holds
  | succ rounds ih =>
    intro cache holds closing
    cases found : cache.lru.reverse.find? cache.canClose with
    | none =>
      rw [closeMore_of_exhausted found] at closing
      exact Option.some.inj closing ▸ holds
    | some id =>
      obtain ⟨middle, first, rfl | rest⟩ := closeMore_of_found found closing
      · exact close _ _ _ holds first
      · exact ih (close _ _ _ holds first) rest

theorem closeMore_shrinks {rounds : Nat} (closing : closeMore config rounds cache = some closed) :
    closed.lru ⊆ cache.lru ∧ ∀ id, (closed.node id).nPending = (cache.node id).nPending := by
  refine closeMore_keeps (fun later => later.lru ⊆ cache.lru ∧
    ∀ id, (later.node id).nPending = (cache.node id).nPending) ?_ rounds
    ⟨List.Subset.refl _, fun _ => rfl⟩ closing
  rintro before after id ⟨listed, pending⟩ first
  obtain ⟨_, result⟩ := filNodeCloseFile_eq_some first
  rw [result]
  refine ⟨?_, fun other => ?_⟩
  · dsimp only
    split_ifs
    · exact List.Subset.trans List.erase_subset listed
    · exact listed
  · rw [← pending other]
    by_cases same : other = id <;> simp [FilSystem.setNode, same]

/-- The loop `close_more` leaves the list alone only if there is nothing to close. -/
theorem sameBooks_iff_exhausted {rounds : Nat} (accounted : cache.toFilSystem.Accounted config)
    (closing : closeMore config (rounds + 1) cache = some closed) :
    SameBooks cache.toFilSystem closed.toFilSystem ↔ cache.Exhausted := by
  constructor
  · intro same
    cases found : cache.lru.reverse.find? cache.canClose with
    | none => exact found
    | some id =>
      exfalso
      have listed : id ∈ cache.lru := List.mem_reverse.mp (List.mem_of_find?_eq_some found)
      obtain ⟨middle, first, later⟩ := closeMore_of_found found closing
      obtain ⟨_, result⟩ := filNodeCloseFile_eq_some first
      rw [if_pos ((accounted.mem_iff id).mp listed).2.2] at result
      have gone : id ∉ middle.lru := by
        rw [result]
        exact accounted.nodup.not_mem_erase
      rcases later with rfl | rest
      · exact gone ((same id).2.mpr listed)
      · exact gone ((closeMore_shrinks rest).1 ((same id).2.mpr listed))
  · intro exhausted
    rw [closeMore_of_exhausted exhausted] at closing
    cases closing
    exact fun _ => ⟨rfl, Iff.rfl⟩

def Leaves (config : ServerConfig) (cache : FilCache) : Attempt → Prop
  | .returned false closed => closed = cache
  | .returned true closed => closeMore config (cache.nOpen + 1) cache = some closed
  | .waitsForFiles closed => closeMore config (cache.nOpen + 1) cache = some closed
  | _ => True

theorem makeRoom_leaves (count : Nat) : cache.Leaves config (cache.makeRoom config count) := by
  unfold makeRoom
  cases closing : closeMore config (cache.nOpen + 1) cache with
  | none => trivial
  | some closed =>
    dsimp only
    split_ifs <;> exact closing

theorem rwIo_leaves (count : Nat) : cache.Leaves config
    (cache.filMutexEnterAndPrepareForRwIo config spaceId spaceIdToRead count) := by
  unfold filMutexEnterAndPrepareForRwIo
  split_ifs
  · rfl
  · trivial
  · rfl
  · split
    · trivial
    · rfl
    · split
      · trivial
      · rfl
      · exact makeRoom_leaves count

def waitsOf (attempt : FilCache → Nat → Attempt) : List FilCache → Nat → List (FilCache × FilCache)
  | [], _ => []
  | found :: later, count =>
    match attempt found count with
    | .waitsForFiles closed => (found, closed) :: waitsOf attempt later (count + 1)
    | _ => waitsOf attempt later count

theorem mem_waitsOf {attempt : FilCache → Nat → Attempt} {wait : FilCache × FilCache} :
    ∀ {seen : List FilCache} {count : Nat}, wait ∈ waitsOf attempt seen count →
      wait.1 ∈ seen ∧ ∃ count, attempt wait.1 count = .waitsForFiles wait.2 := by
  intro seen
  induction seen with
  | nil =>
    intro count member
    cases member
  | cons found later ih =>
    intro count member
    rw [waitsOf] at member
    split at member
    next closed waits =>
      obtain rfl | member := List.mem_cons.mp member
      · exact ⟨List.mem_cons_self, count, waits⟩
      · exact ⟨List.mem_cons_of_mem _ (ih member).1, (ih member).2⟩
    · exact ⟨List.mem_cons_of_mem _ (ih member).1, (ih member).2⟩

end FilCache

/-! ## Calls -/

open FilCache (SameBooks)

/-- A call of `fil_io_with_rw_cmd` up to the point where it holds the mutex: the states that
its attempts find, and the last one before and after files are closed.  Other threads may
change the cache between two attempts. -/
structure RwCall (config : ServerConfig) (spaceId spaceIdToRead : Nat) where
  seen : List FilCache
  found : FilCache
  count : Nat
  tried : Bool
  closed : FilCache
  reached : ∀ cache ∈ found :: seen, cache.Reached config
  counted : FilCache.countOf
    (fun cache => cache.filMutexEnterAndPrepareForRwIo config spaceId spaceIdToRead) seen 0 =
      some count
  entered : found.filMutexEnterAndPrepareForRwIo config spaceId spaceIdToRead count =
    .returned tried closed

namespace RwCall

variable {config : ServerConfig} {spaceId spaceIdToRead : Nat}
  (call : RwCall config spaceId spaceIdToRead)

def waits : List (FilCache × FilCache) :=
  FilCache.waitsOf
    (fun cache => cache.filMutexEnterAndPrepareForRwIo config spaceId spaceIdToRead) call.seen 0

/-- Whenever the call tries to close files it finds none that can be closed. -/
def ClosesNothing : Prop :=
  (call.tried = true → call.found.Exhausted) ∧ ∀ wait ∈ call.waits, wait.1.Exhausted

theorem closed_cases : call.tried = false ∧ call.closed = call.found ∨ call.tried = true ∧
    FilCache.closeMore config (call.found.nOpen + 1) call.found = some call.closed := by
  have leaves : call.found.Leaves config (call.found.filMutexEnterAndPrepareForRwIo config
      spaceId spaceIdToRead call.count) := FilCache.rwIo_leaves call.count
  rw [call.entered] at leaves
  cases tried : call.tried with
  | false =>
    rw [tried] at leaves
    exact .inl ⟨rfl, leaves⟩
  | true =>
    rw [tried] at leaves
    exact .inr ⟨rfl, leaves⟩

theorem accounted_found : call.found.toFilSystem.Accounted config :=
  (call.reached call.found List.mem_cons_self).accounted

theorem lruValid : call.closed.toFilSystem.LruValid config := by
  apply FilCache.Valid.lru
  apply FilCache.valid_of_accounted
  obtain ⟨_, same⟩ | ⟨_, closing⟩ := call.closed_cases
  · exact same ▸ call.accounted_found
  · exact FilCache.closeMore_keeps (fun cache => cache.toFilSystem.Accounted config)
      (fun _ _ _ => FilCache.accounted_of_close) _ call.accounted_found closing

theorem nPending_closed (id : NodeId) :
    (call.closed.node id).nPending = (call.found.node id).nPending := by
  obtain ⟨_, same⟩ | ⟨_, closing⟩ := call.closed_cases
  · rw [same]
  · exact (FilCache.closeMore_shrinks closing).2 id

/-- The attempts of a call leave the books alone only if they find nothing to close. -/
theorem sameBooks_iff :
    SameBooks call.found.toFilSystem call.closed.toFilSystem ∧
      (∀ wait ∈ call.waits, SameBooks wait.1.toFilSystem wait.2.toFilSystem) ↔
    call.ClosesNothing := by
  have last : SameBooks call.found.toFilSystem call.closed.toFilSystem ↔
      (call.tried = true → call.found.Exhausted) := by
    obtain ⟨untried, same⟩ | ⟨tried, closing⟩ := call.closed_cases
    · rw [same, untried]
      exact ⟨fun _ => by simp, fun _ _ => ⟨rfl, Iff.rfl⟩⟩
    · rw [FilCache.sameBooks_iff_exhausted call.accounted_found closing, tried]
      simp
  have waits : ∀ wait ∈ call.waits,
      (SameBooks wait.1.toFilSystem wait.2.toFilSystem ↔ wait.1.Exhausted) := by
    intro wait member
    obtain ⟨seen, count, waited⟩ := FilCache.mem_waitsOf member
    have leaves : wait.1.Leaves config (wait.1.filMutexEnterAndPrepareForRwIo config spaceId
        spaceIdToRead count) := FilCache.rwIo_leaves count
    rw [waited] at leaves
    exact FilCache.sameBooks_iff_exhausted
      (call.reached wait.1 (List.mem_cons_of_mem _ seen)).accounted leaves
  rw [last, ClosesNothing]
  exact and_congr_right fun _ => forall₂_congr waits

end RwCall

section Errors

variable {config : ServerConfig} {ignore : Bool} {victim wanted : PageAddress}

/-- The handling of errors by a call for two pages, against that of `fil_io` for each of them
in the state in which the call holds the mutex. -/
structure FailsLikeFilIo (config : ServerConfig) (ignore : Bool) (victim wanted : PageAddress)
    (call : RwCall config victim.space wanted.space) : Prop where
  /-- What is reported is what `fil_io` reports for one of the pages. -/
  reported : ∀ exit, call.closed.toFilSystem.pageRwIo config ignore victim wanted = .error exit →
    ∃ exit', exit'.report = exit.report ∧
      (call.closed.toFilSystem.pageIo config .write ignore victim = .error exit' ∨
        call.closed.toFilSystem.pageIo config .read ignore wanted = .error exit')
  /-- What `fil_io` reports for a page does not go unnoticed. -/
  noticed : ∀ exit', (call.closed.toFilSystem.pageIo config .write ignore victim = .error exit' ∨
      call.closed.toFilSystem.pageIo config .read ignore wanted = .error exit') →
    ∃ exit, call.closed.toFilSystem.pageRwIo config ignore victim wanted = .error exit
  /-- A returned error leaves the pending operations and the list of files as the call has
  found them, and so do its earlier attempts. -/
  unchanged : ∀ err sys',
    call.closed.toFilSystem.pageRwIo config ignore victim wanted = .error (.failed err sys') →
      SameBooks call.found.toFilSystem sys' ∧
        ∀ wait ∈ call.waits, SameBooks wait.1.toFilSystem wait.2.toFilSystem

variable {call : RwCall config victim.space wanted.space}

section

variable (handled : FailsLikeFilIo config ignore victim wanted call)
include handled

/-- If a space does not exist, then the RW command follows a null pointer where `fil_io`
returns an error. -/
theorem FailsLikeFilIo.not_nullPointer :
    call.closed.toFilSystem.pageRwIo config ignore victim wanted ≠ .error .nullPointer := by
  intro stopped
  obtain ⟨exit, sameReport, stoppedW | stoppedR⟩ := handled.reported _ stopped
  · have access := FilSystem.pageAccess_of_pageIo_error stoppedW
    rw [sameReport] at access
    exact FilSystem.pageAccess_ne_nullPointer access
  · have access := FilSystem.pageAccess_of_pageIo_error stoppedR
    rw [sameReport] at access
    exact FilSystem.pageAccess_ne_nullPointer access

theorem FailsLikeFilIo.spaces_exist :
    (∃ space, call.closed.space victim.space = some space) ∧
      ∃ space, call.closed.space wanted.space = some space := by
  have pointers := handled.not_nullPointer
  rw [FilSystem.pageRwIo, FilSystem.filIoWithRwCmd] at pointers
  cases knownW : call.closed.space victim.space with
  | none => simp [knownW] at pointers
  | some spaceW =>
    cases knownR : call.closed.space wanted.space with
    | none => simp [knownW, knownR] at pointers
    | some spaceR => exact ⟨⟨spaceW, rfl⟩, spaceR, rfl⟩

theorem FailsLikeFilIo.not_onlyVictimMissing :
    ¬FilSystem.OnlyVictimMissing config call.closed.toFilSystem victim.toPageId
      wanted.toPageId := by
  intro lost
  obtain ⟨id, sys', returned, counted⟩ := lost.pageRwIo
  have same := ((handled.unchanged _ _ returned).1 id).1
  have entry := call.nPending_closed id
  omega

theorem FailsLikeFilIo.whole_page
    (accessible : FilSystem.BothAccessible config call.closed.toFilSystem ignore victim.toPageId
      wanted.toPageId) : victim.bytes config = config.univPageSize := by
  obtain ⟨⟨foundW, accessW⟩, foundR, accessR⟩ := accessible
  cases outcome : call.closed.toFilSystem.pageRwIo config ignore victim wanted with
  | ok result => exact (FilSystem.pageRwIo_eq_ok outcome).1
  | error exit =>
    obtain ⟨exit', _, stoppedW | stoppedR⟩ := handled.reported exit outcome
    · cases accessW.symm.trans (FilSystem.pageAccess_of_pageIo_error stoppedW)
    · cases accessR.symm.trans (FilSystem.pageAccess_of_pageIo_error stoppedR)

end

end Errors

/-! ## Small servers -/

/-- Three tables in files of their own, none of them open; the file of table 1 may be lost
and its pages may be compressed. -/
def threeTables (lost : Bool) (zipSsize : Fin 6) (maxNOpen : Nat) : FilCache where
  space spaceId :=
    if spaceId = 1 then some ⟨.tablespace, ⟨zipSsize, 0⟩, false, 1⟩
    else if spaceId ≤ 3 then some ⟨.tablespace, ⟨uncompressed, 0⟩, false, 1⟩
    else none
  node id := ⟨if lost ∧ id.spaceId = 1 then 0 else 64, false, 0, 0, 0⟩
  disk id :=
    if lost ∧ id.spaceId = 1 then none
    else some
      ⟨64 * 16384, id.spaceId, ⟨if id.spaceId = 1 then zipSsize else uncompressed, 0⟩⟩
  fibmap _ block := block
  lru := []
  nOpen := 0
  modificationCounter := 0
  unflushedSpaces := []
  stopIos _ := false
  maxNOpen := maxNOpen
  nPendingFlushes _ := 0
  beingExtended _ := false

/-- A page is read from each of some tables. -/
def reads (tables : List Nat) : List FilCache.Event :=
  tables.flatMap fun spaceId => [.prepare ⟨spaceId, 0⟩, .complete ⟨spaceId, 0⟩ .read]

theorem threeTables_reached {lost : Bool} {zipSsize : Fin 6} {maxNOpen : Nat}
    {tables : List Nat} {found : FilCache}
    (taken : Fallible.runEvents (FilCache.step FilSystem.defaultConfig) (reads tables)
      (threeTables lost zipSsize maxNOpen) = some found) :
    found.Reached FilSystem.defaultConfig := by
  refine ⟨_, ⟨fun _ => ⟨rfl, rfl⟩, rfl, rfl⟩, Fallible.reaches_of_runEvents _ ?_ taken⟩
  intro event member cache
  simp only [reads, List.mem_flatMap, List.mem_cons, List.not_mem_nil, or_false] at member
  obtain ⟨_, _, rfl | rfl⟩ := member <;> trivial

def RwCall.immediate {config : ServerConfig} {spaceId spaceIdToRead : Nat}
    {found closed : FilCache} {tried : Bool} (reached : found.Reached config)
    (entered : found.filMutexEnterAndPrepareForRwIo config spaceId spaceIdToRead 0 =
      .returned tried closed) : RwCall config spaceId spaceIdToRead where
  seen := []
  found := found
  count := 0
  tried := tried
  closed := closed
  reached := by simpa using reached
  counted := rfl
  entered := entered

open FilSystem (defaultConfig plainPage)

end RwRbuf.Innodb
