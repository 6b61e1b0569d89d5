import Mathlib.Tactic.Ring
import RwRbuf.Lib.Fallible
import RwRbuf.Innodb.BufBlock
import RwRbuf.Innodb.RwCommand

/-! # The cache of tablespace files

`fil_system` keeps the data files of each tablespace in a chain.  A file that is open and
has no pending input or output stands in a list from which files are closed when too many
are open; `fil_node_prepare_for_io` opens a file, takes it off this list and counts the
operation, and `fil_node_complete_io` undoes the last two.

The states here are those in which a thread holds the mutex of `fil_system`, after it has
made room for another open file.
-/

namespace RwRbuf.Innodb

/-- The settings that the file module reads. -/
structure ServerConfig where
  /-- `UNIV_PAGE_SIZE_SHIFT` -/
  univPageSizeShift : Nat
  /-- `srv_undo_tablespaces_open` -/
  undoTablespacesOpen : Nat
  /-- `srv_unix_file_flush_method` is `SRV_UNIX_O_DIRECT_NO_FSYNC`. -/
  directNoFsync : Bool
  shift_min : 12 ≤ univPageSizeShift
  shift_max : univPageSizeShift ≤ 14

namespace ServerConfig

variable (config : ServerConfig)

def univPageSize : Nat := 1 <<< config.univPageSizeShift

def isUserTablespaceId (spaceId : Nat) : Bool := config.undoTablespacesOpen < spaceId

end ServerConfig

/-- The code in the flags of a tablespace for pages that are not compressed. -/
def uncompressed : Fin 6 := 0

/-- The size of the compressed pages of a tablespace, as its flags encode it. -/
def zipSizeOf (zipSsize : Fin 6) : Nat :=
  if zipSsize = uncompressed then 0 else 512 <<< zipSsize.val

structure SpaceFlags where
  zipSsize : Fin 6
  /-- The other bits of the flags. -/
  others : Nat
deriving DecidableEq

inductive FilPurpose
  | tablespace
  | log
deriving DecidableEq

structure FilSpace where
  purpose : FilPurpose
  flags : SpaceFlags
  /-- The tablespace is being deleted. -/
  stopNewOps : Bool
  /-- The number of files in the chain of the space. -/
  files : Nat

structure NodeId where
  spaceId : Nat
  index : Nat
deriving DecidableEq

structure FilNode where
  /-- In pages; 0 as long as the size of a single-table tablespace is not known. -/
  size : Nat
  isOpen : Bool
  nPending : Nat
  modificationCounter : Nat
  flushCounter : Nat

/-- A file of the operating system, with the space id and flags in its first page. -/
structure DataFile where
  sizeBytes : Nat
  spaceId : Nat
  flags : SpaceFlags

structure FilSystem where
  space : Nat → Option FilSpace
  node : NodeId → FilNode
  disk : NodeId → Option DataFile
  /-- Where the operating system has put the blocks of each file. -/
  fibmap : NodeId → Fibmap
  lru : List NodeId
  nOpen : Nat
  modificationCounter : Nat
  unflushedSpaces : List Nat

inductive DbErr
  | error
  | tablespaceDeleted
deriving DecidableEq

/-- How a call ends that does not succeed.  `ut_a` and `ut_error` abort the server. -/
inductive FilExit
  | failed (err : DbErr) (sys : FilSystem)
  | aborted
  | nullPointer

inductive IoType
  | read
  | write
deriving DecidableEq

namespace FilSpace

variable (config : ServerConfig) (space : FilSpace) (spaceId : Nat)

def chain : List NodeId := (List.range space.files).map (NodeId.mk spaceId)

def belongsInLru : Bool := space.purpose = .tablespace && config.isUserTablespaceId spaceId

/-- The size in pages that `fil_node_open_file` finds in a file of unknown size.  It aborts
if the file is not the expected one; a difference in page size is one in the flags. -/
def measuredSize (file : DataFile) : Option Nat :=
  if space.purpose = .log then none
  else if config.isUserTablespaceId spaceId = false then none
  else if file.sizeBytes < 4 * config.univPageSize then none
  else if file.spaceId ≠ spaceId then none
  else if file.spaceId = 2 ^ 64 - 1 ∨ file.spaceId = 0 then none
  else if space.flags ≠ file.flags then none
  else
    -- The size is truncated to whole megabytes.
    let sizeBytes := if 1024 * 1024 ≤ file.sizeBytes
      then file.sizeBytes / (1024 * 1024) * (1024 * 1024) else file.sizeBytes
    if file.flags.zipSsize = uncompressed then some (sizeBytes / config.univPageSize)
    else some (sizeBytes / zipSizeOf file.flags.zipSsize)

end FilSpace

namespace FilSystem

variable (config : ServerConfig) (sys : FilSystem) (space : FilSpace) (id : NodeId)

def setNode (node : FilNode) : FilSystem :=
  { sys with node := fun other => if other = id then node else sys.node other }

/-- The end of `fil_node_open_file`. -/
def opened (size : Nat) : FilSystem :=
  { sys.setNode id { sys.node id with size := size, isOpen := true } with
    lru := if space.belongsInLru config id.spaceId then id :: sys.lru else sys.lru
    nOpen := sys.nOpen + 1 }

/-- The result is `false` if the file cannot be opened. -/
def filNodeOpenFile : Except FilExit (FilSystem × Bool) :=
  if (sys.node id).nPending ≠ 0 ∨ (sys.node id).isOpen then .error .aborted
  else if (sys.node id).size = 0 then
    match sys.disk id with
    | none => .ok (sys, false)
    | some file => match space.measuredSize config id.spaceId file with
      | none => .error .aborted
      | some size => .ok (sys.opened config space id size, true)
  else match sys.disk id with
    | none => .error .aborted
    | some _ => .ok (sys.opened config space id (sys.node id).size, true)

/-- The end of `fil_node_prepare_for_io`, for an open file. -/
def countPending : Except FilExit (FilSystem × Bool) :=
  let counted :=
    sys.setNode id { sys.node id with nPending := (sys.node id).nPending + 1 }
  if (sys.node id).nPending = 0 ∧ space.belongsInLru config id.spaceId then
    if sys.lru = [] then .error .aborted
    else .ok ({ counted with lru := sys.lru.erase id }, true)
  else .ok (counted, true)

def filNodePrepareForIo : Except FilExit (FilSystem × Bool) :=
  if (sys.node id).isOpen then sys.countPending config space id
  else if (sys.node id).nPending ≠ 0 then .error .aborted
  else do
    let result ← sys.filNodeOpenFile config space id
    if result.2 then result.1.countPending config space id else return (result.1, false)

def filNodeCompleteIo (type : IoType) : Except FilExit FilSystem :=
  let node := { sys.node id with nPending := (sys.node id).nPending - 1 }
  let lru := if node.nPending = 0 ∧ space.belongsInLru config id.spaceId
    then id :: sys.lru else sys.lru
  let modificationCounter := sys.modificationCounter + 1
  if (sys.node id).nPending = 0 then .error .aborted
  else match type with
    | .read => .ok { sys.setNode id node with lru := lru }
    | .write =>
      if space.purpose = .tablespace ∧ config.directNoFsync then
        .ok { sys.setNode id
            { node with
              modificationCounter := modificationCounter, flushCounter := modificationCounter } with
          lru := lru
          modificationCounter := modificationCounter }
      else
        .ok { sys.setNode id { node with modificationCounter := modificationCounter } with
          lru := lru
          modificationCounter := modificationCounter
          unflushedSpaces := if id.spaceId ∈ sys.unflushedSpaces then sys.unflushedSpaces
            else id.spaceId :: sys.unflushedSpaces }

/-! ## Preparing a file -/

def Missing : Prop :=
  (sys.node id).isOpen = false ∧ (sys.node id).nPending = 0 ∧ (sys.node id).size = 0 ∧
    sys.disk id = none

instance : Decidable (sys.Missing id) :=
  inferInstanceAs (Decidable (_ ∧ _ ∧ _ ∧ _))

def readySize : Option Nat :=
  if (sys.node id).isOpen then
    if (sys.node id).nPending = 0 ∧ space.belongsInLru config id.spaceId ∧ sys.lru = [] then none
    else some (sys.node id).size
  else if (sys.node id).nPending ≠ 0 then none
  else match sys.disk id with
    | none => none
    | some file => if (sys.node id).size = 0 then space.measuredSize config id.spaceId file
      else some (sys.node id).size

def prepared (size : Nat) : FilSystem :=
  { sys.setNode id
      { sys.node id with
        size := size, isOpen := true, nPending := (sys.node id).nPending + 1 } with
    lru := if (sys.node id).isOpen ∧ (sys.node id).nPending = 0 ∧
      space.belongsInLru config id.spaceId then sys.lru.erase id else sys.lru
    nOpen := if (sys.node id).isOpen then sys.nOpen else sys.nOpen + 1 }

variable {config sys space id}

@[simp] theorem setNode_node (node : FilNode) (other : NodeId) :
    (sys.setNode id node).node other = if other = id then node else sys.node other := rfl

/-- An opened file enters the list at its head and leaves it for the operation. -/
theorem opened_countPending (closed : (sys.node id).isOpen = false)
    (idle : (sys.node id).nPending = 0) (size : Nat) :
    (sys.opened config space id size).countPending config space id =
      .ok (sys.prepared config space id size, true) := by
  have node : (sys.opened config space id size).node id =
      { sys.node id with size := size, isOpen := true } := by
    simp [opened]
  have counted : (sys.opened config space id size).setNode id
        { sys.node id with size := size, isOpen := true, nPending := (sys.node id).nPending + 1 } =
      { sys.prepared config space id size with
        lru := (sys.opened config space id size).lru } := by
    simp only [opened, prepared, setNode, closed, Bool.false_eq_true, if_false, mk.injEq,
      true_and, and_true]
    funext other
    by_cases same : other = id
    · simp only [same, if_true]
    · simp only [same, if_false]
  rw [countPending, node]
  simp only [idle, true_and]
  rw [← idle, counted]
  by_cases belongs : space.belongsInLru config id.spaceId
  · simp [opened, prepared, setNode, belongs, closed]
  · simp [opened, prepared, setNode, belongs]

theorem countPending_eq (isOpen : (sys.node id).isOpen) :
    sys.countPending config space id =
      match sys.readySize config space id with
      | none => .error .aborted
      | some size => .ok (sys.prepared config space id size, true) := by
  by_cases listed : (sys.node id).nPending = 0 ∧ space.belongsInLru config id.spaceId
  · by_cases empty : sys.lru = []
    · simp [countPending, readySize, isOpen, listed, empty]
    · simp [countPending, readySize, prepared, setNode, isOpen, listed, empty]
  · have notEmptied : ¬((sys.node id).nPending = 0 ∧ space.belongsInLru config id.spaceId ∧
        sys.lru = []) := fun all => listed ⟨all.1, all.2.1⟩
    simp [countPending, readySize, prepared, setNode, isOpen, listed, notEmptied]

/-- `fil_node_prepare_for_io` by the state of the file. -/
theorem filNodePrepareForIo_eq :
    sys.filNodePrepareForIo config space id =
      if sys.Missing id then .ok (sys, false)
      else match sys.readySize config space id with
        | none => .error .aborted
        | some size => .ok (sys.prepared config space id size, true) := by
  by_cases isOpen : (sys.node id).isOpen
  · rw [filNodePrepareForIo, if_pos isOpen, countPending_eq isOpen,
      if_neg (by simp [Missing, isOpen])]
  · have closed : (sys.node id).isOpen = false := by simpa using isOpen
    by_cases idle : (sys.node id).nPending = 0
    · have counted : ∀ size, (sys.opened config space id size).countPending config space id =
          .ok (sys.prepared config space id size, true) := opened_countPending closed idle
      simp only [filNodePrepareForIo, filNodeOpenFile, Missing, readySize, closed, idle, bind,
        Except.bind, pure, Except.pure]
      cases found : sys.disk id with
      | none =>
        by_cases unknown : (sys.node id).size = 0 <;> simp [unknown]
      | some file =>
        by_cases unknown : (sys.node id).size = 0
        · cases measured : space.measuredSize config id.spaceId file with
          | none => simp [unknown, measured]
          | some size => simp [unknown, measured, counted]
        · simp [unknown, counted]
    · simp [filNodePrepareForIo, Missing, readySize, closed, idle]

/-! ## What one preparation does to another -/

@[simp] theorem prepared_disk (size : Nat) :
    (sys.prepared config space id size).disk = sys.disk := rfl

@[simp] theorem prepared_space (size : Nat) :
    (sys.prepared config space id size).space = sys.space := rfl

@[simp] theorem prepared_node_self (size : Nat) :
    (sys.prepared config space id size).node id =
      { sys.node id with size := size, isOpen := true, nPending := (sys.node id).nPending + 1 } :=
  if_pos rfl

variable {other : NodeId}

theorem prepared_node_of_ne (different : other ≠ id) (size : Nat) :
    (sys.prepared config space id size).node other = sys.node other :=
  if_neg different

theorem prepared_not_missing (size : Nat) : ¬(sys.prepared config space id size).Missing id := by
  simp [Missing]

theorem prepared_missing_of_ne (different : other ≠ id) (size : Nat) :
    (sys.prepared config space id size).Missing other ↔ sys.Missing other := by
  rw [Missing, Missing, prepared_node_of_ne different, prepared_disk]

/-- A file that was just prepared can be prepared once more, with the same size. -/
theorem prepared_readySize_self (size : Nat) :
    (sys.prepared config space id size).readySize config space id = some size := by
  simp [readySize]

theorem lru_ne_nil_of_prepared {size : Nat}
    (listed : (sys.prepared config space id size).lru ≠ []) : sys.lru ≠ [] := by
  intro empty
  apply listed
  simp [prepared, setNode, empty]

/-- What is ready after another file was prepared was ready before. -/
theorem readySize_of_prepared {otherSpace : FilSpace} {size otherSize : Nat}
    (different : other ≠ id)
    (ready : (sys.prepared config space id size).readySize config otherSpace other =
      some otherSize) :
    sys.readySize config otherSpace other = some otherSize := by
  rw [readySize, prepared_node_of_ne different, prepared_disk] at ready
  rw [readySize]
  by_cases isOpen : (sys.node other).isOpen
  · rw [if_pos isOpen] at ready ⊢
    split_ifs at ready with emptied
    rw [if_neg, ready]
    rintro ⟨idle, belongs, empty⟩
    exact lru_ne_nil_of_prepared (fun stillEmpty => emptied ⟨idle, belongs, stillEmpty⟩) empty
  · rw [if_neg isOpen] at ready ⊢
    exact ready

/-! ## The list of files that can be closed -/

/-- The list holds the open files of user tablespaces without a pending operation. -/
structure LruValid (config : ServerConfig) (sys : FilSystem) : Prop where
  nodup : sys.lru.Nodup
  mem_iff : ∀ id space, sys.space id.spaceId = some space →
    (id ∈ sys.lru ↔ (sys.node id).isOpen ∧ (sys.node id).nPending = 0 ∧
      space.belongsInLru config id.spaceId)

/-- In a valid state the assert of `fil_node_prepare_for_io` on an empty list holds. -/
theorem LruValid.ne_nil (valid : sys.LruValid config) (known : sys.space id.spaceId = some space)
    (isOpen : (sys.node id).isOpen) (idle : (sys.node id).nPending = 0)
    (belongs : space.belongsInLru config id.spaceId) : sys.lru ≠ [] :=
  List.ne_nil_of_mem ((valid.mem_iff id space known).mpr ⟨isOpen, idle, belongs⟩)

/-- Preparing one file does not change whether another one is ready. -/
theorem LruValid.readySize_prepared {otherSpace : FilSpace} {size : Nat}
    (valid : sys.LruValid config) (known : sys.space other.spaceId = some otherSpace)
    (stillValid : (sys.prepared config space id size).LruValid config) (different : other ≠ id) :
    (sys.prepared config space id size).readySize config otherSpace other =
      sys.readySize config otherSpace other := by
  rw [readySize, readySize, prepared_node_of_ne different, prepared_disk]
  by_cases isOpen : (sys.node other).isOpen
  · rw [if_pos isOpen, if_pos isOpen, if_neg, if_neg]
    · rintro ⟨idle, belongs, empty⟩
      exact valid.ne_nil known isOpen idle belongs empty
    · rintro ⟨idle, belongs, empty⟩
      rw [← prepared_node_of_ne different size] at isOpen idle
      exact stillValid.ne_nil known isOpen idle belongs empty
  · rw [if_neg isOpen, if_neg isOpen]

theorem LruValid.prepared {size : Nat} (valid : sys.LruValid config)
    (known : sys.space id.spaceId = some space) :
    (sys.prepared config space id size).LruValid config := by
  constructor
  · rw [FilSystem.prepared]
    dsimp only
    split_ifs
    · exact valid.nodup.erase id
    · exact valid.nodup
  · intro other otherSpace otherKnown
    have before := valid.mem_iff other otherSpace otherKnown
    by_cases same : other = id
    · subst same
      obtain rfl : space = otherSpace := Option.some.inj (known.symm.trans otherKnown)
      simp only [prepared_node_self, Nat.add_one_ne_zero, false_and, and_false, iff_false]
      rw [FilSystem.prepared]
      dsimp only
      split_ifs with listed
      · exact valid.nodup.not_mem_erase
      · rwa [before]
    · rw [prepared_node_of_ne same, ← before, FilSystem.prepared]
      dsimp only
      split_ifs
      · exact List.mem_erase_of_ne same
      · rfl

/-! ## Completing an operation -/

/-- What the completion of an operation changes, apart from the record of what was written. -/
structure Completed (config : ServerConfig) (space : FilSpace) (id : NodeId)
    (sys sys' : FilSystem) : Prop where
  pending : 0 < (sys.node id).nPending
  nOpen_eq : sys'.nOpen = sys.nOpen
  space_eq : sys'.space = sys.space
  lru_eq : sys'.lru = if (sys.node id).nPending - 1 = 0 ∧ space.belongsInLru config id.spaceId
    then id :: sys.lru else sys.lru
  others : ∀ other, other ≠ id → sys'.node other = sys.node other
  isOpen_eq : (sys'.node id).isOpen = (sys.node id).isOpen
  nPending_eq : (sys'.node id).nPending = (sys.node id).nPending - 1

theorem filNodeCompleteIo_total (type : IoType) (pending : 0 < (sys.node id).nPending) :
    ∃ sys', sys.filNodeCompleteIo config space id type = .ok sys' ∧
      Completed config space id sys sys' := by
  have notIdle : (sys.node id).nPending ≠ 0 := by omega
  cases type with
  | read =>
    simp only [filNodeCompleteIo, if_neg notIdle]
    refine ⟨_, rfl, ?_⟩
    constructor <;> simp +contextual [setNode, pending]
  | write =>
    by_cases unbuffered : space.purpose = .tablespace ∧ config.directNoFsync
    · simp only [filNodeCompleteIo, if_neg notIdle, if_pos unbuffered]
      refine ⟨_, rfl, ?_⟩
      constructor <;> simp +contextual [setNode, pending]
    · simp only [filNodeCompleteIo, if_neg notIdle, if_neg unbuffered]
      refine ⟨_, rfl, ?_⟩
      constructor <;> simp +contextual [setNode, pending]

end FilSystem

end RwRbuf.Innodb
