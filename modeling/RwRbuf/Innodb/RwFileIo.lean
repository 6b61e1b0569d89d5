import RwRbuf.Innodb.FileSystem

/-! # Reading and writing pages of tablespaces

`fil_io` reads or writes one page: it finds the file that holds the page, opens it and hands
the byte range of the page to the operating system.  `fil_io_with_rw_cmd` does this for two
pages at once, a victim to write and a page to read into its frame.
-/

namespace RwRbuf.Innodb

/-- A byte range of a file that is read or written. -/
structure IoRequest where
  type : IoType
  file : NodeId
  offset : Nat
  len : Nat
deriving DecidableEq

/-- The switch on `zip_size`. -/
def zipSizeShift (zipSize : Nat) : Option Nat :=
  if zipSize = 1024 then some 10
  else if zipSize = 2048 then some 11
  else if zipSize = 4096 then some 12
  else if zipSize = 8192 then some 13
  else if zipSize = 16384 then some 14
  else none

/-- Subtraction of the unsigned type `ulint`. -/
def ulintSub (left right : Nat) : Nat := (left + 2 ^ 64 - right) % 2 ^ 64

/-- The byte offset of a page in its file, and the check that the file holds all of it. -/
def ServerConfig.fileOffset (config : ServerConfig)
    (size zipSize blockOffset byteOffset len : Nat) : Except FilExit Nat :=
  if zipSize = 0 then
    if (byteOffset + len + (config.univPageSize - 1)) / config.univPageSize ≤
        ulintSub size blockOffset then
      .ok ((blockOffset <<< config.univPageSizeShift) + byteOffset)
    else .error .aborted
  else match zipSizeShift zipSize with
    | none => .error .aborted
    | some shift =>
      if (len + (zipSize - 1)) / zipSize ≤ ulintSub size blockOffset then
        .ok ((blockOffset <<< shift) + byteOffset)
      else .error .aborted

/-- The asserts on `OS_FILE_LOG_BLOCK_SIZE`. -/
def checkBlockSize (byteOffset len : Nat) : Except FilExit Unit :=
  if byteOffset % 512 = 0 ∧ len % 512 = 0 then .ok () else .error .aborted

namespace FilSystem

variable (config : ServerConfig) (sys : FilSystem)

/-- The walk along the chain of a space, with the page number in the file that is found. -/
def findNode : List NodeId → Nat → Option (NodeId × Nat)
  | [], _ => none
  | id :: rest, blockOffset =>
    if config.isUserTablespaceId id.spaceId ∧ (sys.node id).size = 0 then some (id, blockOffset)
    else if blockOffset < (sys.node id).size then some (id, blockOffset)
    else findNode rest (blockOffset - (sys.node id).size)

def locate (ignoreNonexistentPages : Bool) (space : FilSpace) (spaceId blockOffset : Nat) :
    Except FilExit (NodeId × Nat) :=
  match sys.findNode config (space.chain spaceId) blockOffset with
  | some found => .ok found
  | none => if ignoreNonexistentPages then .error (.failed .error sys) else .error .aborted

def openForIo (space : FilSpace) (id : NodeId) : Except FilExit FilSystem := do
  let result ← sys.filNodePrepareForIo config space id
  if result.2 then return result.1
  else if space.purpose = .tablespace ∧ config.isUserTablespaceId id.spaceId then
    .error (.failed .tablespaceDeleted result.1)
  else .error .aborted

def checkStart (space : FilSpace) (id : NodeId) (blockOffset : Nat) : Except FilExit Unit :=
  if (sys.node id).size ≤ blockOffset ∧ id.spaceId ≠ 0 ∧ space.purpose = .tablespace then
    .error .aborted
  else .ok ()

/-- A synchronous operation is complete when `os_aio` returns. -/
def completeSyncIo (space : FilSpace) (id : NodeId) (type : IoType) (sync : Bool) :
    Except FilExit FilSystem :=
  if sync then sys.filNodeCompleteIo config space id type else .ok sys

def filIo (type : IoType) (ignoreNonexistentPages sync : Bool)
    (spaceId zipSize blockOffset byteOffset len : Nat) : Except FilExit (FilSystem × IoRequest) :=
  match sys.space spaceId with
  | none => .error (.failed .tablespaceDeleted sys)
  | some space =>
    if type = .read ∧ sync = false ∧ space.stopNewOps then
      .error (.failed .tablespaceDeleted sys)
    else do
      let found ← sys.locate config ignoreNonexistentPages space spaceId blockOffset
      let sys ← sys.openForIo config space found.1
      sys.checkStart space found.1 found.2
      let offset ← config.fileOffset (sys.node found.1).size zipSize found.2 byteOffset len
      checkBlockSize byteOffset len
      let sys ← sys.completeSyncIo config space found.1 type sync
      return (sys, ⟨type, found.1, offset, len⟩)

/-- The call of `os_rw_io_func`: it stops unless a whole page of the server is written. -/
def sendRwIo (type : IoType) (write read : IoRequest) : Except FilExit Unit :=
  if type = .write then
    match osRwIo (.ofNat 64 config.univPageSize)
        ⟨sys.fibmap write.file, .ofNat 64 write.offset⟩ (.ofNat 64 write.len)
        ⟨sys.fibmap read.file, .ofNat 64 read.offset⟩ (.ofNat 64 read.len) with
    | some _ => .ok ()
    | none => .error .aborted
  else .error .aborted

def filIoWithRwCmd (type : IoType) (ignoreNonexistentPages : Bool)
    (spaceId zipSize blockOffset byteOffset len spaceIdToRead offsetToRead : Nat) :
    Except FilExit (FilSystem × IoRequest × IoRequest) :=
  match sys.space spaceId with
  | none => .error .nullPointer
  | some spaceW => match sys.space spaceIdToRead with
    | none => .error .nullPointer
    | some spaceR => do
      let foundR ← sys.locate config ignoreNonexistentPages spaceR spaceIdToRead offsetToRead
      let foundW ← sys.locate config ignoreNonexistentPages spaceW spaceId blockOffset
      let sys ← sys.openForIo config spaceR foundR.1
      let sys ← sys.openForIo config spaceW foundW.1
      sys.checkStart spaceR foundR.1 foundR.2
      sys.checkStart spaceW foundW.1 foundW.2
      let offsetR ← config.fileOffset (sys.node foundR.1).size zipSize foundR.2 byteOffset len
      let offsetW ← config.fileOffset (sys.node foundW.1).size zipSize foundW.2 byteOffset len
      checkBlockSize byteOffset len
      sys.sendRwIo config type ⟨.write, foundW.1, offsetW, len⟩ ⟨.read, foundR.1, offsetR, len⟩
      let sys ← sys.filNodeCompleteIo config spaceW foundW.1 type
      let sys ← sys.filNodeCompleteIo config spaceR foundR.1 type
      return (sys, ⟨.write, foundW.1, offsetW, len⟩, ⟨.read, foundR.1, offsetR, len⟩)

end FilSystem

/-- A page with the page size of its tablespace. -/
structure PageAddress extends PageId where
  zipSsize : Fin 6

namespace PageAddress

def zipSize (page : PageAddress) : Nat := zipSizeOf page.zipSsize

def bytes (config : ServerConfig) (page : PageAddress) : Nat :=
  if page.zipSize = 0 then config.univPageSize else page.zipSize

end PageAddress

namespace FilSystem

variable (config : ServerConfig) (sys : FilSystem)

/-- `fil_io` for one page, as `buf_read_page_low` and `buf_flush_write_block_low` call it to
read and to write. -/
def pageIo (type : IoType) (ignoreNonexistentPages : Bool) (page : PageAddress) :
    Except FilExit (FilSystem × IoRequest) :=
  sys.filIo config type ignoreNonexistentPages true page.space page.zipSize page.offset 0
    (page.bytes config)

/-- `fil_io_with_rw_cmd` as `buf_flush_page_with_rw_cmd` calls it: the page size is that of
the victim. -/
def pageRwIo (ignoreNonexistentPages : Bool) (victim wanted : PageAddress) :
    Except FilExit (FilSystem × IoRequest × IoRequest) :=
  sys.filIoWithRwCmd config .write ignoreNonexistentPages victim.space victim.zipSize
    victim.offset 0 (victim.bytes config) wanted.space wanted.offset

end FilSystem

/-! ## The byte range of a page -/

theorem zipSizeOf_eq (zipSsize : Fin 6) (compressed : zipSizeOf zipSsize ≠ 0) :
    zipSizeShift (zipSizeOf zipSsize) = some (9 + zipSsize.val) ∧
      zipSizeOf zipSsize = 2 ^ (9 + zipSsize.val) := by
  revert zipSsize
  decide

section

variable (config : ServerConfig)
include config

theorem ServerConfig.univPageSize_eq : config.univPageSize = 2 ^ config.univPageSizeShift := by
  rw [ServerConfig.univPageSize, Nat.shiftLeft_eq, one_mul]

theorem PageAddress.bytes_eq (page : PageAddress) :
    ∃ shift, 9 ≤ shift ∧ shift ≤ 14 ∧ page.bytes config = 2 ^ shift := by
  by_cases notZip : page.zipSize = 0
  · refine ⟨config.univPageSizeShift, by have := config.shift_min; omega, config.shift_max, ?_⟩
    rw [PageAddress.bytes, if_pos notZip, config.univPageSize_eq]
  · refine ⟨9 + page.zipSsize.val, by omega, by omega, ?_⟩
    rw [PageAddress.bytes, if_neg notZip]
    exact (zipSizeOf_eq _ notZip).2

theorem PageAddress.bytes_pos (page : PageAddress) : 0 < page.bytes config := by
  obtain ⟨shift, _, _, bytesEq⟩ := page.bytes_eq config
  rw [bytesEq]
  exact Nat.two_pow_pos shift

theorem checkBlockSize_page (page : PageAddress) :
    checkBlockSize 0 (page.bytes config) = .ok () := by
  obtain ⟨shift, bound, _, bytesEq⟩ := page.bytes_eq config
  have whole : page.bytes config % 512 = 0 := by
    rw [bytesEq, ← Nat.sub_add_cancel bound, pow_add]
    exact Nat.mul_mod_left _ _
  rw [checkBlockSize, if_pos ⟨rfl, whole⟩]

/-- Whether a page lies in its file does not depend on the page size. -/
theorem fileOffset_page (page : PageAddress) (size blockOffset : Nat) :
    config.fileOffset size page.zipSize blockOffset 0 (page.bytes config) =
      if 1 ≤ ulintSub size blockOffset then .ok (blockOffset * page.bytes config)
      else .error .aborted := by
  have onePage : (page.bytes config + (page.bytes config - 1)) / page.bytes config = 1 := by
    have := page.bytes_pos config
    apply Nat.div_eq_of_lt_le <;> omega
  by_cases notZip : page.zipSize = 0
  · have bytes : page.bytes config = config.univPageSize := if_pos notZip
    rw [bytes] at onePage ⊢
    rw [ServerConfig.fileOffset, if_pos notZip, zero_add, onePage, add_zero,
      Nat.shiftLeft_eq, ← config.univPageSize_eq]
  · have bytes : page.bytes config = page.zipSize := if_neg notZip
    obtain ⟨shiftEq, sizeEq⟩ := zipSizeOf_eq page.zipSsize notZip
    rw [bytes] at onePage ⊢
    rw [ServerConfig.fileOffset, if_neg notZip, PageAddress.zipSize, shiftEq]
    dsimp only
    rw [← PageAddress.zipSize, onePage, add_zero, Nat.shiftLeft_eq, ← sizeEq,
      ← PageAddress.zipSize]

end

/-! ## What becomes of a page -/

inductive FilReport
  | returned (err : DbErr)
  | aborted
  | nullPointer

def FilExit.report : FilExit → FilReport
  | .failed err _ => .returned err
  | .aborted => .aborted
  | .nullPointer => .nullPointer

namespace FilSystem

variable (config : ServerConfig) (sys : FilSystem)

/-- The checks that a page lies in a file of `size` pages. -/
def InFile (space : FilSpace) (found : NodeId × Nat) (size : Nat) : Prop :=
  ¬(size ≤ found.2 ∧ found.1.spaceId ≠ 0 ∧ space.purpose = .tablespace) ∧
    1 ≤ ulintSub size found.2

instance (space : FilSpace) (found : NodeId × Nat) (size : Nat) :
    Decidable (InFile space found size) :=
  inferInstanceAs (Decidable (_ ∧ _))

def missingExit (space : FilSpace) (id : NodeId) : FilExit :=
  if space.belongsInLru config id.spaceId then .failed .tablespaceDeleted sys else .aborted

def beyondExit (ignoreNonexistentPages : Bool) : FilExit :=
  if ignoreNonexistentPages then .failed .error sys else .aborted

variable {config sys} {space : FilSpace} {id : NodeId}

theorem belongsInLru_iff (config : ServerConfig) (space : FilSpace) (spaceId : Nat) :
    space.belongsInLru config spaceId ↔
      space.purpose = .tablespace ∧ config.isUserTablespaceId spaceId := by
  simp [FilSpace.belongsInLru]

theorem openForIo_eq :
    sys.openForIo config space id =
      if sys.Missing id then .error (sys.missingExit config space id)
      else match sys.readySize config space id with
        | none => .error .aborted
        | some size => .ok (sys.prepared config space id size) := by
  rw [openForIo, filNodePrepareForIo_eq, missingExit]
  simp only [belongsInLru_iff]
  by_cases missing : sys.Missing id
  · by_cases belongs : space.purpose = .tablespace ∧ config.isUserTablespaceId id.spaceId
    · simp [missing, belongs, bind, Except.bind]
    · rw [if_pos missing, if_pos missing, if_neg belongs]
      exact if_neg belongs
  · cases ready : sys.readySize config space id with
    | none => simp [missing, bind, Except.bind]
    | some size => simp [missing, bind, Except.bind, pure, Except.pure]

theorem openForIo_eq_ok {sys' : FilSystem} :
    sys.openForIo config space id = .ok sys' ↔
      ¬sys.Missing id ∧ ∃ size, sys.readySize config space id = some size ∧
        sys' = sys.prepared config space id size := by
  rw [openForIo_eq]
  by_cases missing : sys.Missing id
  · simp [missing]
  · cases ready : sys.readySize config space id with
    | none => simp [missing]
    | some size => simp [missing, eq_comm]

theorem openForIo_eq_error {exit : FilExit} :
    sys.openForIo config space id = .error exit ↔
      sys.Missing id ∧ exit = sys.missingExit config space id ∨
      ¬sys.Missing id ∧ sys.readySize config space id = none ∧ exit = .aborted := by
  rw [openForIo_eq]
  by_cases missing : sys.Missing id
  · simp [missing, eq_comm]
  · cases ready : sys.readySize config space id with
    | none => simp [missing, eq_comm]
    | some size => simp [missing]

variable {found : NodeId × Nat} {spaceId blockOffset : Nat} {ignore : Bool}

theorem locate_eq_ok :
    sys.locate config ignore space spaceId blockOffset = .ok found ↔
      sys.findNode config (space.chain spaceId) blockOffset = some found := by
  rw [locate]
  cases sys.findNode config (space.chain spaceId) blockOffset with
  | none =>
    dsimp only
    split_ifs <;> simp
  | some other => simp

theorem locate_eq_error {exit : FilExit} :
    sys.locate config ignore space spaceId blockOffset = .error exit ↔
      sys.findNode config (space.chain spaceId) blockOffset = none ∧
        exit = sys.beyondExit ignore := by
  rw [locate, beyondExit]
  cases sys.findNode config (space.chain spaceId) blockOffset with
  | none =>
    dsimp only
    split_ifs <;> simp [eq_comm]
  | some other => simp

theorem spaceId_of_findNode
    (located : sys.findNode config (space.chain spaceId) blockOffset = some found) :
    found.1.spaceId = spaceId := by
  have member : ∀ (chain : List NodeId) (blockOffset : Nat),
      sys.findNode config chain blockOffset = some found → found.1 ∈ chain := by
    intro chain
    induction chain with
    | nil =>
      intro _ impossible
      cases impossible
    | cons head rest ih =>
      intro blockOffset located
      rw [findNode] at located
      split_ifs at located
      · obtain rfl := Option.some.inj located
        exact List.mem_cons_self
      · obtain rfl := Option.some.inj located
        exact List.mem_cons_self
      · exact List.mem_cons_of_mem _ (ih _ located)
  obtain ⟨index, _, sameId⟩ := List.mem_map.mp (member _ _ located)
  rw [← sameId]

/-- What `fil_io` makes of a page: its file and the page number in it, or the error. -/
def pageAccess (config : ServerConfig) (sys : FilSystem) (ignore : Bool) (page : PageId) :
    Except FilReport (NodeId × Nat) :=
  match sys.space page.space with
  | none => .error (.returned .tablespaceDeleted)
  | some space => match sys.findNode config (space.chain page.space) page.offset with
    | none => .error (sys.beyondExit ignore).report
    | some found =>
      if sys.Missing found.1 then .error (sys.missingExit config space found.1).report
      else match sys.readySize config space found.1 with
        | none => .error .aborted
        | some size => if InFile space found size then .ok found else .error .aborted

theorem checkStart_eq {blockOffset : Nat} :
    sys.checkStart space id blockOffset =
      if (sys.node id).size ≤ blockOffset ∧ id.spaceId ≠ 0 ∧ space.purpose = .tablespace then
        .error .aborted
      else .ok () := rfl

theorem missingExit_report (sys sys' : FilSystem) :
    (sys.missingExit config space id).report = (sys'.missingExit config space id).report := by
  rw [missingExit, missingExit]
  split_ifs <;> rfl

/-- `fil_io` on a page does what `pageAccess` says. -/
theorem pageIo_pageAccess (type : IoType) (ignore : Bool) (page : PageAddress) :
    (∃ found sys', sys.pageAccess config ignore page.toPageId = .ok found ∧
      sys.pageIo config type ignore page =
        .ok (sys', ⟨type, found.1, found.2 * page.bytes config, page.bytes config⟩)) ∨
    ∃ exit, sys.pageAccess config ignore page.toPageId = .error exit.report ∧
      sys.pageIo config type ignore page = .error exit := by
  rw [pageAccess, pageIo, filIo]
  cases sys.space page.space with
  | none => exact Or.inr ⟨.failed .tablespaceDeleted sys, rfl, rfl⟩
  | some space =>
    simp only [Bool.true_eq_false, false_and, and_false, if_false]
    cases located : sys.findNode config (space.chain page.space) page.offset with
    | none =>
      refine Or.inr ⟨sys.beyondExit ignore, rfl, ?_⟩
      rw [locate_eq_error.mpr ⟨located, rfl⟩]
      rfl
    | some found =>
      rw [locate_eq_ok.mpr located]
      by_cases missing : sys.Missing found.1
      · refine Or.inr ⟨sys.missingExit config space found.1, if_pos missing, ?_⟩
        simp [openForIo_eq, missing, bind, Except.bind]
      cases ready : sys.readySize config space found.1 with
      | none =>
        refine Or.inr ⟨.aborted, by simp [missing, ready, FilExit.report], ?_⟩
        simp [openForIo_eq, missing, ready, bind, Except.bind]
      | some size =>
        by_cases outside :
            size ≤ found.2 ∧ found.1.spaceId ≠ 0 ∧ space.purpose = .tablespace
        · have notIn : ¬InFile space found size := fun inFile => inFile.1 outside
          refine Or.inr ⟨.aborted, by simp [missing, ready, notIn, FilExit.report], ?_⟩
          simp [openForIo_eq, missing, ready, checkStart_eq, outside, bind, Except.bind]
        by_cases whole : 1 ≤ ulintSub size found.2
        · obtain ⟨sys', completed, _⟩ : ∃ sys', (sys.prepared config space found.1
                size).filNodeCompleteIo config space found.1 type = .ok sys' ∧ _ :=
            filNodeCompleteIo_total type (by simp)
          have inFile : InFile space found size := ⟨outside, whole⟩
          refine Or.inl ⟨found, sys', by simp [missing, ready, inFile], ?_⟩
          simp [openForIo_eq, missing, ready, checkStart_eq, outside, fileOffset_page, whole,
            checkBlockSize_page, completeSyncIo, completed, bind, Except.bind, pure, Except.pure]
        · have notIn : ¬InFile space found size := fun inFile => whole inFile.2
          refine Or.inr ⟨.aborted, by simp [missing, ready, notIn, FilExit.report], ?_⟩
          simp [openForIo_eq, missing, ready, checkStart_eq, outside, fileOffset_page, whole, bind,
            Except.bind]

/-! ## The RW command -/

variable {page : PageAddress}

/-- The device gets the command for a victim exactly if its page has the size of the server's
pages. -/
theorem sendRwIo_page {idW idR : NodeId} {offsetW offsetR : Nat} :
    sys.sendRwIo config .write ⟨.write, idW, offsetW, page.bytes config⟩
        ⟨.read, idR, offsetR, page.bytes config⟩ =
      if page.bytes config = config.univPageSize then .ok () else .error .aborted := by
  have small : ∀ shift ≤ 14, 2 ^ shift < 2 ^ 64 := fun shift bound =>
    Nat.pow_lt_pow_right (by decide) (by omega)
  obtain ⟨shift, _, bound, bytesEq⟩ := page.bytes_eq config
  have pageSmall := small shift bound
  have univSmall := small _ config.shift_max
  rw [← bytesEq] at pageSmall
  rw [← config.univPageSize_eq] at univSmall
  have same : BitVec.ofNat 64 (page.bytes config) = BitVec.ofNat 64 config.univPageSize ↔
      page.bytes config = config.univPageSize := by
    rw [BitVec.toNat_eq, BitVec.toNat_ofNat, BitVec.toNat_ofNat, Nat.mod_eq_of_lt pageSmall,
      Nat.mod_eq_of_lt univSmall]
  by_cases whole : page.bytes config = config.univPageSize
  · simp [sendRwIo, osRwIo, whole]
  · simp [sendRwIo, osRwIo, same, whole]

theorem sendRwIo_page_eq_ok {idW idR : NodeId} {offsetW offsetR : Nat} {result : Unit} :
    sys.sendRwIo config .write ⟨.write, idW, offsetW, page.bytes config⟩
        ⟨.read, idR, offsetR, page.bytes config⟩ = .ok result ↔
      page.bytes config = config.univPageSize := by
  rw [sendRwIo_page]
  split_ifs with whole <;> simp [whole]

section

variable {first second : NodeId} {firstSpace secondSpace : FilSpace}
  (firstKnown : sys.space first.spaceId = some firstSpace)
  (secondKnown : sys.space second.spaceId = some secondSpace)
include firstKnown secondKnown

/-- A second file is ready after the first one was prepared only if it was ready before. -/
theorem openForIo_prepared_ok {size : Nat} {sys' : FilSystem} (present : ¬sys.Missing first)
    (ready : sys.readySize config firstSpace first = some size)
    (opened : (sys.prepared config firstSpace first size).openForIo config secondSpace second =
      .ok sys') :
    ¬sys.Missing second ∧ ∃ secondSize, sys.readySize config secondSpace second = some secondSize ∧
      sys' = (sys.prepared config firstSpace first size).prepared config secondSpace second
        secondSize := by
  obtain ⟨stillPresent, secondSize, secondReady, rfl⟩ := openForIo_eq_ok.mp opened
  by_cases same : second = first
  · subst same
    obtain rfl : firstSpace = secondSpace := Option.some.inj (firstKnown.symm.trans secondKnown)
    obtain rfl : size = secondSize :=
      Option.some.inj ((prepared_readySize_self size).symm.trans secondReady)
    exact ⟨present, size, ready, rfl⟩
  · rw [prepared_missing_of_ne same] at stillPresent
    exact ⟨stillPresent, secondSize, readySize_of_prepared same secondReady, rfl⟩

theorem prepared_prepared_size {size secondSize : Nat}
    (ready : sys.readySize config firstSpace first = some size)
    (secondReady : sys.readySize config secondSpace second = some secondSize) :
    (((sys.prepared config firstSpace first size).prepared config secondSpace second
      secondSize).node first).size = size := by
  by_cases same : first = second
  · subst same
    obtain rfl : firstSpace = secondSpace := Option.some.inj (firstKnown.symm.trans secondKnown)
    rw [prepared_node_self]
    exact Option.some.inj (secondReady.symm.trans ready)
  · rw [prepared_node_of_ne same, prepared_node_self]

end

theorem pageAccess_eq_ok {page : PageId} {size : Nat} (known : sys.space page.space = some space)
    (located : sys.findNode config (space.chain page.space) page.offset = some found)
    (present : ¬sys.Missing found.1) (ready : sys.readySize config space found.1 = some size)
    (inFile : InFile space found size) : sys.pageAccess config ignore page = .ok found := by
  simp [pageAccess, known, located, present, ready, inFile]

theorem checkStart_eq_ok {blockOffset : Nat} {result : Unit} :
    sys.checkStart space id blockOffset = .ok result ↔
      ¬((sys.node id).size ≤ blockOffset ∧ id.spaceId ≠ 0 ∧ space.purpose = .tablespace) := by
  rw [checkStart]
  split_ifs with outside <;> simp [outside]

theorem fileOffset_page_eq_ok {size blockOffset offset : Nat} :
    config.fileOffset size page.zipSize blockOffset 0 (page.bytes config) = .ok offset ↔
      1 ≤ ulintSub size blockOffset ∧ offset = blockOffset * page.bytes config := by
  rw [fileOffset_page]
  split_ifs with whole
  · simp [whole, eq_comm]
  · simp [whole]

/-- An RW command that succeeds has written the victim and read the other page in the files
and at the page numbers that `fil_io` finds, both with the page size of the server. -/
theorem pageRwIo_eq_ok {victim wanted : PageAddress} {sys' : FilSystem} {write read : IoRequest}
    (succeeds : sys.pageRwIo config ignore victim wanted = .ok (sys', write, read)) :
    victim.bytes config = config.univPageSize ∧
    ∃ foundW foundR, sys.pageAccess config ignore victim.toPageId = .ok foundW ∧
      sys.pageAccess config ignore wanted.toPageId = .ok foundR ∧
      write = ⟨.write, foundW.1, foundW.2 * victim.bytes config, victim.bytes config⟩ ∧
      read = ⟨.read, foundR.1, foundR.2 * victim.bytes config, victim.bytes config⟩ := by
  rw [pageRwIo, filIoWithRwCmd] at succeeds
  cases knownW : sys.space victim.space with
  | none => simp [knownW] at succeeds
  | some spaceW =>
    cases knownR : sys.space wanted.space with
    | none => simp [knownW, knownR] at succeeds
    | some spaceR =>
      simp only [knownW, knownR, Fallible.bind_eq_ok, locate_eq_ok, checkStart_eq_ok,
        fileOffset_page_eq_ok, sendRwIo_page_eq_ok] at succeeds
      obtain ⟨foundR, locatedR, foundW, locatedW, sysR, openedR, sysW, openedW, _, insideR, _,
        insideW, offsetR, ⟨wholeR, rfl⟩, offsetW, ⟨wholeW, rfl⟩, _, _, _, wholePage, _, _, _, _,
        returned⟩ := succeeds
      obtain ⟨presentR, sizeR, readyR, rfl⟩ := openForIo_eq_ok.mp openedR
      have idR := spaceId_of_findNode locatedR
      have idW := spaceId_of_findNode locatedW
      rw [← idR] at knownR
      rw [← idW] at knownW
      obtain ⟨presentW, sizeW, readyW, rfl⟩ :=
        openForIo_prepared_ok knownR knownW presentR readyR openedW
      rw [prepared_prepared_size knownR knownW readyR readyW] at insideR wholeR
      rw [prepared_node_self] at insideW wholeW
      rw [idR] at knownR
      rw [idW] at knownW
      simp only [pure, Except.pure, Except.ok.injEq, Prod.mk.injEq] at returned
      obtain ⟨_, rfl, rfl⟩ := returned
      exact ⟨wholePage, foundW, foundR,
        pageAccess_eq_ok knownW locatedW presentW readyW ⟨insideW, wholeW⟩,
        pageAccess_eq_ok knownR locatedR presentR readyR ⟨insideR, wholeR⟩, rfl, rfl⟩

theorem pageIo_of_pageAccess
    (type : IoType) (access : sys.pageAccess config ignore page.toPageId = .ok found) :
    ∃ sys', sys.pageIo config type ignore page =
      .ok (sys', ⟨type, found.1, found.2 * page.bytes config, page.bytes config⟩) := by
  obtain ⟨found', sys', access', pageIo⟩ | ⟨exit, access', _⟩ :=
    sys.pageIo_pageAccess type ignore page
  · obtain rfl := Except.ok.inj (access.symm.trans access')
    exact ⟨sys', pageIo⟩
  · cases access.symm.trans access'

/-- An RW command that succeeds has a victim whose pages have the size of the server's pages,
and it has done what `fil_io` would have done for the two pages exactly if the pages of the
other tablespace have this size too. -/
theorem pageRwIo_like_filIo_iff (config : ServerConfig) (sys : FilSystem) (ignore : Bool)
    (victim wanted : PageAddress) (sys' : FilSystem) (write read : IoRequest)
    (succeeds : sys.pageRwIo config ignore victim wanted = .ok (sys', write, read)) :
    victim.bytes config = config.univPageSize ∧
    (((∃ sysW, sys.pageIo config .write ignore victim = .ok (sysW, write)) ∧
      ∃ sysR, sys.pageIo config .read ignore wanted = .ok (sysR, read)) ↔
    wanted.bytes config = config.univPageSize) := by
  obtain ⟨wholePage, foundW, foundR, accessW, accessR, rfl, rfl⟩ := pageRwIo_eq_ok succeeds
  obtain ⟨sysW, writes⟩ := pageIo_of_pageAccess .write accessW
  obtain ⟨sysR, reads⟩ := pageIo_of_pageAccess .read accessR
  refine ⟨wholePage, ?_, ?_⟩
  · rintro ⟨_, other, reads'⟩
    have same := reads.symm.trans reads'
    simp only [Except.ok.injEq, Prod.mk.injEq, IoRequest.mk.injEq] at same
    exact same.2.2.2.2.trans wholePage
  · intro sameSize
    rw [sameSize, ← wholePage] at reads
    exact ⟨⟨sysW, writes⟩, sysR, reads⟩

/-- Pages of 16 KB and no undo tablespaces. -/
def defaultConfig : ServerConfig := ⟨14, 0, false, by decide, by decide⟩

/-- Two tables in files of their own, both open; the pages of the first are compressed to
the size that `zipSsize` stands for. -/
def twoTables (zipSsize : Fin 6) : FilSystem where
  space spaceId :=
    if spaceId = 1 then some ⟨.tablespace, ⟨zipSsize, 0⟩, false, 1⟩
    else if spaceId = 2 then some ⟨.tablespace, ⟨uncompressed, 0⟩, false, 1⟩
    else none
  node id := if id.index = 0 then ⟨64, true, 0, 0, 0⟩ else ⟨0, false, 0, 0, 0⟩
  disk id :=
    if id.index = 0 then
      some ⟨64 * 16384, id.spaceId, ⟨if id.spaceId = 1 then zipSsize else uncompressed, 0⟩⟩
    else none
  fibmap _ block := block
  lru := [⟨1, 0⟩, ⟨2, 0⟩]
  nOpen := 2
  modificationCounter := 0
  unflushedSpaces := []

/-- A page of a table that is not compressed. -/
def plainPage (spaceId offset : Nat) : PageAddress := ⟨⟨spaceId, offset⟩, uncompressed⟩

theorem pageRwIo_like_filIo_uncompressed :
    ∃ sys' write read, (twoTables uncompressed).pageRwIo defaultConfig false (plainPage 1 3)
        (plainPage 2 5) = .ok (sys', write, read) ∧
      (∃ sysW, (twoTables uncompressed).pageIo defaultConfig .write false (plainPage 1 3) =
        .ok (sysW, write)) ∧
      ∃ sysR, (twoTables uncompressed).pageIo defaultConfig .read false (plainPage 2 5) =
        .ok (sysR, read) :=
  ⟨_, _, _, rfl, (pageRwIo_like_filIo_iff defaultConfig (twoTables uncompressed) false
    (plainPage 1 3) (plainPage 2 5) _ _ _ rfl).2.mpr rfl⟩

/-- A page of a table with compressed pages of 8 KB is read in place of a victim: the RW
command reads 16 KB at the place of page 3 in a file of such pages, and not the 8 KB of the
page that was asked for. -/
theorem pageRwIo_reads_compressed_size :
    ∃ sys' sysR write, (twoTables 4).pageRwIo defaultConfig false (plainPage 2 5) ⟨⟨1, 3⟩, 4⟩ =
        .ok (sys', write, ⟨.read, ⟨1, 0⟩, 3 * 16384, 16384⟩) ∧
      (twoTables 4).pageIo defaultConfig .read false ⟨⟨1, 3⟩, 4⟩ =
        .ok (sysR, ⟨.read, ⟨1, 0⟩, 3 * 8192, 8192⟩) :=
  ⟨_, _, _, rfl, rfl⟩

end FilSystem

end RwRbuf.Innodb
