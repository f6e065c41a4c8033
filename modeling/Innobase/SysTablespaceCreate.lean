import Innobase.SysTablespaceOpen
import Mathlib.Data.List.Forall2

/-!
# Opening and creating the data files of the system tablespace

`SysTablespace::open_or_create` opens the data files that exist, creates the
others, checks the first file's header and adds every file to the tablespace.
What the operating system and the `Datafile` methods answer is an input.
-/

namespace Innobase

namespace SysTablespace

/-- `Datafile::open_or_create`, `os_file_lock`, `os_file_set_size` and `os_file_get_size` on one file. -/
structure OsFile where
  openErr : DbErr
  lockFails : Bool
  setSizeOk : Bool
  osSize : UInt64
  deriving DecidableEq, Repr

structure RawFlags where
  createdNewRaw : Bool
  rawDiskInUse : Bool
  deriving DecidableEq, Repr

def RawFlags.note (raw : RawFlags) : DeviceType → RawFlags
  | .newRaw => ⟨true, true⟩
  | .oldRaw => { raw with rawDiskInUse := true }
  | .notRaw => raw

/-- What `read_lsn_and_check_flags` reads of the first data file and the doublewrite buffer. -/
structure FirstPageRead where
  handleClosed : Bool
  reopenErr : DbErr
  readErr : DbErr
  validateErr : DbErr
  dblwrPage : Option (DbErr × DbErr × Nat)
  fileSpaceId : Nat
  flushLsn : Nat
  deriving DecidableEq, Repr

structure LogSys where
  forceRecovery : Nat
  operationNormal : Bool
  nextCheckpointLsn : Nat
  lastCheckpointLsn : Nat
  format323 : Bool
  deriving DecidableEq, Repr

structure SpaceNode where
  filepath : List Char
  size : Nat
  isRaw : Bool
  maxSize : Nat
  deriving DecidableEq, Repr

structure Space where
  isTemp : Bool
  flags : Nat
  nodes : List SpaceNode
  deriving DecidableEq, Repr

structure Looped where
  err : DbErr
  files : List (Datafile × FileState)
  raw : RawFlags
  sum : Option Nat
  log : List LogLine
  deriving DecidableEq, Repr

structure Opened extends Looped where
  logSys : LogSys
  space : Option Space
  deriving DecidableEq, Repr

section Files

variable (env : OpenEnv) (disableLocking : Bool) (srvPageSizeShift : Nat) (t : SysTablespace)

def roundedSizePages (size : UInt64) : Nat := (size.toNat >>> srvPageSizeShift) % 2 ^ 32

/-- `SysTablespace::check_size(file)`; `none` is a failed `ut_a`. -/
def checkSize (isLast : Bool) (f : Datafile) (size : UInt64) : Option (DbErr × Datafile × List LogLine) :=
  if size.toNat = 2 ^ 64 - 1 then none else
  let rounded := roundedSizePages srvPageSizeShift size
  let autoExtend := isLast && t.mAutoExtendLastFile
  if autoExtend && (decide (rounded < f.size) || (decide (0 < t.mLastFileSizeMax) &&
      decide (t.mLastFileSizeMax < rounded))) then
    some (.error, f, [.error ("The Auto-extending data file '" ++ f.path ++ "' is of a different size " ++
      toString rounded ++ " pages than specified" ++ " by innodb_data_file_path")])
  else
    let f := if autoExtend then { f with size := rounded } else f
    if rounded ≠ f.size then
      some (.error, f, [.error ("The data file '" ++ f.path ++ "' is of a different size " ++
        toString rounded ++ " pages" ++ " than the " ++ toString f.size ++ " pages specified by" ++
        " innodb_data_file_path")])
    else some (.success, f, [])

def setSize (f : Datafile) (ok : Bool) : DbErr × List LogLine :=
  if ok then (.success, [])
  else (.error, [.error ("Could not set the file size of '" ++ f.path ++ "'. Probably out of disk space")])

def createFile (raw : RawFlags) (f : Datafile) (fs : FileState) (os : OsFile) :
    Option (DbErr × RawFlags × List LogLine) :=
  if fs.fileExists then none else
  let raw := raw.note f.type
  if os.openErr ≠ .success then some (os.openErr, raw, []) else
  match f.type with
  | .oldRaw => some (.success, raw, [])
  | .notRaw =>
    if env.sysSpace && disableLocking && os.lockFails then some (.error, raw, [])
    else some ((setSize f os.setSizeOk).1, raw, (setSize f os.setSizeOk).2)
  | .newRaw => some ((setSize f os.setSizeOk).1, raw, (setSize f os.setSizeOk).2)

def openFile (isLast : Bool) (raw : RawFlags) (f : Datafile) (fs : FileState) (os : OsFile) :
    Option (DbErr × Datafile × RawFlags × List LogLine) :=
  if !fs.fileExists then none else
  let raw := raw.note f.type
  if f.type != .notRaw && env.readOnly && !env.ignoreReadOnly then
    some (.error, f, raw,
      [.error ("Can't open a raw device '" ++ f.path ++ "' when" ++ " --innodb-read-only is set")])
  else if os.openErr ≠ .success then some (os.openErr, f, raw, [])
  else
  match f.type with
  | .newRaw => some ((setSize f os.setSizeOk).1, f, raw, (setSize f os.setSizeOk).2)
  | .notRaw =>
    if env.sysSpace && (env.ignoreReadOnly || !env.readOnly) && disableLocking && os.lockFails then
      some (.error, f, raw, [])
    else (checkSize srvPageSizeShift t isLast f os.osSize).map fun r => (r.1, r.2.1, raw, r.2.2)
  | .oldRaw => some (.success, f, raw, [])

def addSize (sum : Option Nat) (n : Nat) : Option Nat := sum.map fun s => (s + n) % 2 ^ 64

def openOrCreateFile (isFirst isLast : Bool) (raw : RawFlags) (sum : Option Nat) (f : Datafile)
    (fs : FileState) (os : OsFile) : Option Looped :=
  if fs.fileExists then
    (openFile env disableLocking srvPageSizeShift t isLast raw f fs os).map fun r =>
      ⟨r.1, [(r.2.1, fs)], r.2.2.1, if f.type = .newRaw then addSize sum r.2.1.size else sum, r.2.2.2⟩
  else
    (createFile env disableLocking raw f fs os).map fun r =>
      ⟨r.1, [(f, if r.1 = .success then (fileFound f isFirst).2 else fs)], r.2.1, addSize sum f.size,
        r.2.2⟩

def openOrCreateLoop :
    List (Datafile × FileState × OsFile) → Bool → RawFlags → Option Nat → Option Looped
  | [], _, raw, sum => some ⟨.success, [], raw, sum, []⟩
  | (f, fs, os) :: l, isFirst, raw, sum =>
    (openOrCreateFile env disableLocking srvPageSizeShift t isFirst l.isEmpty raw sum f fs os).bind fun o =>
      if o.err ≠ .success then some { o with files := o.files ++ l.map fun x => (x.1, x.2.1) }
      else (openOrCreateLoop l false o.raw o.sum).map fun o' =>
        { o' with files := o.files ++ o'.files, log := o.log ++ o'.log }

end Files

def firstPageCheck (rd : FirstPageRead) : DbErr × Nat :=
  if rd.validateErr = .success then (.success, rd.flushLsn)
  else match rd.dblwrPage with
    | none => (.corruption, rd.flushLsn)
    | some (flagsErr, validErr, lsn) => (if flagsErr = .success then validErr else flagsErr, lsn)

/-- `SysTablespace::read_lsn_and_check_flags()`; `none` is a failed `ut_a`. -/
def readLsnAndCheckFlags (spaceId : Nat) (f : Datafile) (fs : FileState) (rd : FirstPageRead)
    (ls : LogSys) : Option (DbErr × LogSys × List LogLine) :=
  if !fs.fileExists then none
  else if rd.handleClosed && rd.reopenErr ≠ .success then some (rd.reopenErr, ls, [])
  else if rd.readErr ≠ .success then some (rd.readErr, ls, [])
  else if f.order ≠ 0 then none
  else
    let err := (firstPageCheck rd).1
    let lsn := (firstPageCheck rd).2
    if err ≠ .success ∨ spaceId ≠ rd.fileSpaceId then
      some (err, ls, [.error ("InnoDB: The data file '" ++ f.path ++ "'" ++ " has the wrong space ID." ++
        " It should be " ++ toString spaceId ++ ", but " ++ toString rd.fileSpaceId ++ " was found")])
    else if ls.forceRecovery ≠ 6 ∧ ls.operationNormal ∧ ls.nextCheckpointLsn = 0 ∧ ls.format323 then
      if lsn < 8204 then
        some (.corruption, { ls with nextCheckpointLsn := lsn },
          [.error "InnoDB: ib_logfile0 is empty, and LSN is unknown."])
      else some (.success, { ls with nextCheckpointLsn := lsn, lastCheckpointLsn := lsn }, [])
    else some (.success, ls, [])

def lastMaxSize (t : SysTablespace) : Nat :=
  if t.mLastFileSizeMax = 0 then 2 ^ 32 - 1 else t.mLastFileSizeMax % 2 ^ 32

/-- `SysTablespace::get_increment()`; `get_autoextend_increment()`, `last_file_size()` and
`is_valid_size()`, declared in a header not in this tree, give `incr`, `lastFileSize`, `validSize`. -/
def getIncrement (t : SysTablespace) (incr lastFileSize : Nat) (validSize : Bool) : Nat × List LogLine :=
  if t.mLastFileSizeMax = 0 then (incr, [])
  else
    (min ((t.mLastFileSizeMax % 2 ^ 32 + (2 ^ 32 - lastFileSize % 2 ^ 32)) % 2 ^ 32) incr,
      if validSize then []
      else [.error ("The last data file has a size of " ++ toString lastFileSize ++
        " but the max size allowed is " ++ toString t.mLastFileSizeMax)])

def maxSize (t : SysTablespace) (n counter size : Nat) : Nat :=
  if counter = n then lastMaxSize t else size

def addNodes (t : SysTablespace) (n : Nat) : Nat → List Datafile → List SpaceNode
  | _, [] => []
  | counter, f :: l =>
    ⟨f.filepath, f.size, f.type != .notRaw, maxSize t n (counter + 1) f.size⟩ :: addNodes t n (counter + 1) l

def addToFilSystem (t : SysTablespace) (isTemp spaceCreated : Bool) :
    List (Datafile × FileState) → DbErr × List (Datafile × FileState) × Option Space
  | [] => (.success, [], none)
  | (f, s) :: rest =>
    if spaceCreated then
      (.success, ((f, s) :: rest).map fun x => (x.1, { x.2 with fileExists := true }),
        some ⟨isTemp, if isTemp then t.flags else f.flags,
          addNodes t (rest.length + 1) 0 (f :: rest.map (·.1))⟩)
    else (.error, (f, { s with fileExists := true }) :: rest, none)

section Files

variable (env : OpenEnv) (disableLocking : Bool) (srvPageSizeShift : Nat) (t : SysTablespace)

/-- `SysTablespace::open_or_create(is_temp, create_new_db, sum_new_sizes)`; `none` is a
failed `ut_a`, or an `fs` that does not give each file of `m_files` its entry. -/
def openOrCreate (isTemp createNewDb hasSum : Bool) (raw : RawFlags) (fs : List (FileState × OsFile))
    (rd : FirstPageRead) (ls : LogSys) (spaceCreated : Bool) : Option Opened :=
  if fs.length ≠ t.mFiles.length then none else
  (openOrCreateLoop env disableLocking srvPageSizeShift t (t.mFiles.zip fs) true raw
      (if hasSum then some 0 else none)).bind fun o =>
  if o.err ≠ .success then some ⟨o, ls, none⟩
  else
    (if !createNewDb && env.sysSpace then
      o.files.head?.bind fun x => readLsnAndCheckFlags 0 x.1 x.2 rd ls
    else some (.success, ls, [])).map fun r =>
    if r.1 ≠ .success then ⟨{ o with err := r.1, log := o.log ++ r.2.2 }, r.2.1, none⟩
    else
      let a := addToFilSystem t isTemp spaceCreated o.files
      ⟨{ o with err := a.1, files := a.2.1, log := o.log ++ r.2.2 }, r.2.1, a.2.2⟩

end Files

/-! ## `check_size` -/

section CheckSize

variable {srvPageSizeShift : Nat} {t : SysTablespace} {isLast : Bool} {f f' : Datafile} {size : UInt64}

theorem check_size_success_iff {log : List LogLine} :
    checkSize srvPageSizeShift t isLast f size = some (.success, f', log) ↔
      size.toNat ≠ 2 ^ 64 - 1 ∧ f' = { f with size := roundedSizePages srvPageSizeShift size } ∧
        log = [] ∧
        if isLast && t.mAutoExtendLastFile then
          f.size ≤ roundedSizePages srvPageSizeShift size ∧
            (t.mLastFileSizeMax = 0 ∨ roundedSizePages srvPageSizeShift size ≤ t.mLastFileSizeMax)
        else f.size = roundedSizePages srvPageSizeShift size := by
  unfold checkSize
  by_cases h1 : size.toNat = 2 ^ 64 - 1
  · simp [h1]
  rw [if_neg h1]
  generalize roundedSizePages srvPageSizeShift size = r
  cases isLast && t.mAutoExtendLastFile
  · by_cases hr : r = f.size
    · subst hr; cases f; simp [eq_comm]; exact fun _ _ h => h1 h.symm
    · simp [hr, Ne.symm hr]
  · by_cases hc : r < f.size ∨ 0 < t.mLastFileSizeMax ∧ t.mLastFileSizeMax < r
    · simp only [Bool.true_and, Bool.or_eq_true, decide_eq_true_eq, Bool.and_eq_true, hc, if_true]
      simp only [Option.some.injEq, Prod.mk.injEq, reduceCtorEq, false_and, false_iff, not_and, if_true]
      omega
    · simp only [Bool.true_and, Bool.or_eq_true, decide_eq_true_eq, Bool.and_eq_true, hc, if_false,
        ne_eq, not_true_eq_false, if_true]
      simp only [Option.some.injEq, Prod.mk.injEq, true_and, h1, not_false_eq_true]
      constructor
      · rintro ⟨rfl, rfl⟩; exact ⟨rfl, rfl, by omega, by omega⟩
      · rintro ⟨rfl, rfl, -⟩; exact ⟨rfl, rfl⟩

example : checkSize 14 ⟨0, [], true, 0⟩ true ⟨0, 768, 0, "ibdata1".toList, .notRaw⟩ 20971520 =
    some (.success, ⟨0, 1280, 0, "ibdata1".toList, .notRaw⟩, []) := rfl

end CheckSize

/-! ## The first loop of `open_or_create` -/

def newSize (f : Datafile) (fs : FileState) : Nat :=
  if !fs.fileExists || f.type == .newRaw then f.size else 0

def newSizes : List (Datafile × FileState × OsFile) → Nat
  | [] => 0
  | (f, fs, _) :: l => newSize f fs + newSizes l

def Opens (srvPageSizeShift : Nat) (f : Datafile) (fs : FileState) (os : OsFile) (g : Datafile)
    (gs : FileState) : Prop :=
  gs.fileExists = true ∧
    g = { f with
      size := if fs.fileExists && f.type == .notRaw then roundedSizePages srvPageSizeShift os.osSize else f.size }

section Loop

variable {env : OpenEnv} {disableLocking : Bool} {srvPageSizeShift : Nat} {t : SysTablespace}
  {isFirst isLast : Bool} {raw raw' : RawFlags} {sum : Option Nat} {f g : Datafile} {fs : FileState}
  {os : OsFile} {e : DbErr} {log : List LogLine}

theorem checkSize_file (h : checkSize srvPageSizeShift t isLast f os.osSize = some (.success, g, log)) :
    g = { f with size := roundedSizePages srvPageSizeShift os.osSize } := by
  unfold checkSize at h
  by_cases h1 : os.osSize.toNat = 2 ^ 64 - 1
  · rw [if_pos h1] at h; cases h
  rw [if_neg h1] at h
  generalize roundedSizePages srvPageSizeShift os.osSize = r at h ⊢
  dsimp only at h
  generalize (isLast && t.mAutoExtendLastFile) = b at h
  -- only the last branch succeeds
  rcases ite_eq_iff.1 h with ⟨-, h⟩ | ⟨-, h⟩
  · cases h
  rcases ite_eq_iff.1 h with ⟨-, h⟩ | ⟨hr, h⟩
  · cases h
  cases h
  cases b
  · cases f; simp_all
  · rfl

theorem openFile_file
    (h : openFile env disableLocking srvPageSizeShift t isLast raw f fs os = some (e, g, raw', log)) :
    fs.fileExists = true ∧ (g = f ∧ (f.type = .notRaw → e ≠ .success) ∨
      f.type = .notRaw ∧ ∃ log', checkSize srvPageSizeShift t isLast f os.osSize = some (e, g, log')) := by
  unfold openFile at h
  by_cases hx : fs.fileExists = false
  · simp [hx] at h
  refine ⟨by simpa using hx, ?_⟩
  dsimp only at h
  rw [if_neg (by simpa using hx)] at h
  -- a raw device under --innodb-read-only
  rcases ite_eq_iff.1 h with ⟨hro, h⟩ | ⟨-, h⟩
  · cases h
    exact .inl ⟨rfl, fun hn => by simp [hn] at hro⟩
  -- a failed Datafile::open_or_create
  rcases ite_eq_iff.1 h with ⟨he, h⟩ | ⟨-, h⟩
  · cases h
    exact .inl ⟨rfl, fun _ => he⟩
  revert h
  cases hf : f.type
  · intro h
    rcases ite_eq_iff.1 h with ⟨-, h⟩ | ⟨-, h⟩
    · cases h; exact .inl ⟨rfl, fun _ => nofun⟩
    · obtain ⟨⟨e', g', l'⟩, hc, ⟨⟩⟩ := Option.map_eq_some'.1 h
      exact .inr ⟨rfl, l', hc⟩
  all_goals rintro ⟨⟩; exact .inl ⟨rfl, nofun⟩

theorem addSize_lt (sum : Option Nat) (n : Nat) : (addSize sum n).all (· < 2 ^ 64) := by
  cases sum <;> simp [addSize, Nat.mod_lt]

theorem addSize_zero (hs : sum.all (· < 2 ^ 64)) : addSize sum 0 = sum := by
  cases sum <;> simp_all [addSize, Nat.mod_eq_of_lt]

theorem addSize_addSize (sum : Option Nat) (a b : Nat) : addSize (addSize sum a) b = addSize sum (a + b) := by
  cases sum <;> simp [addSize, Nat.add_assoc]

theorem openOrCreateFile_sum {o : Looped} (hs : sum.all (· < 2 ^ 64))
    (h : openOrCreateFile env disableLocking srvPageSizeShift t isFirst isLast raw sum f fs os = some o) :
    o.sum = addSize sum (newSize f fs) := by
  unfold openOrCreateFile at h
  by_cases hx : fs.fileExists = true
  · rw [if_pos hx] at h
    obtain ⟨⟨e, g, raw', log⟩, hr, rfl⟩ := Option.map_eq_some'.1 h
    obtain ⟨-, ⟨hg, -⟩ | ⟨hn, -⟩⟩ := openFile_file hr
    · rw [hg]; by_cases hn : f.type = .newRaw <;> simp [newSize, hx, hn, addSize_zero hs]
    · simp [newSize, hx, hn, addSize_zero hs]
  · rw [if_neg hx] at h
    obtain ⟨r, -, rfl⟩ := Option.map_eq_some'.1 h
    simp [newSize, hx]

theorem openOrCreateFile_success {o : Looped}
    (h : openOrCreateFile env disableLocking srvPageSizeShift t isFirst isLast raw sum f fs os = some o)
    (hok : o.err = .success) : ∃ g gs, o.files = [(g, gs)] ∧ Opens srvPageSizeShift f fs os g gs := by
  unfold openOrCreateFile at h
  by_cases hx : fs.fileExists = true
  · rw [if_pos hx] at h
    obtain ⟨⟨e, g, raw', log⟩, hr, rfl⟩ := Option.map_eq_some'.1 h
    cases hok
    refine ⟨g, fs, rfl, hx, ?_⟩
    obtain ⟨-, ⟨hg, hn⟩ | ⟨hn, log', hc⟩⟩ := openFile_file hr
    · have hn : f.type ≠ .notRaw := fun hn' => hn hn' rfl
      rw [hg]; cases f; simp_all
    · simp [hx, hn, checkSize_file hc]
  · rw [if_neg hx] at h
    obtain ⟨⟨e, raw', log⟩, -, rfl⟩ := Option.map_eq_some'.1 h
    cases hok
    exact ⟨f, _, rfl, rfl, by cases f; simp_all⟩

theorem openOrCreateLoop_cons_success {l : List (Datafile × FileState × OsFile)} {o : Looped}
    (h : openOrCreateLoop env disableLocking srvPageSizeShift t ((f, fs, os) :: l) isFirst raw sum = some o)
    (hok : o.err = .success) :
    ∃ o₁ o', openOrCreateFile env disableLocking srvPageSizeShift t isFirst l.isEmpty raw sum f fs os =
        some o₁ ∧ o₁.err = .success ∧
      openOrCreateLoop env disableLocking srvPageSizeShift t l false o₁.raw o₁.sum = some o' ∧
      o = { o' with files := o₁.files ++ o'.files, log := o₁.log ++ o'.log } := by
  obtain ⟨o₁, h₁, h⟩ := Option.bind_eq_some.1 h
  by_cases he : o₁.err = .success
  · rw [if_neg (not_not.2 he)] at h
    obtain ⟨o', h', rfl⟩ := Option.map_eq_some'.1 h
    exact ⟨o₁, o', h₁, he, h', rfl⟩
  · rw [if_pos he] at h
    cases h
    exact absurd hok he

theorem openOrCreateLoop_sum :
    ∀ {l : List (Datafile × FileState × OsFile)} {isFirst : Bool} {raw : RawFlags} {sum : Option Nat}
      {o : Looped}, sum.all (· < 2 ^ 64) →
    openOrCreateLoop env disableLocking srvPageSizeShift t l isFirst raw sum = some o → o.err = .success →
    o.sum = addSize sum (newSizes l)
  | [], _, _, _, _, hs, h, _ => by cases h; exact (addSize_zero hs).symm
  | (f, fs, os) :: l, _, _, _, _, hs, h, hok => by
    obtain ⟨o₁, o', h₁, -, h', rfl⟩ := openOrCreateLoop_cons_success h hok
    have hsum := openOrCreateFile_sum hs h₁
    rw [openOrCreateLoop_sum (hsum ▸ addSize_lt _ _) h' hok, hsum, addSize_addSize, newSizes]

theorem openOrCreateLoop_files :
    ∀ {l : List (Datafile × FileState × OsFile)} {isFirst : Bool} {raw : RawFlags} {sum : Option Nat}
      {o : Looped},
    openOrCreateLoop env disableLocking srvPageSizeShift t l isFirst raw sum = some o → o.err = .success →
    List.Forall₂ (fun x y => Opens srvPageSizeShift x.1 x.2.1 x.2.2 y.1 y.2) l o.files
  | [], _, _, _, _, h, _ => by cases h; exact .nil
  | (f, fs, os) :: l, _, _, _, _, h, hok => by
    obtain ⟨o₁, o', h₁, he, h', rfl⟩ := openOrCreateLoop_cons_success h hok
    obtain ⟨g, gs, hg, hop⟩ := openOrCreateFile_success h₁ he
    rw [hg]
    exact .cons hop (openOrCreateLoop_files h' hok)

end Loop

/-! ## The second loop and the whole of `open_or_create` -/

theorem addNodes_append (t : SysTablespace) (g : Datafile) :
    ∀ (l : List Datafile) (c : Nat), addNodes t (c + l.length + 1) c (l ++ [g]) =
      l.map (fun f => ⟨f.filepath, f.size, f.type != .notRaw, f.size⟩) ++
        [⟨g.filepath, g.size, g.type != .notRaw, lastMaxSize t⟩]
  | [], c => by simp [addNodes, maxSize]
  | f :: l, c => by
    rw [List.cons_append, addNodes, maxSize, if_neg (by simp), List.length_cons,
      show c + (l.length + 1) + 1 = c + 1 + l.length + 1 by omega, addNodes_append t g l (c + 1)]
    rfl

theorem addToFilSystem_success {t : SysTablespace} {isTemp spaceCreated : Bool} {f : Datafile} {s : FileState}
    {rest files : List (Datafile × FileState)} {space : Option Space}
    (h : addToFilSystem t isTemp spaceCreated ((f, s) :: rest) = (.success, files, space)) :
    files = ((f, s) :: rest).map (fun x => (x.1, { x.2 with fileExists := true })) ∧
      space = some ⟨isTemp, if isTemp then t.flags else f.flags,
        addNodes t (rest.length + 1) 0 (f :: rest.map (·.1))⟩ := by
  simp only [addToFilSystem] at h
  by_cases hc : spaceCreated = true
  · rw [if_pos hc] at h
    cases h
    exact ⟨rfl, rfl⟩
  · rw [if_neg hc] at h
    cases h

section Whole

variable {env : OpenEnv} {disableLocking : Bool} {srvPageSizeShift : Nat} {t : SysTablespace}
  {isTemp createNewDb hasSum : Bool} {raw : RawFlags} {fs : List (FileState × OsFile)} {rd : FirstPageRead}
  {ls : LogSys} {spaceCreated : Bool} {o : Opened}

theorem openOrCreate_success
    (h : openOrCreate env disableLocking srvPageSizeShift t isTemp createNewDb hasSum raw fs rd ls spaceCreated =
      some o)
    (hok : o.err = .success) :
    fs.length = t.mFiles.length ∧ ∃ o₁, openOrCreateLoop env disableLocking srvPageSizeShift t (t.mFiles.zip fs)
        true raw (if hasSum then some 0 else none) = some o₁ ∧ o₁.err = .success ∧ o.sum = o₁.sum ∧
      addToFilSystem t isTemp spaceCreated o₁.files = (.success, o.files, o.space) := by
  rw [openOrCreate] at h
  rcases ite_eq_iff.1 h with ⟨-, h⟩ | ⟨hl, h⟩
  · cases h
  obtain ⟨o₁, h₁, h⟩ := Option.bind_eq_some.1 h
  by_cases he : o₁.err = .success
  · rw [if_neg (not_not.2 he)] at h
    obtain ⟨r, -, h⟩ := Option.map_eq_some'.1 h
    by_cases hr : r.1 = .success
    · rw [if_neg (not_not.2 hr)] at h
      subst h
      exact ⟨not_not.1 hl, o₁, h₁, he, rfl, by rw [← hok]⟩
    · rw [if_pos hr] at h
      subst h
      exact absurd hok hr
  · rw [if_pos he] at h
    cases h
    exact absurd hok he

theorem open_or_create_sum_new_sizes
    (h : openOrCreate env disableLocking srvPageSizeShift t isTemp createNewDb hasSum raw fs rd ls spaceCreated =
      some o)
    (hok : o.err = .success) :
    o.sum =
      if hasSum then some (newSizes (t.mFiles.zip fs) % 2 ^ 64) else none := by
  obtain ⟨-, o₁, h₁, he, hsum, -⟩ := openOrCreate_success h hok
  rw [hsum, openOrCreateLoop_sum (by cases hasSum <;> simp) h₁ he]
  cases hasSum <;> simp [addSize]

theorem open_or_create_sum_new_sizes_created_second :
    ∃ o, openOrCreate ⟨false, false, false, true⟩ false 14
        ⟨0, [⟨0, 768, 0, "ibdata1".toList, .notRaw⟩, ⟨0, 64, 1, "ibdata2".toList, .notRaw⟩], true, 0⟩
        false false true ⟨false, false⟩
        [(⟨true, .osFileOpenRetry⟩, ⟨.success, false, true, 12582912⟩),
          (⟨false, .osFileCreate⟩, ⟨.success, false, true, 0⟩)]
        ⟨false, .success, .success, .success, none, 0, 9000⟩ ⟨0, true, 1, 0, false⟩ true = some o ∧
      o.err = .success ∧ o.sum = some 64 :=
  ⟨_, rfl, rfl, @open_or_create_sum_new_sizes ⟨false, false, false, true⟩ false 14
    ⟨0, [⟨0, 768, 0, "ibdata1".toList, .notRaw⟩, ⟨0, 64, 1, "ibdata2".toList, .notRaw⟩], true, 0⟩
    false false true ⟨false, false⟩
    [(⟨true, .osFileOpenRetry⟩, ⟨.success, false, true, 12582912⟩),
      (⟨false, .osFileCreate⟩, ⟨.success, false, true, 0⟩)]
    ⟨false, .success, .success, .success, none, 0, 9000⟩ ⟨0, true, 1, 0, false⟩ true _ rfl rfl⟩

/-- When `open_or_create` succeeds, the tablespace it created holds every file in order. -/
theorem open_or_create_adds_every_file {f₀ : Datafile} {rest : List Datafile}
    (ht : t.mFiles = f₀ :: rest)
    (h : openOrCreate env disableLocking srvPageSizeShift t isTemp createNewDb hasSum raw fs rd ls spaceCreated =
      some o)
    (hok : o.err = .success) :
    List.Forall₂ (fun x y => Opens srvPageSizeShift x.1 x.2.1 x.2.2 y.1 y.2) (t.mFiles.zip fs) o.files ∧
      ∃ pre last, o.files.map Prod.fst = pre ++ [last] ∧
        o.space = some ⟨isTemp, if isTemp then t.flags else f₀.flags,
          pre.map (fun g => ⟨g.filepath, g.size, g.type != .notRaw, g.size⟩) ++
            [⟨last.filepath, last.size, last.type != .notRaw, lastMaxSize t⟩]⟩ := by
  obtain ⟨hlen, o₁, h₁, he, -, ha⟩ := openOrCreate_success h hok
  have hop := openOrCreateLoop_files h₁ he
  obtain ⟨os₀, fs', rfl⟩ : ∃ os₀ fs', fs = os₀ :: fs' := by
    cases fs with
    | nil => simp [ht] at hlen
    | cons x fs' => exact ⟨x, fs', rfl⟩
  rw [ht, List.zip_cons_cons] at hop ⊢
  generalize o₁.files = files at hop ha
  cases hop with
  | @cons _ y _ files' hg₀ hrest =>
    obtain ⟨hfiles, hspace⟩ := addToFilSystem_success (f := y.1) (s := y.2) ha
    refine ⟨?_, ?_⟩
    · rw [hfiles, List.forall₂_map_right_iff]
      exact .cons ⟨rfl, hg₀.2⟩ (hrest.imp fun _ _ h => ⟨rfl, h.2⟩)
    · -- the last file, and the files before it
      obtain ⟨pre, last, hpl⟩ : ∃ pre last, y.1 :: files'.map (·.1) = pre ++ [last] :=
        ⟨_, _, (List.dropLast_append_getLast (List.cons_ne_nil _ _)).symm⟩
      have hlen' : files'.length + 1 = 0 + pre.length + 1 := by simpa using congrArg List.length hpl
      have hflags : y.1.flags = f₀.flags := by rw [hg₀.2]
      refine ⟨pre, last, by rw [hfiles, ← hpl]; simp, ?_⟩
      rw [hspace, hlen', hpl, addNodes_append, hflags]

theorem open_or_create_adds_every_file_created_second :
    ∃ o, openOrCreate ⟨false, false, false, true⟩ false 14
        ⟨0, [⟨0, 768, 0, "ibdata1".toList, .notRaw⟩, ⟨0, 64, 1, "ibdata2".toList, .notRaw⟩], true, 0⟩
        false false true ⟨false, false⟩
        [(⟨true, .osFileOpenRetry⟩, ⟨.success, false, true, 12582912⟩),
          (⟨false, .osFileCreate⟩, ⟨.success, false, true, 0⟩)]
        ⟨false, .success, .success, .success, none, 0, 9000⟩ ⟨0, true, 1, 0, false⟩ true = some o ∧
      o.err = .success ∧
      List.Forall₂ (fun x y => Opens 14 x.1 x.2.1 x.2.2 y.1 y.2)
        ([⟨0, 768, 0, "ibdata1".toList, .notRaw⟩, ⟨0, 64, 1, "ibdata2".toList, .notRaw⟩].zip
          [(⟨true, .osFileOpenRetry⟩, ⟨.success, false, true, 12582912⟩),
            (⟨false, .osFileCreate⟩, ⟨.success, false, true, 0⟩)]) o.files ∧
      ∃ pre last, o.files.map Prod.fst = pre ++ [last] ∧
        o.space = some ⟨false, if false then 0 else 0,
          pre.map (fun g => ⟨g.filepath, g.size, g.type != .notRaw, g.size⟩) ++
            [⟨last.filepath, last.size, last.type != .notRaw,
              lastMaxSize
                ⟨0, [⟨0, 768, 0, "ibdata1".toList, .notRaw⟩, ⟨0, 64, 1, "ibdata2".toList, .notRaw⟩], true,
                  0⟩⟩]⟩ :=
  ⟨_, rfl, rfl, @open_or_create_adds_every_file ⟨false, false, false, true⟩ false 14
    ⟨0, [⟨0, 768, 0, "ibdata1".toList, .notRaw⟩, ⟨0, 64, 1, "ibdata2".toList, .notRaw⟩], true, 0⟩
    false false true ⟨false, false⟩
    [(⟨true, .osFileOpenRetry⟩, ⟨.success, false, true, 12582912⟩),
      (⟨false, .osFileCreate⟩, ⟨.success, false, true, 0⟩)]
    ⟨false, .success, .success, .success, none, 0, 9000⟩ ⟨0, true, 1, 0, false⟩ true _ _ _ rfl rfl rfl⟩

end Whole

/-! ## `get_increment` -/

/-- Past `uint32_t(m_last_file_size_max)` the difference wraps and the whole increment is handed out. -/
theorem get_increment_past_max {t : SysTablespace} {incr lastFileSize : Nat} {validSize : Bool}
    (hmax : t.mLastFileSizeMax ≠ 0) (hlast : lastFileSize < 2 ^ 32) :
    (lastFileSize ≤ t.mLastFileSizeMax % 2 ^ 32 →
      lastFileSize + (getIncrement t incr lastFileSize validSize).1 ≤ t.mLastFileSizeMax % 2 ^ 32) ∧
    (t.mLastFileSizeMax % 2 ^ 32 < lastFileSize → lastFileSize - t.mLastFileSizeMax % 2 ^ 32 + incr ≤ 2 ^ 32 →
      (getIncrement t incr lastFileSize validSize).1 = incr) := by
  rw [getIncrement, if_neg hmax, Nat.mod_eq_of_lt hlast]
  have hm : t.mLastFileSizeMax % 2 ^ 32 < 2 ^ 32 := Nat.mod_lt _ (by decide)
  generalize t.mLastFileSizeMax % 2 ^ 32 = m at hm ⊢
  constructor
  · intro hl
    -- within the maximum, the difference does not wrap
    rw [show m + (2 ^ 32 - lastFileSize) = (m - lastFileSize) + 2 ^ 32 by omega, Nat.add_mod_right,
      Nat.mod_eq_of_lt (by omega)]
    omega
  · intro hl hw
    -- past the maximum, it wraps to `2 ^ 32 - (lastFileSize - m)`
    rw [Nat.mod_eq_of_lt (by omega)]
    omega

theorem get_increment_past_max_by_200 :
    (getIncrement ⟨0, [], true, 1000⟩ 4096 1200 false).1 = 4096 :=
  (get_increment_past_max (by decide) (by decide)).2 (by decide) (by decide)

/-! ## After `check_file_spec` -/

def foundNewSizes : List (Datafile × FileState × FileStatus) → Nat
  | [] => 0
  | (f, _, st) :: l => (if st = .notFound ∨ f.type = .newRaw then f.size else 0) + foundNewSizes l

theorem newSizes_of_found (os : List OsFile) :
    ∀ {l : List (Datafile × FileState × FileStatus)} {ss : List FileState},
    List.Forall₂ (fun x s => s.fileExists = decide (x.2.2 ≠ .notFound)) l ss → ss.length ≤ os.length →
    newSizes ((l.map (·.1)).zip (ss.zip os)) = foundNewSizes l
  | [], [], .nil, _ => rfl
  | (f, fs, st) :: l, s :: ss, .cons hs h, hlen => by
    obtain ⟨o, os', rfl⟩ : ∃ o os', os = o :: os' := by
      cases os with
      | nil => simp at hlen
      | cons o os' => exact ⟨o, os', rfl⟩
    rw [List.map_cons, List.zip_cons_cons, List.zip_cons_cons, newSizes, foundNewSizes,
      newSizes_of_found os' h (by simpa using hlen), newSize, hs]
    by_cases hst : st = .notFound <;> by_cases hr : f.type = .newRaw <;> simp [hst, hr]

theorem forall₂_openedStates :
    ∀ l : List (Datafile × FileState × FileStatus),
    List.Forall₂ (fun x s => s.fileExists = decide (x.2.2 ≠ .notFound)) l (openedStates l)
  | [] => .nil
  | x :: l => .cons (by simp) (List.forall₂_map_right_iff.2 (List.forall₂_same.2 fun _ _ => by simp))

theorem check_file_spec_then_open_or_create_sum {env : OpenEnv} {disableLocking : Bool}
    {srvPageSizeShift sumOfSizes minExpectedSize : Nat} {t : SysTablespace} {found : List (FileState × FileStatus)}
    {c : Bool} {sts : List FileState} {log : List LogLine} {isTemp : Bool} {raw : RawFlags} {os : List OsFile}
    {rd : FirstPageRead} {ls : LogSys} {spaceCreated : Bool} {o : Opened}
    (hspec : checkFileSpec env t sumOfSizes minExpectedSize srvPageSizeShift found = some (.success, c, sts, log))
    (hos : os.length = t.mFiles.length)
    (h : openOrCreate env disableLocking srvPageSizeShift t isTemp c true raw (sts.zip os) rd ls spaceCreated =
      some o)
    (hok : o.err = .success) :
    o.sum = some (foundNewSizes (t.mFiles.zip found) % 2 ^ 64) := by
  obtain ⟨-, o₁, h₁, he, hsum, -⟩ := openOrCreate_success h hok
  have hs := checkFileSpec_states hspec
  have hlen := checkFileSpec_length hspec
  have hfiles : (t.mFiles.zip found).map (·.1) = t.mFiles := List.map_fst_zip _ _ (by omega)
  rw [hsum, openOrCreateLoop_sum (by simp) h₁ he, ← newSizes_of_found os (forall₂_openedStates _), hfiles,
    ← hs]
  · simp [addSize]
  · simp [hos, hlen]

theorem check_file_spec_then_open_or_create_sum_created_second :
    ∃ sts log o,
      checkFileSpec ⟨false, false, false, true⟩
          ⟨0, [⟨0, 768, 0, "ibdata1".toList, .notRaw⟩, ⟨0, 64, 1, "ibdata2".toList, .notRaw⟩], true, 0⟩ 832 0 14
          [(⟨false, .osFileOpen⟩, .found true true), (⟨false, .osFileOpen⟩, .notFound)] =
        some (.success, false, sts, log) ∧
      openOrCreate ⟨false, false, false, true⟩ false 14
          ⟨0, [⟨0, 768, 0, "ibdata1".toList, .notRaw⟩, ⟨0, 64, 1, "ibdata2".toList, .notRaw⟩], true, 0⟩
          false false true ⟨false, false⟩
          (sts.zip [⟨.success, false, true, 12582912⟩, ⟨.success, false, true, 0⟩])
          ⟨false, .success, .success, .success, none, 0, 9000⟩ ⟨0, true, 1, 0, false⟩ true = some o ∧
      o.err = .success ∧ o.sum = some 64 :=
  ⟨_, _, _, rfl, rfl, rfl, @check_file_spec_then_open_or_create_sum ⟨false, false, false, true⟩ false 14 832 0
    ⟨0, [⟨0, 768, 0, "ibdata1".toList, .notRaw⟩, ⟨0, 64, 1, "ibdata2".toList, .notRaw⟩], true, 0⟩
    [(⟨false, .osFileOpen⟩, .found true true), (⟨false, .osFileOpen⟩, .notFound)]
    false _ _ false ⟨false, false⟩ [⟨.success, false, true, 12582912⟩, ⟨.success, false, true, 0⟩]
    ⟨false, .success, .success, .success, none, 0, 9000⟩ ⟨0, true, 1, 0, false⟩ true _ rfl rfl rfl rfl⟩

/-! ## `read_lsn_and_check_flags` -/

example : readLsnAndCheckFlags 0 ⟨0, 768, 0, "ibdata1".toList, .notRaw⟩ ⟨true, .osFileOpenRetry⟩
      ⟨false, .success, .success, .success, none, 5, 9000⟩ ⟨0, true, 0, 0, true⟩ =
    some (.success, ⟨0, true, 0, 0, true⟩,
      [.error "InnoDB: The data file 'ibdata1' has the wrong space ID. It should be 0, but 5 was found"]) := by
  rfl

end SysTablespace

end Innobase
