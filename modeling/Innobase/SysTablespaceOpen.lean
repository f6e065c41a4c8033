import Innobase.SysTablespace

/-!
# Checking the data files of the system tablespace

`SysTablespace::check_file_spec` asks the file system about every data file in
order and decides whether a new database is to be created. What
`os_file_get_status` reports is an input, and so is `get_sum_of_sizes()`.
-/

namespace Innobase

def Datafile.path (f : Datafile) : String := String.mk f.filepath

namespace SysTablespace

inductive OpenFlags
  | osFileCreate
  | osFileOpen
  | osFileOpenRaw
  | osFileOpenRetry
  deriving DecidableEq, Repr

structure FileState where
  fileExists : Bool
  openFlags : OpenFlags
  deriving DecidableEq, Repr

/-- What `os_file_get_status` reports on a data file. -/
inductive FileStatus
  | notFound
  | fail
  | found (regular rwPerm : Bool)
  deriving DecidableEq, Repr

inductive StatusReason
  | void
  | rwPermissionError
  | readWriteError
  | notRegularFileError
  deriving DecidableEq, Repr

inductive DbErr
  | success
  | error
  | notFound
  | corruption
  deriving DecidableEq, Repr

inductive LogLine
  | info (msg : String)
  | error (msg : String)
  deriving DecidableEq, Repr

/-- `srv_read_only_mode`, `m_ignore_read_only`, `srv_force_recovery` and `space_id() == TRX_SYS_SPACE`. -/
structure OpenEnv where
  readOnly : Bool
  ignoreReadOnly : Bool
  forceRecovery : Bool
  sysSpace : Bool
  deriving DecidableEq, Repr

def permissionMsg (env : OpenEnv) : String :=
  if !env.readOnly || env.ignoreReadOnly then "' must be writable" else "' must be readable"

def checkFileStatus (env : OpenEnv) (f : Datafile) (st : FileStatus) : DbErr × StatusReason × List LogLine :=
  match st with
  | .fail =>
    (.error, .rwPermissionError,
      [.error ("os_file_get_status() failed on '" ++ f.path ++ "'. Can't determine file permissions")])
  | .found true true => (.success, .void, [])
  | .found true false => (.error, .readWriteError, [.error ("The data file" ++ " '" ++ f.path ++ permissionMsg env)])
  | .found false _ => (.error, .notRegularFileError, [.error ("The data file '" ++ f.path ++ "' is not a regular file.")])
  | .notFound => (.notFound, .void, [])

/-- `SysTablespace::file_not_found`; `none` is a failed `ut_a(!*create_new_db)`. -/
def fileNotFound (env : OpenEnv) (f : Datafile) (isFirst createNewDb : Bool) (fs : FileState) :
    Option (DbErr × Bool × FileState × List LogLine) :=
  let fs := { fs with fileExists := false }
  if !env.ignoreReadOnly && env.readOnly then
    some (.error, createNewDb, fs,
      [.error ("Can't create file '" ++ f.path ++ "' when --innodb-read-only is set")])
  else if !env.ignoreReadOnly && env.forceRecovery && env.sysSpace then
    some (.error, createNewDb, fs,
      [.error ("Can't create file '" ++ f.path ++ "' when --innodb-force-recovery is set")])
  else if isFirst && createNewDb then none
  else
    let log : List LogLine :=
      if isFirst then
        if env.sysSpace then
          [.info ("The first data file '" ++ f.path ++ "' did not exist. A new tablespace will be created!")]
        else []
      else [.info ("Need to create a new data file '" ++ f.path ++ "'.")]
    some (.success, isFirst || createNewDb,
      { fs with openFlags := if f.type = .notRaw then .osFileCreate else .osFileOpenRaw }, log)

def fileFound (f : Datafile) (isFirst : Bool) : Bool × FileState :=
  (f.type = .newRaw,
    ⟨true, if f.type = .notRaw then (if isFirst then .osFileOpenRetry else .osFileOpen) else .osFileOpenRaw⟩)

def checkFileSpecLoop (env : OpenEnv) (first : Datafile) :
    List (Datafile × FileState × FileStatus) → Bool → Bool → Option (DbErr × Bool × List FileState × List LogLine)
  | [], _, createNewDb => some (.success, createNewDb, [], [])
  | (f, fs, st) :: l, isFirst, createNewDb =>
    let (err, reason, log₁) := checkFileStatus env f st
    match err with
    | .notFound => do
      let (err, createNewDb, fs, log₂) ← fileNotFound env f isFirst createNewDb fs
      if err ≠ .success then pure (err, createNewDb, fs :: l.map (·.2.1), log₁ ++ log₂)
      else do
        let (err, createNewDb, sts, log₃) ← checkFileSpecLoop env first l false createNewDb
        pure (err, createNewDb, fs :: sts, log₁ ++ log₂ ++ log₃)
    | .success =>
      if createNewDb then
        some (.error, createNewDb, fs :: l.map (·.2.1), log₁ ++
          [.error ("The data file '" ++ first.path ++ "' was not found but" ++ " one of the other data files '" ++
            f.path ++ "' exists.")])
      else do
        let (err, createNewDb, sts, log₃) ← checkFileSpecLoop env first l false (fileFound f isFirst).1
        pure (err, createNewDb, (fileFound f isFirst).2 :: sts, log₁ ++ log₃)
    | _ =>
      some (err, createNewDb, fs :: l.map (·.2.1), log₁ ++
        if reason = .readWriteError then [.error ("The data file '" ++ f.path ++ permissionMsg env)] else [])

/-- `SysTablespace::check_file_spec(create_new_db, min_expected_size)`; `none` is a
failed `ut_a`, or an `fs` that does not give each file of `m_files` its entry. -/
def checkFileSpec (env : OpenEnv) (t : SysTablespace) (sumOfSizes minExpectedSize srvPageSizeShift : Nat)
    (fs : List (FileState × FileStatus)) : Option (DbErr × Bool × List FileState × List LogLine) :=
  if fs.length ≠ t.mFiles.length then none
  else if 1000 ≤ t.mFiles.length then
    some (.error, false, fs.map (·.1),
      [.error ("There must be < 1000 data files " ++ " but " ++ toString t.mFiles.length ++ " have been" ++
        " defined.")])
  else if !t.mAutoExtendLastFile && sumOfSizes < minExpectedSize >>> srvPageSizeShift then
    some (.error, false, fs.map (·.1),
      [.error ("Tablespace size must be at least " ++ toString (minExpectedSize >>> 20) ++ " MB")])
  else
    match t.mFiles with
    | [] => none
    | first :: _ => checkFileSpecLoop env first (t.mFiles.zip fs) true false

/-! ## What `check_file_spec` accepts -/

def canCreate (env : OpenEnv) : Bool :=
  env.ignoreReadOnly || (!env.readOnly && !(env.forceRecovery && env.sysSpace))

def openedState (isFirst : Bool) (f : Datafile) (st : FileStatus) : FileState :=
  if st = .notFound then ⟨false, if f.type = .notRaw then .osFileCreate else .osFileOpenRaw⟩
  else (fileFound f isFirst).2

@[simp] theorem openedState_fileExists (isFirst : Bool) (f : Datafile) (st : FileStatus) :
    (openedState isFirst f st).fileExists = decide (st ≠ .notFound) := by
  by_cases h : st = .notFound <;> simp [openedState, fileFound, h]

def openedStates : List (Datafile × FileState × FileStatus) → List FileState
  | [] => []
  | x :: l => openedState true x.1 x.2.2 :: l.map fun y => openedState false y.1 y.2.2

@[simp] theorem openedStates_length (l : List (Datafile × FileState × FileStatus)) :
    (openedStates l).length = l.length := by
  cases l <;> simp [openedStates]

/-- The data files and status that the loop of `check_file_spec` accepts. -/
structure Accepts (env : OpenEnv) (l : List (Datafile × FileState × FileStatus)) (createNewDb : Bool) :
    Prop where
  status : ∀ x ∈ l, x.2.2 = .notFound ∨ x.2.2 = .found true true
  create : (∃ x ∈ l, x.2.2 = .notFound) → canCreate env = true
  missing : createNewDb = true → ∀ x ∈ l, x.2.2 = .notFound
  newRawLast : ∀ pre x post, l = pre ++ x :: post → x.2.2 = .found true true → x.1.type = .newRaw →
    ∀ y ∈ post, y.2.2 = .notFound

namespace Accepts

variable {env : OpenEnv} {x : Datafile × FileState × FileStatus} {l : List (Datafile × FileState × FileStatus)}
  {c : Bool}

theorem nil : Accepts env [] c :=
  ⟨fun _ h => absurd h (List.not_mem_nil _), fun ⟨_, h, _⟩ => absurd h (List.not_mem_nil _),
    fun _ _ h => absurd h (List.not_mem_nil _), fun pre _ _ h => absurd h (by simp)⟩

theorem newRawLast_cons :
    (∀ pre y post, x :: l = pre ++ y :: post → y.2.2 = .found true true → y.1.type = .newRaw →
      ∀ z ∈ post, z.2.2 = .notFound) ↔
    ((x.2.2 = .found true true → x.1.type = .newRaw → ∀ z ∈ l, z.2.2 = .notFound) ∧
      ∀ pre y post, l = pre ++ y :: post → y.2.2 = .found true true → y.1.type = .newRaw →
        ∀ z ∈ post, z.2.2 = .notFound) := by
  constructor
  · intro h
    exact ⟨h [] x l rfl, fun pre y post e => h (x :: pre) y post (by rw [e]; rfl)⟩
  · rintro ⟨hx, hl⟩ pre y post e
    rcases pre with _ | ⟨w, pre⟩
    · obtain ⟨rfl, rfl⟩ := List.cons_eq_cons.1 e
      exact hx
    · exact hl pre y post (List.cons_eq_cons.1 e).2

theorem cons_missing (hx : x.2.2 = .notFound) : Accepts env (x :: l) c ↔ canCreate env = true ∧ Accepts env l c := by
  constructor
  · intro h
    exact ⟨h.create ⟨x, List.mem_cons_self _ _, hx⟩, fun y hy => h.status y (List.mem_cons_of_mem _ hy),
      fun ⟨y, hy, e⟩ => h.create ⟨y, List.mem_cons_of_mem _ hy, e⟩,
      fun hc y hy => h.missing hc y (List.mem_cons_of_mem _ hy), (newRawLast_cons.1 h.newRawLast).2⟩
  · rintro ⟨hcan, h⟩
    refine ⟨fun y hy => ?_, fun _ => hcan, fun hc y hy => ?_, newRawLast_cons.2 ⟨fun e => ?_, h.newRawLast⟩⟩
    · rcases List.mem_cons.1 hy with rfl | hy
      · exact .inl hx
      · exact h.status y hy
    · rcases List.mem_cons.1 hy with rfl | hy
      · exact hx
      · exact h.missing hc y hy
    · rw [hx] at e; cases e

theorem cons_present (hx : x.2.2 = .found true true) :
    Accepts env (x :: l) c ↔ c = false ∧ Accepts env l (x.1.type == .newRaw) := by
  constructor
  · intro h
    refine ⟨?_, ⟨fun y hy => h.status y (List.mem_cons_of_mem _ hy),
      fun ⟨y, hy, e⟩ => h.create ⟨y, List.mem_cons_of_mem _ hy, e⟩,
      fun hc => (newRawLast_cons.1 h.newRawLast).1 hx (by simpa using hc), (newRawLast_cons.1 h.newRawLast).2⟩⟩
    cases c
    · rfl
    · have := h.missing rfl x (List.mem_cons_self _ _)
      rw [hx] at this; cases this
  · rintro ⟨rfl, h⟩
    refine ⟨fun y hy => ?_, fun ⟨y, hy, e⟩ => ?_, fun hc => absurd hc Bool.false_ne_true,
      newRawLast_cons.2 ⟨fun _ hr => h.missing (by simp [hr]), h.newRawLast⟩⟩
    · rcases List.mem_cons.1 hy with rfl | hy
      · exact .inr hx
      · exact h.status y hy
    · rcases List.mem_cons.1 hy with rfl | hy
      · rw [hx] at e; cases e
      · exact h.create ⟨y, hy, e⟩

theorem not_cons (hx : x.2.2 ≠ .notFound) (hx' : x.2.2 ≠ .found true true) : ¬Accepts env (x :: l) c :=
  fun h => (h.status x (List.mem_cons_self _ _)).elim hx hx'

theorem true_iff : Accepts env l true ↔ Accepts env l false ∧ ∀ y ∈ l, y.2.2 = .notFound :=
  ⟨fun h => ⟨⟨h.status, h.create, fun e => absurd e Bool.false_ne_true, h.newRawLast⟩, h.missing rfl⟩,
    fun ⟨h, hm⟩ => ⟨h.status, h.create, fun _ => hm, h.newRawLast⟩⟩

end Accepts

/-! ## The loop of `check_file_spec` -/

variable {env : OpenEnv} {first f : Datafile} {fs : FileState} {l : List (Datafile × FileState × FileStatus)}

theorem fileNotFound_of_canCreate {isFirst c : Bool} (h : canCreate env = true) (hc : (isFirst && c) = false) :
    ∃ log, fileNotFound env f isFirst c fs = some (.success, isFirst || c, openedState isFirst f .notFound, log) := by
  simp only [canCreate, Bool.or_eq_true, Bool.and_eq_true, Bool.not_eq_true'] at h
  rw [fileNotFound, if_neg (by rcases h with h | ⟨h, -⟩ <;> simp [h]),
    if_neg (by rcases h with h | ⟨-, h⟩ <;> simp [h, Bool.and_assoc]), if_neg (by simp [hc])]
  exact ⟨_, rfl⟩

theorem fileNotFound_of_not_canCreate {isFirst c : Bool} (h : canCreate env = false) :
    ∃ log, fileNotFound env f isFirst c fs = some (.error, c, { fs with fileExists := false }, log) := by
  simp only [canCreate, Bool.or_eq_false_iff, Bool.not_eq_false', Bool.and_eq_false_imp,
    Bool.not_eq_true'] at h
  obtain ⟨hi, h⟩ := h
  rw [fileNotFound, hi]
  by_cases hr : env.readOnly = true
  · exact ⟨_, if_pos (by simp [hr])⟩
  · rw [if_neg (by simp [hr]), if_pos (by simp [h (by simpa using hr)])]
    exact ⟨_, rfl⟩

theorem exists_prepend_eq_success {r : Option (DbErr × Bool × List FileState × List LogLine)} {s : FileState}
    {L : List LogLine} {c' : Bool} {sts : List FileState} :
    (∃ log, (r.bind fun q => pure (q.1, q.2.1, s :: q.2.2.1, L ++ q.2.2.2)) = some (.success, c', sts, log)) ↔
      ∃ sts', sts = s :: sts' ∧ ∃ log, r = some (.success, c', sts', log) := by
  rcases r with _ | ⟨e, c₁, sts₁, log₁⟩
  · simp
  · simp only [Option.some_bind, Option.pure_def, Option.some.injEq, Prod.mk.injEq]
    constructor
    · rintro ⟨_, rfl, rfl, rfl, -⟩
      exact ⟨_, rfl, _, rfl, rfl, rfl, rfl⟩
    · rintro ⟨_, rfl, _, rfl, rfl, rfl, rfl⟩
      exact ⟨_, rfl, rfl, rfl, rfl⟩

theorem checkFileSpecLoop_ne_success {st : FileStatus} {isFirst c c' : Bool} {sts : List FileState}
    {log : List LogLine} (h : st ≠ .notFound ∧ st ≠ .found true true ∨ st = .notFound ∧ canCreate env = false) :
    checkFileSpecLoop env first ((f, fs, st) :: l) isFirst c ≠ some (.success, c', sts, log) := by
  rcases h with ⟨h₁, h₂⟩ | ⟨rfl, hcan⟩
  · cases st with
    | notFound => exact absurd rfl h₁
    | fail => simp [checkFileSpecLoop, checkFileStatus]
    | found regular rwPerm => cases regular <;> cases rwPerm <;> simp_all [checkFileSpecLoop, checkFileStatus]
  · obtain ⟨log', e⟩ := @fileNotFound_of_not_canCreate _ f fs isFirst c hcan
    simp [checkFileSpecLoop, checkFileStatus, e]

theorem checkFileSpecLoop_success_iff : ∀ (l : List (Datafile × FileState × FileStatus)) (c c' : Bool)
    (sts : List FileState),
    (∃ log, checkFileSpecLoop env first l false c = some (.success, c', sts, log)) ↔
      Accepts env l c ∧ c' = (c || l.any fun x => x.2.2 == .found true true && x.1.type == .newRaw) ∧
        sts = l.map fun x => openedState false x.1 x.2.2
  | [], c, c', sts => by
    simp only [checkFileSpecLoop, Option.some.injEq, Prod.mk.injEq, true_and, List.any_nil, Bool.or_false,
      List.map_nil]
    exact ⟨fun ⟨_, e, e', _⟩ => ⟨.nil, e.symm, e'.symm⟩, fun ⟨_, e, e'⟩ => ⟨[], e.symm, e'.symm, rfl⟩⟩
  | (f, fs, st) :: l, c, c', sts => by
    cases st with
    | notFound =>
      rw [Accepts.cons_missing rfl]
      by_cases hcan : canCreate env = true
      · obtain ⟨log, e⟩ := @fileNotFound_of_canCreate _ f fs false c hcan (Bool.false_and c)
        simp only [checkFileSpecLoop, checkFileStatus, e, Option.bind_eq_bind, Option.some_bind, ne_eq,
          not_true_eq_false, if_false, Bool.false_or]
        rw [exists_prepend_eq_success]
        simp only [checkFileSpecLoop_success_iff l, hcan, true_and, List.any_cons, List.map_cons]
        constructor
        · rintro ⟨_, rfl, h, rfl, rfl⟩
          exact ⟨h, rfl, rfl⟩
        · rintro ⟨h, rfl, rfl⟩
          exact ⟨_, rfl, h, rfl, rfl⟩
      · exact iff_of_false (fun ⟨_, h⟩ => checkFileSpecLoop_ne_success (.inr ⟨rfl, by simpa using hcan⟩) h)
          fun ⟨⟨h, _⟩, _⟩ => hcan h
    | fail =>
      exact iff_of_false (fun ⟨_, h⟩ => checkFileSpecLoop_ne_success (.inl ⟨by simp, by simp⟩) h)
        fun ⟨h, _⟩ => Accepts.not_cons (by simp) (by simp) h
    | found regular rwPerm =>
      by_cases hok : regular = true ∧ rwPerm = true
      swap
      · have hne : FileStatus.found regular rwPerm ≠ .found true true := by simpa using hok
        exact iff_of_false (fun ⟨_, h⟩ => checkFileSpecLoop_ne_success (.inl ⟨by simp, hne⟩) h)
          fun ⟨h, _⟩ => Accepts.not_cons (by simp) hne h
      obtain ⟨rfl, rfl⟩ := hok
      rw [Accepts.cons_present rfl]
      cases c
      · simp only [checkFileSpecLoop, checkFileStatus, if_false, Bool.false_eq_true, Option.bind_eq_bind]
        rw [exists_prepend_eq_success]
        simp only [checkFileSpecLoop_success_iff l, true_and, List.any_cons, List.map_cons]
        constructor
        · rintro ⟨_, rfl, h, rfl, rfl⟩
          exact ⟨h, rfl, by simp [openedState]⟩
        · rintro ⟨h, rfl, rfl⟩
          exact ⟨_, by simp [openedState], h, rfl, rfl⟩
      · simp [checkFileSpecLoop, checkFileStatus]

theorem checkFileSpecLoop_first_success_iff (x : Datafile × FileState × FileStatus) {c' : Bool}
    {sts : List FileState} :
    (∃ log, checkFileSpecLoop env first (x :: l) true false = some (.success, c', sts, log)) ↔
      Accepts env (x :: l) false ∧ (x.2.2 = .notFound → ∀ y ∈ l, y.2.2 = .notFound) ∧
        c' = ((x.2.2 == .notFound) || (x :: l).any fun y => y.2.2 == .found true true && y.1.type == .newRaw) ∧
        sts = openedStates (x :: l) := by
  obtain ⟨f, fs, st⟩ := x
  cases st with
  | notFound =>
    rw [Accepts.cons_missing rfl]
    by_cases hcan : canCreate env = true
    · obtain ⟨log, e⟩ := @fileNotFound_of_canCreate _ f fs true false hcan rfl
      simp only [checkFileSpecLoop, checkFileStatus, e, Option.bind_eq_bind, Option.some_bind, ne_eq,
        not_true_eq_false, if_false, Bool.true_or]
      rw [exists_prepend_eq_success]
      simp only [checkFileSpecLoop_success_iff l, Accepts.true_iff, hcan, true_and, Bool.true_or,
        openedStates, forall_const]
      constructor
      · rintro ⟨_, rfl, ⟨h, hm⟩, rfl, rfl⟩
        exact ⟨h, hm, rfl, rfl⟩
      · rintro ⟨h, hm, rfl, rfl⟩
        exact ⟨_, rfl, ⟨h, hm⟩, rfl, rfl⟩
    · exact iff_of_false (fun ⟨_, h⟩ => checkFileSpecLoop_ne_success (.inr ⟨rfl, by simpa using hcan⟩) h)
        fun ⟨⟨h, _⟩, _⟩ => hcan h
  | fail =>
    exact iff_of_false (fun ⟨_, h⟩ => checkFileSpecLoop_ne_success (.inl ⟨by simp, by simp⟩) h)
      fun ⟨h, _⟩ => Accepts.not_cons (by simp) (by simp) h
  | found regular rwPerm =>
    by_cases hok : regular = true ∧ rwPerm = true
    swap
    · have hne : FileStatus.found regular rwPerm ≠ .found true true := by simpa using hok
      exact iff_of_false (fun ⟨_, h⟩ => checkFileSpecLoop_ne_success (.inl ⟨by simp, hne⟩) h)
        fun ⟨h, _⟩ => Accepts.not_cons (by simp) hne h
    obtain ⟨rfl, rfl⟩ := hok
    rw [Accepts.cons_present rfl]
    simp only [checkFileSpecLoop, checkFileStatus, if_false, Bool.false_eq_true, Option.bind_eq_bind]
    rw [exists_prepend_eq_success]
    simp only [checkFileSpecLoop_success_iff l, true_and, openedStates]
    have hs : openedState true f (.found true true) = (fileFound f true).2 := rfl
    constructor
    · rintro ⟨_, rfl, h, rfl, rfl⟩
      refine ⟨h, fun e => ?_, rfl, by rw [hs]⟩
      cases e
    · rintro ⟨h, -, rfl, rfl⟩
      exact ⟨_, by rw [hs], h, rfl, rfl⟩

/-- `check_file_spec` succeeds exactly when the files are few, large and consistent enough. -/
theorem check_file_spec_success_iff {t : SysTablespace} {sumOfSizes minExpectedSize srvPageSizeShift : Nat}
    {fs : List (FileState × FileStatus)} {c : Bool} {sts : List FileState} :
    (∃ log, checkFileSpec env t sumOfSizes minExpectedSize srvPageSizeShift fs = some (.success, c, sts, log)) ↔
      fs.length = t.mFiles.length ∧ t.mFiles.length < 1000 ∧
      (t.mAutoExtendLastFile = true ∨ minExpectedSize >>> srvPageSizeShift ≤ sumOfSizes) ∧
      t.mFiles ≠ [] ∧ Accepts env (t.mFiles.zip fs) false ∧
      ((t.mFiles.zip fs).head?.any (·.2.2 == .notFound) = true → ∀ x ∈ t.mFiles.zip fs, x.2.2 = .notFound) ∧
      c = ((t.mFiles.zip fs).head?.any (·.2.2 == .notFound) ||
        (t.mFiles.zip fs).any fun x => x.2.2 == .found true true && x.1.type == .newRaw) ∧
      sts = openedStates (t.mFiles.zip fs) := by
  rw [checkFileSpec]
  by_cases hl : fs.length = t.mFiles.length
  swap
  · rw [if_pos hl]
    exact iff_of_false (fun ⟨_, h⟩ => by cases h) fun h => hl h.1
  rw [if_neg (not_not.2 hl), and_iff_right hl]
  by_cases hn : 1000 ≤ t.mFiles.length
  · rw [if_pos hn]
    exact iff_of_false (fun ⟨_, h⟩ => by cases h) fun h => absurd h.1 (by omega)
  rw [if_neg hn]
  by_cases hs : (!t.mAutoExtendLastFile && decide (sumOfSizes < minExpectedSize >>> srvPageSizeShift)) = true
  · rw [if_pos hs]
    simp only [Bool.and_eq_true, Bool.not_eq_true', decide_eq_true_eq] at hs
    refine iff_of_false (fun ⟨_, h⟩ => by cases h) fun h => h.2.1.elim (fun h' => ?_) fun h' => ?_
    · rw [hs.1] at h'; cases h'
    · omega
  rw [if_neg hs]
  have hs' : t.mAutoExtendLastFile = true ∨ minExpectedSize >>> srvPageSizeShift ≤ sumOfSizes := by
    simp only [Bool.and_eq_true, Bool.not_eq_true', decide_eq_true_eq, not_and, not_lt] at hs
    cases h : t.mAutoExtendLastFile
    · exact .inr (hs h)
    · exact .inl rfl
  simp only [Nat.lt_of_not_le hn, hs', true_and]
  rcases ht : t.mFiles with _ | ⟨f₀, rest⟩
  · simp
  rcases fs with _ | ⟨x₀, fs⟩
  · simp [checkFileSpecLoop, Accepts.nil, openedStates, eq_comm]
  · simp only [List.zip_cons_cons, ne_eq, reduceCtorEq, not_false_eq_true, true_and, List.head?_cons,
      Option.any_some]
    rw [checkFileSpecLoop_first_success_iff, List.forall_mem_cons]
    constructor
    · rintro ⟨h, hm, hc⟩
      exact ⟨h, fun e => ⟨beq_iff_eq.1 e, hm (beq_iff_eq.1 e)⟩, hc⟩
    · rintro ⟨h, hm, hc⟩
      exact ⟨h, fun e => (hm (beq_iff_eq.2 e)).2, hc⟩

theorem checkFileSpec_length {t : SysTablespace} {sumOfSizes minExpectedSize srvPageSizeShift : Nat}
    {fs : List (FileState × FileStatus)} {r : DbErr × Bool × List FileState × List LogLine}
    (h : checkFileSpec env t sumOfSizes minExpectedSize srvPageSizeShift fs = some r) :
    fs.length = t.mFiles.length := by
  rw [checkFileSpec] at h
  rcases ite_eq_iff.1 h with ⟨-, h⟩ | ⟨hl, -⟩
  · cases h
  · exact not_not.1 hl

theorem checkFileSpec_states {t : SysTablespace} {sumOfSizes minExpectedSize srvPageSizeShift : Nat}
    {fs : List (FileState × FileStatus)} {c : Bool} {sts : List FileState} {log : List LogLine}
    (h : checkFileSpec env t sumOfSizes minExpectedSize srvPageSizeShift fs = some (.success, c, sts, log)) :
    sts = openedStates (t.mFiles.zip fs) := by
  rw [checkFileSpec] at h
  iterate 2
    rcases ite_eq_iff.1 h with ⟨-, h⟩ | ⟨-, h⟩
    · cases h
  rcases ite_eq_iff.1 h with ⟨-, h⟩ | ⟨-, h⟩
  · cases h
  revert h
  cases ht : t.mFiles with
  | nil => rintro ⟨⟩
  | cons f₀ rest =>
    intro h
    cases fs with
    | nil => cases h; rfl
    | cons x fs => exact ((checkFileSpecLoop_first_success_iff _).1 ⟨log, h⟩).2.2.2

example : checkFileSpec ⟨false, false, false, true⟩
      ⟨0, [⟨0, 64, 0, "/dev/sdb".toList, .newRaw⟩, ⟨0, 64, 1, "ibdata2".toList, .notRaw⟩], false, 0⟩ 128 0 14
      [(⟨false, .osFileOpen⟩, .found true true), (⟨false, .osFileOpen⟩, .found true true)] =
    some (.error, true,
      [(fileFound ⟨0, 64, 0, "/dev/sdb".toList, .newRaw⟩ true).2, ⟨false, .osFileOpen⟩],
      [.error ("The data file '/dev/sdb' was not found but one of the other data files 'ibdata2' exists.")]) := by
  rfl

end SysTablespace

end Innobase
