import Mathlib.Data.List.Infix
import Mathlib.Algebra.Group.Nat.Basic

/-!
# Parsing the system tablespace specification

`SysTablespace::parse_params` reads `innodb_data_file_path` in two passes over a
copy: pass 1 checks the syntax, pass 2 writes `'\0'` after each path and appends
one `Datafile` per item. A `char*` is the characters from it up to the `'\0'`.
-/

namespace Innobase

/-! ## C strings -/

def nul : Char := '\x00'

def deref (s : List Char) : Char := s.headD nul

def strlen (s : List Char) : Nat := (s.takeWhile (· != nul)).length

def isSpace (c : Char) : Bool :=
  c == ' ' || c == '\t' || c == '\n' || c == '\x0b' || c == '\x0c' || c == '\r'

def ulongMax : Nat := 2 ^ 64 - 1

/-- `strtoul(str, &endp, 10)`: the value, and the number of characters to `endp`. -/
def strtoul (s : List Char) : Nat × Nat :=
  let ws := (s.takeWhile isSpace).length
  let t := s.drop ws
  let sign := if deref t = '-' ∨ deref t = '+' then 1 else 0
  let ds := (t.drop sign).takeWhile Char.isDigit
  let v := ds.foldl (fun a c => 10 * a + (c.toNat - '0'.toNat)) 0
  if ds = [] then (0, 0)
  else (if ulongMax < v then ulongMax else if deref t = '-' then (2 ^ 64 - v) % 2 ^ 64 else v,
    ws + sign + ds.length)

/-! ## The tablespace -/

inductive DeviceType
  | notRaw
  | newRaw
  | oldRaw
  deriving DecidableEq, Repr

structure Datafile where
  flags : Nat
  size : Nat
  order : Nat
  filepath : List Char
  type : DeviceType
  deriving DecidableEq, Repr

structure SysTablespace where
  flags : Nat
  mFiles : List Datafile
  mAutoExtendLastFile : Bool
  mLastFileSizeMax : Nat
  deriving DecidableEq, Repr

namespace SysTablespace

def syntaxError : String := "syntax error in file path or size specified is less than 1 megabyte"

def rawError : String := "Tablespace doesn't support raw devices"

def parseUnits (s : List Char) : Nat × Nat :=
  let (megs, n) := strtoul s
  match deref (s.drop n) with
  | 'G' | 'g' => (megs * 1024 % 2 ^ 64, n + 1)
  | 'M' | 'm' => (megs, n + 1)
  | 'K' | 'k' => (megs / 1024, n + 1)
  | _ => (megs / (1024 * 1024), n)

def pathLen : List Char → Nat
  | [] => 0
  | c :: s =>
    if (c ≠ ':' ∧ c ≠ nul) ∨ (c = ':' ∧ (deref s = '\\' ∨ deref s = '/' ∨ deref s = ':'))
    then pathLen s + 1 else 0

theorem pathLen_stop (s : List Char) :
    deref (s.drop (pathLen s)) = nul ∨ deref (s.drop (pathLen s)) = ':' := by
  induction s with
  | nil => simp [pathLen, deref]
  | cons c s ih =>
    simp only [pathLen]
    split_ifs with h
    · simpa using ih
    · simp only [List.drop_zero, deref, List.headD_cons]
      tauto

theorem takeWhile_set_pathLen (s : List Char) :
    (s.set (pathLen s) nul).takeWhile (· != nul) = s.take (pathLen s) := by
  induction s with
  | nil => rfl
  | cons c s ih =>
    simp only [pathLen]
    split_ifs with h
    · have hc : c ≠ nul := by rintro rfl; simp [nul] at h
      simp [List.takeWhile_cons, hc, ih]
    · simp [List.takeWhile_cons, nul]

def autoextendTok : List Char := ":autoextend".toList

def maxTok : List Char := ":max:".toList

def newTok : List Char := "new".toList

def rawTok : List Char := "raw".toList

structure AutoextendPart where
  autoextend : Bool
  max : Option Nat
  rest : List Char
  deriving DecidableEq, Repr

def readAutoextend (str : List Char) : AutoextendPart :=
  if autoextendTok.isPrefixOf str then
    let str := str.drop autoextendTok.length
    if maxTok.isPrefixOf str then
      let m := parseUnits (str.drop maxTok.length)
      ⟨true, some m.1, str.drop (maxTok.length + m.2)⟩
    else ⟨true, none, str⟩
  else ⟨false, none, str⟩

theorem readAutoextend_max {str : List Char} (h : (readAutoextend str).autoextend = false) :
    (readAutoextend str).max = none := by
  unfold readAutoextend at h ⊢
  dsimp only at h ⊢
  split_ifs at h ⊢
  rfl

theorem readAutoextend_suffix (str : List Char) : (readAutoextend str).rest <:+ str := by
  unfold readAutoextend
  dsimp only
  split_ifs <;> dsimp only
  · exact (List.drop_suffix _ (str.drop autoextendTok.length)).trans (List.drop_suffix _ _)
  · exact List.drop_suffix autoextendTok.length str
  · exact List.suffix_refl str

structure RawPart where
  new : Bool
  raw : Bool
  rest : List Char
  deriving DecidableEq, Repr

def readRaw (str : List Char) : RawPart :=
  let nw := decide (6 ≤ strlen str) && newTok.isPrefixOf str
  let str := if nw then str.drop 3 else str
  ⟨nw, rawTok.isPrefixOf str, if rawTok.isPrefixOf str then str.drop 3 else str⟩

theorem readRaw_of_nul {str : List Char} (h : deref str = nul) : readRaw str = ⟨false, false, str⟩ := by
  cases str with
  | nil => rfl
  | cons c s =>
    obtain rfl : c = nul := h
    simp [readRaw, strlen, rawTok, nul, List.isPrefixOf]

theorem readRaw_rest {str : List Char} (hn : (readRaw str).new = false)
    (hr : (readRaw str).raw = false) : (readRaw str).rest = str := by
  simp only [readRaw] at hn hr ⊢
  rw [if_neg (by simp [hn])] at hr
  simp only [hn, hr, Bool.false_eq_true, if_false]

theorem readRaw_suffix (str : List Char) : (readRaw str).rest <:+ str := by
  unfold readRaw
  dsimp only
  split_ifs
  · exact (List.drop_suffix 3 _).trans (List.drop_suffix 3 str)
  · exact List.drop_suffix 3 str
  · exact List.drop_suffix 3 str
  · exact List.suffix_refl str

def skipSep (s : List Char) : List Char := if deref s = ';' then s.drop 1 else s

theorem skipSep_suffix (s : List Char) : skipSep s <:+ s := by
  unfold skipSep
  split_ifs
  · exact List.drop_suffix _ _
  · exact List.suffix_refl _

theorem skipSep_of_nul {s : List Char} (h : deref s = nul) : skipSep s = s := by
  simp [skipSep, h, nul]

/-! ## Pass 1 -/

/-- Pass 1 on the item at `str`: where the next item starts, or the message logged. -/
def pass1Item (supportsRaw : Bool) (str : List Char) : Except String (List Char) :=
  let str := str.drop (pathLen str)
  if deref str = nul then .error syntaxError else
  let size := parseUnits (str.drop 1)
  let a := readAutoextend ((str.drop 1).drop size.2)
  if a.autoextend ∧ deref a.rest ≠ nul then .error syntaxError else
  let r := readRaw a.rest
  if (r.new || r.raw) ∧ supportsRaw = false then .error rawError
  -- the `:max:` value is parsed into `size` itself
  else if a.max.getD size.1 = 0 then .error syntaxError
  else if deref r.rest = ';' then .ok (r.rest.drop 1)
  else if deref r.rest ≠ nul then .error syntaxError
  else .ok r.rest

def pass1Loop (supportsRaw : Bool) : Nat → Nat → List Char → Option (Except String Nat)
  | 0, _, _ => none
  | fuel + 1, nFiles, str =>
    if deref str = nul then some (if nFiles = 0 then .error syntaxError else .ok nFiles)
    else match pass1Item supportsRaw str with
      | .error e => some (.error e)
      | .ok str => pass1Loop supportsRaw fuel (nFiles + 1) str

def pass1 (supportsRaw : Bool) (str : List Char) : Option (Except String Nat) :=
  pass1Loop supportsRaw (str.length + 1) 0 str

/-! ## Pass 2 -/

def terminatePath (str : List Char) : List Char × List Char :=
  if deref (str.drop (pathLen str)) = ':' then
    let buf := str.set (pathLen str) nul
    (buf.takeWhile (· != nul), buf.drop (pathLen str + 1))
  else (str.takeWhile (· != nul), str.drop (pathLen str))

theorem terminatePath_of_delimited {s : List Char} (h : deref (s.drop (pathLen s)) = ':') :
    terminatePath s = (s.take (pathLen s), (s.drop (pathLen s)).drop 1) := by
  simp only [terminatePath, if_pos h, takeWhile_set_pathLen, List.drop_drop,
    List.drop_set_of_lt _ _ (Nat.lt_succ_self _)]

/-- Pass 2 on the item at `str`; `none` is a failed `ut_a(supports_raw)`. The
`Datafile` is pushed with its final type, which a failed `ut_a` makes the same. -/
def pass2Item (supportsRaw bootstrap : Bool) (order : Nat) (t : SysTablespace) (str : List Char) :
    Option (Except (String × SysTablespace) (SysTablespace × List Char)) :=
  let filepath := (terminatePath str).1
  let str := (terminatePath str).2
  let size := parseUnits str
  let a := readAutoextend (str.drop size.2)
  let t := { t with
    mAutoExtendLastFile := t.mAutoExtendLastFile || a.autoextend
    mLastFileSizeMax := a.max.getD t.mLastFileSizeMax }
  if a.autoextend ∧ deref a.rest ≠ nul then some (.error (syntaxError, t)) else
  let r := readRaw a.rest
  if (r.new || r.raw) ∧ supportsRaw = false then none
  else
    let type : DeviceType := if r.new || r.raw then (if bootstrap then .newRaw else .oldRaw) else .notRaw
    some (.ok ({ t with mFiles := t.mFiles ++ [⟨t.flags, size.1 % 2 ^ 32, order, filepath, type⟩] },
      skipSep r.rest))

def pass2Loop (supportsRaw bootstrap : Bool) : Nat → Nat → SysTablespace → List Char →
    Option (Except (String × SysTablespace) SysTablespace)
  | 0, _, _, _ => none
  | fuel + 1, order, t, str =>
    if deref str = nul then some (.ok t)
    else (pass2Item supportsRaw bootstrap order t str).bind fun
      | .error e => some (.error e)
      | .ok (t, str) => pass2Loop supportsRaw bootstrap fuel (order + 1) t str

def memStrdup (s : List Char) : List Char := s.takeWhile (· != nul)

/-- `SysTablespace::parse_params`; `none` is a failed `ut_a`. -/
def parseParams (t : SysTablespace) (filepathSpec : List Char) (supportsRaw bootstrap : Bool) :
    Option (Except (String × SysTablespace) SysTablespace) :=
  let str := memStrdup filepathSpec
  match pass1 supportsRaw str with
  | none => none
  | some (.error e) => some (.error (e, t))
  | some (.ok _) => pass2Loop supportsRaw bootstrap (str.length + 1) 0 t str

def normalizeSize (t : SysTablespace) (srvPageSizeShift : Nat) : SysTablespace :=
  { t with
    mFiles := t.mFiles.map fun f => { f with size := (f.size <<< (20 - srvPageSizeShift)) % 2 ^ 32 }
    mLastFileSizeMax := (t.mLastFileSizeMax <<< (20 - srvPageSizeShift)) % 2 ^ 64 }

/-- Sizes that `parse_params` accepts and that wrap in `m_size` or in `normalize_size`. -/
theorem parse_params_file_sizes_wrap :
    parseParams ⟨0, [], false, 0⟩ "ibdata1:0M:autoextend:max:10M".toList false false =
        some (.ok ⟨0, [⟨0, 0, 0, "ibdata1".toList, .notRaw⟩], true, 10⟩) ∧
      parseParams ⟨0, [], false, 0⟩ "ibdata1:4294967296M".toList false false =
        some (.ok ⟨0, [⟨0, 0, 0, "ibdata1".toList, .notRaw⟩], false, 0⟩) ∧
      parseParams ⟨0, [], false, 0⟩ "ibdata1:65536G".toList false false =
        some (.ok ⟨0, [⟨0, 67108864, 0, "ibdata1".toList, .notRaw⟩], false, 0⟩) ∧
      normalizeSize ⟨0, [⟨0, 67108864, 0, "ibdata1".toList, .notRaw⟩], false, 0⟩ 14 =
        ⟨0, [⟨0, 0, 0, "ibdata1".toList, .notRaw⟩], false, 0⟩ :=
  ⟨rfl, rfl, rfl, rfl⟩

end SysTablespace

end Innobase
