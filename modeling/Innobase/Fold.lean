import Mathlib.Data.List.Basic
import Mathlib.Algebra.Group.Nat.Basic
import Mathlib.Algebra.Group.Int

/-!
# Folding a record prefix

`rec_fold` and `dtuple_fold` hash the first `n_fields` fields and `n_bytes`
bytes of the next, of a leaf record and of a data tuple.
-/

namespace Innobase

/-! ## `my_crc32c` -/

def crc32cByte (crc b : Nat) : Nat :=
  (List.range 8).foldl (fun c _ => if c % 2 = 1 then c / 2 ^^^ 0x82F63B78 else c / 2) (crc ^^^ b)

/-- `my_crc32c(crc, buf, len)` on the `len` bytes `buf`. -/
def myCrc32c (crc : Nat) (buf : List Nat) : Nat :=
  buf.foldl crc32cByte (crc ^^^ 0xFFFFFFFF) ^^^ 0xFFFFFFFF

set_option maxRecDepth 4000 in
example : myCrc32c 0 [0x31, 0x32, 0x33, 0x34, 0x35, 0x36, 0x37, 0x38, 0x39] = 0xE3069283 := by
  decide

@[simp] theorem myCrc32c_nil (crc : Nat) : myCrc32c crc [] = crc := by
  rw [myCrc32c, List.foldl_nil, Nat.xor_assoc, Nat.xor_self, Nat.xor_zero]

theorem myCrc32c_append (crc : Nat) (a b : List Nat) :
    myCrc32c (myCrc32c crc a) b = myCrc32c crc (a ++ b) := by
  rw [myCrc32c, myCrc32c, myCrc32c, Nat.xor_assoc, Nat.xor_self, Nat.xor_zero, List.foldl_append]

def sizeT (x : Int) : Nat := (x % 2 ^ 64).toNat

theorem sizeT_eq {x : Int} (h0 : 0 ≤ x) (h : x < 2 ^ 64) : (sizeT x : Int) = x := by
  rw [sizeT, Int.emod_eq_of_lt h0 h, Int.toNat_of_nonneg h0]

/-! ## `dtuple_fold` -/

/-- A data tuple field: its bytes, or SQL NULL of `dtype_get_sql_null_size` `nullSize`. -/
inductive DField
  | data (bytes : List Nat)
  | sqlNull (nullSize : Nat)
  deriving DecidableEq, Repr

def DField.foldBytes (comp : Bool) : DField → List Nat
  | .data d => d
  | .sqlNull k => if comp then [] else List.replicate k 0

/-- `dtuple_fold`; `comp` is `index->table->not_redundant()`. -/
def dtupleFold (comp : Bool) (indexFold : Nat) (t : List DField) (nFields nBytes : Nat) : Nat :=
  let fold := (t.take nFields).foldl (fun fold f => match f with
    | .data d => myCrc32c fold d
    | .sqlNull k => if comp then fold else myCrc32c fold (List.replicate k 0)) indexFold
  if nBytes = 0 then fold else
  match t.get? nFields with
  | some (.data d) => myCrc32c fold (d.take nBytes)
  | some (.sqlNull k) => if comp then fold else myCrc32c fold ((List.replicate k 0).take nBytes)
  | none => fold

def prefixBytes (comp : Bool) (t : List DField) (nFields nBytes : Nat) : List Nat :=
  (t.take nFields).flatMap (·.foldBytes comp) ++
    if nBytes = 0 then [] else ((t.get? nFields).map (·.foldBytes comp)).getD [] |>.take nBytes

theorem foldl_fields (comp : Bool) : ∀ (l : List DField) (fold : Nat),
    l.foldl (fun fold f => match f with
      | .data d => myCrc32c fold d
      | .sqlNull k => if comp then fold else myCrc32c fold (List.replicate k 0)) fold =
    myCrc32c fold (l.flatMap (·.foldBytes comp))
  | [], fold => by simp
  | f :: l, fold => by
    rw [List.foldl_cons, foldl_fields comp l, List.flatMap_cons, ← myCrc32c_append]
    congr 1
    cases f with
    | data d => rfl
    | sqlNull k => cases comp <;> simp [DField.foldBytes]

theorem dtupleFold_eq (comp : Bool) (indexFold : Nat) (t : List DField) (nFields nBytes : Nat) :
    dtupleFold comp indexFold t nFields nBytes =
      myCrc32c indexFold (prefixBytes comp t nFields nBytes) := by
  unfold dtupleFold prefixBytes
  dsimp only
  rw [foldl_fields, ← myCrc32c_append]
  by_cases hb : nBytes = 0
  · simp [hb]
  rw [if_neg hb, if_neg hb]
  rcases t.get? nFields with _ | _ | k
  · simp
  · rfl
  · cases comp <;> simp [DField.foldBytes]

/-! ## `rec_fold` -/

/-- A record: `hdr[k]` is `rec[-1-k]`, `data` starts at the origin. -/
structure RecImage where
  hdr : List Nat
  data : List Nat
  deriving DecidableEq, Repr

structure FieldDef where
  nullable : Bool
  fixedLen : Nat
  bigCol : Bool
  deriving DecidableEq, Repr

def recNNewExtraBytes : Nat := 5

def recNOldExtraBytes : Nat := 6

structure CompactScan where
  nulls : Nat
  nullMask : Nat
  lens : Nat
  n : Nat
  len : Nat
  deriving DecidableEq, Repr

def CompactScan.step (r : RecImage) (c : CompactScan) (f : FieldDef) : CompactScan :=
  let c := if f.nullable ∧ c.nullMask = 0 then { c with nullMask := 1, nulls := c.nulls + 1 } else c
  if f.nullable ∧ r.hdr.getD c.nulls 0 &&& c.nullMask ≠ 0 then
    { c with nullMask := c.nullMask * 2 % 256, len := 0 }
  else
  let c := if f.nullable then { c with nullMask := c.nullMask * 2 % 256 } else c
  if f.fixedLen ≠ 0 then { c with len := f.fixedLen, n := c.n + f.fixedLen }
  else
  let len := r.hdr.getD c.lens 0
  if len &&& 0x80 ≠ 0 ∧ f.bigCol then
    let len := (len * 256 ||| r.hdr.getD (c.lens + 1) 0) &&& 0x3fff
    { c with lens := c.lens + 2, len, n := c.n + len }
  else { c with lens := c.lens + 1, len, n := c.n + len }

def RecImage.rec1GetFieldEndInfo (r : RecImage) (n : Nat) : Nat :=
  r.hdr.getD (recNOldExtraBytes + n) 0

def RecImage.rec2GetFieldEndInfo (r : RecImage) (n : Nat) : Nat :=
  r.hdr.getD (recNOldExtraBytes + 2 * n + 1) 0 * 256 + r.hdr.getD (recNOldExtraBytes + 2 * n) 0

def RecImage.rec1byteOffsFlag (r : RecImage) : Bool := r.hdr.getD 2 0 % 2 = 1

def oldPrefixEnd (fieldEnd : Nat → Nat) (nFields nBytes : Nat) : Nat :=
  let nF := nFields + (if nBytes = 0 then 0 else 1)
  let n := fieldEnd (nF - 1)
  if nBytes = 0 then n
  else if nFields = 0 then min nBytes n
  else
    let len := sizeT (n - fieldEnd (nF - 2))
    sizeT (n + (min nBytes (sizeT (n - len)) : Int) - len)

/-- `rec_fold(rec, index, n_fields, n_bytes)`; `comp` is `index->table->not_redundant()`. -/
def recFold (comp : Bool) (defs : List FieldDef) (nCoreNullBytes indexFold : Nat) (r : RecImage)
    (nFields nBytes : Nat) : Nat :=
  let nF := nFields + (if nBytes = 0 then 0 else 1)
  let n :=
    if comp then
      let c := (defs.take nF).foldl (CompactScan.step r)
        ⟨recNNewExtraBytes, 1, recNNewExtraBytes + nCoreNullBytes, 0, 0⟩
      if nBytes = 0 then c.n else c.n + min nBytes c.len - c.len
    else if r.rec1byteOffsFlag then oldPrefixEnd r.rec1GetFieldEndInfo nFields nBytes
    else oldPrefixEnd r.rec2GetFieldEndInfo nFields nBytes
  myCrc32c indexFold (r.data.take n)

/-! ## Records in the redundant format -/

section Old

variable {tail : List Nat}

def DField.isNull : DField → Bool
  | .data _ => false
  | .sqlNull _ => true

def DField.oldLen (f : DField) : Nat := (f.foldBytes false).length

def oldEnds1 (e : Nat) : List DField → List Nat
  | [] => []
  | f :: fs => (e + f.oldLen + if f.isNull then 0x80 else 0) :: oldEnds1 (e + f.oldLen) fs

/-- A tuple as `rec_convert_dtuple_to_rec_old` stores it with 1-byte offsets, then `tail`. -/
def encodeOld1 (t : List DField) (tail : List Nat) : RecImage :=
  ⟨[0, 0, 1, 0, 0, 0] ++ oldEnds1 0 t, t.flatMap (·.foldBytes false) ++ tail⟩

def oldStart (t : List DField) (k : Nat) : Nat := ((t.take k).flatMap (·.foldBytes false)).length

theorem oldEnds1_getD : ∀ (t : List DField) (e k : Nat), k < t.length →
    (oldEnds1 e t).getD k 0 =
      e + oldStart t (k + 1) + if (t.getD k (.data [])).isNull then 0x80 else 0
  | [], _, _, h => absurd h (Nat.not_lt_zero _)
  | f :: fs, e, 0, _ => by simp [oldEnds1, oldStart, DField.oldLen]
  | f :: fs, e, k + 1, h => by
    rw [oldEnds1, List.getD_cons_succ, oldEnds1_getD fs _ k (by simpa using h)]
    simp [oldStart, DField.oldLen, Nat.add_assoc]

theorem rec1GetFieldEndInfo_encodeOld1 {t : List DField} {k : Nat} (h : k < t.length) :
    (encodeOld1 t tail).rec1GetFieldEndInfo k =
      oldStart t (k + 1) + if (t.getD k (.data [])).isNull then 0x80 else 0 := by
  rw [← Nat.zero_add (oldStart t (k + 1)), ← oldEnds1_getD t 0 k h, RecImage.rec1GetFieldEndInfo,
    encodeOld1, recNOldExtraBytes, Nat.add_comm]
  rfl

theorem oldStart_succ : ∀ {t : List DField} {k : Nat}, k < t.length →
    oldStart t (k + 1) = oldStart t k + (t.getD k (.data [])).oldLen
  | [], _, h => absurd h (Nat.not_lt_zero _)
  | f :: fs, 0, _ => by simp [oldStart, DField.oldLen]
  | f :: fs, k + 1, h => by
    have := oldStart_succ (t := fs) (k := k) (by simpa using h)
    simp only [oldStart, List.take_succ_cons, List.flatMap_cons, List.length_append] at this ⊢
    simp [this, Nat.add_assoc]

theorem oldStart_le (t : List DField) (k : Nat) :
    oldStart t k ≤ (t.flatMap (·.foldBytes false)).length := by
  have h := congrArg (fun l => (l.flatMap (·.foldBytes false)).length) (List.take_append_drop k t)
  simp only [List.flatMap_append, List.length_append] at h
  simp only [oldStart]
  omega

theorem oldPrefixEnd_partial {fieldEnd : Nat → Nat} {nFields nBytes s l : Nat} (h1 : 0 < nFields)
    (hb : 0 < nBytes) (he : fieldEnd nFields = s + l) (hs : fieldEnd (nFields - 1) = s)
    (h64 : 2 * (s + l) < 2 ^ 64) :
    oldPrefixEnd fieldEnd nFields nBytes = s + min nBytes s := by
  have hnF : nFields + 1 - 2 = nFields - 1 := by omega
  simp only [oldPrefixEnd, Nat.pos_iff_ne_zero.1 hb, Nat.pos_iff_ne_zero.1 h1, if_false,
    Nat.add_sub_cancel, hnF, he, hs]
  have e1 : sizeT (((s + l : Nat) : Int) - s) = l := by
    have := sizeT_eq (x := ((s + l : Nat) : Int) - s) (by omega) (by omega); omega
  have e2 : sizeT (((s + l : Nat) : Int) - l) = s := by
    have := sizeT_eq (x := ((s + l : Nat) : Int) - l) (by omega) (by omega); omega
  rw [e1, e2]
  have := sizeT_eq (x := ((s + l : Nat) : Int) + min (nBytes : Int) s - l) (by omega) (by omega)
  omega

theorem getD_eq_getElem {t : List DField} {k : Nat} (hk : k < t.length) :
    t.getD k (.data []) = t[k] := by
  rw [List.getD_eq_getElem?_getD, List.getElem?_eq_getElem hk, Option.getD_some]

theorem encodeOld1_data {t : List DField} {k : Nat} (hk : k < t.length) :
    (encodeOld1 t tail).data = (t.take k).flatMap (·.foldBytes false) ++
      ((t.getD k (.data [])).foldBytes false ++ ((t.drop (k + 1)).flatMap (·.foldBytes false) ++ tail)) := by
  conv_lhs => rw [encodeOld1, ← List.take_append_drop k t, List.drop_eq_getElem_cons hk]
  rw [getD_eq_getElem hk, List.flatMap_append, List.flatMap_cons, List.append_assoc, List.append_assoc]

theorem encodeOld1_take {t : List DField} {k m : Nat} (hk : k < t.length)
    (hm : m ≤ (t.getD k (.data [])).oldLen) :
    (encodeOld1 t tail).data.take (oldStart t k + m) =
      (t.take k).flatMap (·.foldBytes false) ++ ((t.getD k (.data [])).foldBytes false).take m := by
  have hA : ((t.take k).flatMap (·.foldBytes false)).length = oldStart t k := rfl
  rw [encodeOld1_data hk, List.take_append_eq_append_take, List.take_of_length_le (by omega), hA,
    Nat.add_sub_cancel_left, List.take_append_eq_append_take,
    Nat.sub_eq_zero_of_le (by simpa [DField.oldLen] using hm), List.take_zero, List.append_nil]

theorem rec1byteOffsFlag_encodeOld1 (t : List DField) : (encodeOld1 t tail).rec1byteOffsFlag = true :=
  rfl

/-- With 1-byte offsets `rec_fold` hashes `min(n_bytes, S)` bytes of the last field. -/
theorem recFold_encodeOld1_partial {t : List DField} {nFields nBytes : Nat} (defs : List FieldDef)
    (nCoreNullBytes indexFold : Nat) (h1 : 0 < nFields) (hb : 0 < nBytes) (hl : nFields < t.length)
    (hp : (t.getD (nFields - 1) (.data [])).isNull = false)
    (hc : (t.getD nFields (.data [])).isNull = false)
    (h128 : (t.flatMap (·.foldBytes false)).length < 0x80) :
    recFold false defs nCoreNullBytes indexFold (encodeOld1 t tail) nFields nBytes =
        myCrc32c indexFold ((encodeOld1 t tail).data.take
          (oldStart t nFields + min nBytes (oldStart t nFields))) ∧
      dtupleFold false indexFold t nFields nBytes =
        myCrc32c indexFold ((encodeOld1 t tail).data.take
          (oldStart t nFields + min nBytes (t.getD nFields (.data [])).oldLen)) := by
  have hS := oldStart_succ hl
  have hS' := oldStart_le t (nFields + 1)
  constructor
  · have he : (encodeOld1 t tail).rec1GetFieldEndInfo nFields =
        oldStart t nFields + (t.getD nFields (.data [])).oldLen := by
      rw [rec1GetFieldEndInfo_encodeOld1 hl, hc, hS]; rfl
    have hs : (encodeOld1 t tail).rec1GetFieldEndInfo (nFields - 1) = oldStart t nFields := by
      rw [rec1GetFieldEndInfo_encodeOld1 (by omega), hp, Nat.sub_add_cancel h1]; rfl
    simp only [recFold, rec1byteOffsFlag_encodeOld1, Bool.false_eq_true, if_false, if_true,
      oldPrefixEnd_partial h1 hb he hs (by omega)]
  · rw [dtupleFold_eq, encodeOld1_take hl (Nat.min_le_right _ _), prefixBytes,
      if_neg (Nat.pos_iff_ne_zero.1 hb), List.get?_eq_getElem?, List.getElem?_eq_getElem hl,
      Option.map_some', Option.getD_some, ← getD_eq_getElem hl]
    congr 2
    rw [List.take_eq_take, DField.oldLen]
    omega

/-- The SQL NULL flag left in an end offset: 128 bytes past a prefix whose last field is NULL. -/
theorem recFold_encodeOld1_whole {t : List DField} {nFields : Nat} (defs : List FieldDef)
    (nCoreNullBytes indexFold : Nat) (h1 : 0 < nFields) (hl : nFields ≤ t.length) :
    recFold false defs nCoreNullBytes indexFold (encodeOld1 t tail) nFields 0 =
        myCrc32c indexFold ((encodeOld1 t tail).data.take (oldStart t nFields +
          if (t.getD (nFields - 1) (.data [])).isNull then 0x80 else 0)) ∧
      dtupleFold false indexFold t nFields 0 =
        myCrc32c indexFold ((encodeOld1 t tail).data.take (oldStart t nFields)) := by
  constructor
  · simp only [recFold, rec1byteOffsFlag_encodeOld1, oldPrefixEnd, Bool.false_eq_true, if_false,
      if_true, Nat.add_zero, rec1GetFieldEndInfo_encodeOld1 (show nFields - 1 < t.length by omega),
      Nat.sub_add_cancel h1]
  · have hd : (encodeOld1 t tail).data = (t.take nFields).flatMap (·.foldBytes false) ++
        ((t.drop nFields).flatMap (·.foldBytes false) ++ tail) := by
      rw [encodeOld1, ← List.append_assoc, ← List.flatMap_append, List.take_append_drop]
    have hA : ((t.take nFields).flatMap (·.foldBytes false)).length = oldStart t nFields := rfl
    rw [dtupleFold_eq, prefixBytes, if_pos rfl, List.append_nil, hd, List.take_left' hA]

def twoFields : List DField := [.data [1, 2, 3, 4], .data [5, 6, 7, 8, 9, 10, 11, 12, 13, 14]]

theorem recFold_encodeOld1_partial_two :
    recFold false [] 0 0 (encodeOld1 twoFields []) 1 6 =
        myCrc32c 0 ((encodeOld1 twoFields []).data.take (oldStart twoFields 1 + min 6 (oldStart twoFields 1))) ∧
      dtupleFold false 0 twoFields 1 6 =
        myCrc32c 0 ((encodeOld1 twoFields []).data.take
          (oldStart twoFields 1 + min 6 (twoFields.getD 1 (.data [])).oldLen)) :=
  recFold_encodeOld1_partial [] 0 0 (by decide) (by decide) (by decide) rfl rfl (by decide)

theorem recFold_encodeOld1_whole_null :
    recFold false [] 0 0 (encodeOld1 [.data [1, 2, 3, 4], .sqlNull 4] [9]) 2 0 =
        myCrc32c 0 ((encodeOld1 [.data [1, 2, 3, 4], .sqlNull 4] [9]).data.take
          (oldStart [.data [1, 2, 3, 4], .sqlNull 4] 2 +
            if ([DField.data [1, 2, 3, 4], .sqlNull 4].getD (2 - 1) (.data [])).isNull then 0x80 else 0)) ∧
      dtupleFold false 0 [.data [1, 2, 3, 4], .sqlNull 4] 2 0 =
        myCrc32c 0 ((encodeOld1 [.data [1, 2, 3, 4], .sqlNull 4] [9]).data.take
          (oldStart [.data [1, 2, 3, 4], .sqlNull 4] 2)) :=
  recFold_encodeOld1_whole [] 0 0 (by decide) (by decide)

set_option maxRecDepth 4000 in
theorem rec_fold_redundant_prefix_mismatch :
    recFold false [⟨false, 0, false⟩, ⟨false, 0, false⟩] 0 0 (encodeOld1 twoFields []) 1 6 =
        myCrc32c 0 [1, 2, 3, 4, 5, 6, 7, 8] ∧
      dtupleFold false 0 twoFields 1 6 = myCrc32c 0 [1, 2, 3, 4, 5, 6, 7, 8, 9, 10] ∧
      recFold false [⟨false, 0, false⟩, ⟨false, 0, false⟩] 0 0 (encodeOld1 twoFields []) 1 6 ≠
        dtupleFold false 0 twoFields 1 6 := by
  decide

end Old

end Innobase
