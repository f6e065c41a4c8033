import Mathlib.Order.Basic
import Mathlib.Algebra.Group.Nat.Basic

/-!
# The hash recommendation of an index

`btr_search_info_update_hash` counts a descent toward the recommended prefix, or
picks the shortest prefix that separates the cursor record's neighbours.
-/

namespace Innobase

def utPairCmp (a1 a2 b1 b2 : Nat) : Int :=
  if a1 < b1 then -1 else if b1 < a1 then 1 else if a2 < b2 then -1 else if b2 < a2 then 1 else 0

theorem utPairCmp_of_gt {a1 a2 b1 b2 : Nat} (h : Prod.lexLt (b1, b2) (a1, a2)) :
    utPairCmp a1 a2 b1 b2 = 1 := by
  simp only [Prod.lexLt_def] at h
  unfold utPairCmp
  split_ifs <;> omega

theorem utPairCmp_of_lt {a1 a2 b1 b2 : Nat} (h : Prod.lexLt (a1, a2) (b1, b2)) :
    utPairCmp a1 a2 b1 b2 = -1 := by
  simp only [Prod.lexLt_def] at h
  unfold utPairCmp
  split_ifs <;> omega

theorem utPairCmp_pos_iff {a1 a2 b1 b2 : Nat} :
    0 < utPairCmp a1 a2 b1 b2 ↔ Prod.lexLt (b1, b2) (a1, a2) := by
  simp only [Prod.lexLt_def]
  unfold utPairCmp
  split_ifs <;> omega

theorem lexLt_asymm {x y : Nat × Nat} (h : Prod.lexLt x y) : ¬Prod.lexLt y x := by
  simp only [Prod.lexLt_def] at h ⊢
  omega

theorem lexLt_or_lexLt {x y : Nat × Nat} (h : x ≠ y) : Prod.lexLt x y ∨ Prod.lexLt y x := by
  obtain ⟨a, b⟩ := x
  obtain ⟨c, d⟩ := y
  simp only [ne_eq, Prod.mk.injEq] at h
  simp only [Prod.lexLt_def]
  omega

structure RecommInfo where
  hashAnalysis : Nat
  nHashPotential : Nat
  nFields : Nat
  nBytes : Nat
  leftSide : Bool
  deriving DecidableEq, Repr

structure CursorMatch where
  upMatch : Nat
  upBytes : Nat
  lowMatch : Nat
  lowBytes : Nat
  deriving DecidableEq, Repr

def btrSearchGetNFields (nFields nBytes : Nat) : Nat := nFields + (if 0 < nBytes then 1 else 0)

namespace CursorMatch

def low (c : CursorMatch) : Nat × Nat := (c.lowMatch, c.lowBytes)

def up (c : CursorMatch) : Nat × Nat := (c.upMatch, c.upBytes)

/-- The match counts a descent in an index with `n_unique` fields can report. -/
structure Admissible (nUnique : Nat) (c : CursorMatch) : Prop where
  up_le : c.upMatch ≤ nUnique
  low_le : c.lowMatch ≤ nUnique
  upBytes_zero : c.upMatch = nUnique → c.upBytes = 0
  lowBytes_zero : c.lowMatch = nUnique → c.lowBytes = 0
  upBytes_lt : c.upBytes < 2 ^ 16
  lowBytes_lt : c.lowBytes < 2 ^ 16

end CursorMatch

namespace RecommInfo

def incrementPotential (info : RecommInfo) : RecommInfo :=
  { info with nHashPotential := info.nHashPotential + 1 }

def recomm (info : RecommInfo) : Nat × Nat := (info.nFields, info.nBytes)

def setNewRecomm (nUnique : UInt16) (info : RecommInfo) (c : CursorMatch) : RecommInfo :=
  let cmp := utPairCmp c.upMatch c.upBytes c.lowMatch c.lowBytes
  let info := { info with
    hashAnalysis := 0
    leftSide := decide (0 ≤ cmp)
    nHashPotential := if cmp ≠ 0 then 1 else 0 }
  if cmp = 0 then { info with nFields := 1, nBytes := 0 }
  else if 0 < cmp then
    if nUnique.toNat ≤ c.upMatch then { info with nFields := nUnique.toNat, nBytes := 0 }
    else if c.lowMatch < c.upMatch then { info with nFields := (c.lowMatch + 1) % 2 ^ 16, nBytes := 0 }
    else { info with nFields := c.lowMatch % 2 ^ 16, nBytes := (c.lowBytes + 1) % 2 ^ 16 }
  else if nUnique.toNat ≤ c.lowMatch then { info with nFields := nUnique.toNat, nBytes := 0 }
  else if c.upMatch < c.lowMatch then { info with nFields := (c.upMatch + 1) % 2 ^ 16, nBytes := 0 }
  else { info with nFields := c.upMatch % 2 ^ 16, nBytes := (c.upBytes + 1) % 2 ^ 16 }

end RecommInfo

open RecommInfo in
/-- `btr_search_info_update_hash`; `nUnique` is the `uint16_t` it stores `n_unique` in. -/
def infoUpdateHash (isIbuf : Bool) (nUnique : UInt16) (info : RecommInfo) (c : CursorMatch) :
    RecommInfo :=
  if isIbuf then info
  else if info.nHashPotential = 0 then info.setNewRecomm nUnique c
  else if nUnique.toNat ≤ info.nFields ∧ nUnique.toNat ≤ c.upMatch then info.incrementPotential
  else if (if info.leftSide then utPairCmp info.nFields info.nBytes c.lowMatch c.lowBytes ≤ 0
      else 0 < utPairCmp info.nFields info.nBytes c.lowMatch c.lowBytes) then
    info.setNewRecomm nUnique c
  else if (if info.leftSide then utPairCmp info.nFields info.nBytes c.upMatch c.upBytes ≤ 0
      else 0 < utPairCmp info.nFields info.nBytes c.upMatch c.upBytes) then
    info.incrementPotential
  else info.setNewRecomm nUnique c

/-! ## What one update does -/

namespace RecommInfo

variable {nUnique : UInt16} {c : CursorMatch}

theorem infoUpdateHash_cases (info : RecommInfo) :
    infoUpdateHash false nUnique info c = info.incrementPotential ∨
      infoUpdateHash false nUnique info c = info.setNewRecomm nUnique c := by
  generalize e : infoUpdateHash false nUnique info c = r
  unfold infoUpdateHash at e
  rw [if_neg Bool.false_ne_true] at e
  rcases ite_eq_iff.1 e with ⟨-, rfl⟩ | ⟨-, e⟩
  · exact .inr rfl
  rcases ite_eq_iff.1 e with ⟨-, rfl⟩ | ⟨-, e⟩
  · exact .inl rfl
  rcases ite_eq_iff.1 e with ⟨-, rfl⟩ | ⟨-, e⟩
  · exact .inr rfl
  rcases ite_eq_iff.1 e with ⟨-, rfl⟩ | ⟨-, rfl⟩
  · exact .inl rfl
  · exact .inr rfl

theorem infoUpdateHash_of_brackets {info : RecommInfo} (hp : info.nHashPotential ≠ 0)
    (h : if info.leftSide then Prod.lexLt c.low info.recomm ∧ ¬Prod.lexLt c.up info.recomm
      else ¬Prod.lexLt c.low info.recomm ∧ Prod.lexLt c.up info.recomm) :
    infoUpdateHash false nUnique info c = info.incrementPotential := by
  unfold infoUpdateHash
  rw [if_neg Bool.false_ne_true, if_neg hp]
  cases hs : info.leftSide <;>
    simp only [hs, if_true, if_false, Bool.false_eq_true, ← Int.not_lt, utPairCmp_pos_iff] at h ⊢ <;>
    simp only [recomm, CursorMatch.low, CursorMatch.up] at h <;> simp [h]

theorem setNewRecomm_of_eq (h : c.low = c.up) (info : RecommInfo) :
    (info.setNewRecomm nUnique c).recomm = (1, 0) := by
  simp only [CursorMatch.low, CursorMatch.up, Prod.mk.injEq] at h
  simp [setNewRecomm, h.1, h.2, utPairCmp, recomm]

theorem setNewRecomm_of_lt (hc : c.Admissible nUnique.toNat) (h : Prod.lexLt c.low c.up)
    (info : RecommInfo) :
    (info.setNewRecomm nUnique c).leftSide = true ∧ (info.setNewRecomm nUnique c).nHashPotential = 1 ∧
      Prod.lexLt c.low (info.setNewRecomm nUnique c).recomm ∧
      ¬Prod.lexLt c.up (info.setNewRecomm nUnique c).recomm ∧
      1 ≤ btrSearchGetNFields (info.setNewRecomm nUnique c).nFields (info.setNewRecomm nUnique c).nBytes ∧
      btrSearchGetNFields (info.setNewRecomm nUnique c).nFields (info.setNewRecomm nUnique c).nBytes ≤
        nUnique.toNat ∧
      (nUnique.toNat ≤ c.upMatch → (info.setNewRecomm nUnique c).recomm = (nUnique.toNat, 0)) := by
  have hu : nUnique.toNat < 2 ^ 16 := nUnique.toNat_lt_size
  obtain ⟨h1, h2, h3, h4, h5, h6⟩ := hc
  simp only [setNewRecomm, utPairCmp_of_gt h, Int.reduceEq, Int.reduceLT, Int.reduceLE, if_false,
    ne_eq, not_false_eq_true, if_true, decide_True]
  simp only [CursorMatch.low, CursorMatch.up, Prod.lexLt_def] at h ⊢
  split_ifs <;> simp only [recomm, btrSearchGetNFields, Prod.lexLt_def, Prod.mk.injEq, true_and,
    Nat.lt_irrefl, if_false, Nat.add_zero, and_true, implies_true] <;> (try split_ifs) <;> omega

theorem setNewRecomm_of_gt (hc : c.Admissible nUnique.toNat) (h : Prod.lexLt c.up c.low)
    (info : RecommInfo) :
    (info.setNewRecomm nUnique c).leftSide = false ∧ (info.setNewRecomm nUnique c).nHashPotential = 1 ∧
      Prod.lexLt c.up (info.setNewRecomm nUnique c).recomm ∧
      ¬Prod.lexLt c.low (info.setNewRecomm nUnique c).recomm ∧
      1 ≤ btrSearchGetNFields (info.setNewRecomm nUnique c).nFields (info.setNewRecomm nUnique c).nBytes ∧
      btrSearchGetNFields (info.setNewRecomm nUnique c).nFields (info.setNewRecomm nUnique c).nBytes ≤
        nUnique.toNat ∧
      (nUnique.toNat ≤ c.lowMatch → (info.setNewRecomm nUnique c).recomm = (nUnique.toNat, 0)) := by
  have hu : nUnique.toNat < 2 ^ 16 := nUnique.toNat_lt_size
  obtain ⟨h1, h2, h3, h4, h5, h6⟩ := hc
  simp only [setNewRecomm, utPairCmp_of_lt h, Int.reduceEq, Int.reduceLT, Int.reduceLE, if_false,
    ne_eq, not_false_eq_true, if_true, decide_False]
  simp only [CursorMatch.low, CursorMatch.up, Prod.lexLt_def] at h ⊢
  split_ifs <;> simp only [recomm, btrSearchGetNFields, Prod.lexLt_def, Prod.mk.injEq, true_and,
    Nat.lt_irrefl, if_false, Nat.add_zero, and_true, implies_true] <;> (try split_ifs) <;> omega

end RecommInfo

/-! ## A new recommendation confirms itself -/

open RecommInfo in
/-- A new recommendation lies between the two matches and confirms itself on the next update. -/
theorem info_update_hash_recommendation {nUnique : UInt16} {c : CursorMatch}
    (hn : 1 ≤ nUnique.toNat) (hc : c.Admissible nUnique.toNat) (info : RecommInfo) :
    let r := info.setNewRecomm nUnique c
    (infoUpdateHash false nUnique info c = info.incrementPotential ∨
      infoUpdateHash false nUnique info c = r) ∧
    1 ≤ btrSearchGetNFields r.nFields r.nBytes ∧ btrSearchGetNFields r.nFields r.nBytes ≤ nUnique.toNat ∧
    (Prod.lexLt c.low c.up → Prod.lexLt c.low r.recomm ∧ ¬Prod.lexLt c.up r.recomm) ∧
    (Prod.lexLt c.up c.low → Prod.lexLt c.up r.recomm ∧ ¬Prod.lexLt c.low r.recomm) ∧
    (c.low ≠ c.up → nUnique.toNat ≤ c.lowMatch ∨ nUnique.toNat ≤ c.upMatch → r.recomm = (nUnique.toNat, 0)) ∧
    (c.low ≠ c.up → infoUpdateHash false nUnique r c = r.incrementPotential) := by
  dsimp only
  by_cases he : c.low = c.up
  · have h10 : (info.setNewRecomm nUnique c).nFields = 1 ∧ (info.setNewRecomm nUnique c).nBytes = 0 :=
      Prod.mk.inj (setNewRecomm_of_eq he info)
    refine ⟨infoUpdateHash_cases info, by simp [btrSearchGetNFields, h10], by
      simpa [btrSearchGetNFields, h10] using hn, fun h => absurd (he ▸ h) (lexLt_asymm (he ▸ h)),
      fun h => absurd (he ▸ h) (lexLt_asymm (he ▸ h)), fun h => absurd he h, fun h => absurd he h⟩
  rcases lexLt_or_lexLt he with hlt | hgt
  · obtain ⟨hl, hp, h1, h2, h3, h4, h5⟩ := setNewRecomm_of_lt hc hlt info
    have hle : c.lowMatch ≤ c.upMatch := by
      simp only [CursorMatch.low, CursorMatch.up, Prod.lexLt_def] at hlt; omega
    exact ⟨infoUpdateHash_cases info, h3, h4, fun _ => ⟨h1, h2⟩, fun h => absurd hlt (lexLt_asymm h),
      fun _ hm => h5 (by omega), fun _ => infoUpdateHash_of_brackets (by omega) (by simp [hl, h1, h2])⟩
  · obtain ⟨hl, hp, h1, h2, h3, h4, h5⟩ := setNewRecomm_of_gt hc hgt info
    have hle : c.upMatch ≤ c.lowMatch := by
      simp only [CursorMatch.low, CursorMatch.up, Prod.lexLt_def] at hgt; omega
    exact ⟨infoUpdateHash_cases info, h3, h4, fun h => absurd hgt (lexLt_asymm h), fun _ => ⟨h1, h2⟩,
      fun _ hm => h5 (by omega), fun _ => infoUpdateHash_of_brackets (by omega) (by simp [hl, h1, h2])⟩

open RecommInfo in
theorem info_update_hash_recommendation_three :
    let r := RecommInfo.setNewRecomm 3 ⟨0, 0, 1, 0, true⟩ ⟨2, 0, 1, 5⟩
    (infoUpdateHash false 3 ⟨0, 0, 1, 0, true⟩ ⟨2, 0, 1, 5⟩ = incrementPotential ⟨0, 0, 1, 0, true⟩ ∨
      infoUpdateHash false 3 ⟨0, 0, 1, 0, true⟩ ⟨2, 0, 1, 5⟩ = r) ∧
    1 ≤ btrSearchGetNFields r.nFields r.nBytes ∧ btrSearchGetNFields r.nFields r.nBytes ≤ (3 : UInt16).toNat ∧
    (Prod.lexLt (1, 5) (2, 0) → Prod.lexLt (1, 5) r.recomm ∧ ¬Prod.lexLt (2, 0) r.recomm) ∧
    (Prod.lexLt (2, 0) (1, 5) → Prod.lexLt (2, 0) r.recomm ∧ ¬Prod.lexLt (1, 5) r.recomm) ∧
    ((1, 5) ≠ (2, 0) → (3 : UInt16).toNat ≤ 1 ∨ (3 : UInt16).toNat ≤ 2 → r.recomm = ((3 : UInt16).toNat, 0)) ∧
    ((1, 5) ≠ (2, 0) → infoUpdateHash false 3 r ⟨2, 0, 1, 5⟩ = r.incrementPotential) :=
  info_update_hash_recommendation (by decide) ⟨by decide, by decide, by decide, by decide, by decide,
    by decide⟩ _

end Innobase
