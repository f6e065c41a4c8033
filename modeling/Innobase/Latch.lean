import Innobase.Ahi

/-!
# What a thread holds

`Held` is what the calling thread holds of the partition latch, block latches,
buffer fixes and memo; each latch call is a partial step on it.
-/

namespace Innobase

inductive LatchMode
  | s
  | x
  deriving DecidableEq, Repr

def btrSearchLeaf : Nat := 1

def btrModifyLeaf : Nat := 2

def latchOf (latchMode : Nat) : LatchMode := if latchMode = btrSearchLeaf then .s else .x

/-- The partition latch mode and the mini-transaction's block latches, fixes and memo. -/
structure Held where
  ahi : Option LatchMode
  pages : List (Nat × LatchMode)
  fixes : List Nat
  memo : List (Nat × Nat)
  deriving DecidableEq, Repr

namespace Held

def empty : Held := ⟨none, [], [], []⟩

/-! ## The partition latch -/

def latchAhi (m : LatchMode) (h : Held) : Option Held :=
  if h.ahi = none then some { h with ahi := some m } else none

def unlatchAhi (m : LatchMode) (h : Held) : Option Held :=
  if h.ahi = some m then some { h with ahi := none } else none

def rdLock : Held → Option Held := latchAhi .s

def rdUnlock : Held → Option Held := unlatchAhi .s

def wrLock : Held → Option Held := latchAhi .x

def wrUnlock : Held → Option Held := unlatchAhi .x

@[simp] theorem rdLock_mk (p : List (Nat × LatchMode)) (f : List Nat) (m : List (Nat × Nat)) :
    rdLock ⟨none, p, f, m⟩ = some ⟨some .s, p, f, m⟩ := rfl

@[simp] theorem rdLock_held (a : LatchMode) (p : List (Nat × LatchMode)) (f : List Nat)
    (m : List (Nat × Nat)) : rdLock ⟨some a, p, f, m⟩ = none := rfl

@[simp] theorem rdUnlock_mk (p : List (Nat × LatchMode)) (f : List Nat) (m : List (Nat × Nat)) :
    rdUnlock ⟨some .s, p, f, m⟩ = some ⟨none, p, f, m⟩ := rfl

@[simp] theorem wrLock_mk (p : List (Nat × LatchMode)) (f : List Nat) (m : List (Nat × Nat)) :
    wrLock ⟨none, p, f, m⟩ = some ⟨some .x, p, f, m⟩ := rfl

@[simp] theorem wrUnlock_mk (p : List (Nat × LatchMode)) (f : List Nat) (m : List (Nat × Nat)) :
    wrUnlock ⟨some .x, p, f, m⟩ = some ⟨none, p, f, m⟩ := rfl

/-! ## Blocks and the memo -/

def lockPage (b : Nat) (m : LatchMode) (h : Held) : Held := { h with pages := h.pages ++ [(b, m)] }

def unlockPage (b : Nat) (m : LatchMode) (h : Held) : Option Held :=
  if h.pages.getLast? = some (b, m) then some { h with pages := h.pages.dropLast } else none

def fix (b : Nat) (h : Held) : Held := { h with fixes := h.fixes ++ [b] }

def memoPush (b t : Nat) (h : Held) : Held := { h with memo := h.memo ++ [(b, t)] }

def releaseLastPage (h : Held) : Option Held :=
  match h.memo.getLast? with
  | none => none
  | some (b, t) =>
    if h.fixes.getLast? = some b then
      unlockPage b (latchOf t) { h with memo := h.memo.dropLast, fixes := h.fixes.dropLast }
    else none

@[simp] theorem lockPage_mk (b : Nat) (l : LatchMode) (a : Option LatchMode)
    (p : List (Nat × LatchMode)) (f : List Nat) (m : List (Nat × Nat)) :
    lockPage b l ⟨a, p, f, m⟩ = ⟨a, p ++ [(b, l)], f, m⟩ := rfl

@[simp] theorem fix_mk (b : Nat) (a : Option LatchMode) (p : List (Nat × LatchMode))
    (f : List Nat) (m : List (Nat × Nat)) : fix b ⟨a, p, f, m⟩ = ⟨a, p, f ++ [b], m⟩ := rfl

@[simp] theorem memoPush_mk (b t : Nat) (a : Option LatchMode) (p : List (Nat × LatchMode))
    (f : List Nat) (m : List (Nat × Nat)) : memoPush b t ⟨a, p, f, m⟩ = ⟨a, p, f, m ++ [(b, t)]⟩ :=
  rfl

@[simp] theorem unlockPage_mk (b : Nat) (l : LatchMode) (a : Option LatchMode)
    (p : List (Nat × LatchMode)) (f : List Nat) (m : List (Nat × Nat)) :
    unlockPage b l ⟨a, p ++ [(b, l)], f, m⟩ = some ⟨a, p, f, m⟩ := by
  simp [unlockPage]

@[simp] theorem releaseLastPage_mk (b t : Nat) (a : Option LatchMode)
    (p : List (Nat × LatchMode)) (f : List Nat) (m : List (Nat × Nat)) :
    releaseLastPage ⟨a, p ++ [(b, latchOf t)], f ++ [b], m ++ [(b, t)]⟩ = some ⟨a, p, f, m⟩ := by
  simp [releaseLastPage, unlockPage]

end Held

/-! ## `btr_search_drop_page_hash_index` -/

/-- What one pass of `btr_search_drop_page_hash_index` reads of shared state. -/
structure DropReads where
  /-- `block->index` at `retry:`, before any latch -/
  entryIndex : Option Nat
  /-- `block->index` under the shared latch, and `index->freed()` -/
  index : Option Nat
  freed : Bool
  /-- `block->index` once the latch is exclusive, on the path of a freed index -/
  upgradedIndex : Option Nat
  /-- `btr_search.enabled` -/
  enabled : Bool
  /-- `index_id == index->id`, with `index_id` read from the frame -/
  idMatches : Bool
  /-- `curr_n_fields` and `curr_n_bytes` under the latch -/
  nFields : Nat
  nBytes : Nat
  /-- `page_get_n_recs(page)` -/
  nRecs : Nat
  /-- `block->index`, `curr_n_fields` and `curr_n_bytes` once the exclusive
  latch is taken after the folds are computed -/
  relatchedIndex : Option Nat
  relatchedNFields : Nat
  relatchedNBytes : Nat
  /-- `index->search_info.ref_count` -/
  refCount : Nat
  deriving DecidableEq, Repr

inductive DropExit
  | done
  | retry
  deriving DecidableEq, Repr

namespace Ahi

/-- One pass of `btr_search_drop_page_hash_index`, from `retry:` to a return or `goto retry`. -/
def dropPageHashIndexPass (garbageCollect : Bool) (v : DropReads) (h : Held) :
    Option (DropExit × Held) :=
  if v.entryIndex = none then some (.done, h) else
  let isFreed := v.index.isSome && v.freed
  let unlock (h : Held) := if isFreed then h.wrUnlock else h.rdUnlock
  -- from `assert_block_ahi_valid(block)` on
  let rest (h : Held) : Option (DropExit × Held) :=
    if v.index.isNone || !v.enabled then (unlock h).map (.done, ·)
    else if !v.idMatches then none
    else (if isFreed then some h else h.rdUnlock).bind fun h =>
    if v.nFields = 0 ∧ v.nBytes = 0 then none
    -- `ut_ad("corrupted adaptive hash index" == 0); return;`
    else if v.nRecs = 0 then some (.done, h)
    else (if isFreed then some h else h.wrLock).bind fun h =>
    if !isFreed && v.relatchedIndex.isNone then h.wrUnlock.map (.done, ·)
    else if !isFreed && v.relatchedIndex != v.index then none
    else if v.relatchedNFields ≠ v.nFields ∨ v.relatchedNBytes ≠ v.nBytes then
      h.wrUnlock.map (.retry, ·)
    else if v.refCount = 0 then none
    else h.wrUnlock.map (.done, ·)
  h.rdLock.bind fun h =>
  if isFreed then
    h.rdUnlock.bind fun h => h.wrLock.bind fun h =>
    if v.index ≠ v.upgradedIndex then h.wrUnlock.map (.retry, ·) else rest h
  else if garbageCollect then h.rdUnlock.map (.done, ·)
  else rest h

def dropPageHashIndexLatched (garbageCollect : Bool) : List DropReads → Held → Option Held
  | [], _ => none
  | v :: vs, h => (dropPageHashIndexPass garbageCollect v h).bind fun
    | (.done, h) => some h
    | (.retry, h) => dropPageHashIndexLatched garbageCollect vs h

/-! ## Where drop leaves the latch -/

theorem dropPageHashIndexPass_held {gc : Bool} {v : DropReads} {h h' : Held} {x : DropExit}
    (e : dropPageHashIndexPass gc v h = some (x, h')) :
    h' = h ∨ x = .done ∧ h.ahi = none ∧ h' = { h with ahi := some .x } ∧
      v.index.isSome ∧ v.freed ∧ v.nRecs = 0 := by
  obtain ⟨a, p, f, m⟩ := h
  unfold dropPageHashIndexPass at e
  by_cases h0 : v.entryIndex = none
  · rw [if_pos h0] at e; cases e; exact .inl rfl
  rw [if_neg h0] at e
  cases a with
  | some _ => cases e
  | none =>
  dsimp only at e
  cases hi : v.index <;> cases hf : v.freed <;>
    simp only [hi, hf, Option.isSome_none, Option.isSome_some, Option.isNone_none,
      Option.isNone_some, Bool.and_false, Bool.and_true, Bool.false_eq_true, Bool.not_false,
      Bool.not_true, if_true, if_false, Held.rdLock_mk, Held.rdUnlock_mk, Held.wrLock_mk,
      Held.wrUnlock_mk, Option.some_bind, Option.map_some'] at e
  -- every leaf of the pass
  all_goals
    repeat (rcases ite_eq_iff.1 e with ⟨_, e⟩ | ⟨_, e⟩ <;>
      try (cases e <;> first | exact .inl rfl | exact .inr ⟨rfl, rfl, rfl, rfl, rfl, ‹_›⟩))

/-- A call gives the partition latch back, except on a freed index whose page has no record. -/
theorem drop_page_hash_index_latches {gc : Bool} : ∀ {vs : List DropReads} {h h' : Held},
    dropPageHashIndexLatched gc vs h = some h' →
    h' = h ∨ h.ahi = none ∧ h' = { h with ahi := some .x } ∧
      ∃ pre v rest, vs = pre ++ v :: rest ∧ (∀ u ∈ pre, dropPageHashIndexPass gc u h = some (.retry, h)) ∧
        dropPageHashIndexPass gc v h = some (.done, h') ∧ v.index.isSome ∧ v.freed ∧ v.nRecs = 0
  | [], _, _, e => by cases e
  | v :: vs, h, h', e => by
    rw [dropPageHashIndexLatched, Option.bind_eq_some] at e
    obtain ⟨⟨x, h₁⟩, e₁, e⟩ := e
    rcases dropPageHashIndexPass_held e₁ with rfl | ⟨rfl, hn, rfl, hv⟩
    · cases x
      · cases e; exact .inl rfl
      · rcases drop_page_hash_index_latches e with rfl | ⟨hn, rfl, pre, u, rest, rfl, hpre, hu⟩
        · exact .inl rfl
        · refine .inr ⟨hn, rfl, v :: pre, u, rest, rfl, fun w hw => ?_, hu⟩
          rcases List.mem_cons.1 hw with rfl | hw
          exacts [e₁, hpre w hw]
    · cases e; exact .inr ⟨hn, rfl, [], v, vs, rfl, fun _ h => absurd h (List.not_mem_nil _), e₁, hv⟩

def DropReads.ofState (s : Ahi) (b : Nat) (pg : PageImage) : DropReads :=
  let i := (s.block b).index
  let ix := s.index (i.getD 0)
  ⟨i, i, ix.freed, i, s.enabled, pg.indexId == ix.id, (s.block b).currNFields,
    (s.block b).currNBytes, pg.nRecs, i, (s.block b).currNFields, (s.block b).currNBytes,
    ix.refCount⟩

theorem dropPageHashIndex_freed_empty {g : Geom} {s : Ahi} {b i : Nat} {pg : PageImage}
    {fold : Nat → Nat → Nat → Nat} {gc : Bool} {n : Nat} {vs : List DropReads}
    (hb : (s.block b).index = some i) (hf : (s.index i).freed = true) (he : s.enabled = true)
    (hid : pg.indexId = (s.index i).id) (hn : (s.block b).currNFields ≠ 0) (hr : pg.nRecs = 0) :
    dropPageHashIndexLatched gc (DropReads.ofState s b pg :: vs) Held.empty =
        some { Held.empty with ahi := some .x } ∧
      s.dropPageHashIndex g b pg fold gc n = some s := by
  constructor
  · simp [dropPageHashIndexLatched, dropPageHashIndexPass, DropReads.ofState, Held.empty, hb, hf,
      he, hid, hn, hr]
  · simp [dropPageHashIndex, hb, hf, he, hid, hn, hr]

def freedEmptyAhi : Ahi :=
  ⟨Partition.init.alloc 4, true, fun _ => ⟨some 0, 1, 0, true⟩, fun _ => ⟨7, 2, 1, true⟩, [],
    fun _ => ⟨0, 0, 0, false⟩, [], false⟩

def emptyLeafImage : PageImage := ⟨0, 0, 1, 2, fun r => if r = 1 then some 2 else none, fun _ => false, 7⟩

theorem drop_page_hash_index_freed_empty_keeps_latch :
    dropPageHashIndexLatched false [DropReads.ofState freedEmptyAhi 5 emptyLeafImage] Held.empty =
        some ⟨some .x, [], [], []⟩ ∧
      freedEmptyAhi.dropPageHashIndex Partition.ahiGeom 5 emptyLeafImage (fun _ _ r => r) false 3 =
        some freedEmptyAhi :=
  dropPageHashIndex_freed_empty rfl rfl rfl rfl (by decide) rfl

def rehashedReads : DropReads := { DropReads.ofState freedEmptyAhi 5 emptyLeafImage with upgradedIndex := none }

theorem drop_page_hash_index_latches_retry_freed_empty :
    dropPageHashIndexLatched false [rehashedReads, DropReads.ofState freedEmptyAhi 5 emptyLeafImage]
        Held.empty = some ⟨some .x, [], [], []⟩ ∧
      ((⟨some .x, [], [], []⟩ : Held) = Held.empty ∨ Held.empty.ahi = none ∧
        (⟨some .x, [], [], []⟩ : Held) = { Held.empty with ahi := some .x } ∧
        ∃ pre v rest, [rehashedReads, DropReads.ofState freedEmptyAhi 5 emptyLeafImage] = pre ++ v :: rest ∧
          (∀ u ∈ pre, dropPageHashIndexPass false u Held.empty = some (.retry, Held.empty)) ∧
          dropPageHashIndexPass false v Held.empty = some (.done, ⟨some .x, [], [], []⟩) ∧
          v.index.isSome ∧ v.freed ∧ v.nRecs = 0) := by
  refine ⟨?h, drop_page_hash_index_latches ?h⟩
  decide

end Ahi

end Innobase
