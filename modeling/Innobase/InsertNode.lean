import Innobase.Insert
import Innobase.Fold

/-!
# The fast path of the insert update

`btr_search_update_hash_node_on_insert` moves the node of the cursor record to
the new record; this agrees with the general update only where the two folds agree.
-/

namespace Innobase

theorem setFirst_eq_cellInsert (room : Bool) {f r x : Nat} {V : List (Nat × Nat)}
    (hf : foldLookup V f = some r) (hr : ∀ z ∈ V, z.2 = r → z.1 = f) :
    setFirst (·.2 == r) x V = cellInsert room f x V := by
  obtain ⟨u, w, rfl, hu⟩ := foldLookup_eq_some hf
  have hany : (u ++ (f, r) :: w).any (·.1 == f) = true := by simp
  rw [cellInsert, if_pos hany,
    setFirst_append (by simp) fun z hz => beq_false_of_ne fun e => hu z hz (hr z (by simp [hz]) e),
    setFirst_append (by simp) fun z hz => by simpa using hu z hz]

namespace Ahi

variable {g : Geom} {s : Ahi} {i : Nat} {pg : PageImage} {fold : Nat → Nat → Nat → Nat} {c : Cursor}
  {spare n : Nat}

theorem updateHashNodeOnInsert_fast {nFields nBytes x : Nat} (hen : s.enabled = true)
    (hb : s.block c.block = ⟨some i, nFields, nBytes, false⟩) (hflag : c.flag = .hash)
    (hnf : c.nFields = nFields) (hnb : c.nBytes = nBytes) (hx : pg.next c.recPtr = some x) :
    s.updateHashNodeOnInsert g i pg fold c spare n =
      (s.part.haSearchAndUpdateIfFound g true c.fold c.recPtr x).map fun r => { s with part := r.1 } := by
  simp only [updateHashNodeOnInsert, hen, hb, hflag, hnf, hnb, hx, Bool.not_true, Bool.false_eq_true,
    if_false, ne_eq, not_true_eq_false, and_self, if_true]

theorem update_hash_node_on_insert_agrees (s : Ahi) (i : Nat) (pg : PageImage)
    (fold : Nat → Nat → Nat → Nat) (c : Cursor) (spare n : Nat) {nFields nBytes : Nat}
    {pre A B : List Nat} {x : Nat}
    (hI : s.part.Inv g) (hn : 0 < s.part.nCells) (hen : s.enabled = true)
    (hb : s.block c.block = ⟨some i, nFields, nBytes, false⟩)
    (hpre : pre = [] ∨ ∃ m, pre = [m] ∧ pg.isMetadata m = true)
    (hmeta : ∀ r ∈ A, pg.isMetadata r = false)
    (hl : PageImage.Links pg.next pg.infimum (pre ++ A ++ x :: B) pg.supremum)
    (hs : pg.supremum ∉ pre ++ A ++ x :: B) (hA : A ≠ [])
    (hrec : c.recPtr = (pre ++ A).getLast?.getD pg.infimum) (hin : ∀ r ∈ A ++ x :: B, pg.Holds g r)
    (hc : FoldsContiguous (fold nFields nBytes) (A ++ x :: B))
    (hreps : s.part.RepsOn g pg (fold nFields nBytes) false (A ++ B)) (hspare : spare ∉ s.part.owned)
    (hflag : c.flag = .hash) (hnf : c.nFields = nFields) (hnb : c.nBytes = nBytes)
    (hfound : s.part.find g c.fold = some c.recPtr) (hfold : fold nFields nBytes x = c.fold) :
    ∃ s₁ s₂, s.updateHashNodeOnInsert g i pg fold c spare n = some s₁ ∧
      s.updateHashOnInsert g i pg fold c spare n = some s₂ ∧
      (∀ j < s.part.nCells, s₁.part.view g j = s₂.part.view g j) ∧
      s₁.part.find g (fold nFields nBytes x) = some x := by
  set F := fold nFields nBytes
  obtain ⟨A₀, rec, rfl⟩ := (List.eq_nil_or_concat A).resolve_left hA
  have hrec' : c.recPtr = rec := by simp [hrec]
  have hrecIn : pg.Holds g rec := hin rec (by simp)
  -- the node the hash index found is of the cursor record's fold and represents its run
  have hFrec : F rec = c.fold := (hreps.fold_eq hrecIn (hrec' ▸ hfound)).symm
  have hlast : repOf F false (A₀.concat rec ++ B) c.fold = some rec :=
    (mem_runReps_iff false (hc.sublist ((List.sublist_cons_self x B).append_left _))).1
      ((hreps _ _ hrecIn).1 (hrec' ▸ hfound))
  rw [List.concat_eq_append, List.append_assoc, List.singleton_append, ← hFrec] at hlast
  -- so the record after it has another fold, and the general update inserts `x` alone
  have hnext := repOf_false_next (fun h => List.disjoint_of_nodup_append (hl.nodup hs)
    (show rec ∈ pre ++ A₀.concat rec by simp) (List.mem_cons_of_mem x h)) hlast
  have hpairs : onInsertPairs F false (A₀.concat rec).getLast? x B.head? = [(c.fold, x)] := by
    cases B with
    | nil => simp [onInsertPairs, hFrec, hfold]
    | cons b B => simp [onInsertPairs, hFrec, hfold, Ne.symm (hFrec ▸ hnext b rfl)]
  -- every pair of the cell that points to the cursor record is of the cursor's fold
  have hi := Partition.calcHash_lt hn c.fold
  have honly : ∀ z ∈ s.part.view g (s.part.calcHash c.fold), z.2 = c.recPtr → z.1 = c.fold :=
    fun z hz e => (hreps.fold_eq hrecIn (by rw [hI.find_of_mem_view hi hz, e, hrec'])).trans hFrec
  obtain ⟨hI₀, hn₀, hv₀, -⟩ := hI.prepareInsert true hspare
  have hcell := setFirst_eq_cellInsert ((s.part.prepareInsert true spare).1.allocNode g).isSome
    (x := x) (V := s.part.view g (s.part.calcHash c.fold)) hfound honly
  -- the fast path and the general one
  obtain ⟨q₁, hq₁, -, -, hn₁, hv₁⟩ := hI.haSearchAndUpdateIfFound hn true c.fold c.recPtr x
  obtain ⟨q₂, hq₂, -, -, -, hv₂⟩ := hI₀.insert (hn₀ ▸ hn) c.fold x
  have hx : pg.next c.recPtr = some x := hrec ▸ (PageImage.Links.append.1 hl).1.next_getLast
  refine ⟨{ s with part := q₁ }, { s with part := q₂ }, ?_, ?_, fun j hj => ?_, ?_⟩
  · rw [updateHashNodeOnInsert_fast hen hb hflag hnf hnb hx, hq₁]
    rfl
  · rw [updateHashOnInsert_links hen hb hpre hmeta hl hs hrec,
      insertSection_eq (s := { s with part := (s.part.prepareInsert true spare).1 }) hen (by simp [hb]),
      hpairs]
    simp [insertAll, hq₂]
  · rw [hv₁ j hj, hv₂ j (hn₀ ▸ hj), Partition.calcHash_congr hn₀, hv₀]
    by_cases hj' : j = s.part.calcHash c.fold
    · rw [if_pos ⟨rfl, hj'⟩, if_pos hj', hj', hcell]
    · rw [if_neg fun h => hj' h.2, if_neg hj']
  · show foldLookup (q₁.view g (q₁.calcHash (F x))) (F x) = some x
    rw [Partition.calcHash_congr hn₁, hfold, hv₁ _ hi, if_pos ⟨rfl, rfl⟩, hcell, foldLookup_cellInsert,
      if_pos ⟨rfl, .inl (show (s.part.find g c.fold).isSome from hfound ▸ rfl)⟩]

def sameFoldPage : PageImage :=
  ⟨0, 2, 1, 2, fun r => [(1, 10), (10, 15), (15, 2)].lookup r, fun _ => false, 7⟩

theorem update_hash_node_on_insert_agrees_same_fold :
    ∃ s₁ s₂, (oneNodeAhi 1 10).updateHashNodeOnInsert Partition.ahiGeom 0 sameFoldPage
          (fun _ _ r => r / 10) ⟨10, 5, .hash, 1, 1, 0, 0, 0⟩ 101 3 = some s₁ ∧
        (oneNodeAhi 1 10).updateHashOnInsert Partition.ahiGeom 0 sameFoldPage (fun _ _ r => r / 10)
          ⟨10, 5, .hash, 1, 1, 0, 0, 0⟩ 101 3 = some s₂ ∧
        (∀ j < (oneNodeAhi 1 10).part.nCells,
          s₁.part.view Partition.ahiGeom j = s₂.part.view Partition.ahiGeom j) ∧
        s₁.part.find Partition.ahiGeom ((fun _ _ r => r / 10) 1 0 15) = some 15 := by
  obtain ⟨hI, hn, how, hf⟩ := Partition.single_spec 1 10
  exact update_hash_node_on_insert_agrees (oneNodeAhi 1 10) 0 sameFoldPage (fun _ _ r => r / 10)
    ⟨10, 5, .hash, 1, 1, 0, 0, 0⟩ 101 3 (A := [10]) (B := []) (x := 15)
    hI (show 0 < (Partition.single 1 10).nCells by rw [hn]; decide) rfl rfl (.inl rfl) (by decide)
    ⟨rfl, rfl, rfl⟩ (by decide) (by simp) rfl (by decide) (fun a y b h => absurd h.length_le (by simp))
    (fun f r _ => by simp [oneNodeAhi, hf, runReps_singleton, eq_comm]) (by simp [oneNodeAhi, how])
    rfl rfl rfl (by simp [oneNodeAhi, hf]) rfl

/-! ## A redundant-format record -/

def redundantTuple : List DField := [.data [1, 4], .data []]

def redundantRecs (r : Nat) : RecImage :=
  if r = 20 then encodeOld1 redundantTuple [9, 9] else encodeOld1 [.data [1], .data [4, 5, 6]] []

def redundantFold (nFields nBytes r : Nat) : Nat :=
  recFold false [] 0 0 (redundantRecs r) nFields nBytes

def redundantAhi : Ahi :=
  ⟨Partition.single (dtupleFold false 0 redundantTuple 1 3) 10, true, fun _ => ⟨some 0, 1, 3, false⟩,
    fun _ => ⟨7, 2, 1, false⟩, [], fun _ => ⟨0, 0, 0, false⟩, [], false⟩

set_option maxRecDepth 4000 in
/-- In the redundant format the fast path and the general update leave different tables. -/
theorem update_hash_node_on_insert_fold_mismatch :
    redundantFold 1 3 10 = dtupleFold false 0 redundantTuple 1 3 ∧
    redundantFold 1 3 20 ≠ dtupleFold false 0 redundantTuple 1 3 ∧
    redundantAhi.part.Inv Partition.ahiGeom ∧
    PageImage.Links insertedPage.next insertedPage.infimum ([] ++ [10] ++ 20 :: []) insertedPage.supremum ∧
    insertedPage.supremum ∉ [] ++ [10] ++ 20 :: [] ∧
    (∀ r ∈ [10] ++ 20 :: [], insertedPage.Holds Partition.ahiGeom r) ∧
    FoldsContiguous (redundantFold 1 3) ([10] ++ 20 :: []) ∧
    redundantAhi.part.RepsOn Partition.ahiGeom insertedPage (redundantFold 1 3) false ([10] ++ []) ∧
    redundantAhi.part.find Partition.ahiGeom (dtupleFold false 0 redundantTuple 1 3) = some 10 ∧
    ∃ s₁ s₂, redundantAhi.updateHashNodeOnInsert Partition.ahiGeom 0 insertedPage redundantFold
          ⟨10, 5, .hash, dtupleFold false 0 redundantTuple 1 3, 1, 3, 0, 0⟩ 101 3 = some s₁ ∧
      redundantAhi.updateHashOnInsert Partition.ahiGeom 0 insertedPage redundantFold
          ⟨10, 5, .hash, dtupleFold false 0 redundantTuple 1 3, 1, 3, 0, 0⟩ 101 3 = some s₂ ∧
      s₁.part.find Partition.ahiGeom (dtupleFold false 0 redundantTuple 1 3) = some 20 ∧
      s₁.part.find Partition.ahiGeom (redundantFold 1 3 20) = none ∧
      s₂.part.find Partition.ahiGeom (dtupleFold false 0 redundantTuple 1 3) = some 10 ∧
      s₂.part.find Partition.ahiGeom (redundantFold 1 3 20) = some 20 := by
  obtain ⟨hI, -, -, hf⟩ := Partition.single_spec (dtupleFold false 0 redundantTuple 1 3) 10
  have h10 : redundantFold 1 3 10 = dtupleFold false 0 redundantTuple 1 3 := by decide
  have e₁ : (redundantAhi.updateHashNodeOnInsert Partition.ahiGeom 0 insertedPage redundantFold
      ⟨10, 5, .hash, dtupleFold false 0 redundantTuple 1 3, 1, 3, 0, 0⟩ 101 3).map
        (fun s => (s.part.find Partition.ahiGeom (dtupleFold false 0 redundantTuple 1 3),
          s.part.find Partition.ahiGeom (redundantFold 1 3 20))) = some (some 20, none) := by
    decide
  have e₂ : (redundantAhi.updateHashOnInsert Partition.ahiGeom 0 insertedPage redundantFold
      ⟨10, 5, .hash, dtupleFold false 0 redundantTuple 1 3, 1, 3, 0, 0⟩ 101 3).map
        (fun s => (s.part.find Partition.ahiGeom (dtupleFold false 0 redundantTuple 1 3),
          s.part.find Partition.ahiGeom (redundantFold 1 3 20))) = some (some 10, some 20) := by
    decide
  obtain ⟨s₁, h₁, e₁⟩ := Option.map_eq_some'.1 e₁
  obtain ⟨s₂, h₂, e₂⟩ := Option.map_eq_some'.1 e₂
  refine ⟨h10, by decide, hI, ⟨rfl, rfl, rfl⟩, by decide, by decide,
    fun a y b h => absurd h.length_le (by simp), fun f r _ => ?_, by simp [redundantAhi, hf],
    s₁, s₂, h₁, h₂, (Prod.mk.inj e₁).1, (Prod.mk.inj e₁).2, (Prod.mk.inj e₂).1, (Prod.mk.inj e₂).2⟩
  rw [List.append_nil, List.map_singleton, runReps_singleton, h10]
  simp [redundantAhi, hf, eq_comm]

end Ahi

end Innobase
