import Innobase.Ahi

/-!
# Build then drop

Build followed by drop on a block that had no hash entries removes exactly the
pairs whose fold is that of a user record of the page.
-/

namespace Innobase

/-! ## The cell lists under insert -/

theorem setFirst_filter {keep : Nat × Nat → Bool} {f r : Nat} (hr : keep (f, r) = false) :
    ∀ {V : List (Nat × Nat)}, (V.map Prod.fst).Nodup →
      (setFirst (·.1 == f) r V).filter keep = V.filter fun x => keep x && x.1 != f
  | [], _ => rfl
  | x :: V, hV => by
    rw [List.map_cons, List.nodup_cons] at hV
    by_cases hx : x.1 = f
    · have hno : ∀ y ∈ V, y.1 ≠ f := fun y hy e => hV.1 (hx ▸ e ▸ List.mem_map_of_mem _ hy)
      rw [setFirst, if_pos (by simp [hx]), List.filter_cons_of_neg (by simpa [hx] using hr),
        List.filter_cons_of_neg (by simp [hx])]
      exact List.filter_congr fun y hy => by simp [hno y hy]
    · rw [setFirst, if_neg (by simp [hx]), List.filter_cons, List.filter_cons, setFirst_filter hr hV.2]
      simp [hx]

theorem cellInsert_filter {keep : Nat × Nat → Bool} {room : Bool} {f r : Nat}
    (hr : keep (f, r) = false) {V : List (Nat × Nat)} (hV : (V.map Prod.fst).Nodup) :
    (cellInsert room f r V).filter keep = V.filter fun x => keep x && x.1 != f := by
  unfold cellInsert
  by_cases hany : V.any (·.1 == f) = true
  · rw [if_pos hany]; exact setFirst_filter hr hV
  · have hno : ∀ x ∈ V, x.1 ≠ f := fun x hx e => hany (List.any_eq_true.mpr ⟨x, hx, by simp [e]⟩)
    have hV' : V.filter keep = V.filter fun x => keep x && x.1 != f :=
      List.filter_congr fun y hy => by simp [hno y hy]
    rw [if_neg hany]
    split_ifs
    · rw [List.filter_append, List.filter_singleton, hr, cond_false, List.append_nil, hV']
    · exact hV'

theorem mem_setFirst {f r : Nat} :
    ∀ {V : List (Nat × Nat)} {x : Nat × Nat}, x ∈ setFirst (·.1 == f) r V → x.1 = f ∨ x ∈ V
  | [], _, h => absurd h (List.not_mem_nil _)
  | y :: V, x, h => by
    rw [setFirst] at h
    split_ifs at h with hy
    · rcases List.mem_cons.mp h with rfl | h
      · exact .inl (by simpa using hy)
      · exact .inr (List.mem_cons_of_mem _ h)
    · rcases List.mem_cons.mp h with rfl | h
      · exact .inr (List.mem_cons_self _ _)
      · exact (mem_setFirst h).imp_right (List.mem_cons_of_mem _)

theorem mem_cellInsert {room : Bool} {f r : Nat} {V : List (Nat × Nat)} {x : Nat × Nat}
    (h : x ∈ cellInsert room f r V) : x.1 = f ∨ x ∈ V := by
  unfold cellInsert at h
  split_ifs at h
  · exact mem_setFirst h
  · rcases List.mem_append.mp h with h | h
    · exact .inr h
    · exact .inl (by simp [List.mem_singleton.mp h])
  · exact .inr h

namespace Partition

variable {g : Geom} {p : Partition}

theorem Inv.view_fst_nodup (h : p.Inv g) {j : Nat} (hj : j < p.nCells) :
    ((p.view g j).map Prod.fst).Nodup := by
  have hf := ((nodesOf_perm hj (p.chainOf g)).map fun a => (p.mem a).fold).nodup_iff.mp h.layout.folds
  rw [List.map_append] at hf
  simpa [view, pairs, Function.comp_def] using hf.sublist (List.sublist_append_left _ _)

theorem Inv.calcHash_of_mem_view (h : p.Inv g) {j : Nat} (hj : j < p.nCells) {x : Nat × Nat}
    (hx : x ∈ p.view g j) : p.calcHash x.1 = j := by
  obtain ⟨a, ha, rfl⟩ := List.mem_map.mp hx
  exact h.layout.hash j hj a ha

theorem Inv.insertAll {keep : Nat × Nat → Bool} :
    ∀ (pairs : List (Nat × Nat)) {p : Partition}, p.Inv g → 0 < p.nCells →
      (∀ x ∈ pairs, keep x = false) →
      ∃ q, Ahi.insertAll g p pairs = some q ∧ q.Inv g ∧ q.nCells = p.nCells ∧
        ∀ j < p.nCells, (q.view g j).filter keep =
            ((p.view g j).filter keep).filter (fun x => x.1 ∉ pairs.map Prod.fst) ∧
          ∀ x ∈ q.view g j, keep x = false → x.1 ∈ pairs.map Prod.fst ∨ x ∈ p.view g j
  | [], p, h, _, _ => ⟨p, rfl, h, rfl, fun j _ => ⟨by simp, fun _ hx _ => .inr hx⟩⟩
  | (f, r) :: pairs, p, h, hn, hk => by
    obtain ⟨p₁, hp₁, h₁, -, hn₁, hv₁⟩ := h.insert hn f r
    obtain ⟨q, hq, hI, hqn, hv⟩ :=
      Inv.insertAll pairs h₁ (hn₁ ▸ hn) fun x hx => hk x (List.mem_cons_of_mem _ hx)
    have hr : keep (f, r) = false := hk _ (List.mem_cons_self _ _)
    refine ⟨q, by simp [Ahi.insertAll, hp₁, hq], hI, hqn.trans hn₁, fun j hj => ⟨?_, ?_⟩⟩
    · have hstep : (p₁.view g j).filter keep = (p.view g j).filter fun x => keep x && x.1 != f := by
        rw [hv₁ j hj]
        split_ifs with hji
        · exact cellInsert_filter hr (h.view_fst_nodup hj)
        · exact List.filter_congr fun x hx => by
            have : x.1 ≠ f := fun e => hji (by rw [← h.calcHash_of_mem_view hj hx, e])
            simp [this]
      rw [(hv j (hn₁ ▸ hj)).1, hstep, List.filter_filter, List.filter_filter]
      congr 1
      funext x
      by_cases h1 : x.1 = f <;> by_cases h2 : x.1 ∈ pairs.map Prod.fst <;> simp [h1, h2]
    · intro x hx hkx
      rcases (hv j (hn₁ ▸ hj)).2 x hx hkx with h' | h'
      · exact .inl (List.mem_cons_of_mem _ h')
      · rw [hv₁ j hj] at h'
        split_ifs at h'
        · rcases mem_cellInsert h' with e | h'
          · exact .inl (e ▸ List.mem_cons_self _ _)
          · exact .inr h'
        · exact .inr h'

theorem Inv.removeAllFolds (page : Nat) :
    ∀ (fs : List Nat) {p : Partition}, p.Inv g → 0 < p.nCells →
      ∃ q freed, Ahi.removeAllFolds g page p fs = some (q, freed) ∧ q.Inv g ∧ q.nCells = p.nCells ∧
        ∀ j < p.nCells, q.view g j =
          if ∃ f ∈ fs, p.calcHash f = j then (p.view g j).filter (keepOffPage g page) else p.view g j
  | [], p, h, _ => ⟨p, [], rfl, h, rfl, fun j _ => by simp⟩
  | f :: fs, p, h, hn => by
    obtain ⟨p₁, fr₁, hp₁, h₁, hn₁, -, hv₁⟩ := h.haRemoveAllNodesToPage hn f page
    obtain ⟨q, fr, hq, hI, hqn, hv⟩ := Inv.removeAllFolds page fs h₁ (hn₁ ▸ hn)
    refine ⟨q, fr₁ ++ fr, by simp [Ahi.removeAllFolds, hp₁, hq], hI, hqn.trans hn₁, fun j hj => ?_⟩
    rw [hv j (hn₁ ▸ hj), hv₁ j hj]
    simp only [calcHash_congr hn₁]
    have hcons : (∃ f' ∈ f :: fs, p.calcHash f' = j) ↔
        p.calcHash f = j ∨ ∃ f' ∈ fs, p.calcHash f' = j := by simp
    by_cases hfj : p.calcHash f = j
    · rw [if_pos (hcons.mpr (.inl hfj)), if_pos hfj.symm]
      split_ifs <;> simp [List.filter_filter]
    · rw [if_neg (Ne.symm hfj)]
      by_cases hex : ∃ f' ∈ fs, p.calcHash f' = j
      · rw [if_pos hex, if_pos (hcons.mpr (.inr hex))]
      · rw [if_neg hex, if_neg fun h => (hcons.mp h).elim hfj hex]

end Partition


/-! ## The two page operations on the path of the round trip -/

namespace Ahi

variable {g : Geom} {maxNFields : Nat} {s : Ahi} {i b : Nat} {pg : PageImage}
  {fold : Nat → Nat → Nat → Nat} {n : Nat}

theorem buildPageHashIndex_fresh {nFields nBytes : Nat} {leftSide : Bool} {spare : Nat}
    {pairs : List (Nat × Nat)} (hen : s.enabled = true) (hb : (s.block b).index = none)
    (hsig : ¬(nFields = 0 ∧ nBytes = 0))
    (hu : ¬(s.index i).nUnique < nFields + (if nBytes = 0 then 0 else 1))
    (hc : pg.buildCache (fold nFields nBytes) (s.index i).id leftSide n = some (.cache pairs)) :
    s.buildPageHashIndex g maxNFields i b pg fold nFields nBytes leftSide spare n =
      (insertAll g (s.part.prepareInsert true spare).1 pairs).map fun part =>
        { s with
          part
          block := Function.update s.block b
            ⟨some i, nFields &&& maxNFields, nBytes &&& (2 ^ 15 - 1), leftSide⟩
          index := Function.update s.index i
            { s.index i with refCount := (s.index i).refCount + 1 }
          help := Function.update s.help b { s.help b with nHashHelps := 0 } } := by
  simp only [buildPageHashIndex, hen, hb, Bool.not_true, Option.isSome_none, Bool.false_and,
    Bool.false_eq_true, if_false, hsig, pure_bind]
  rw [if_neg hu, hc]
  simp only [buildSection, hen, hb, Bool.not_true, Bool.false_eq_true, if_false, Option.isSome_none, Bool.false_and,
    Option.isNone_none, if_true, Option.bind_eq_bind, Option.some_bind]
  cases insertAll g (s.part.prepareInsert true spare).1 pairs <;> rfl

theorem dropPageHashIndex_hashed {L : List Nat} {q : Partition} {freed : List Nat} {k : Nat}
    (hb : (s.block b).index = some i) (hen : s.enabled = true) (hid : pg.indexId = (s.index i).id)
    (hsig : ¬((s.block b).currNFields = 0 ∧ (s.block b).currNBytes = 0)) (hrecs : pg.nRecs ≠ 0)
    (hf : pg.dropFolds (fold (s.block b).currNFields (s.block b).currNBytes) n = some L)
    (hr : removeAllFolds g pg.frame s.part L = some (q, freed)) (hk : (s.index i).refCount = k + 1) :
    s.dropPageHashIndex g b pg fold false n = some { s with
      part := q
      block := Function.update s.block b { s.block b with index := none }
      index := Function.update s.index i { s.index i with refCount := k }
      lazyFreed := if k = 0 ∧ (s.index i).freed then s.lazyFreed ++ [i] else s.lazyFreed } := by
  simp only [dropPageHashIndex, hb, Bool.and_false, Bool.false_eq_true, if_false, hen, Bool.not_true,
    hid, ne_eq, not_true_eq_false, hsig, hrecs, hf, Option.bind_eq_bind, Option.some_bind, dropSection,
    hr, hk, or_self]
  rfl

/-! ## The round trip -/

/-- Build and then drop on a block that had no hash entries remove from every
cell exactly the pairs whose fold is the fold of a user record of the page,
and give the block and the index's `ref_count` back their old values. -/
theorem build_then_drop_round_trip (s : Ahi) (i b : Nat) (pg : PageImage)
    (fold : Nat → Nat → Nat → Nat) (nFields nBytes : Nat) (leftSide : Bool) (spare n : Nat)
    (hI : s.part.Inv g) (hn : 0 < s.part.nCells) (hen : s.enabled = true)
    (hb : (s.block b).index = none)
    (hcoh : ∀ j < s.part.nCells, ∀ x ∈ s.part.view g j,
      ¬(pg.frame ≤ x.2 ∧ x.2 < pg.frame + g.pageSize))
    (hsig₁ : 1 ≤ nFields + (if nBytes = 0 then 0 else 1))
    (hsig₂ : nFields + (if nBytes = 0 then 0 else 1) ≤ (s.index i).nUnique)
    (hmask : nFields &&& maxNFields = nFields) (hbytes : nBytes < 2 ^ 15) {pre recs : List Nat}
    (hpre : (pre = [] ∧ ∀ r ∈ recs.head?, pg.isMetadata r = false) ∨
      ∃ m, pre = [m] ∧ pg.isMetadata m = true)
    (hl : PageImage.Links pg.next pg.infimum (pre ++ recs) pg.supremum)
    (hs : pg.supremum ∉ pre ++ recs) (hnr : pg.nRecs = (pre ++ recs).length)
    (hid : pg.indexId = (s.index i).id) (hne : recs ≠ []) (hframe : pg.frame % g.pageSize = 0)
    (hin : ∀ r ∈ recs, pg.frame ≤ r ∧ r < pg.frame + g.pageSize) (hspare : spare ∉ s.part.owned)
    (hfuel : recs.length ≤ n) :
    ∃ s', (s.buildPageHashIndex g maxNFields i b pg fold nFields nBytes leftSide spare n).bind
          (fun s => s.dropPageHashIndex g b pg fold false n) = some s' ∧
      (∀ j < s.part.nCells, s'.part.view g j =
        (s.part.view g j).filter fun x => x.1 ∉ recs.map (fold nFields nBytes)) ∧
      ((∀ j < s.part.nCells, ∀ x ∈ s.part.view g j, x.1 ∉ recs.map (fold nFields nBytes)) →
        ∀ j < s.part.nCells, s'.part.view g j = s.part.view g j) ∧
      (s'.block b).index = none ∧ (s'.index i).refCount = (s.index i).refCount := by
  set keep := Partition.keepOffPage g pg.frame
  set pairs := runReps leftSide (recs.map fun r => (fold nFields nBytes r, r))
  have hkpairs : ∀ x ∈ pairs, keep x = false := fun x hx => by
    obtain ⟨r, hr, rfl⟩ := List.mem_map.mp (mem_of_mem_runReps _ _ hx)
    simp [keep, Partition.keepOffPage_eq hframe, hin r hr]
  have hpF : ∀ f, f ∈ pairs.map Prod.fst ↔ f ∈ recs.map (fold nFields nBytes) :=
    fun _ => fst_mem_runReps_map_iff
  have hkP : ∀ j < s.part.nCells, ∀ x ∈ s.part.view g j, keep x = true := fun j hj x hx => by
    simpa only [keep, Partition.keepOffPage_eq hframe, Bool.not_eq_true', decide_eq_false_iff_not]
      using hcoh j hj x hx
  have hnz : ¬(nFields = 0 ∧ nBytes = 0) := fun h => by simp [h.1, h.2] at hsig₁
  -- build
  obtain ⟨hI₀, hn₀, hv₀, -⟩ := hI.prepareInsert true hspare
  obtain ⟨q, hq, hIq, hnq, hvq⟩ := Partition.Inv.insertAll pairs hI₀ (hn₀ ▸ hn) hkpairs
  have hbuild : s.buildPageHashIndex g maxNFields i b pg fold nFields nBytes leftSide spare n = _ :=
    buildPageHashIndex_fresh hen hb hnz (by omega)
    ((pg.buildCache_links (fold nFields nBytes) _ leftSide hpre hl hs hnr hid hfuel).trans (if_neg hne))
  rw [hq, Option.map_some'] at hbuild
  -- drop
  obtain ⟨L, hL, hFL⟩ := pg.dropFolds_links (fold nFields nBytes) hpre hl hs hnr hne hfuel
  obtain ⟨q', fr, hr, -, hnq', hvq'⟩ :=
    Partition.Inv.removeAllFolds pg.frame L hIq (by rw [hnq, hn₀]; exact hn)
  have hdrop : dropPageHashIndex g { s with
      part := q
      block := Function.update s.block b
        ⟨some i, nFields &&& maxNFields, nBytes &&& (2 ^ 15 - 1), leftSide⟩
      index := Function.update s.index i { s.index i with refCount := (s.index i).refCount + 1 }
      help := Function.update s.help b { s.help b with nHashHelps := 0 } }
      b pg fold false n = _ := dropPageHashIndex_hashed (i := i) (k := (s.index i).refCount)
    (by simp) hen (by simp [hid])
    (by simpa [hmask, Nat.and_pow_two_sub_one_of_lt_two_pow hbytes] using hnz)
    (by rw [hnr]; simp [hne])
    (by simpa [hmask, Nat.and_pow_two_sub_one_of_lt_two_pow hbytes] using hL) hr (by simp)
  have hview : ∀ j < s.part.nCells, q'.view g j =
      (s.part.view g j).filter fun x => x.1 ∉ recs.map (fold nFields nBytes) := by
    intro j hj
    have hj₀ : j < (s.part.prepareInsert true spare).1.nCells := hn₀ ▸ hj
    have hfq : (q.view g j).filter keep =
        (s.part.view g j).filter fun x => x.1 ∉ recs.map (fold nFields nBytes) := by
      rw [(hvq j hj₀).1, hv₀, List.filter_eq_self.mpr (hkP j hj)]
      exact List.filter_congr fun x _ => by simp [hpF]
    rw [hvq' j (by rw [hnq]; exact hj₀)]
    split_ifs with hcov
    · exact hfq
    · -- no fold of the page hashes here, so nothing here points into the page
      rw [← hfq]
      refine (List.filter_eq_self.mpr fun x hx => ?_).symm
      by_contra hkx
      rw [Bool.not_eq_true] at hkx
      rcases (hvq j hj₀).2 x hx hkx with hx' | hx'
      · obtain ⟨r, hr, hrx⟩ := List.mem_map.mp ((hpF x.1).mp hx')
        exact hcov ⟨x.1, hrx ▸ hFL r hr, hIq.calcHash_of_mem_view (by rw [hnq]; exact hj₀) hx⟩
      · rw [hv₀] at hx'
        exact absurd (hkP j hj x hx') (by rw [hkx]; exact Bool.false_ne_true)
  refine ⟨_, by rw [hbuild]; exact hdrop, hview, fun hnone j hj => ?_, by simp, by simp⟩
  exact (hview j hj).trans (List.filter_eq_self.mpr fun x hx => by simpa using hnone j hj x hx)

def freshAhi : Ahi :=
  ⟨Partition.init.alloc 4, true, fun _ => ⟨none, 0, 0, false⟩, fun _ => ⟨7, 2, 0, false⟩, [],
    fun _ => ⟨0, 0, 0, false⟩, [], false⟩

theorem build_then_drop_round_trip_three :
    ∃ s', (freshAhi.buildPageHashIndex Partition.ahiGeom 1023 0 5 PageImage.threeRecordPage
          (fun _ _ r => r / 20) 1 0 true 100 3).bind
          (fun s => s.dropPageHashIndex Partition.ahiGeom 5 PageImage.threeRecordPage (fun _ _ r => r / 20) false 3) =
        some s' ∧
      (∀ j < freshAhi.part.nCells, s'.part.view Partition.ahiGeom j =
        (freshAhi.part.view Partition.ahiGeom j).filter fun x => x.1 ∉ [10, 20, 30].map (· / 20)) ∧
      ((∀ j < freshAhi.part.nCells, ∀ x ∈ freshAhi.part.view Partition.ahiGeom j,
          x.1 ∉ [10, 20, 30].map (· / 20)) →
        ∀ j < freshAhi.part.nCells, s'.part.view Partition.ahiGeom j =
          freshAhi.part.view Partition.ahiGeom j) ∧
      (s'.block 5).index = none ∧ (s'.index 0).refCount = (freshAhi.index 0).refCount :=
  build_then_drop_round_trip freshAhi 0 5 PageImage.threeRecordPage (fun _ _ r => r / 20) 1 0 true 100 3
    (Partition.inv_init.alloc rfl 4).1 (by decide) rfl rfl
    (fun j _ x hx => absurd hx (by
      simp [freshAhi, (Partition.inv_init (g := Partition.ahiGeom)).alloc rfl 4 |>.2.2 j]))
    (by decide) (by decide) (by decide) (by decide) (Or.inl ⟨rfl, fun _ _ => rfl⟩)
    (by exact ⟨rfl, rfl, rfl, rfl⟩) (by decide) (by rfl) rfl (by decide) (by decide) (by decide)
    (by decide) (by decide)

end Ahi

end Innobase
