import Innobase.PartitionErase
import Mathlib.Data.Nat.Bitwise

/-!
# Runs of a partition

Every operation keeps `Inv`, none started from a state reachable from `init()`
fails, and every block taken from the buffer pool is owned or was given back, once.
-/

namespace Innobase

namespace Partition

variable {g : Geom} {p : Partition}

/-! ## `ha_search_and_update_if_found` -/

theorem Inv.haSearchAndUpdateIfFound (h : p.Inv g) (hn : 0 < p.nCells) (en : Bool)
    (f d d' : Nat) :
    ∃ q, p.haSearchAndUpdateIfFound g en f d d' =
        some (q, en && (p.view g (p.calcHash f)).any (·.2 == d)) ∧
      q.Inv g ∧ q.owned = p.owned ∧ q.nCells = p.nCells ∧
      ∀ j < p.nCells, q.view g j =
        if en ∧ j = p.calcHash f then setFirst (·.2 == d) d' (p.view g j) else p.view g j := by
  cases en with
  | false => exact ⟨p, rfl, h, rfl, rfl, fun j _ => by simp⟩
  | true =>
    have hi := calcHash_lt hn f
    rcases h.seek_cell hi (fun a => (p.mem a).recPtr == d) with
      ⟨hall, hseek⟩ | ⟨u, a, w, hs, hu, ha, hseek⟩
    · have hnone : ∀ x ∈ p.view g (p.calcHash f), (x.2 == d) = false := by
        simpa [view, pairs] using hall
      have hany : (p.view g (p.calcHash f)).any (·.2 == d) = false :=
        List.any_eq_false.mpr fun x hx => by simp [hnone x hx]
      refine ⟨p, by simp [Partition.haSearchAndUpdateIfFound, hseek, hany], h, rfl, rfl,
        fun j _ => ?_⟩
      split_ifs with hj
      · rw [hj.2]; exact (setFirst_of_forall hnone).symm
      · rfl
    · have hany : (p.view g (p.calcHash f)).any (·.2 == d) = true :=
        List.any_eq_true.mpr ⟨((p.mem a).fold, (p.mem a).recPtr), by
          rw [view, hs, pairs_append, pairs_cons]; simp, ha⟩
      refine ⟨p.setRec a d', by simp [Partition.haSearchAndUpdateIfFound, hseek, hany],
        (h.setRec a d').1, rfl, rfl, fun j hj => ?_⟩
      split_ifs with hji
      · rw [hji.2, h.view_setRec hi hs, view, hs, pairs_append, pairs_cons,
          setFirst_append (by simpa using ha) (by simpa [pairs] using hu)]
      · have hji : j ≠ p.calcHash f := fun e => hji ⟨rfl, e⟩
        exact h.view_setRec_other hj (h.layout.disjoint hi hj (Ne.symm hji)
          (hs ▸ List.mem_append_right _ (List.mem_cons_self _ _))) d'

/-! ## `prepare_insert`, `clear`, `alloc` and `init` -/

theorem Inv.of_empty (h0 : p.nCells = 0) (hb : p.blocks = []) : p.Inv g := by
  have hL : p.Layout (p.chainOf g) :=
    ⟨fun i hi => absurd hi (by omega), fun i hi => absurd hi (by omega), by simp [nodesOf, h0]⟩
  refine ⟨hL, by simp [nodes, nodesOf, slots, h0, hb], ⟨by simp [hb], by simp [hb], ?_⟩⟩
  cases hs : p.spare <;> simp [owned, hs, hb]

theorem inv_init : init.Inv g := Inv.of_empty rfl rfl

theorem walk_congr {q : Partition} (hm : q.mem = p.mem) : ∀ n x, q.walk n x = p.walk n x
  | 0, _ => rfl
  | _ + 1, none => rfl
  | n + 1, some a => by rw [walk, walk, hm, walk_congr hm n]

theorem view_congr {q : Partition} (hm : q.mem = p.mem) (hc : q.cell = p.cell)
    (hb : q.blocks = p.blocks) (j : Nat) : q.view g j = p.view g j := by
  have hf : q.fuel g = p.fuel g := by rw [fuel, slots, hb, ← slots, ← fuel]
  rw [view, chainOf, walk_congr hm, hf, hc, ← chainOf, pairs, hm, ← pairs, ← view]

theorem Inv.congr {q : Partition} (h : p.Inv g) (hm : q.mem = p.mem) (hc : q.cell = p.cell)
    (hn : q.nCells = p.nCells) (hb : q.blocks = p.blocks) (hs : q.Slab g) : q.Inv g := by
  have hch : q.chainOf g = p.chainOf g := by
    funext j
    have hf : q.fuel g = p.fuel g := by rw [fuel, slots, hb, ← slots, ← fuel]
    rw [chainOf, walk_congr hm, hf, hc, ← chainOf]
  refine ⟨hch ▸ h.layout.congr hm hc hn, ?_, hs⟩
  rw [nodes, hch, nodesOf_of_nCells hn, slots, hb, ← slots]
  exact h.nodes_perm

theorem Inv.prepareInsert (h : p.Inv g) (en : Bool) {b : Nat} (hb : b ∉ p.owned) :
    (p.prepareInsert en b).1.Inv g ∧ (p.prepareInsert en b).1.nCells = p.nCells ∧
      (∀ j, (p.prepareInsert en b).1.view g j = p.view g j) ∧
      ((p.prepareInsert en b).1.owned ++ (p.prepareInsert en b).2.toList).Perm (p.owned ++ [b]) := by
  unfold Partition.prepareInsert
  split_ifs with hc
  · have hs : p.spare = none := Option.isNone_iff_eq_none.mp (Bool.and_eq_true _ _ ▸ hc).1
    have hown : ({ p with spare := some b } : Partition).owned = b :: p.owned := by
      simp [owned, hs]
    refine ⟨h.congr rfl rfl rfl rfl ⟨h.slab.size, h.slab.full, ?_⟩, rfl,
      view_congr rfl rfl rfl, ?_⟩
    · rw [hown]; exact List.nodup_cons.mpr ⟨hb, h.slab.owned⟩
    · rw [hown, Option.toList_none, List.append_nil]
      exact (List.perm_append_singleton _ _).symm
  · exact ⟨h, rfl, fun _ => rfl, List.Perm.refl _⟩

theorem clear_inv (p : Partition) :
    p.clear.1.Inv g ∧ p.clear.1.nCells = 0 ∧ (p.clear.1.owned ++ p.clear.2).Perm p.owned :=
  ⟨Inv.of_empty rfl rfl, rfl, by simpa [clear, owned] using (List.reverse_perm _).append_left _⟩

theorem Slab.blocks_eq_nil (hs : p.Slab g) (h : p.slots g = []) : p.blocks = [] := by
  cases hb : p.blocks with
  | nil => rfl
  | cons b bs =>
    obtain ⟨hpos, -, hd⟩ := hs.size b (by simp [hb])
    rw [slots, hb, List.flatMap_cons, slots_last hpos hd] at h
    simp at h

theorem Inv.alloc (h : p.Inv g) (h0 : p.nCells = 0) (n : Nat) :
    (p.alloc n).Inv g ∧ (p.alloc n).owned = p.owned ∧ ∀ j, (p.alloc n).view g j = [] := by
  have hsl : p.slots g = [] := by
    have := h.nodes_perm
    rw [nodes, nodesOf, h0, List.range_zero, List.flatMap_nil] at this
    exact this.symm.eq_nil
  have hb := h.slab.blocks_eq_nil hsl
  have hL : (p.alloc n).Layout fun _ => [] :=
    ⟨fun _ _ => .nil, fun _ _ _ hb => absurd hb (List.not_mem_nil _), by
      rw [nodesOf, List.flatMap_eq_nil_iff.mpr fun _ _ => rfl]; exact List.nodup_nil⟩
  obtain ⟨hI, hc⟩ := inv_of_layout hL (by simp [nodesOf, slots, Partition.alloc, hb])
    (h.slab.congr rfl rfl)
  refine ⟨hI, rfl, fun j => ?_⟩
  simp [view, chainOf, Partition.alloc, fuel, walk, pairs]

/-! ## The page test -/

def pageAlign (g : Geom) (ptr : Nat) : Nat := ptr / g.pageSize * g.pageSize

theorem xor_div_two_pow (a b k : Nat) : (a ^^^ b) / 2 ^ k = a / 2 ^ k ^^^ b / 2 ^ k := by
  induction k with
  | zero => simp
  | succ k ih =>
    rw [Nat.pow_succ, ← Nat.div_div_eq_div_mul, ih, Nat.xor_div_two, Nat.div_div_eq_div_mul,
      Nat.div_div_eq_div_mul]

theorem xor_lt_pageSize_iff {page : Nat} (hp : page % g.pageSize = 0) (rec : Nat) :
    rec ^^^ page < g.pageSize ↔ pageAlign g rec = page := by
  have hps : 0 < g.pageSize := Nat.two_pow_pos _
  rw [← Nat.div_eq_zero_iff hps, Geom.pageSize, xor_div_two_pow, Nat.xor_eq_zero, ← Geom.pageSize,
    pageAlign]
  constructor
  · intro h; rw [h, Nat.div_mul_cancel (Nat.dvd_of_mod_eq_zero hp)]
  · intro h; rw [← h, Nat.mul_div_cancel _ hps]

theorem pageAlign_eq_iff {page : Nat} (hp : page % g.pageSize = 0) (rec : Nat) :
    pageAlign g rec = page ↔ page ≤ rec ∧ rec < page + g.pageSize := by
  have hps : 0 < g.pageSize := Nat.two_pow_pos _
  obtain ⟨k, rfl⟩ := Nat.dvd_of_mod_eq_zero hp
  rw [pageAlign, Nat.mul_comm g.pageSize k]
  constructor
  · intro h
    rw [← h]
    exact ⟨Nat.div_mul_le_self _ _, Nat.lt_div_mul_add hps⟩
  · rintro ⟨hlo, hhi⟩
    rw [Nat.div_eq_of_lt_le hlo (by rw [Nat.succ_mul]; exact hhi)]

theorem keepOffPage_eq {page : Nat} (hp : page % g.pageSize = 0) (x : Nat × Nat) :
    keepOffPage g page x = !decide (page ≤ x.2 ∧ x.2 < page + g.pageSize) := by
  rw [keepOffPage, decide_eq_decide.mpr ((xor_lt_pageSize_iff hp x.2).trans (pageAlign_eq_iff hp x.2))]

/-! ## The room test of `insert` -/

theorem allocNode_isSome : (p.allocNode g).isSome =
    (p.blocks.head?.any (·.freeOffset < g.pageSize - g.nodeSize) || p.spare.isSome) := by
  unfold allocNode allocSpare
  cases p.blocks with
  | nil => simp
  | cons b bs => by_cases hr : b.freeOffset < g.pageSize - g.nodeSize <;> simp [hr]

theorem Inv.top_mem (h : p.Inv g) {b : SlabBlock} {bs : List SlabBlock} (hb : p.blocks = b :: bs) :
    (⟨b.blk, b.freeOffset - g.nodeSize⟩ : Slot) ∈
      p.chainOf g (p.calcHash (p.mem ⟨b.blk, b.freeOffset - g.nodeSize⟩).fold) := by
  obtain ⟨i, hi, hti⟩ := mem_nodesOf.mp (h.nodes_perm.symm.subset (top_mem_slots h.slab hb))
  rwa [h.layout.hash i hi _ hti]

/-! ## Runs from `init()` -/

/-- The states a partition reaches from `init()`, with the blocks taken from the
pool (`acq`) and given back (`ret`); each constructor is one latch-protected operation. -/
inductive Reachable (g : Geom) : Partition → List Nat → List Nat → Prop
  | init : Reachable g init [] []
  | alloc {p acq ret} (n : Nat) : Reachable g p acq ret → p.nCells = 0 →
      Reachable g (p.alloc n) acq ret
  | insert {p q acq ret} (f r : Nat) : Reachable g p acq ret → 0 < p.nCells →
      p.insert g f r = some q → Reachable g q acq ret
  | erase {p q acq ret freed found} (f r : Nat) : Reachable g p acq ret → 0 < p.nCells →
      p.erase g f r = some (q, freed, found) → Reachable g q acq (ret ++ freed.toList)
  | removeAll {p q acq ret freed} (f page : Nat) : Reachable g p acq ret → 0 < p.nCells →
      p.haRemoveAllNodesToPage g f page = some (q, freed) → Reachable g q acq (ret ++ freed)
  | searchAndUpdate {p q acq ret found} (en : Bool) (f d d' : Nat) : Reachable g p acq ret →
      0 < p.nCells → p.haSearchAndUpdateIfFound g en f d d' = some (q, found) →
      Reachable g q acq ret
  | prepareInsert {p acq ret} (en : Bool) (b : Nat) : Reachable g p acq ret → b ∉ p.owned →
      Reachable g (p.prepareInsert en b).1 (acq ++ [b]) (ret ++ (p.prepareInsert en b).2.toList)
  | clear {p acq ret} : Reachable g p acq ret → Reachable g p.clear.1 acq (ret ++ p.clear.2)

theorem ledger_step {own own' ret acq new freed : List Nat} (h : (own ++ ret).Perm acq)
    (hs : (own' ++ freed).Perm (own ++ new)) : (own' ++ (ret ++ freed)).Perm (acq ++ new) :=
  calc List.Perm (own' ++ (ret ++ freed)) ((own' ++ freed) ++ ret) := by
        rw [List.append_assoc]; exact List.perm_append_comm.append_left _
    List.Perm _ ((own ++ new) ++ ret) := hs.append_right _
    List.Perm _ ((own ++ ret) ++ new) := by
        rw [List.append_assoc, List.append_assoc]; exact List.perm_append_comm.append_left _
    List.Perm _ (acq ++ new) := h.append_right _

theorem ledger_give {own own' ret acq freed : List Nat} (h : (own ++ ret).Perm acq)
    (hs : (own' ++ freed).Perm own) : (own' ++ (ret ++ freed)).Perm acq := by
  simpa using ledger_step h (by simpa using hs : (own' ++ freed).Perm (own ++ []))

theorem Reachable.inv_ledger {acq ret : List Nat} (h : Reachable g p acq ret) :
    p.Inv g ∧ (p.owned ++ ret).Perm acq := by
  induction h with
  | init => exact ⟨inv_init, List.Perm.refl _⟩
  | alloc n _ h0 ih =>
    obtain ⟨hI, ho, -⟩ := ih.1.alloc h0 n
    exact ⟨hI, ho ▸ ih.2⟩
  | insert f r _ hn hq ih =>
    obtain ⟨q, hq', hI, ho, -⟩ := ih.1.insert hn f r
    cases hq.symm.trans hq'
    exact ⟨hI, ho ▸ ih.2⟩
  | erase f r _ hn hq ih =>
    obtain ⟨q, freed, hq', hI, -, ho, -⟩ := ih.1.erase hn f r
    cases hq.symm.trans hq'
    exact ⟨hI, ledger_give ih.2 ho⟩
  | removeAll f page _ hn hq ih =>
    obtain ⟨q, freed, hq', hI, -, ho, -⟩ := ih.1.haRemoveAllNodesToPage hn f page
    cases hq.symm.trans hq'
    exact ⟨hI, ledger_give ih.2 ho⟩
  | searchAndUpdate en f d d' _ hn hq ih =>
    obtain ⟨q, hq', hI, ho, -⟩ := ih.1.haSearchAndUpdateIfFound hn en f d d'
    cases hq.symm.trans hq'
    exact ⟨hI, ho ▸ ih.2⟩
  | prepareInsert en b _ hb ih =>
    obtain ⟨hI, -, -, ho⟩ := ih.1.prepareInsert en hb
    exact ⟨hI, ledger_step ih.2 ho⟩
  | @clear p _ _ _ ih =>
    obtain ⟨hI, -, ho⟩ := clear_inv (g := g) p
    exact ⟨hI, ledger_give ih.2 ho⟩

/-- A 16 KiB page and the 24-byte `ahi_node` of a 64-bit build. -/
def ahiGeom : Geom := ⟨14, 24, by decide, by decide⟩

theorem reachable_partition_invariant {acq ret : List Nat} (h : Reachable g p acq ret) :
    p.Inv g ∧ (p.owned ++ ret).Perm acq ∧
      (∀ b bs, p.blocks = b :: bs → (⟨b.blk, b.freeOffset - g.nodeSize⟩ : Slot) ∈
        p.chainOf g (p.calcHash (p.mem ⟨b.blk, b.freeOffset - g.nodeSize⟩).fold)) ∧
      (0 < p.nCells → ∀ f r r' page en, (p.insert g f r).isSome ∧ (p.erase g f r).isSome ∧
        (p.haRemoveAllNodesToPage g f page).isSome ∧
        (p.haSearchAndUpdateIfFound g en f r r').isSome) := by
  obtain ⟨hI, hl⟩ := h.inv_ledger
  refine ⟨hI, hl, fun b bs hb => hI.top_mem hb, fun hn f r r' page en => ⟨?_, ?_, ?_, ?_⟩⟩
  · obtain ⟨q, hq, -⟩ := hI.insert hn f r; simp [hq]
  · obtain ⟨q, _, hq, -⟩ := hI.erase hn f r; simp [hq]
  · obtain ⟨q, _, hq, -⟩ := hI.haRemoveAllNodesToPage hn f page; simp [hq]
  · obtain ⟨q, hq, -⟩ := hI.haSearchAndUpdateIfFound hn en f r r'; simp [hq]

theorem Reachable.insert_getD {acq ret : List Nat} (f r : Nat) (h : Reachable g p acq ret)
    (hn : 0 < p.nCells) : Reachable g ((p.insert g f r).getD Partition.init) acq ret :=
  let ⟨_, hq, _⟩ := h.inv_ledger.1.insert hn f r
  .insert f r h hn (by rw [hq]; rfl)

def threeNodeTable : Partition :=
  ((((((init.alloc 4).prepareInsert true 100).1.insert ahiGeom 1 10).getD init).insert ahiGeom 5 20).getD
    init |>.insert ahiGeom 2 30).getD init

theorem threeNodeTable_reachable : Reachable ahiGeom threeNodeTable [100] [] :=
  (((Reachable.prepareInsert true 100 (.alloc 4 .init rfl) (by decide)).insert_getD 1 10 (by decide)).insert_getD
    5 20 (by decide)).insert_getD 2 30 (by decide)

def relocatedTable : Partition := ((threeNodeTable.erase ahiGeom 1 10).map (·.1)).getD init

theorem reachable_partition_invariant_relocated :
    relocatedTable.Inv ahiGeom ∧ (relocatedTable.owned ++ []).Perm [100] ∧
      (∀ b bs, relocatedTable.blocks = b :: bs →
        (⟨b.blk, b.freeOffset - ahiGeom.nodeSize⟩ : Slot) ∈ relocatedTable.chainOf ahiGeom
          (relocatedTable.calcHash (relocatedTable.mem ⟨b.blk, b.freeOffset - ahiGeom.nodeSize⟩).fold)) ∧
      (0 < relocatedTable.nCells → ∀ f r r' page en, (relocatedTable.insert ahiGeom f r).isSome ∧
        (relocatedTable.erase ahiGeom f r).isSome ∧
        (relocatedTable.haRemoveAllNodesToPage ahiGeom f page).isSome ∧
        (relocatedTable.haSearchAndUpdateIfFound ahiGeom en f r r').isSome) :=
  reachable_partition_invariant
    (@Reachable.erase _ _ relocatedTable _ [] none true 1 10 threeNodeTable_reachable (by decide) rfl)

/-- What each table operation does to the `(fold, rec)` lists of the cells. -/
theorem partition_ops_list_effect (h : p.Inv g) (hn : 0 < p.nCells) {page : Nat}
    (hpage : page % g.pageSize = 0) (f r r' : Nat) (en : Bool) :
    (∃ q, p.insert g f r = some q ∧ ∀ j < p.nCells, q.view g j =
      if j = p.calcHash f then
        cellInsert (p.blocks.head?.any (·.freeOffset < g.pageSize - g.nodeSize) || p.spare.isSome)
          f r (p.view g j)
      else p.view g j) ∧
    (∃ q freed, p.erase g f r = some (q, freed, (p.view g (p.calcHash f)).any (·.2 == r)) ∧
      ∀ j < p.nCells, q.view g j =
        if j = p.calcHash f then (p.view g j).eraseP (·.2 == r) else p.view g j) ∧
    (∃ q freed, p.haRemoveAllNodesToPage g f page = some (q, freed) ∧
      ∀ j < p.nCells, q.view g j =
        if j = p.calcHash f then
          (p.view g j).filter fun x => !decide (page ≤ x.2 ∧ x.2 < page + g.pageSize)
        else p.view g j) ∧
    (∀ rec, rec ^^^ page < g.pageSize ↔ pageAlign g rec = page) ∧
    (∃ q, p.haSearchAndUpdateIfFound g en f r r' =
        some (q, en && (p.view g (p.calcHash f)).any (·.2 == r)) ∧
      ∀ j < p.nCells, q.view g j =
        if en ∧ j = p.calcHash f then setFirst (·.2 == r) r' (p.view g j) else p.view g j) := by
  refine ⟨?_, ?_, ?_, xor_lt_pageSize_iff hpage, ?_⟩
  · obtain ⟨q, hq, -, -, -, hv⟩ := h.insert hn f r
    exact ⟨q, hq, allocNode_isSome (g := g) ▸ hv⟩
  · obtain ⟨q, freed, hq, -, -, -, hv⟩ := h.erase hn f r
    exact ⟨q, freed, hq, hv⟩
  · obtain ⟨q, freed, hq, -, -, -, hv⟩ := h.haRemoveAllNodesToPage hn f page
    refine ⟨q, freed, hq, fun j hj => ?_⟩
    rw [hv j hj, funext (keepOffPage_eq hpage)]
  · obtain ⟨q, hq, -, -, -, hv⟩ := h.haSearchAndUpdateIfFound hn en f r r'
    exact ⟨q, hq, hv⟩

theorem partition_ops_list_effect_relocating :
    (∃ q, threeNodeTable.insert ahiGeom 1 10 = some q ∧ ∀ j < threeNodeTable.nCells, q.view ahiGeom j =
      if j = threeNodeTable.calcHash 1 then
        cellInsert (threeNodeTable.blocks.head?.any (·.freeOffset < ahiGeom.pageSize - ahiGeom.nodeSize) ||
          threeNodeTable.spare.isSome) 1 10 (threeNodeTable.view ahiGeom j)
      else threeNodeTable.view ahiGeom j) ∧
    (∃ q freed, threeNodeTable.erase ahiGeom 1 10 =
        some (q, freed, (threeNodeTable.view ahiGeom (threeNodeTable.calcHash 1)).any (·.2 == 10)) ∧
      ∀ j < threeNodeTable.nCells, q.view ahiGeom j =
        if j = threeNodeTable.calcHash 1 then (threeNodeTable.view ahiGeom j).eraseP (·.2 == 10)
        else threeNodeTable.view ahiGeom j) ∧
    (∃ q freed, threeNodeTable.haRemoveAllNodesToPage ahiGeom 1 0 = some (q, freed) ∧
      ∀ j < threeNodeTable.nCells, q.view ahiGeom j =
        if j = threeNodeTable.calcHash 1 then
          (threeNodeTable.view ahiGeom j).filter fun x => !decide (0 ≤ x.2 ∧ x.2 < 0 + ahiGeom.pageSize)
        else threeNodeTable.view ahiGeom j) ∧
    (∀ rec, rec ^^^ 0 < ahiGeom.pageSize ↔ pageAlign ahiGeom rec = 0) ∧
    (∃ q, threeNodeTable.haSearchAndUpdateIfFound ahiGeom true 1 10 11 =
        some (q, true && (threeNodeTable.view ahiGeom (threeNodeTable.calcHash 1)).any (·.2 == 10)) ∧
      ∀ j < threeNodeTable.nCells, q.view ahiGeom j =
        if true ∧ j = threeNodeTable.calcHash 1 then setFirst (·.2 == 10) 11 (threeNodeTable.view ahiGeom j)
        else threeNodeTable.view ahiGeom j) :=
  partition_ops_list_effect threeNodeTable_reachable.inv_ledger.1 (by decide) (by decide) 1 10 11 true

end Partition

end Innobase
