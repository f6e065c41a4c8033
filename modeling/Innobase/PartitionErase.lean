import Innobase.PartitionOps

/-!
# Erasing a node

`cleanup_after_erase` turns `InvOut`, `Inv` with one unreachable allocated slot,
back into `Inv` without changing any cell's `(fold, rec)` list.
-/

namespace Innobase

namespace Partition

variable {g : Geom} {p : Partition}

/-- `Inv` but for the allocated slot `a`, which no chain reaches. -/
structure InvOut (g : Geom) (p : Partition) (L : Nat → List Slot) (a : Slot) : Prop where
  layout : p.Layout L
  out : a ∉ p.nodesOf L
  perm : (a :: p.nodesOf L).Perm (p.slots g)
  slab : p.Slab g

theorem Layout.congr {q : Partition} {L : Nat → List Slot} (h : p.Layout L) (hm : q.mem = p.mem)
    (hc : q.cell = p.cell) (hn : q.nCells = p.nCells) : q.Layout L := by
  obtain ⟨⟩ := q
  obtain ⟨⟩ := p
  simp only at hm hc hn
  subst hm hc hn
  exact ⟨h.1, h.2, h.3⟩

/-! ## Shrinking the last block -/

theorem slots_last {b : SlabBlock} (hb : 0 < b.freeOffset) (hd : g.nodeSize ∣ b.freeOffset) :
    b.slots g.nodeSize = SlabBlock.slots g.nodeSize ⟨b.blk, b.freeOffset - g.nodeSize⟩ ++
      [⟨b.blk, b.freeOffset - g.nodeSize⟩] := by
  have hle := Nat.le_of_dvd hb hd
  have := slots_mk_add g.nodeSize_pos b.blk (b.freeOffset - g.nodeSize)
    (Nat.dvd_sub' hd (Nat.dvd_refl _))
  rwa [Nat.sub_add_cancel hle] at this

theorem top_mem_slots (hs : p.Slab g) {b : SlabBlock} {bs : List SlabBlock} (hb : p.blocks = b :: bs) :
    (⟨b.blk, b.freeOffset - g.nodeSize⟩ : Slot) ∈ p.slots g := by
  obtain ⟨hpos, -, hd⟩ := hs.size b (hb ▸ List.mem_cons_self _ _)
  rw [slots, hb, List.flatMap_cons, slots_last hpos hd]
  simp

theorem shrinkLast_of_ne {b : SlabBlock} {bs : List SlabBlock} (h0 : b.freeOffset - g.nodeSize ≠ 0) :
    p.shrinkLast g b bs = ({ p with blocks := ⟨b.blk, b.freeOffset - g.nodeSize⟩ :: bs }, none) := by
  simp [shrinkLast, h0]

theorem shrinkLast_of_spare {b : SlabBlock} {bs : List SlabBlock} (h0 : b.freeOffset - g.nodeSize = 0)
    {s : Nat} (hs : p.spare = some s) : p.shrinkLast g b bs = ({ p with blocks := bs }, some b.blk) := by
  simp [shrinkLast, h0, hs]

theorem shrinkLast_of_none {b : SlabBlock} {bs : List SlabBlock} (h0 : b.freeOffset - g.nodeSize = 0)
    (hs : p.spare = none) :
    p.shrinkLast g b bs = ({ p with blocks := bs, spare := some b.blk }, none) := by
  simp [shrinkLast, h0, hs]

theorem InvOut.shrinkLast {L : Nat → List Slot} {b : SlabBlock} {bs : List SlabBlock}
    (h : p.InvOut g L ⟨b.blk, b.freeOffset - g.nodeSize⟩) (hb : p.blocks = b :: bs) :
    (p.shrinkLast g b bs).1.Inv g ∧ (p.shrinkLast g b bs).1.mem = p.mem ∧
      (p.shrinkLast g b bs).1.cell = p.cell ∧ (p.shrinkLast g b bs).1.nCells = p.nCells ∧
      (∀ j < p.nCells, (p.shrinkLast g b bs).1.chainOf g j = L j) ∧
      ((p.shrinkLast g b bs).1.owned ++ (p.shrinkLast g b bs).2.toList).Perm p.owned := by
  obtain ⟨hpos, hps, hd⟩ := h.slab.size b (hb ▸ List.mem_cons_self _ _)
  have hle := Nat.le_of_dvd hpos hd
  have hfull : ∀ c ∈ bs, g.pageSize - g.nodeSize ≤ c.freeOffset := fun c hc =>
    h.slab.full c (by rw [hb]; exact hc)
  have hsz : ∀ c ∈ bs, 0 < c.freeOffset ∧ c.freeOffset ≤ g.pageSize ∧ g.nodeSize ∣ c.freeOffset :=
    fun c hc => h.slab.size c (hb ▸ List.mem_cons_of_mem _ hc)
  have hown := h.slab.owned
  rw [owned, hb] at hown
  -- the reachable nodes are the slots without the top one
  have hperm : (p.nodesOf L).Perm (SlabBlock.slots g.nodeSize ⟨b.blk, b.freeOffset - g.nodeSize⟩ ++
      bs.flatMap (SlabBlock.slots g.nodeSize)) := by
    have := h.perm
    rw [slots, hb, List.flatMap_cons, slots_last hpos hd, List.append_assoc,
      List.singleton_append] at this
    exact (this.trans List.perm_middle).cons_inv
  have key : ∀ q : Partition, q.mem = p.mem → q.cell = p.cell → q.nCells = p.nCells →
      (p.nodesOf L).Perm (q.slots g) → q.Slab g →
        q.Inv g ∧ ∀ j < p.nCells, q.chainOf g j = L j := fun q hm hc hn hq hs => by
    obtain ⟨hI, hch⟩ := inv_of_layout (h.layout.congr hm hc hn) (by rwa [nodesOf_of_nCells hn]) hs
    exact ⟨hI, fun j hj => hch j (hn ▸ hj)⟩
  by_cases h0 : b.freeOffset - g.nodeSize = 0
  · have hnil : SlabBlock.slots g.nodeSize ⟨b.blk, b.freeOffset - g.nodeSize⟩ = [] := by
      simp [SlabBlock.slots, h0]
    rw [hnil, List.nil_append] at hperm
    have hslab : ∀ sp : Option Nat, (sp.toList ++ bs.map (·.blk)).Nodup →
        ({ p with blocks := bs, spare := sp } : Partition).Slab g := fun sp hsp =>
      ⟨hsz, fun c hc => hfull c (List.mem_of_mem_tail hc), hsp⟩
    cases hsp : p.spare with
    | some s =>
      rw [shrinkLast_of_spare h0 hsp]
      rw [hsp] at hown
      have hn : (s :: bs.map (·.blk)).Nodup :=
        (List.nodup_cons.mpr ⟨fun hm => (List.nodup_cons.mp hown).1 (List.mem_cons_of_mem _ hm),
          (List.nodup_cons.mp (List.nodup_cons.mp hown).2).2⟩)
      have hq := key { p with blocks := bs } rfl rfl rfl hperm ((hslab (some s) hn).congr rfl hsp)
      refine ⟨hq.1, rfl, rfl, rfl, hq.2, ?_⟩
      simp only [owned, hsp, hb, Option.toList_some, List.map_cons, List.singleton_append]
      exact (List.perm_append_singleton _ _).trans (List.Perm.swap _ _ _)
    | none =>
      rw [shrinkLast_of_none h0 hsp]
      rw [hsp] at hown
      have hq := key { p with blocks := bs, spare := some b.blk } rfl rfl rfl hperm
        (hslab (some b.blk) (by simpa using hown))
      exact ⟨hq.1, rfl, rfl, rfl, hq.2, by simp [owned, hsp, hb]⟩
  · rw [shrinkLast_of_ne h0]
    have hslab : ({ p with blocks := ⟨b.blk, b.freeOffset - g.nodeSize⟩ :: bs } : Partition).Slab g :=
      ⟨by
        simp only [List.mem_cons, forall_eq_or_imp]
        exact ⟨⟨by omega, by omega, Nat.dvd_sub' hd (Nat.dvd_refl _)⟩, hsz⟩,
        hfull, by simpa [owned, hb] using h.slab.owned⟩
    have hq := key { p with blocks := ⟨b.blk, b.freeOffset - g.nodeSize⟩ :: bs } rfl rfl rfl
      (by simpa [slots] using hperm) hslab
    exact ⟨hq.1, rfl, rfl, rfl, hq.2, by simp [owned, hb]⟩

/-! ## Moving the top node -/

theorem InvOut.moveTop {L : Nat → List Slot} {a top : Slot} (h : p.InvOut g L a) (hne : a ≠ top)
    (ht : top ∈ p.slots g) :
    ∃ q L', p.moveTop g a top = some q ∧ q.InvOut g L' top ∧ q.blocks = p.blocks ∧
      q.spare = p.spare ∧ q.nCells = p.nCells ∧ ∀ j < p.nCells, q.pairs (L' j) = p.pairs (L j) := by
  have htn : top ∈ p.nodesOf L :=
    (List.mem_cons.mp (h.perm.symm.subset ht)).resolve_left (Ne.symm hne)
  obtain ⟨j, hj, htj⟩ := mem_nodesOf.mp htn
  obtain ⟨m₁, m₂, hsplit⟩ := List.append_of_mem htj
  have hnd := hsplit ▸ h.layout.cell_nodup hj
  obtain ⟨htm₁, htm₂⟩ := not_mem_of_nodup_middle hnd
  have haL : ∀ k < p.nCells, a ∉ L k := fun k hk hak => h.out (mem_nodesOf.mpr ⟨k, hk, hak⟩)
  set q0 : Partition := { p with mem := Function.update p.mem a (p.mem top) } with hq0
  have hq0m : ∀ b, q0.mem b = if b = a then p.mem top else p.mem b := fun b => Function.update_apply _ _ _ _
  have hq0top : q0.mem top = p.mem top := by rw [hq0m, if_neg (Ne.symm hne)]
  have hchain : ∀ k < p.nCells, Chain q0.mem (q0.cell k) (L k) := fun k hk =>
    (h.layout.chain k hk).frame_update (haL k hk) _
  have hlen : m₁.length < q0.fuel g := by
    have h1 := length_le_nodesOf (L := L) hj
    have h2 := h.perm.length_eq
    rw [hsplit, List.length_append, List.length_cons] at h1
    simp only [List.length_cons] at h2
    simp only [fuel]
    show m₁.length < (p.slots g).length + 1
    omega
  have hseek : q0.seek (· == top) (q0.fuel g) (.cell (q0.calcHash (q0.mem top).fold)) =
      some (some (linkAfter (.cell j) m₁, top)) := by
    have hcell : q0.calcHash (q0.mem top).fold = j := by
      rw [hq0top]; exact h.layout.hash j hj top htj
    rw [hcell]
    exact seek_of_split (by simp) (hsplit ▸ hchain j hj) rfl
      (fun b hb => by simpa using ne_of_mem_of_not_mem hb htm₁) hlen
  set q := q0.write (linkAfter (.cell j) m₁) (some a) with hq
  have hmove : p.moveTop g a top = some q := by
    show (do
      let some (l, _) ← q0.seek (· == top) (q0.fuel g) (.cell (q0.calcHash (q0.mem top).fold)) | none
      pure (q0.write l (some a))) = some q
    rw [hseek]; rfl
  -- fold and rec of `q`: the copy at `a`, the old nodes elsewhere
  have hqf : ∀ b, (q.mem b).fold = if b = a then (p.mem top).fold else (p.mem b).fold := fun b => by
    rw [hq, write_fold, hq0m]; split <;> rfl
  have hqr : ∀ b, (q.mem b).recPtr = if b = a then (p.mem top).recPtr else (p.mem b).recPtr :=
    fun b => by rw [hq, write_recPtr, hq0m]; split <;> rfl
  have hpairs : ∀ l : List Slot, a ∉ l → q.pairs l = p.pairs l := fun l hl =>
    pairs_congr fun b hb => by simp only [hqf, hqr, if_neg (ne_of_mem_of_not_mem hb hl), and_self]
  have hfolds : ∀ l : List Slot, a ∉ l →
      l.map (fun b => (q.mem b).fold) = l.map (fun b => (p.mem b).fold) :=
    fun l hl => List.map_congr_left fun b hb => by rw [hqf, if_neg (ne_of_mem_of_not_mem hb hl)]
  have hqn : q.nCells = p.nCells := by rw [hq, write_nCells]
  have haR : a ∉ p.nodesOf (Function.update L j []) := fun ha => by
    obtain ⟨k, hk, hak⟩ := mem_nodesOf.mp ha
    by_cases hkj : k = j
    · rw [hkj, Function.update_same] at hak; exact List.not_mem_nil _ hak
    · rw [Function.update_noteq hkj] at hak; exact haL k hk hak
  have hqP : (q.nodesOf (Function.update L j (m₁ ++ a :: m₂))).Perm
      (m₁ ++ a :: m₂ ++ p.nodesOf (Function.update L j [])) := by
    rw [nodesOf_of_nCells hqn]
    exact nodesOf_update_perm hj L (m₁ ++ a :: m₂)
  have hpP : (p.nodesOf L).Perm (m₁ ++ top :: m₂ ++ p.nodesOf (Function.update L j [])) :=
    hsplit ▸ nodesOf_perm hj L
  have ham₁ : a ∉ m₁ := fun hm => haL j hj (hsplit ▸ List.mem_append_left _ hm)
  have ham₂ : a ∉ m₂ := fun hm => haL j hj (hsplit ▸ List.mem_append_right _ (List.mem_cons_of_mem _ hm))
  refine ⟨q, Function.update L j (m₁ ++ a :: m₂), hmove,
    ⟨⟨fun k hk => ?_, fun k hk b hb => ?_, ?_⟩, ?_, ?_, ?_⟩, by rw [hq, write_blocks],
    by rw [hq, write_spare], hqn, fun k hk => ?_⟩
  · -- chains
    rw [hqn] at hk
    by_cases hkj : k = j
    · subst hkj
      rw [Function.update_same]
      refine chain_write_linkAfter (hsplit ▸ hchain k hk) (List.nodup_append.mp hnd).1
        (.cons ?_) (fun b hb hb' => ?_)
      · rw [hq0m, if_pos rfl]
        exact (hsplit ▸ h.layout.chain k hk : Chain p.mem _ (m₁ ++ top :: m₂)).of_append.frame_update
          ham₂ _
      · rcases List.mem_cons.mp hb' with rfl | hb'
        · exact ham₁ hb
        · exact (List.nodup_append.mp hnd).2.2 hb (List.mem_cons_of_mem _ hb')
    · rw [Function.update_noteq hkj]
      exact chain_write_linkAfter_other hkj (hchain k hk) fun b hb =>
        h.layout.disjoint hj hk (Ne.symm hkj) (hsplit ▸ List.mem_append_left _ hb)
  · -- hashing
    rw [hqn] at hk
    rw [calcHash, hqn, ← calcHash, hqf]
    by_cases hkj : k = j
    · subst hkj
      rw [Function.update_same] at hb
      split_ifs with hba
      · exact h.layout.hash k hk top htj
      · exact h.layout.hash k hk b (hsplit ▸ by
          rcases List.mem_append.mp hb with hb | hb
          · exact List.mem_append_left _ hb
          · exact List.mem_append_right _
              (List.mem_cons_of_mem _ ((List.mem_cons.mp hb).resolve_left hba)))
    · rw [Function.update_noteq hkj] at hb
      rw [if_neg (ne_of_mem_of_not_mem hb (haL k hk))]
      exact h.layout.hash k hk b hb
  · -- folds
    refine (hqP.map _).nodup_iff.mpr ?_
    have := (hpP.map (fun b => (p.mem b).fold)).nodup_iff.mp h.layout.folds
    simp only [List.map_append, List.map_cons] at this ⊢
    rwa [hfolds m₁ ham₁, hfolds m₂ ham₂, hfolds _ haR, hqf, if_pos rfl]
  · -- `top` is now out of every chain
    intro hm
    rcases List.mem_append.mp (hqP.subset hm) with hm | hm
    · rcases List.mem_append.mp hm with hm | hm
      · exact htm₁ hm
      · rcases List.mem_cons.mp hm with rfl | hm
        · exact hne rfl
        · exact htm₂ hm
    · obtain ⟨k, hk, hkt⟩ := mem_nodesOf.mp hm
      by_cases hkj : k = j
      · rw [hkj, Function.update_same] at hkt; exact List.not_mem_nil _ hkt
      · rw [Function.update_noteq hkj] at hkt
        exact h.layout.disjoint hj hk (Ne.symm hkj) htj hkt
  · -- the slots
    rw [slots, hq, write_blocks, ← slots]
    refine ((hqP.cons top).trans ?_).trans h.perm
    rw [List.append_assoc] at hpP ⊢
    exact (List.perm_middle.cons top).trans ((List.Perm.swap _ _ _).trans
      ((List.perm_middle.symm.trans hpP.symm).cons a))
  · exact h.slab.congr (by rw [hq, write_blocks]) (by rw [hq, write_spare])
  · -- the lists of pairs
    by_cases hkj : k = j
    · subst hkj
      rw [Function.update_same, hsplit, pairs_append, pairs_append, hpairs m₁ ham₁, pairs_cons,
        pairs_cons, hpairs m₂ ham₂, hqf, hqr, if_pos rfl, if_pos rfl]
    · rw [Function.update_noteq hkj, hpairs _ (haL k hk)]

/-! ## `cleanup_after_erase` -/

theorem InvOut.cleanupAfterErase {L : Nat → List Slot} {a : Slot} (h : p.InvOut g L a) :
    ∃ q freed, p.cleanupAfterErase g a = some (q, freed) ∧ q.Inv g ∧ q.nCells = p.nCells ∧
      (∀ j < p.nCells, q.view g j = p.pairs (L j)) ∧ (q.owned ++ freed.toList).Perm p.owned := by
  obtain ⟨b, bs, hb⟩ : ∃ b bs, p.blocks = b :: bs := by
    have ha : a ∈ p.slots g := h.perm.subset (List.mem_cons_self _ _)
    cases hbl : p.blocks with
    | nil => simp [slots, hbl] at ha
    | cons b bs => exact ⟨b, bs, rfl⟩
  have ht := top_mem_slots h.slab hb
  -- after the move the top slot is the one out of every chain
  obtain ⟨q, L', hq, hout, hqb, hqs, hqn, hpairs⟩ : ∃ q L',
      (if a = ⟨b.blk, b.freeOffset - g.nodeSize⟩ then pure p
        else p.moveTop g a ⟨b.blk, b.freeOffset - g.nodeSize⟩) = some q ∧
      q.InvOut g L' ⟨b.blk, b.freeOffset - g.nodeSize⟩ ∧ q.blocks = p.blocks ∧ q.spare = p.spare ∧
      q.nCells = p.nCells ∧ ∀ j < p.nCells, q.pairs (L' j) = p.pairs (L j) := by
    by_cases hat : a = ⟨b.blk, b.freeOffset - g.nodeSize⟩
    · exact ⟨p, L, if_pos hat, hat ▸ h, rfl, rfl, rfl, fun _ _ => rfl⟩
    · rw [if_neg hat]; exact h.moveTop hat ht
  obtain ⟨hI, hm, -, hn, hch, hown⟩ := hout.shrinkLast (hqb.trans hb)
  refine ⟨_, (q.shrinkLast g b bs).2, ?_, hI, hn.trans hqn, fun j hj => ?_, ?_⟩
  · simp only [Partition.cleanupAfterErase, hb]
    split_ifs at hq ⊢
    · cases hq; rfl
    · rw [hq]; rfl
  · rw [view, hch j (hqn ▸ hj), pairs, hm, ← pairs, hpairs j hj]
  · have : q.owned = p.owned := by unfold Partition.owned; rw [hqb, hqs]
    exact this ▸ hown

/-! ## Unlinking -/

@[simp] theorem unlink_fold (l : Link) (a b : Slot) : ((p.unlink l a).mem b).fold = (p.mem b).fold := by
  simp only [unlink, write_fold]

@[simp] theorem unlink_recPtr (l : Link) (a b : Slot) :
    ((p.unlink l a).mem b).recPtr = (p.mem b).recPtr := by
  simp only [unlink, write_recPtr]

@[simp] theorem unlink_blocks (l : Link) (a : Slot) : (p.unlink l a).blocks = p.blocks := by
  simp only [unlink, write_blocks]

@[simp] theorem unlink_spare (l : Link) (a : Slot) : (p.unlink l a).spare = p.spare := by
  simp only [unlink, write_spare]

@[simp] theorem unlink_nCells (l : Link) (a : Slot) : (p.unlink l a).nCells = p.nCells := by
  simp only [unlink, write_nCells]

theorem pairs_unlink (l : Link) (a : Slot) (xs : List Slot) : (p.unlink l a).pairs xs = p.pairs xs :=
  pairs_congr fun _ _ => ⟨unlink_fold _ _ _, unlink_recPtr _ _ _⟩

theorem Inv.unlink (h : p.Inv g) {i : Nat} (hi : i < p.nCells) {u w : List Slot} {a : Slot}
    (hs : p.chainOf g i = u ++ a :: w) :
    (p.unlink (linkAfter (.cell i) u) a).InvOut g (Function.update (p.chainOf g) i (u ++ w)) a := by
  have hci : Chain p.mem (p.cell i) (u ++ a :: w) := hs ▸ h.layout.chain i hi
  have hnd := hs ▸ h.layout.cell_nodup hi
  obtain ⟨hau, haw⟩ := not_mem_of_nodup_middle hnd
  have hauw : a ∉ u ++ w := fun hm => (List.mem_append.mp hm).elim hau haw
  have huw : ∀ b ∈ u, b ∉ w := fun b hb hbw =>
    (List.nodup_append.mp hnd).2.2 hb (List.mem_cons_of_mem _ hbw)
  -- the old nodes are `a` and the nodes of the new layout
  have hP : (p.nodes g).Perm (a :: p.nodesOf (Function.update (p.chainOf g) i (u ++ w))) := by
    refine (nodesOf_perm hi _).trans ?_
    rw [hs, List.append_assoc, List.cons_append]
    exact List.perm_middle.trans
      ((List.append_assoc u w _ ▸ (nodesOf_update_perm hi _ (u ++ w)).symm).cons a)
  have hnd' := hP.nodup_iff.mp h.layout.nodup
  refine ⟨⟨fun k hk => ?_, fun k hk b hb => ?_, ?_⟩, ?_, ?_, h.slab.congr (unlink_blocks _ _) (unlink_spare _ _)⟩
  · -- chains
    rw [unlink_nCells] at hk
    by_cases hki : k = i
    · subst hki
      rw [Function.update_same]
      exact (chain_write_linkAfter hci (List.nodup_append.mp hnd).1 hci.of_append huw).frame_update
        hauw _
    · rw [Function.update_noteq hki]
      exact (chain_write_linkAfter_other hki (h.layout.chain k hk) fun b hb =>
        h.layout.disjoint hi hk (Ne.symm hki) (hs ▸ List.mem_append_left _ hb)).frame_update
          (h.layout.disjoint hi hk (Ne.symm hki) (hs ▸ List.mem_append_right _ (List.mem_cons_self _ _))) _
  · -- hashing
    rw [unlink_nCells] at hk
    rw [calcHash, unlink_nCells, ← calcHash, unlink_fold]
    refine h.layout.hash k hk b ?_
    by_cases hki : k = i
    · subst hki
      rw [Function.update_same] at hb
      rw [hs]
      rcases List.mem_append.mp hb with hb | hb
      · exact List.mem_append_left _ hb
      · exact List.mem_append_right _ (List.mem_cons_of_mem _ hb)
    · rwa [Function.update_noteq hki] at hb
  · -- folds
    rw [nodesOf_of_nCells (unlink_nCells _ _)]
    simp only [unlink_fold]
    exact ((hP.map _).nodup_iff.mp h.layout.folds).of_cons
  · rw [nodesOf_of_nCells (unlink_nCells _ _)]
    exact (List.nodup_cons.mp hnd').1
  · rw [nodesOf_of_nCells (unlink_nCells _ _), slots, unlink_blocks, ← slots]
    exact hP.symm.trans h.nodes_perm

/-! ## `erase` -/

theorem owned_unlink (l : Link) (a : Slot) : (p.unlink l a).owned = p.owned := by
  unfold Partition.owned; rw [unlink_blocks, unlink_spare]

theorem Inv.erase (h : p.Inv g) (hn : 0 < p.nCells) (f r : Nat) :
    ∃ q freed, p.erase g f r = some (q, freed, (p.view g (p.calcHash f)).any (·.2 == r)) ∧
      q.Inv g ∧ q.nCells = p.nCells ∧ (q.owned ++ freed.toList).Perm p.owned ∧
      ∀ j < p.nCells, q.view g j =
        if j = p.calcHash f then (p.view g j).eraseP (·.2 == r) else p.view g j := by
  have hi := calcHash_lt hn f
  rcases h.seek_cell hi (fun a => (p.mem a).recPtr == r) with
    ⟨hall, hseek⟩ | ⟨u, a, w, hs, hu, ha, hseek⟩
  · -- no pair of the cell has rec `r`
    have hnone : ∀ x ∈ p.view g (p.calcHash f), ¬(x.2 == r) = true := by
      simpa [view, pairs] using hall
    have hany : (p.view g (p.calcHash f)).any (·.2 == r) = false := List.any_eq_false.mpr hnone
    refine ⟨p, none, by simp [Partition.erase, hseek, hany], h, rfl, by simp, fun j _ => ?_⟩
    split_ifs with hj
    · subst hj; exact (List.eraseP_of_forall_not hnone).symm
    · rfl
  · obtain ⟨q, freed, hc, hI, hqn, hv, hown⟩ := (h.unlink hi hs).cleanupAfterErase
    have hany : (p.view g (p.calcHash f)).any (·.2 == r) = true :=
      List.any_eq_true.mpr ⟨((p.mem a).fold, (p.mem a).recPtr), by
        rw [view, hs, pairs_append, pairs_cons]; simp, ha⟩
    refine ⟨q, freed, ?_, hI, by rw [hqn, unlink_nCells], owned_unlink (p := p) _ _ ▸ hown,
      fun j hj => ?_⟩
    · simp only [Partition.erase, hseek, hany]
      rw [Option.bind_eq_bind, Option.some_bind]
      simp only [hc]
      rfl
    · rw [hv j (by rwa [unlink_nCells]), pairs_unlink]
      split_ifs with hji
      · subst hji
        have hu' : ∀ x ∈ p.pairs u, ¬(x.2 == r) = true := by simpa [pairs] using hu
        rw [Function.update_same, view, hs, pairs_append, pairs_append, pairs_cons,
          List.eraseP_append_right _ hu', List.eraseP_cons_of_pos (by simpa using ha)]
      · rw [Function.update_noteq hji]; rfl

/-! ## `ha_remove_all_nodes_to_page` -/

def keepOffPage (g : Geom) (page : Nat) (x : Nat × Nat) : Bool := !decide (x.2 ^^^ page < g.pageSize)

theorem calcHash_congr {q : Partition} (h : q.nCells = p.nCells) (f : Nat) :
    q.calcHash f = p.calcHash f := by
  rw [calcHash, calcHash, h]

theorem haRemoveAllNodesToPage_go_spec (fold page : Nat) :
    ∀ (n : Nat) (p : Partition) (acc : List Nat), p.Inv g → 0 < p.nCells →
      (p.chainOf g (p.calcHash fold)).length < n →
      ∃ q freed, haRemoveAllNodesToPage.go g fold page n p acc = some (q, acc ++ freed) ∧
        q.Inv g ∧ q.nCells = p.nCells ∧ (q.owned ++ freed).Perm p.owned ∧
        ∀ j < p.nCells, q.view g j =
          if j = p.calcHash fold then (p.view g j).filter (keepOffPage g page) else p.view g j
  | 0, _, _, _, _, hl => absurd hl (Nat.not_lt_zero _)
  | n + 1, p, acc, h, hn, hl => by
    have hi := calcHash_lt hn fold
    rcases h.seek_cell hi (fun a => decide ((p.mem a).recPtr ^^^ page < g.pageSize)) with
      ⟨hall, hseek⟩ | ⟨u, a, w, hs, hu, ha, hseek⟩
    · refine ⟨p, [], by simp [haRemoveAllNodesToPage.go, hseek], h, rfl, by simp, fun j _ => ?_⟩
      split_ifs with hj
      · subst hj
        refine (List.filter_eq_self.mpr fun x hx => ?_).symm
        simp only [view, pairs, List.mem_map] at hx
        obtain ⟨b, hb, rfl⟩ := hx
        simpa [keepOffPage] using hall b hb
      · rfl
    · obtain ⟨q₁, b, hc, hI₁, hn₁, hv₁, hown₁⟩ := (h.unlink hi hs).cleanupAfterErase
      simp only [unlink_nCells, pairs_unlink] at hn₁ hv₁
      have hv₁i : q₁.view g (p.calcHash fold) = p.pairs (u ++ w) := by
        rw [hv₁ _ hi, Function.update_same]
      have hl₁ : (q₁.chainOf g (q₁.calcHash fold)).length < n := by
        have := congrArg List.length hv₁i
        rw [view, pairs, List.length_map, pairs, List.length_map] at this
        rw [calcHash_congr hn₁, this]
        rw [hs] at hl
        simp only [List.length_append, List.length_cons] at hl ⊢
        omega
      obtain ⟨q, freed, hgo, hI, hqn, hown, hv⟩ :=
        haRemoveAllNodesToPage_go_spec fold page n q₁ (acc ++ b.toList) hI₁ (hn₁ ▸ hn) hl₁
      refine ⟨q, b.toList ++ freed, ?_, hI, hqn.trans hn₁, ?_, fun j hj => ?_⟩
      · simp only [haRemoveAllNodesToPage.go, hseek]
        rw [Option.bind_eq_bind, Option.some_bind]
        simp only [hc]
        exact hgo.trans (by rw [List.append_assoc])
      · refine (List.perm_append_comm.append_left _).trans ?_
        rw [← List.append_assoc]
        exact (hown.append_right _).trans (owned_unlink (p := p) _ _ ▸ hown₁)
      · rw [hv j (hn₁ ▸ hj), calcHash_congr hn₁, hv₁ j hj]
        split_ifs with hji
        · subst hji
          have hu' : ∀ x ∈ p.pairs u, keepOffPage g page x = true := by
            simpa [pairs, keepOffPage] using hu
          rw [Function.update_same, view, hs, pairs_append, pairs_append, pairs_cons,
            List.filter_append, List.filter_append, List.filter_cons_of_neg (by simpa [keepOffPage] using ha),
            List.filter_eq_self.mpr hu']
        · rw [Function.update_noteq hji]; rfl

theorem Inv.haRemoveAllNodesToPage (h : p.Inv g) (hn : 0 < p.nCells) (fold page : Nat) :
    ∃ q freed, p.haRemoveAllNodesToPage g fold page = some (q, freed) ∧ q.Inv g ∧
      q.nCells = p.nCells ∧ (q.owned ++ freed).Perm p.owned ∧
      ∀ j < p.nCells, q.view g j =
        if j = p.calcHash fold then (p.view g j).filter (keepOffPage g page) else p.view g j := by
  obtain ⟨q, freed, hgo, hrest⟩ := haRemoveAllNodesToPage_go_spec fold page _ p [] h hn
    (h.length_lt_fuel (calcHash_lt hn fold))
  exact ⟨q, freed, by rw [Partition.haRemoveAllNodesToPage, hgo, List.nil_append], hrest⟩

end Partition

end Innobase
