import Innobase.PartitionInv

/-!
# What each partition operation does to the cells

Each operation of `Partition`, run from a state with `Inv`, returns (its walks
end and dereference no null pointer), keeps `Inv`, and changes the `(fold, rec)`
list of one cell as the list-level operations below say, leaving every other
cell as it was.
-/

namespace Innobase

/-! ## The list-level operations -/

def setFirst (P : Nat × Nat → Bool) (r : Nat) : List (Nat × Nat) → List (Nat × Nat)
  | [] => []
  | x :: xs => if P x then (x.1, r) :: xs else x :: setFirst P r xs

def cellInsert (room : Bool) (fold rec : Nat) (l : List (Nat × Nat)) : List (Nat × Nat) :=
  if l.any (·.1 == fold) then setFirst (·.1 == fold) rec l
  else if room then l ++ [(fold, rec)] else l

theorem setFirst_append {P : Nat × Nat → Bool} {r : Nat} {x : Nat × Nat} {w : List (Nat × Nat)}
    (hx : P x = true) : ∀ {u : List (Nat × Nat)}, (∀ y ∈ u, P y = false) →
      setFirst P r (u ++ x :: w) = u ++ (x.1, r) :: w
  | [], _ => by simp [setFirst, hx]
  | y :: u, hu => by
    rw [List.cons_append, setFirst, if_neg (by simp [hu y (List.mem_cons_self _ _)]),
      setFirst_append hx fun z hz => hu z (List.mem_cons_of_mem _ hz), List.cons_append]

theorem setFirst_of_forall {P : Nat × Nat → Bool} {r : Nat} :
    ∀ {l : List (Nat × Nat)}, (∀ y ∈ l, P y = false) → setFirst P r l = l
  | [], _ => rfl
  | y :: l, hl => by
    rw [setFirst, if_neg (by simp [hl y (List.mem_cons_self _ _)]),
      setFirst_of_forall fun z hz => hl z (List.mem_cons_of_mem _ hz)]

namespace Partition

variable {g : Geom} {p : Partition}

theorem not_mem_of_nodup_middle {u w : List Slot} {a : Slot} (h : (u ++ a :: w).Nodup) :
    a ∉ u ∧ a ∉ w :=
  ⟨fun hm => (List.nodup_append.mp h).2.2 hm (List.mem_cons_self _ _),
    (List.nodup_cons.mp (List.nodup_append.mp h).2.1).1⟩

theorem pairs_append (l l' : List Slot) : p.pairs (l ++ l') = p.pairs l ++ p.pairs l' :=
  List.map_append _ _ _

theorem pairs_cons (a : Slot) (l : List Slot) :
    p.pairs (a :: l) = ((p.mem a).fold, (p.mem a).recPtr) :: p.pairs l := rfl

theorem pairs_congr {q : Partition} {l : List Slot}
    (h : ∀ a ∈ l, (q.mem a).fold = (p.mem a).fold ∧ (q.mem a).recPtr = (p.mem a).recPtr) :
    q.pairs l = p.pairs l :=
  List.map_congr_left fun a ha => by rw [(h a ha).1, (h a ha).2]

/-! ## Facts of an `Inv` state -/

theorem Inv.length_lt_fuel (h : p.Inv g) {i : Nat} (hi : i < p.nCells) :
    (p.chainOf g i).length < p.fuel g := by
  have := length_le_nodesOf (L := p.chainOf g) hi
  rw [show p.nodesOf (p.chainOf g) = p.nodes g from rfl, h.nodes_perm.length_eq] at this
  simp only [fuel]
  omega

theorem Inv.seek_cell (h : p.Inv g) {i : Nat} (hi : i < p.nCells) (P : Slot → Bool) :
    ((∀ a ∈ p.chainOf g i, P a = false) ∧ p.seek P (p.fuel g) (.cell i) = some none) ∨
      ∃ u a w, p.chainOf g i = u ++ a :: w ∧ (∀ b ∈ u, P b = false) ∧ P a = true ∧
        p.seek P (p.fuel g) (.cell i) = some (some (linkAfter (.cell i) u, a)) := by
  have hc := h.layout.chain i hi
  have hl := h.length_lt_fuel hi
  rcases forall_or_split P (p.chainOf g i) with hP | ⟨u, a, w, he, hu, ha⟩
  · exact .inl ⟨hP, seek_of_forall hc rfl hP hl⟩
  · refine .inr ⟨u, a, w, he, hu, ha, seek_of_split ha (he ▸ hc) rfl hu ?_⟩
    rw [he, List.length_append] at hl
    omega

theorem Inv.mem_slots (h : p.Inv g) {i : Nat} (hi : i < p.nCells) {a : Slot}
    (ha : a ∈ p.chainOf g i) : a ∈ p.slots g :=
  h.nodes_perm.subset (mem_nodesOf.mpr ⟨i, hi, ha⟩)

/-! ## `setRec` -/

theorem setRec_next (a b : Slot) (r : Nat) : ((p.setRec a r).mem b).next = (p.mem b).next := by
  by_cases h : b = a <;> simp [setRec, Function.update_apply, h]

theorem setRec_fold (a b : Slot) (r : Nat) : ((p.setRec a r).mem b).fold = (p.mem b).fold := by
  by_cases h : b = a <;> simp [setRec, Function.update_apply, h]

theorem setRec_recPtr (a b : Slot) (r : Nat) :
    ((p.setRec a r).mem b).recPtr = if b = a then r else (p.mem b).recPtr := by
  by_cases h : b = a <;> simp [setRec, Function.update_apply, h]

theorem Inv.setRec (h : p.Inv g) (a : Slot) (r : Nat) :
    (p.setRec a r).Inv g ∧ ∀ i < p.nCells, (p.setRec a r).chainOf g i = p.chainOf g i := by
  refine inv_of_layout (p := p.setRec a r) ⟨fun i hi => ?_, fun i hi b hb => ?_, ?_⟩
    h.nodes_perm (h.slab.congr rfl rfl)
  · exact (h.layout.chain i hi).frame fun b _ => setRec_next a b r
  · rw [setRec_fold]
    exact h.layout.hash i hi b hb
  · simpa only [setRec_fold] using h.layout.folds

theorem Inv.view_setRec (h : p.Inv g) {i : Nat} (hi : i < p.nCells) {u w : List Slot} {a : Slot}
    (he : p.chainOf g i = u ++ a :: w) (r : Nat) :
    (p.setRec a r).view g i = p.pairs u ++ ((p.mem a).fold, r) :: p.pairs w := by
  obtain ⟨hau, haw⟩ := not_mem_of_nodup_middle (he ▸ h.layout.cell_nodup hi)
  have hcong : ∀ l : List Slot, a ∉ l → (p.setRec a r).pairs l = p.pairs l := fun l hl =>
    pairs_congr fun b hb => by
      rw [setRec_fold, setRec_recPtr, if_neg (ne_of_mem_of_not_mem hb hl)]
      exact ⟨rfl, rfl⟩
  rw [view, (h.setRec a r).2 i hi, he, pairs_append, hcong u hau, pairs_cons, hcong w haw,
    setRec_fold, setRec_recPtr, if_pos rfl]

theorem Inv.view_setRec_other (h : p.Inv g) {j : Nat} (hj : j < p.nCells) {a : Slot}
    (ha : a ∉ p.chainOf g j) (r : Nat) : (p.setRec a r).view g j = p.view g j := by
  rw [view, (h.setRec a r).2 j hj, view]
  exact pairs_congr fun b hb => by
    rw [setRec_fold, setRec_recPtr, if_neg (ne_of_mem_of_not_mem hb ha)]
    exact ⟨rfl, rfl⟩

theorem calcHash_lt (hn : 0 < p.nCells) (f : Nat) : p.calcHash f < p.nCells :=
  Nat.mod_lt _ hn

/-! ## `insert` -/

theorem Inv.appendNode (h : p.Inv g) {i : Nat} (hi : i < p.nCells) {f r : Nat}
    (hf : p.calcHash f = i) (hnf : ∀ b ∈ p.chainOf g i, (p.mem b).fold ≠ f) {q : Partition}
    {a : Slot} (ha : p.allocNode g = some (q, a)) :
    ∃ p', q.appendNode g i a f r = some p' ∧ p'.Inv g ∧ p'.owned = p.owned ∧
      p'.nCells = p.nCells ∧
        ∀ j < p.nCells, p'.view g j = if j = i then p.view g i ++ [(f, r)] else p.view g j := by
  obtain ⟨hn, hc, hm, haS, hperm, hsl, how⟩ := allocNode_spec h.slab ha
  set L := p.chainOf g with hL
  set q' : Partition := { q with mem := Function.update q.mem a ⟨f, none, r⟩ } with hq'
  have haL : ∀ j < p.nCells, a ∉ L j := fun j hj ham => haS (h.mem_slots hj ham)
  have hq'm : ∀ b, b ≠ a → q'.mem b = p.mem b := fun b hb => by
    show Function.update q.mem a _ b = p.mem b
    rw [Function.update_noteq hb, hm]
  have hchain : ∀ j < p.nCells, Chain q'.mem (q'.cell j) (L j) := fun j hj => by
    simpa [q', hc, hm] using (h.layout.chain j hj).frame_update (haL j hj) ⟨f, none, r⟩
  have hslots : q'.slots g = q.slots g := rfl
  have hlen : (L i).length < q'.fuel g := by
    have := h.length_lt_fuel hi
    rw [← hL] at this
    simp only [fuel, hslots, hperm.length_eq, List.length_cons] at this ⊢
    omega
  have hseek := seekEnd_eq (l := .cell i) (hchain i hi) rfl hlen
  set p' := q'.write (linkAfter (.cell i) (L i)) (some a) with hp'
  refine ⟨p', ?_, ?_⟩
  · show (q'.seekEnd (q'.fuel g) (.cell i)).bind (fun l => some (q'.write l (some a))) = some p'
    rw [hseek]; rfl
  have hn' : p'.nCells = p.nCells := by rw [hp', write_nCells, ← hn]
  have hpm : ∀ b, b ≠ a → (p'.mem b).fold = (p.mem b).fold ∧ (p'.mem b).recPtr = (p.mem b).recPtr :=
    fun b hb => by rw [hp', write_fold, write_recPtr, hq'm b hb]; exact ⟨rfl, rfl⟩
  have hpa : (p'.mem a).fold = f ∧ (p'.mem a).recPtr = r := by
    rw [hp', write_fold, write_recPtr]
    show (Function.update q.mem a _ a).fold = f ∧ (Function.update q.mem a _ a).recPtr = r
    rw [Function.update_same]; exact ⟨rfl, rfl⟩
  have hnodup := h.layout.cell_nodup hi
  have hzi : Chain q'.mem (some a) [a] :=
    .cons (by show Chain q'.mem (Function.update q.mem a _ a).next []; rw [Function.update_same]; exact .nil)
  let L' := Function.update L i (L i ++ [a])
  have hnP : (p'.nodesOf L').Perm (a :: p.nodesOf L) := by
    rw [nodesOf_of_nCells hn']
    refine (nodesOf_update_perm hi L (L i ++ [a])).trans ?_
    rw [List.append_assoc, List.singleton_append]
    exact List.perm_middle.trans ((nodesOf_perm hi L).symm.cons a)
  have hL' : p'.Layout L' := by
    refine ⟨fun j hj => ?_, fun j hj b hb => ?_, ?_⟩
    · rw [hn'] at hj
      by_cases hji : j = i
      · subst hji
        simpa [L'] using chain_write_linkAfter (w := []) (by simpa using hchain j hj) hnodup hzi
          (fun b hb hba => haL j hj (List.mem_singleton.mp hba ▸ hb))
      · simpa [L', hji] using chain_write_linkAfter_other hji (hchain j hj)
          (fun b hb => h.layout.disjoint hi hj (Ne.symm hji) hb)
    · rw [hn'] at hj
      rw [calcHash, hn', ← calcHash]
      by_cases hji : j = i
      · subst hji
        simp only [L', Function.update_same, List.mem_append, List.mem_singleton] at hb
        rcases hb with hb | rfl
        · rw [(hpm b (ne_of_mem_of_not_mem hb (haL j hj))).1]
          exact h.layout.hash j hj b hb
        · rw [hpa.1]
          exact hf
      · simp only [L', Function.update_noteq hji] at hb
        rw [(hpm b (ne_of_mem_of_not_mem hb (haL j hj))).1]
        exact h.layout.hash j hj b hb
    · refine (hnP.map _).nodup_iff.mpr ?_
      rw [List.map_cons, hpa.1]
      have hcg : (p.nodesOf L).map (fun b => (p'.mem b).fold) =
          (p.nodesOf L).map (fun b => (p.mem b).fold) :=
        List.map_congr_left fun b hb => (hpm b fun e => by
          obtain ⟨j, hj, hbj⟩ := mem_nodesOf.mp hb
          exact haL j hj (e ▸ hbj)).1
      rw [hcg]
      refine List.nodup_cons.mpr ⟨fun hmem => ?_, h.layout.folds⟩
      obtain ⟨b, hb, hbf⟩ := List.mem_map.mp hmem
      obtain ⟨j, hj, hbj⟩ := mem_nodesOf.mp hb
      by_cases hji : j = i
      · exact hnf b (hji ▸ hbj) hbf
      · exact hji ((h.layout.hash j hj b hbj).symm.trans (hbf ▸ hf))
  have hpb : p'.blocks = q.blocks := by rw [hp', write_blocks]
  have hps : p'.spare = q.spare := by rw [hp', write_spare]
  have hs : (p'.nodesOf L').Perm (p'.slots g) := by
    rw [slots, hpb, ← slots]
    exact hnP.trans ((h.nodes_perm.cons a).trans hperm.symm)
  obtain ⟨hI', hc'⟩ := inv_of_layout hL' hs (hsl.congr hpb hps)
  refine ⟨hI', by rw [← how, owned, owned, hpb, hps], hn', fun j hj => ?_⟩
  rw [view, hc' j (hn' ▸ hj)]
  have hcg : ∀ l : List Slot, a ∉ l → p'.pairs l = p.pairs l := fun l hl =>
    pairs_congr fun b hb => hpm b (ne_of_mem_of_not_mem hb hl)
  by_cases hji : j = i
  · subst hji
    simp only [L', Function.update_same, pairs_append, hcg _ (haL j hj), if_pos, view]
    simp [pairs, hpa.1, hpa.2]
  · simp only [L', Function.update_noteq hji, hcg _ (haL j hj), if_neg hji, view]

theorem Inv.insert (h : p.Inv g) (hn : 0 < p.nCells) (f r : Nat) :
    ∃ p', p.insert g f r = some p' ∧ p'.Inv g ∧ p'.owned = p.owned ∧ p'.nCells = p.nCells ∧
      ∀ j < p.nCells, p'.view g j =
        if j = p.calcHash f then cellInsert (p.allocNode g).isSome f r (p.view g j) else p.view g j := by
  have hi := calcHash_lt hn f
  rcases h.seek_cell hi (fun a => (p.mem a).fold == f) with ⟨hP, hseek⟩ | ⟨u, a, w, he, hu, ha, hseek⟩
  · have hany : (p.view g (p.calcHash f)).any (·.1 == f) = false := by
      simpa [view, pairs] using hP
    cases halloc : p.allocNode g with
    | none =>
      refine ⟨p, by simp [Partition.insert, hseek, halloc], h, rfl, rfl, fun j _ => ?_⟩
      split_ifs with hj
      · subst hj; simp [cellInsert, hany]
      · rfl
    | some qa =>
      obtain ⟨q, a⟩ := qa
      obtain ⟨p', hp', hI', how, hn', hv⟩ := h.appendNode hi rfl
        (fun b hb => by simpa using hP b hb) (r := r) halloc
      refine ⟨p', by simp [Partition.insert, hseek, halloc, hp'], hI', how, hn', fun j hj => ?_⟩
      rw [hv j hj]
      split_ifs with hji
      · subst hji; simp [cellInsert, hany]
      · rfl
  · refine ⟨p.setRec a r, by simp [Partition.insert, hseek], (h.setRec a r).1, rfl, rfl, fun j hj => ?_⟩
    have hfa : (p.mem a).fold = f := by simpa using ha
    split_ifs with hji
    · subst hji
      have hu' : ∀ y ∈ p.pairs u, (y.1 == (p.mem a).fold) = false := by
        simpa [pairs, hfa] using hu
      rw [h.view_setRec hj he, view, he, pairs_append, pairs_cons, cellInsert, if_pos (by simp [hfa]),
        setFirst_append (by simp [hfa]) (by simpa [hfa] using hu')]
    · exact h.view_setRec_other hj (fun hm => hji (h.layout.cell_eq hj hi hm
        (he ▸ List.mem_append_right _ (List.mem_cons_self _ _)))) r

end Partition

end Innobase