import Innobase.Chain
import Mathlib.Data.List.Perm.Basic

/-!
# The representation invariant of a partition

`Partition.Inv` is the invariant of claim-level interest: every cell's chain is
finite and its nodes hash to the cell (`Layout.chain`, `Layout.hash`), no two
reachable nodes carry one fold (`Layout.folds`, which also makes the chains
acyclic and pairwise disjoint), the reachable nodes are exactly the allocated
slab slots (`Inv.nodes_perm`), and the slab blocks are well formed and owned
once (`Slab`).

`Layout` is stated for explicit per-cell lists `L`, so that the proof for an
operation can build the lists of the new state and recover `Inv` with
`inv_of_layout`.
-/

namespace Innobase

namespace Partition

def nodesOf (p : Partition) (L : Nat → List Slot) : List Slot :=
  (List.range p.nCells).flatMap L

def nodes (g : Geom) (p : Partition) : List Slot := p.nodesOf (p.chainOf g)

structure Layout (p : Partition) (L : Nat → List Slot) : Prop where
  chain : ∀ i < p.nCells, Chain p.mem (p.cell i) (L i)
  hash : ∀ i < p.nCells, ∀ a ∈ L i, p.calcHash (p.mem a).fold = i
  folds : ((p.nodesOf L).map fun a => (p.mem a).fold).Nodup

structure Slab (g : Geom) (p : Partition) : Prop where
  size : ∀ b ∈ p.blocks, 0 < b.freeOffset ∧ b.freeOffset ≤ g.pageSize ∧ g.nodeSize ∣ b.freeOffset
  full : ∀ b ∈ p.blocks.tail, g.pageSize - g.nodeSize ≤ b.freeOffset
  owned : p.owned.Nodup

structure Inv (g : Geom) (p : Partition) : Prop where
  layout : p.Layout (p.chainOf g)
  nodes_perm : (p.nodes g).Perm (p.slots g)
  slab : p.Slab g

theorem Slab.congr {g : Geom} {p q : Partition} (h : p.Slab g) (hb : q.blocks = p.blocks)
    (hs : q.spare = p.spare) : q.Slab g :=
  ⟨hb ▸ h.size, hb ▸ h.full, by unfold Partition.owned; rw [hb, hs]; exact h.owned⟩

/-! ## Lists of cells -/

theorem flatMap_update_perm {is : List Nat} {i : Nat} (hi : i ∈ is) (hn : is.Nodup)
    (L : Nat → List Slot) (x : List Slot) :
    (is.flatMap (Function.update L i x)).Perm (x ++ is.flatMap (Function.update L i [])) := by
  induction is with
  | nil => cases hi
  | cons j js ih =>
    have hjs := (List.nodup_cons.mp hn)
    simp only [List.flatMap_cons]
    by_cases hj : j = i
    · subst hj
      have : ∀ k ∈ js, Function.update L j x k = Function.update L j [] k := fun k hk => by
        rw [Function.update_noteq (ne_of_mem_of_not_mem hk hjs.1),
          Function.update_noteq (ne_of_mem_of_not_mem hk hjs.1)]
      simp only [Function.update_same, List.nil_append, List.flatMap_congr this, List.Perm.refl]
    · have hi' : i ∈ js := (List.mem_cons.mp hi).resolve_left (Ne.symm hj)
      rw [Function.update_noteq hj, Function.update_noteq hj]
      exact ((ih hi' hjs.2).append_left _).trans (List.perm_append_comm_assoc _ _ _)

theorem nodesOf_update_perm {p : Partition} {i : Nat} (hi : i < p.nCells) (L : Nat → List Slot)
    (x : List Slot) :
    (p.nodesOf (Function.update L i x)).Perm (x ++ p.nodesOf (Function.update L i [])) :=
  flatMap_update_perm (List.mem_range.mpr hi) (List.nodup_range _) L x

theorem nodesOf_perm {p : Partition} {i : Nat} (hi : i < p.nCells) (L : Nat → List Slot) :
    (p.nodesOf L).Perm (L i ++ p.nodesOf (Function.update L i [])) := by
  simpa using nodesOf_update_perm hi L (L i)

theorem nodesOf_of_nCells {p q : Partition} (h : q.nCells = p.nCells) (L : Nat → List Slot) :
    q.nodesOf L = p.nodesOf L := by
  simp [nodesOf, h]

theorem mem_nodesOf {p : Partition} {L : Nat → List Slot} {a : Slot} :
    a ∈ p.nodesOf L ↔ ∃ i < p.nCells, a ∈ L i := by
  simp [nodesOf]

theorem nodesOf_congr {p : Partition} {L L' : Nat → List Slot} (h : ∀ i < p.nCells, L i = L' i) :
    p.nodesOf L = p.nodesOf L' :=
  List.flatMap_congr fun i hi => h i (List.mem_range.mp hi)

theorem length_le_nodesOf {p : Partition} {L : Nat → List Slot} {i : Nat} (hi : i < p.nCells) :
    (L i).length ≤ (p.nodesOf L).length := by
  rw [(nodesOf_perm hi L).length_eq, List.length_append]
  omega

/-! ## Consequences of a layout -/

namespace Layout

variable {p : Partition} {L : Nat → List Slot}

theorem nodup (h : p.Layout L) : (p.nodesOf L).Nodup := h.folds.of_map _

theorem cell_nodup (h : p.Layout L) {i : Nat} (hi : i < p.nCells) : (L i).Nodup :=
  ((nodesOf_perm hi L).nodup_iff.mp h.nodup).sublist (List.sublist_append_left _ _)

theorem cell_eq (h : p.Layout L) {i j : Nat} (hi : i < p.nCells) (hj : j < p.nCells) {a : Slot}
    (hai : a ∈ L i) (haj : a ∈ L j) : i = j :=
  (h.hash i hi a hai).symm.trans (h.hash j hj a haj)

theorem fold_inj (h : p.Layout L) {a b : Slot} (ha : a ∈ p.nodesOf L) (hb : b ∈ p.nodesOf L)
    (he : (p.mem a).fold = (p.mem b).fold) : a = b :=
  List.inj_on_of_nodup_map h.folds ha hb he

theorem disjoint (h : p.Layout L) {i j : Nat} (hi : i < p.nCells) (hj : j < p.nCells) (hij : i ≠ j)
    {a : Slot} (hai : a ∈ L i) : a ∉ L j :=
  fun haj => hij (h.cell_eq hi hj hai haj)

end Layout

theorem inv_of_layout {g : Geom} {p : Partition} {L : Nat → List Slot} (hL : p.Layout L)
    (hp : (p.nodesOf L).Perm (p.slots g)) (hs : p.Slab g) :
    p.Inv g ∧ ∀ i < p.nCells, p.chainOf g i = L i := by
  have hc : ∀ i < p.nCells, p.chainOf g i = L i := fun i hi =>
    (hL.chain i hi).walk_eq (by
      have := length_le_nodesOf (L := L) hi
      rw [hp.length_eq] at this
      simp only [fuel]
      omega)
  have hn : p.nodes g = p.nodesOf L := nodesOf_congr hc
  refine ⟨⟨⟨fun i hi => hc i hi ▸ hL.chain i hi, fun i hi => hc i hi ▸ hL.hash i hi, ?_⟩,
    hn ▸ hp, hs⟩, hc⟩
  rw [← nodes, hn]
  exact hL.folds

/-! ## Slab slots -/

theorem slots_mk_add {ns : Nat} (hns : 0 < ns) (blk fo : Nat) (hd : ns ∣ fo) :
    SlabBlock.slots ns ⟨blk, fo + ns⟩ = SlabBlock.slots ns ⟨blk, fo⟩ ++ [⟨blk, fo⟩] := by
  simp only [SlabBlock.slots, Nat.add_div_right _ hns, List.range_succ, List.map_append,
    List.map_singleton, Nat.div_mul_cancel hd]

theorem off_lt_of_mem_slots {ns : Nat} (hns : 0 < ns) {b : SlabBlock} {a : Slot}
    (ha : a ∈ b.slots ns) : a.blk = b.blk ∧ a.off < b.freeOffset := by
  simp only [SlabBlock.slots, List.mem_map, List.mem_range] at ha
  obtain ⟨k, hk, rfl⟩ := ha
  have h1 : (k + 1) * ns ≤ b.freeOffset := (Nat.mul_le_mul_right ns hk).trans (Nat.div_mul_le_self _ _)
  exact ⟨rfl, show k * ns < _ by rw [Nat.succ_mul] at h1; omega⟩

theorem not_mem_slots {g : Geom} {p : Partition} {a : Slot} (h : a.blk ∉ p.blocks.map (·.blk)) :
    a ∉ p.slots g := by
  simp only [slots, List.mem_flatMap, not_exists, not_and]
  intro b hb ha
  exact h (List.mem_map.mpr ⟨b, hb, (off_lt_of_mem_slots g.nodeSize_pos ha).1.symm⟩)

theorem allocSpare_spec {g : Geom} {p q : Partition} {a : Slot} (hs : p.Slab g)
    (hfull : ∀ b ∈ p.blocks, g.pageSize - g.nodeSize ≤ b.freeOffset)
    (h : p.allocSpare g = some (q, a)) :
    q.nCells = p.nCells ∧ q.cell = p.cell ∧ q.mem = p.mem ∧ a ∉ p.slots g ∧
      (q.slots g).Perm (a :: p.slots g) ∧ q.Slab g ∧ q.owned = p.owned := by
  obtain ⟨s, hsp, he⟩ := Option.map_eq_some'.mp h
  cases he
  have hown : (s :: p.blocks.map (·.blk)).Nodup := by simpa [owned, hsp] using hs.owned
  refine ⟨rfl, rfl, rfl, not_mem_slots (List.nodup_cons.mp hown).1, ?_, ?_, by simp [owned, hsp]⟩
  · simp [slots, SlabBlock.slots, Nat.div_self g.nodeSize_pos, List.range_succ]
  · refine ⟨?_, by simpa using hfull, by simpa [owned] using hown⟩
    simp only [List.mem_cons, forall_eq_or_imp]
    exact ⟨⟨g.nodeSize_pos, g.nodeSize_lt.le, Nat.dvd_refl _⟩, hs.size⟩

theorem allocNode_spec {g : Geom} {p q : Partition} {a : Slot} (hs : p.Slab g)
    (h : p.allocNode g = some (q, a)) :
    q.nCells = p.nCells ∧ q.cell = p.cell ∧ q.mem = p.mem ∧ a ∉ p.slots g ∧
      (q.slots g).Perm (a :: p.slots g) ∧ q.Slab g ∧ q.owned = p.owned := by
  unfold allocNode at h
  split at h
  · rename_i b bs hb
    have hfull : ∀ c ∈ p.blocks.tail, g.pageSize - g.nodeSize ≤ c.freeOffset := hs.full
    rw [hb] at hfull
    split at h
    · rename_i hroom
      cases h
      obtain ⟨hpos, -, hd⟩ := hs.size b (hb ▸ List.mem_cons_self _ _)
      have hown : (b.blk :: bs.map (·.blk)).Nodup := by
        simpa [owned, hb] using (List.nodup_append.mp hs.owned).2.1
      refine ⟨rfl, rfl, rfl, ?_, ?_, ⟨?_, by simpa using hfull, by simpa [owned, hb] using hs.owned⟩,
        by simp [owned, hb]⟩
      · rw [slots, hb, List.flatMap_cons, List.mem_append, not_or]
        exact ⟨fun ha => (off_lt_of_mem_slots g.nodeSize_pos ha).2.ne rfl,
          not_mem_slots (p := { p with blocks := bs }) (List.nodup_cons.mp hown).1⟩
      · simp only [slots, hb, List.flatMap_cons]
        rw [show b = ⟨b.blk, b.freeOffset⟩ from rfl, slots_mk_add g.nodeSize_pos _ _ hd]
        simp
      · simp only [List.mem_cons, forall_eq_or_imp]
        refine ⟨⟨by omega, by omega, Nat.dvd_add hd (Nat.dvd_refl _)⟩, fun c hc => hs.size c (hb ▸ List.mem_cons_of_mem _ hc)⟩
    · rename_i hroom
      exact allocSpare_spec hs (fun c hc => by
        rw [hb] at hc
        rcases List.mem_cons.mp hc with rfl | hc
        · omega
        · exact hfull c hc) h
  · rename_i hb
    exact allocSpare_spec hs (by simp [hb]) h

end Partition

end Innobase
