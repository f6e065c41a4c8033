import Innobase.Insert
import Mathlib.Data.List.Sort
import Mathlib.Data.List.Dedup

/-!
# Reference counts of the indexes

`search_info.ref_count` counts the blocks hashed for an index. Over any
interleaving of the latched sections every count is exact, except between the
two halves of `btr_sea::disable`, where the counts are zero while blocks stay hashed.
-/

namespace Innobase

namespace Ahi

/-! ## The lifecycle operations -/

def refs (pool : List Nat) (block : Nat → BlockAhi) (i : Nat) : Nat :=
  pool.countP fun b => (block b).index = some i

def garbage (pool : List Nat) (s : Ahi) : List Nat :=
  (((pool.filterMap fun b => (s.block b).index).filter fun i => (s.index i).freed).dedup).insertionSort
    (· ≤ ·)

/-- `btr_sea::disable()` up to `dict_sys.unfreeze()`; the AHI latches stay held. -/
def disable (s : Ahi) : Ahi :=
  if !s.enabled then s
  else { s with
    enabled := false
    index := fun i => { s.index i with
      refCount := if (s.index i).freed then (s.index i).refCount else 0 }
    disabling := true }

/-- The rest of `btr_sea::disable()`: `buf_pool.clear_hash_index()` and `btr_search.clear()`. -/
def disableClear (pool : List Nat) (s : Ahi) : Ahi :=
  { s with
    part := s.part.clear.1
    block := fun b => if b ∈ pool then { s.block b with index := none } else s.block b
    lazyFreed := s.lazyFreed ++ garbage pool s
    disabling := false }

def enable (s : Ahi) (resize changed : Bool) (nCells : Nat) : Ahi :=
  if !resize && changed then s
  else if 0 < s.part.nCells then s
  else { s with part := s.part.alloc nCells, enabled := true }

/-- What the AHI sees of `dict_index_remove_from_cache_low`, whose code is not
under `src/`: an index with AHI pages is marked freed, another is freed at once. -/
def dictIndexRemove (s : Ahi) (i : Nat) : Ahi :=
  if (s.index i).refCount = 0 then { s with dictFreed := s.dictFreed ++ [i] }
  else { s with index := Function.update s.index i { s.index i with freed := true } }

structure TableOk (g : Geom) (s : Ahi) (acq ret : List Nat) : Prop where
  reachable : Partition.Reachable g s.part acq ret
  cells_pos : s.enabled = true → 0 < s.part.nCells

/-! ## Runs of latched sections -/

/-- One latched section of the AHI on the buffer pool `pool`, or a step of the
dictionary; no section but the end of `disable` runs while `disable` holds the latches. -/
inductive Step (g : Geom) (maxNFields : Nat) (pool : List Nat) : Ahi → Ahi → Prop
  | build {s s' : Ahi} {i b nFields nBytes : Nat} {leftSide : Bool} {pairs : List (Nat × Nat)} :
      s.disabling = false → b ∈ pool → (s.block b).index = none ∨ (s.block b).index = some i →
      i ∉ s.lazyFreed → s.buildSection g maxNFields i b nFields nBytes leftSide pairs = some s' →
      Step g maxNFields pool s s'
  | drop {s s' : Ahi} {b i nFields nBytes frame : Nat} {folds : List Nat} : s.disabling = false →
      s.dropSection g b i nFields nBytes folds frame = some s' → Step g maxNFields pool s s'
  | prepare {s : Ahi} (spare : Nat) : spare ∉ s.part.owned →
      Step g maxNFields pool s { s with part := (s.part.prepareInsert s.enabled spare).1 }
  | insert {s : Ahi} {p : Partition} (f r : Nat) : s.disabling = false → s.enabled = true →
      s.part.insert g f r = some p → Step g maxNFields pool s { s with part := p }
  | erase {s : Ahi} {q : Partition × Option Nat × Bool} (f r : Nat) : s.disabling = false →
      s.enabled = true → s.part.erase g f r = some q → Step g maxNFields pool s { s with part := q.1 }
  | update {s : Ahi} {q : Partition × Bool} (f r r' : Nat) : s.disabling = false →
      s.enabled = true → s.part.haSearchAndUpdateIfFound g s.enabled f r r' = some q →
      Step g maxNFields pool s { s with part := q.1 }
  | disable {s : Ahi} : s.disabling = false → Step g maxNFields pool s s.disable
  | disableClear {s : Ahi} : s.disabling = true → Step g maxNFields pool s (s.disableClear pool)
  | enable {s : Ahi} (resize changed : Bool) (nCells : Nat) : s.disabling = false → 0 < nCells →
      Step g maxNFields pool s (s.enable resize changed nCells)
  | dictIndexRemove {s : Ahi} (i : Nat) : (s.index i).freed = false → i ∉ s.dictFreed →
      Step g maxNFields pool s (s.dictIndexRemove i)

inductive Reachable (g : Geom) (maxNFields : Nat) (pool : List Nat) : Ahi → Prop
  | start {s : Ahi} {acq ret : List Nat} : (∀ b, (s.block b).index = none) →
      (∀ i, (s.index i).refCount = 0 ∧ (s.index i).freed = false) → s.lazyFreed = [] →
      s.dictFreed = [] → s.disabling = false → TableOk g s acq ret → Reachable g maxNFields pool s
  | step {s s' : Ahi} : Reachable g maxNFields pool s → Step g maxNFields pool s s' →
      Reachable g maxNFields pool s'

/-- Outside `disable`'s window every index not freed lazily counts its hashed blocks. -/
structure RefCounts (pool : List Nat) (s : Ahi) : Prop where
  off_pool : ∀ b, b ∉ pool → (s.block b).index = none
  exact : ∀ i, i ∉ s.lazyFreed → (s.disabling = false ∨ (s.index i).freed = true) →
    (s.index i).refCount = refs pool s.block i
  window : s.disabling = true → s.enabled = false ∧
    ∀ i, (s.index i).freed = false → (s.index i).refCount = 0
  freed_pos : ∀ i, (s.index i).freed = true → i ∉ s.lazyFreed → 0 < (s.index i).refCount
  lazy_unref : ∀ i ∈ s.lazyFreed, refs pool s.block i = 0
  lazy_nodup : s.lazyFreed.Nodup
  disabled_unhashed : s.enabled = false → s.disabling = false → ∀ b, (s.block b).index = none

/-! ## What each section does to the counts -/

variable {g : Geom} {maxNFields : Nat} {pool : List Nat} {s s' : Ahi}

theorem refs_update (hp : pool.Nodup) {b : Nat} (hb : b ∈ pool) (block : Nat → BlockAhi)
    (v : BlockAhi) (i : Nat) :
    refs pool (Function.update block b v) i + (if (block b).index = some i then 1 else 0) =
      refs pool block i + (if v.index = some i then 1 else 0) := by
  have hperm := List.perm_cons_erase hb
  have hrest : refs (pool.erase b) (Function.update block b v) i = refs (pool.erase b) block i :=
    List.countP_congr fun c hc => by
      rw [Function.update_noteq fun e => hp.not_mem_erase (e ▸ hc)]
  unfold refs at hrest ⊢
  rw [hperm.countP_eq, hperm.countP_eq, List.countP_cons, List.countP_cons, hrest,
    Function.update_same]
  simp only [decide_eq_true_eq]
  omega

theorem refs_pos_iff {block : Nat → BlockAhi} {i : Nat} :
    0 < refs pool block i ↔ ∃ b ∈ pool, (block b).index = some i := by
  simp [refs]

theorem mem_garbage {i : Nat} :
    i ∈ garbage pool s ↔ 0 < refs pool s.block i ∧ (s.index i).freed = true := by
  rw [garbage, (List.perm_insertionSort _ _).mem_iff, List.mem_dedup, List.mem_filter, refs_pos_iff,
    List.mem_filterMap, and_comm]

theorem garbage_nodup : (garbage pool s).Nodup :=
  (List.perm_insertionSort _ _).nodup_iff.2 (List.nodup_dedup _)

theorem buildSection_eq {i b nFields nBytes : Nat} {leftSide : Bool} {pairs : List (Nat × Nat)}
    (h : s.buildSection g maxNFields i b nFields nBytes leftSide pairs = some s') :
    s' = s ∨ s.enabled = true ∧ ((s.block b).index.isSome → (s.block b).currNFields = nFields ∧
      (s.block b).currNBytes = nBytes ∧ (s.block b).currLeftSide = leftSide) ∧
      ∃ part, insertAll g s.part pairs = some part ∧ s' = { s with
      part
      block := Function.update s.block b
        ⟨some i, nFields &&& maxNFields, nBytes &&& (2 ^ 15 - 1), leftSide⟩
      index := if (s.block b).index.isNone then
          Function.update s.index i { s.index i with refCount := (s.index i).refCount + 1 }
        else s.index
      help := Function.update s.help b { s.help b with nHashHelps := 0 } } := by
  unfold buildSection at h
  rcases ite_eq_iff.1 h with ⟨-, h⟩ | ⟨hen, h⟩
  · exact .inl (Option.some_inj.1 h).symm
  rcases ite_eq_iff.1 h with ⟨-, h⟩ | ⟨hsig, h⟩
  · exact .inl (Option.some_inj.1 h).symm
  obtain ⟨part, hp, h⟩ := Option.bind_eq_some.1 h
  exact .inr ⟨by simpa using hen, fun hb => by simpa [hb, and_assoc] using hsig, part, hp, (Option.some_inj.1 h).symm⟩

theorem dropSection_eq {b i nFields nBytes frame : Nat} {folds : List Nat}
    (h : s.dropSection g b i nFields nBytes folds frame = some s') :
    s' = s ∧ ((s.block b).index = none ∨ (s.block b).currNFields ≠ nFields ∨ (s.block b).currNBytes ≠ nBytes) ∨
    (s.block b).index = some i ∧ (s.block b).currNFields = nFields ∧ (s.block b).currNBytes = nBytes ∧
      ∃ part freed k,
      removeAllFolds g frame s.part folds = some (part, freed) ∧ (s.index i).refCount = k + 1 ∧
      s' = { s with
        part
        block := Function.update s.block b { s.block b with index := none }
        index := Function.update s.index i { s.index i with refCount := k }
        lazyFreed := if k = 0 ∧ (s.index i).freed then s.lazyFreed ++ [i] else s.lazyFreed } := by
  unfold dropSection at h
  split at h
  next hnone => exact .inl ⟨(Option.some_inj.1 h).symm, .inl hnone⟩
  next j hj =>
  rcases ite_eq_iff.1 h with ⟨-, h⟩ | ⟨hji, h⟩
  · cases h
  rcases ite_eq_iff.1 h with ⟨hsig, h⟩ | ⟨hsig, h⟩
  · exact .inl ⟨(Option.some_inj.1 h).symm, .inr hsig⟩
  obtain ⟨⟨part, freed⟩, hr, h⟩ := Option.bind_eq_some.1 h
  obtain ⟨hf, hb⟩ := not_or.1 hsig
  cases hk : (s.index i).refCount with
  | zero => rw [hk] at h; cases h
  | succ k =>
    rw [hk] at h
    exact .inr ⟨not_not.1 hji ▸ hj, not_not.1 hf, not_not.1 hb, part, freed, k, hr, rfl,
      (Option.some_inj.1 h).symm⟩

/-! ## The table stays one the partition reaches -/

theorem insertAll_reachable {acq ret : List Nat} :
    ∀ (pairs : List (Nat × Nat)) {p q : Partition}, Partition.Reachable g p acq ret →
      0 < p.nCells → insertAll g p pairs = some q →
      Partition.Reachable g q acq ret ∧ q.nCells = p.nCells
  | [], _, _, h, _, e => by cases e; exact ⟨h, rfl⟩
  | (f, r) :: l, p, q, h, hn, e => by
    obtain ⟨p₁, e₁, e⟩ := Option.bind_eq_some.1 e
    obtain ⟨p₁', e₁', -, -, hn₁, -⟩ := h.inv_ledger.1.insert hn f r
    obtain rfl : p₁' = p₁ := Option.some_inj.1 (e₁'.symm.trans e₁)
    obtain ⟨h', hq⟩ := insertAll_reachable l (h.insert f r hn e₁) (hn₁ ▸ hn) e
    exact ⟨h', hq.trans hn₁⟩

theorem removeAllFolds_reachable {acq : List Nat} (page : Nat) :
    ∀ (fs : List Nat) {p q : Partition} {ret freed : List Nat}, Partition.Reachable g p acq ret →
      0 < p.nCells → removeAllFolds g page p fs = some (q, freed) →
      Partition.Reachable g q acq (ret ++ freed) ∧ q.nCells = p.nCells
  | [], _, _, _, _, h, _, e => by cases e; exact ⟨by rw [List.append_nil]; exact h, rfl⟩
  | f :: fs, p, q, ret, freed, h, hn, e => by
    obtain ⟨p₁, fr₁, e₁, -, hn₁, -⟩ := h.inv_ledger.1.haRemoveAllNodesToPage hn f page
    simp only [removeAllFolds, e₁, Option.bind_eq_bind, Option.some_bind] at e
    obtain ⟨⟨q', fr⟩, e₂, e⟩ := Option.bind_eq_some.1 e
    cases e
    obtain ⟨h', hq⟩ := removeAllFolds_reachable page fs (h.removeAll f page hn e₁) (hn₁ ▸ hn) e₂
    exact ⟨by rw [← List.append_assoc]; exact h', hq.trans hn₁⟩

namespace TableOk

variable {acq ret : List Nat}

theorem of_part {acq' ret' : List Nat} (h : TableOk g s acq ret)
    (hq : Partition.Reachable g s'.part acq' ret') (hn : s'.part.nCells = s.part.nCells)
    (he : s'.enabled = s.enabled) : TableOk g s' acq' ret' :=
  ⟨hq, fun hen => hn ▸ h.cells_pos (he ▸ hen)⟩

theorem prepareInsert {spare : Nat} (h : TableOk g s acq ret) (hb : spare ∉ s.part.owned) :
    TableOk g { s with part := (s.part.prepareInsert s.enabled spare).1 } (acq ++ [spare])
      (ret ++ (s.part.prepareInsert s.enabled spare).2.toList) :=
  h.of_part (h.reachable.prepareInsert s.enabled spare hb)
    (h.reachable.inv_ledger.1.prepareInsert s.enabled hb).2.1 rfl

theorem mem_owned_of_give {freed : List Nat} (h : TableOk g s acq ret)
    (h' : TableOk g s' acq (ret ++ freed)) {b : Nat} (hb : b ∈ s'.part.owned) : b ∈ s.part.owned := by
  have e : (s'.part.owned ++ freed ++ ret).Perm (s.part.owned ++ ret) := by
    rw [List.append_assoc]
    exact (List.perm_append_comm.append_left _).trans
      (h'.reachable.inv_ledger.2.trans h.reachable.inv_ledger.2.symm)
  exact ((List.perm_append_right_iff ret).1 e).subset (List.mem_append_left _ hb)

theorem mem_owned_of_take {new freed : List Nat} (h : TableOk g s acq ret)
    (h' : TableOk g s' (acq ++ new) (ret ++ freed)) {b : Nat} (hb : b ∈ s'.part.owned) :
    b ∈ s.part.owned ∨ b ∈ new := by
  have e : (s'.part.owned ++ freed ++ ret).Perm (s.part.owned ++ new ++ ret) :=
    calc List.Perm (s'.part.owned ++ freed ++ ret) (s'.part.owned ++ (ret ++ freed)) := by
          rw [List.append_assoc]; exact List.perm_append_comm.append_left _
      List.Perm _ (acq ++ new) := h'.reachable.inv_ledger.2
      List.Perm _ (s.part.owned ++ ret ++ new) := h.reachable.inv_ledger.2.symm.append_right _
      List.Perm _ (s.part.owned ++ new ++ ret) := by
          rw [List.append_assoc, List.append_assoc]; exact List.perm_append_comm.append_left _
  exact List.mem_append.1 (((List.perm_append_right_iff ret).1 e).subset (List.mem_append_left _ hb))

theorem insert_part {f r : Nat} {part : Partition} (h : TableOk g s acq ret) (hen : s.enabled = true)
    (hp : s.part.insert g f r = some part) : TableOk g { s with part } acq ret := by
  obtain ⟨q, hq, -, -, hn, -⟩ := h.reachable.inv_ledger.1.insert (h.cells_pos hen) f r
  obtain rfl := Option.some_inj.1 (hq.symm.trans hp)
  exact h.of_part (h.reachable.insert f r (h.cells_pos hen) hp) hn rfl

theorem step (h : TableOk g s acq ret) (hI : RefCounts pool s) (hs : Step g maxNFields pool s s') :
    ∃ acq' ret', TableOk g s' acq' ret' := by
  cases hs with
  | build _ _ _ _ hs =>
    rcases buildSection_eq hs with rfl | ⟨hen, -, part, hp, rfl⟩
    · exact ⟨_, _, h⟩
    obtain ⟨hq, hn⟩ := insertAll_reachable _ h.reachable (h.cells_pos hen) hp
    exact ⟨_, _, h.of_part hq hn rfl⟩
  | @drop _ b _ _ _ _ _ hd hs =>
    rcases dropSection_eq hs with ⟨rfl, -⟩ | ⟨hbi, -, -, part, freed, k, hr, -, rfl⟩
    · exact ⟨_, _, h⟩
    have hen : s.enabled = true := by
      by_contra hen
      simp [hI.disabled_unhashed (by simpa using hen) hd b] at hbi
    obtain ⟨hq, hn⟩ := removeAllFolds_reachable _ _ h.reachable (h.cells_pos hen) hr
    exact ⟨_, _, h.of_part hq hn rfl⟩
  | prepare spare hb => exact ⟨_, _, h.prepareInsert hb⟩
  | insert f r _ hen hp => exact ⟨_, _, h.insert_part hen hp⟩
  | erase f r _ hen hq =>
    obtain ⟨q', freed', hq', -, hn, -⟩ := h.reachable.inv_ledger.1.erase (h.cells_pos hen) f r
    obtain rfl := Option.some_inj.1 (hq.symm.trans hq')
    exact ⟨_, _, h.of_part (h.reachable.erase f r (h.cells_pos hen) hq') hn rfl⟩
  | update f r r' _ hen hq =>
    obtain ⟨q', hq', -, -, hn, -⟩ :=
      h.reachable.inv_ledger.1.haSearchAndUpdateIfFound (h.cells_pos hen) s.enabled f r r'
    obtain rfl := Option.some_inj.1 (hq.symm.trans hq')
    exact ⟨_, _, h.of_part (h.reachable.searchAndUpdate _ _ _ _ (h.cells_pos hen) hq') hn rfl⟩
  | disable =>
    unfold Ahi.disable
    split_ifs
    · exact ⟨_, _, h⟩
    · exact ⟨_, _, h.reachable, nofun⟩
  | disableClear hd =>
    exact ⟨_, _, h.reachable.clear, fun hen => absurd hen (by simp [Ahi.disableClear, (hI.window hd).1])⟩
  | enable resize changed nCells _ hn =>
    unfold Ahi.enable
    split_ifs with h₁ h₂
    · exact ⟨_, _, h⟩
    · exact ⟨_, _, h⟩
    · exact ⟨_, _, h.reachable.alloc nCells (by omega), fun _ => hn⟩
  | dictIndexRemove i _ _ =>
    unfold Ahi.dictIndexRemove
    split_ifs
    · exact ⟨_, _, h.of_part h.reachable rfl rfl⟩
    · exact ⟨_, _, h.of_part h.reachable rfl rfl⟩

end TableOk

/-! ## The counts stay exact -/

@[simp] theorem update_refCount_freed (f : Nat → IndexAhi) (i k j : Nat) :
    (Function.update f i { f i with refCount := k } j).freed = (f j).freed := by
  by_cases hj : j = i
  · subst hj; simp
  · rw [Function.update_noteq hj]

@[simp] theorem update_freed_refCount (f : Nat → IndexAhi) (i j : Nat) (x : Bool) :
    (Function.update f i { f i with freed := x } j).refCount = (f j).refCount := by
  by_cases hj : j = i
  · subst hj; simp
  · rw [Function.update_noteq hj]

namespace RefCounts

theorem of_eq (h : RefCounts pool s) (hb : s'.block = s.block) (hi : s'.index = s.index)
    (hl : s'.lazyFreed = s.lazyFreed) (hd : s'.disabling = s.disabling) (he : s'.enabled = s.enabled) :
    RefCounts pool s' := by
  refine ⟨?_, ?_, ?_, ?_, ?_, ?_, ?_⟩ <;> simp only [hb, hi, hl, hd, he]
  exacts [h.off_pool, h.exact, h.window, h.freed_pos, h.lazy_unref, h.lazy_nodup, h.disabled_unhashed]

theorem disabling_of_enabled (h : RefCounts pool s) (hen : s.enabled = true) : s.disabling = false := by
  cases hd : s.disabling
  · rfl
  · simp [(h.window hd).1] at hen

theorem mem_pool (h : RefCounts pool s) {b i : Nat} (hb : (s.block b).index = some i) : b ∈ pool :=
  by_contra fun hn => by simp [h.off_pool b hn] at hb

theorem hashed (h : RefCounts pool s) (hd : s.disabling = false) {b i : Nat}
    (hb : (s.block b).index = some i) : i ∉ s.lazyFreed ∧ 0 < (s.index i).refCount := by
  have hpos : 0 < refs pool s.block i := refs_pos_iff.2 ⟨b, h.mem_pool hb, hb⟩
  have hi : i ∉ s.lazyFreed := fun hm => by simp [h.lazy_unref i hm] at hpos
  exact ⟨hi, h.exact i hi (.inl hd) ▸ hpos⟩

theorem off_pool_update (h : RefCounts pool s) {b : Nat} (hb : b ∈ pool) (v : BlockAhi) :
    ∀ c, c ∉ pool → (Function.update s.block b v c).index = none := fun c hc => by
  rw [Function.update_noteq fun e : c = b => hc (e ▸ hb)]
  exact h.off_pool c hc

theorem buildSection (hp : pool.Nodup) (h : RefCounts pool s) (hd : s.disabling = false)
    {i b nFields nBytes : Nat} {leftSide : Bool} {pairs : List (Nat × Nat)} (hb : b ∈ pool)
    (hidx : (s.block b).index = none ∨ (s.block b).index = some i) (hi : i ∉ s.lazyFreed)
    (hs : s.buildSection g maxNFields i b nFields nBytes leftSide pairs = some s') :
    RefCounts pool s' := by
  rcases buildSection_eq hs with rfl | ⟨hen, -, part, -, rfl⟩
  · exact h
  set v : BlockAhi := ⟨some i, nFields &&& maxNFields, nBytes &&& (2 ^ 15 - 1), leftSide⟩
  set index' := if (s.block b).index.isNone then
      Function.update s.index i { s.index i with refCount := (s.index i).refCount + 1 } else s.index
  -- the other indexes keep their blocks and counts
  have hr_ne : ∀ j, j ≠ i → refs pool (Function.update s.block b v) j = refs pool s.block j :=
    fun j hj => by
      have := refs_update hp hb s.block v j
      have h1 : (s.block b).index ≠ some j := by rcases hidx with hn | hn <;> simp [hn, Ne.symm hj]
      simpa [v, h1, Ne.symm hj] using this
  have hx_ne : ∀ j, j ≠ i → index' j = s.index j := fun j hj => by
    simp only [index']
    split_ifs
    · exact Function.update_noteq hj _ _
    · rfl
  -- the index gains the block and a count if the block was not hashed
  have hr_eq : refs pool (Function.update s.block b v) i =
      refs pool s.block i + if (s.block b).index = none then 1 else 0 := by
    have := refs_update hp hb s.block v i
    rcases hidx with hn | hn <;> simp [v, hn] at this ⊢ <;> omega
  have hx_eq : (index' i).refCount = (s.index i).refCount + (if (s.block b).index = none then 1 else 0)
      ∧ (index' i).freed = (s.index i).freed := by
    rcases hidx with hn | hn <;> simp [index', hn]
  refine ⟨h.off_pool_update hb v, fun j hj _ => ?_, fun hd' => absurd hd' (by simp [hd]),
    fun j hf hj => ?_, fun j hj => ?_, h.lazy_nodup, fun hen' => absurd hen' (by simp [hen])⟩
  · by_cases hji : j = i
    · subst hji
      dsimp only
      rw [hx_eq.1, hr_eq, h.exact j hj (.inl hd)]
    · dsimp only
      rw [hx_ne j hji, hr_ne j hji, h.exact j hj (.inl hd)]
  · by_cases hji : j = i
    · subst hji
      dsimp only at hf ⊢
      rw [hx_eq.2] at hf
      rw [hx_eq.1]
      exact Nat.lt_of_lt_of_le (h.freed_pos j hf hj) (Nat.le_add_right _ _)
    · dsimp only at hf ⊢
      rw [hx_ne j hji] at hf ⊢
      exact h.freed_pos j hf hj
  · have hji : j ≠ i := fun e => hi (e ▸ hj)
    dsimp only
    rw [hr_ne j hji, h.lazy_unref j hj]

theorem dropSection (hp : pool.Nodup) (h : RefCounts pool s) (hd : s.disabling = false)
    {b i nFields nBytes frame : Nat} {folds : List Nat}
    (hs : s.dropSection g b i nFields nBytes folds frame = some s') : RefCounts pool s' := by
  rcases dropSection_eq hs with ⟨rfl, -⟩ | ⟨hbi, -, -, part, -, k, -, hk, rfl⟩
  · exact h
  have hb := h.mem_pool hbi
  have hiL := (h.hashed hd hbi).1
  set v : BlockAhi := { s.block b with index := none }
  set index' := Function.update s.index i { s.index i with refCount := k }
  -- the other indexes keep their blocks and counts
  have hr_ne : ∀ j, j ≠ i → refs pool (Function.update s.block b v) j = refs pool s.block j :=
    fun j hj => by simpa [v, hbi, Ne.symm hj] using refs_update hp hb s.block v j
  have hx_ne : ∀ j, j ≠ i → index' j = s.index j := fun j hj => Function.update_noteq hj _ _
  -- the index loses the block, its last one when `k = 0`
  have hr_eq : refs pool (Function.update s.block b v) i = k := by
    have := refs_update hp hb s.block v i
    rw [← h.exact i hiL (.inl hd), hk] at this
    simpa [v, hbi] using this
  have hx_eq : (index' i).refCount = k ∧ (index' i).freed = (s.index i).freed := by simp [index']
  have hL : ∀ j, j ∉ (if k = 0 ∧ (s.index i).freed = true then s.lazyFreed ++ [i] else s.lazyFreed) →
      j ∉ s.lazyFreed := fun j hj hm => hj (by split_ifs <;> simp [hm])
  refine ⟨h.off_pool_update hb v, fun j hj _ => ?_, fun hd' => absurd hd' (by simp [hd]),
    fun j hf hj => ?_, fun j hj => ?_, ?_, fun hen _ c => ?_⟩
  · by_cases hji : j = i
    · subst hji
      dsimp only
      rw [hx_eq.1, hr_eq]
    · dsimp only
      rw [hx_ne j hji, hr_ne j hji, h.exact j (hL j hj) (.inl hd)]
  · by_cases hji : j = i
    · subst hji
      dsimp only at hf hj ⊢
      rw [hx_eq.2] at hf
      rw [hx_eq.1]
      refine Nat.pos_of_ne_zero fun hk0 => hj ?_
      simp [hk0, hf]
    · dsimp only at hf ⊢
      rw [hx_ne j hji] at hf ⊢
      exact h.freed_pos j hf (hL j hj)
  · dsimp only at hj ⊢
    by_cases hji : j = i
    · subst hji
      rw [hr_eq]
      split_ifs at hj with hc
      · exact hc.1
      · exact absurd hj hiL
    · have hm : j ∈ s.lazyFreed := by split_ifs at hj <;> simp_all
      rw [hr_ne j hji, h.lazy_unref j hm]
  · dsimp only
    split_ifs
    · exact List.nodup_append.2 ⟨h.lazy_nodup, List.nodup_singleton i,
        fun j hj hj' => hiL (List.mem_singleton.1 hj' ▸ hj)⟩
    · exact h.lazy_nodup
  · simp [h.disabled_unhashed hen hd b] at hbi

theorem disable (h : RefCounts pool s) (hd : s.disabling = false) : RefCounts pool s.disable := by
  unfold Ahi.disable
  split_ifs with hen
  · exact h
  refine ⟨h.off_pool, fun j hj hf => ?_, fun _ => ⟨rfl, fun j hf => ?_⟩, fun j hf hj => ?_,
    h.lazy_unref, h.lazy_nodup, fun _ hd' => absurd hd' (by simp)⟩
  · simp only [Bool.true_eq_false, false_or] at hf
    dsimp only
    rw [if_pos hf]
    exact h.exact j hj (.inl hd)
  · dsimp only at hf ⊢
    rw [if_neg (by simp [hf])]
  · dsimp only at hf ⊢
    rw [if_pos hf]
    exact h.freed_pos j hf hj

theorem disableClear (h : RefCounts pool s) (hd : s.disabling = true) :
    RefCounts pool (s.disableClear pool) := by
  -- every block of the pool is unhashed
  have hr : ∀ j, refs pool (fun c => if c ∈ pool then { s.block c with index := none } else s.block c) j
      = 0 := fun j => List.countP_eq_zero.2 fun c hc => by simp [hc]
  -- a freed index left out of the lazy frees has a count, hence a block, hence is garbage
  have hg : ∀ j, (s.index j).freed = true → j ∉ s.lazyFreed → j ∈ garbage pool s := fun j hf hj =>
    mem_garbage.2 ⟨h.exact j hj (.inr hf) ▸ h.freed_pos j hf hj, hf⟩
  refine ⟨fun c hc => ?_, fun j hj _ => ?_, fun hd' => absurd hd' (by simp [Ahi.disableClear]),
    fun j hf hj => ?_, fun j _ => hr j, ?_, fun _ _ c => ?_⟩
  · simp only [Ahi.disableClear, if_neg hc]
    exact h.off_pool c hc
  · simp only [Ahi.disableClear, List.mem_append, not_or] at hj ⊢
    rw [hr]
    cases hf : (s.index j).freed
    · exact (h.window hd).2 j hf
    · exact absurd (hg j hf hj.1) hj.2
  · simp only [Ahi.disableClear, List.mem_append, not_or] at hf hj
    exact absurd (hg j hf hj.1) hj.2
  · exact List.nodup_append.2 ⟨h.lazy_nodup, garbage_nodup, fun j hj hj' => by
      have := (mem_garbage.1 hj').1
      rw [h.lazy_unref j hj] at this
      exact Nat.lt_irrefl 0 this⟩
  · simp only [Ahi.disableClear]
    split_ifs with hc
    · rfl
    · exact h.off_pool c hc

theorem enable (h : RefCounts pool s) (hd : s.disabling = false) (resize changed : Bool) (nCells : Nat) :
    RefCounts pool (s.enable resize changed nCells) := by
  unfold Ahi.enable
  split_ifs
  · exact h
  · exact h
  · exact ⟨h.off_pool, fun j hj _ => h.exact j hj (.inl hd), fun hd' => absurd hd' (by simp [hd]),
      h.freed_pos, h.lazy_unref, h.lazy_nodup, fun hen => absurd hen (by simp)⟩

theorem dictIndexRemove (h : RefCounts pool s) (i : Nat) (hf₀ : (s.index i).freed = false) :
    RefCounts pool (s.dictIndexRemove i) := by
  unfold Ahi.dictIndexRemove
  split_ifs with h0
  · exact h.of_eq rfl rfl rfl rfl rfl
  have hx : ∀ j, (Function.update s.index i { s.index i with freed := true } j).refCount =
      (s.index j).refCount := fun j => update_freed_refCount s.index i j true
  -- a counted index is not in the window, where the cache's indexes count nothing
  have hd : s.disabling = false := by
    cases hd : s.disabling
    · rfl
    · exact absurd ((h.window hd).2 i hf₀) h0
  refine ⟨h.off_pool, fun j hj _ => (hx j).trans (h.exact j hj (.inl hd)),
    fun hd' => absurd hd' (by simp [hd]), fun j hf hj => ?_, h.lazy_unref, h.lazy_nodup,
    h.disabled_unhashed⟩
  dsimp only at hf hj ⊢
  rw [hx]
  by_cases hji : j = i
  · subst hji
    exact Nat.pos_of_ne_zero h0
  · rw [Function.update_noteq hji] at hf
    exact h.freed_pos j hf hj

theorem step (hp : pool.Nodup) (h : RefCounts pool s) (hs : Step g maxNFields pool s s') :
    RefCounts pool s' := by
  cases hs with
  | build hd hb hidx hi hs => exact h.buildSection hp hd hb hidx hi hs
  | drop hd hs => exact h.dropSection hp hd hs
  | prepare => exact h.of_eq rfl rfl rfl rfl rfl
  | insert => exact h.of_eq rfl rfl rfl rfl rfl
  | erase => exact h.of_eq rfl rfl rfl rfl rfl
  | update => exact h.of_eq rfl rfl rfl rfl rfl
  | disable hd => exact h.disable hd
  | disableClear hd => exact h.disableClear hd
  | enable resize changed nCells hd _ => exact h.enable hd resize changed nCells
  | dictIndexRemove i hf _ => exact h.dictIndexRemove i hf

end RefCounts

theorem Reachable.refCounts (hp : pool.Nodup) (h : Reachable g maxNFields pool s) :
    RefCounts pool s := by
  induction h with
  | start hb hi hl _ hd _ =>
    refine ⟨fun b _ => hb b, fun i _ _ => ?_, fun hd' => absurd hd' (by simp [hd]),
      fun i hf => by simp [(hi i).2] at hf, by simp [hl], by simp [hl], fun _ _ b => hb b⟩
    rw [(hi i).1]
    exact (List.countP_eq_zero.2 fun b _ => by simp [hb b]).symm
  | step _ hs ih => exact ih.step hp hs

theorem Reachable.table (hp : pool.Nodup) (h : Reachable g maxNFields pool s) :
    ∃ acq ret, TableOk g s acq ret := by
  induction h with
  | start _ _ _ _ _ ht => exact ⟨_, _, ht⟩
  | step hr hs ih =>
    obtain ⟨_, _, ht⟩ := ih
    exact ht.step (hr.refCounts hp) hs

theorem Reachable.run (h : Reachable g maxNFields pool s)
    (hr : Relation.ReflTransGen (Step g maxNFields pool) s s') : Reachable g maxNFields pool s' := by
  induction hr with
  | refl => exact h
  | tail _ hs ih => exact ih.step hs

/-! ## Whole calls are runs of sections -/

section Calls

variable {b : Nat} {pg : PageImage} {fold : Nat → Nat → Nat → Nat} {n : Nat}

theorem dropPageHashIndex_eq {gc : Bool} (h : s.dropPageHashIndex g b pg fold gc n = some s') :
    s' = s ∧ ((s.block b).index = none ∨ gc = true ∨ s.enabled = false ∨ pg.nRecs = 0) ∨
      s.enabled = true ∧ ∃ i folds, (s.block b).index = some i ∧
        pg.dropFolds (fold (s.block b).currNFields (s.block b).currNBytes) n = some folds ∧
        s.dropSection g b i (s.block b).currNFields (s.block b).currNBytes folds pg.frame = some s' := by
  unfold dropPageHashIndex at h
  split at h
  next hnone => exact .inl ⟨(Option.some_inj.1 h).symm, .inl hnone⟩
  next i hi =>
  rcases ite_eq_iff.1 h with ⟨hgc, h⟩ | ⟨-, h⟩
  · exact .inl ⟨(Option.some_inj.1 h).symm, .inr (.inl (by simp at hgc; exact hgc.2))⟩
  rcases ite_eq_iff.1 h with ⟨hen, h⟩ | ⟨hen, h⟩
  · exact .inl ⟨(Option.some_inj.1 h).symm, .inr (.inr (.inl (by simpa using hen)))⟩
  -- a failed `ut_a` on the index id or the signature, or an empty page
  iterate 2
    rcases ite_eq_iff.1 h with ⟨-, h⟩ | ⟨-, h⟩
    · cases h
  rcases ite_eq_iff.1 h with ⟨h0, h⟩ | ⟨-, h⟩
  · exact .inl ⟨(Option.some_inj.1 h).symm, .inr (.inr (.inr h0))⟩
  obtain ⟨folds, hf, h⟩ := Option.bind_eq_some.1 h
  exact .inr ⟨by simpa using hen, i, folds, hi, hf, h⟩

theorem dropPageHashIndex_steps {gc : Bool} (hd : s.disabling = false)
    (h : s.dropPageHashIndex g b pg fold gc n = some s') :
    Relation.ReflTransGen (Step g maxNFields pool) s s' := by
  rcases dropPageHashIndex_eq h with ⟨rfl, -⟩ | ⟨-, _, _, -, -, h⟩
  · exact .refl
  · exact .single (.drop hd h)

theorem dropPageHashIndex_block {gc : Bool} (h : s.dropPageHashIndex g b pg fold gc n = some s') :
    ((s'.block b).index = none ∨ (s'.block b).index = (s.block b).index) ∧ s'.disabling = s.disabling ∧
      ∀ i, (s.index i).freed = false → i ∉ s.lazyFreed → i ∉ s'.lazyFreed := by
  rcases dropPageHashIndex_eq h with ⟨rfl, -⟩ | ⟨-, j, _, -, -, h⟩
  · exact ⟨.inr rfl, rfl, fun _ _ hi => hi⟩
  rcases dropSection_eq h with ⟨rfl, -⟩ | ⟨-, -, -, part, -, k, -, -, rfl⟩
  · exact ⟨.inr rfl, rfl, fun _ _ hi => hi⟩
  refine ⟨.inl (by simp), rfl, fun i hf hi hi' => ?_⟩
  dsimp only at hi'
  split_ifs at hi' with hc
  · rcases List.mem_append.1 hi' with h' | h'
    · exact hi h'
    · obtain rfl := List.mem_singleton.1 h'
      simp [hf] at hc
  · exact hi hi'

theorem dropPageHashIndex_owned {acq ret : List Nat} {gc : Bool} (ht : TableOk g s acq ret)
    (h : s.dropPageHashIndex g b pg fold gc n = some s') {x : Nat} (hm : x ∈ s'.part.owned) :
    x ∈ s.part.owned := by
  rcases dropPageHashIndex_eq h with ⟨rfl, -⟩ | ⟨hen, _, _, -, -, hs⟩
  · exact hm
  rcases dropSection_eq hs with ⟨rfl, -⟩ | ⟨-, -, -, part, freed, k, hr, -, rfl⟩
  · exact hm
  obtain ⟨hq, hn⟩ := removeAllFolds_reachable _ _ ht.reachable (ht.cells_pos hen) hr
  exact ht.mem_owned_of_give
    (⟨hq, fun _ => hn ▸ ht.cells_pos hen⟩ : TableOk g { s with part } acq (ret ++ freed)) hm

theorem buildPageHashIndex_eq {i nFields nBytes : Nat} {leftSide : Bool} {spare : Nat}
    (h : s.buildPageHashIndex g maxNFields i b pg fold nFields nBytes leftSide spare n = some s') :
    s' = s ∨ ∃ s₁, (s₁ = s ∨ s.dropPageHashIndex g b pg fold false n = some s₁) ∧
      (s' = s₁ ∨ ∃ pairs, pg.buildCache (fold nFields nBytes) (s₁.index i).id leftSide n = some (.cache pairs) ∧
        buildSection g maxNFields { s₁ with part := (s₁.part.prepareInsert s₁.enabled spare).1 } i b nFields
          nBytes leftSide pairs = some s') := by
  unfold buildPageHashIndex at h
  rcases ite_eq_iff.1 h with ⟨-, h⟩ | ⟨-, h⟩
  · exact .inl (Option.some_inj.1 h).symm
  refine .inr ?_
  dsimp only at h
  -- the drop of a rebuild, if any
  rcases ite_eq_iff.1 h with ⟨-, h⟩ | ⟨-, h⟩ <;> obtain ⟨s₁, h₁, h⟩ := Option.bind_eq_some.1 h
  all_goals refine ⟨s₁, by first | exact .inr h₁ | exact .inl (Option.some_inj.1 h₁).symm, ?_⟩
  -- then the checks and the latched inserts
  all_goals
    rcases ite_eq_iff.1 h with ⟨-, h⟩ | ⟨-, h⟩
    · exact .inl (Option.some_inj.1 h).symm
    rcases ite_eq_iff.1 h with ⟨-, h⟩ | ⟨-, h⟩
    · exact .inl (Option.some_inj.1 h).symm
    obtain ⟨w, hw, h⟩ := Option.bind_eq_some.1 h
    cases w with
    | skip => exact .inl (Option.some_inj.1 h).symm
    | cache pairs => exact .inr ⟨pairs, hw, h⟩

theorem buildPageHashIndex_steps {i nFields nBytes : Nat} {leftSide : Bool} {spare : Nat}
    (hd : s.disabling = false)
    (h : s.buildPageHashIndex g maxNFields i b pg fold nFields nBytes leftSide spare n = some s')
    (hb : b ∈ pool) (hidx : (s.block b).index = none ∨ (s.block b).index = some i)
    (hf : (s.index i).freed = false) (hi : i ∉ s.lazyFreed) (hsp : spare ∉ s.part.owned)
    (ht : ∃ acq ret, TableOk g s acq ret) :
    Relation.ReflTransGen (Step g maxNFields pool) s s' := by
  rcases buildPageHashIndex_eq h with rfl | ⟨s₁, h₁, h⟩
  · exact .refl
  -- the drop of a rebuild leaves the block unhashed and the index alive
  obtain ⟨hrun, hidx₁, hi₁, hd₁, hsp₁⟩ : Relation.ReflTransGen (Step g maxNFields pool) s s₁ ∧
      ((s₁.block b).index = none ∨ (s₁.block b).index = some i) ∧ i ∉ s₁.lazyFreed ∧
      s₁.disabling = false ∧ spare ∉ s₁.part.owned := by
    rcases h₁ with rfl | h₁
    · exact ⟨.refl, hidx, hi, hd, hsp⟩
    · obtain ⟨hblk, hdis, hlive⟩ := dropPageHashIndex_block h₁
      obtain ⟨acq, ret, ht⟩ := ht
      exact ⟨dropPageHashIndex_steps hd h₁, hblk.elim .inl fun e => by rw [e]; exact hidx,
        hlive i hf hi, hdis.trans hd, fun hm => hsp (dropPageHashIndex_owned ht h₁ hm)⟩
  rcases h with rfl | ⟨pairs, -, h⟩
  · exact hrun
  · exact (hrun.tail (.prepare spare hsp₁)).tail (.build hd₁ hb hidx₁ hi₁ h)

theorem insertAll_steps : ∀ {s : Ahi} {pairs : List (Nat × Nat)} {q : Partition}, s.disabling = false →
    s.enabled = true → insertAll g s.part pairs = some q →
      Relation.ReflTransGen (Step g maxNFields pool) s { s with part := q }
  | _, [], _, _, _, e => by cases e; exact .refl
  | s, (f, r) :: l, q, hd, hen, e => by
    obtain ⟨p₁, e₁, e⟩ := Option.bind_eq_some.1 e
    exact .head (.insert f r hd hen e₁) (insertAll_steps (s := { s with part := p₁ }) hd hen e)

theorem insertSection_steps {pairs : List (Nat × Nat)} (hd : s.disabling = false)
    (h : s.insertSection g b pairs = some s') : Relation.ReflTransGen (Step g maxNFields pool) s s' := by
  unfold insertSection at h
  rcases ite_eq_iff.1 h with ⟨-, h⟩ | ⟨hc, h⟩
  · cases h; exact .refl
  · obtain ⟨part, hp, rfl⟩ := Option.map_eq_some'.1 h
    exact insertAll_steps hd (by simpa using hc : s.enabled = true ∧ _).1 hp

theorem updateHashOnInsert_cases {i spare : Nat} {c : Cursor}
    (h : s.updateHashOnInsert g i pg fold c spare n = some s') :
    s' = s ∨ s.dropPageHashIndex g c.block pg fold false n = some s' ∨
      ∃ insRec nextRec, pg.next c.recPtr = some insRec ∧ pg.next insRec = some nextRec ∧
        insertSection g { s with part := (s.part.prepareInsert s.enabled spare).1 } c.block
          (onInsertPairs (fold (s.block c.block).currNFields (s.block c.block).currNBytes)
            (s.block c.block).currLeftSide
            (if c.recPtr = pg.infimum ∨ pg.isMetadata c.recPtr then none else some c.recPtr) insRec
            (if nextRec = pg.supremum then none else some nextRec)) = some s' := by
  unfold updateHashOnInsert at h
  rcases ite_eq_iff.1 h with ⟨-, h⟩ | ⟨-, h⟩
  · exact .inl (Option.some_inj.1 h).symm
  split at h
  · exact .inl (Option.some_inj.1 h).symm
  rcases ite_eq_iff.1 h with ⟨-, h⟩ | ⟨-, h⟩
  · exact .inr (.inl h)
  dsimp only at h
  split at h
  · exact .inr (.inl h)
  next insRec hins =>
  split at h
  · exact .inr (.inl h)
  next nextRec hnext => exact .inr (.inr ⟨insRec, nextRec, hins, hnext, h⟩)

theorem updateHashNodeOnInsert_cases {i spare : Nat} {c : Cursor}
    (h : s.updateHashNodeOnInsert g i pg fold c spare n = some s') :
    s' = s ∨ s.dropPageHashIndex g c.block pg fold false n = some s' ∨
      (s.enabled = true ∧ c.flag = .hash ∧ (s.block c.block).index.isSome ∧
        ∃ newRec r, pg.next c.recPtr = some newRec ∧
          s.part.haSearchAndUpdateIfFound g s.enabled c.fold c.recPtr newRec = some r ∧
          s' = { s with part := r.1 }) ∨
      s.updateHashOnInsert g i pg fold c spare n = some s' := by
  unfold updateHashNodeOnInsert at h
  rcases ite_eq_iff.1 h with ⟨-, h⟩ | ⟨hen, h⟩
  · exact .inl (Option.some_inj.1 h).symm
  split at h
  · exact .inl (Option.some_inj.1 h).symm
  next j hj =>
  rcases ite_eq_iff.1 h with ⟨-, h⟩ | ⟨-, h⟩
  · exact .inr (.inl h)
  dsimp only at h
  rcases ite_eq_iff.1 h with ⟨hc, h⟩ | ⟨-, h⟩
  · split at h
    next newRec hnew =>
      obtain ⟨r, hr, rfl⟩ := Option.map_eq_some'.1 h
      exact .inr (.inr (.inl ⟨by simpa using hen, hc.1, by simp [hj], newRec, r, hnew, hr, rfl⟩))
    · exact .inl (Option.some_inj.1 h).symm
  · exact .inr (.inr (.inr h))

theorem updateHashOnInsert_steps {i spare : Nat} {c : Cursor} (hd : s.disabling = false)
    (hsp : spare ∉ s.part.owned) (h : s.updateHashOnInsert g i pg fold c spare n = some s') :
    Relation.ReflTransGen (Step g maxNFields pool) s s' := by
  rcases updateHashOnInsert_cases h with rfl | h | ⟨_, _, -, -, h⟩
  · exact .refl
  · exact dropPageHashIndex_steps hd h
  · exact (Relation.ReflTransGen.single (.prepare spare hsp)).trans (insertSection_steps (by exact hd) h)

theorem updateHashNodeOnInsert_steps {i spare : Nat} {c : Cursor} (hd : s.disabling = false)
    (hsp : spare ∉ s.part.owned) (h : s.updateHashNodeOnInsert g i pg fold c spare n = some s') :
    Relation.ReflTransGen (Step g maxNFields pool) s s' := by
  rcases updateHashNodeOnInsert_cases h with rfl | h | ⟨hen, -, -, _, r, -, hr, rfl⟩ | h
  · exact .refl
  · exact dropPageHashIndex_steps hd h
  · exact .single (.update _ _ _ hd hen hr)
  · exact updateHashOnInsert_steps hd hsp h

end Calls

/-! ## A hashed block -/

def builtAhi : Ahi :=
  (freshAhi.buildPageHashIndex Partition.ahiGeom 1023 0 5 PageImage.threeRecordPage (fun _ _ r => r / 20)
    1 0 true 100 3).getD freshAhi

theorem builtAhi_eq : freshAhi.buildPageHashIndex Partition.ahiGeom 1023 0 5 PageImage.threeRecordPage
    (fun _ _ r => r / 20) 1 0 true 100 3 = some builtAhi := rfl

theorem freshAhi_reachable : Reachable Partition.ahiGeom 1023 [5] freshAhi :=
  .start (fun _ => rfl) (fun _ => ⟨rfl, rfl⟩) rfl rfl rfl
    (⟨.alloc 4 .init rfl, fun _ => by decide⟩ : TableOk Partition.ahiGeom freshAhi [] [])

theorem builtAhi_reachable : Reachable Partition.ahiGeom 1023 [5] builtAhi :=
  freshAhi_reachable.run (buildPageHashIndex_steps rfl builtAhi_eq (by decide) (.inl rfl) rfl
    (List.not_mem_nil _) (by decide) ⟨[], [], .alloc 4 .init rfl, fun _ => by decide⟩)

/-! ## The counts over runs -/

theorem Step.lazyFreed (hs : Step g maxNFields pool s s') :
    (∃ l, s'.lazyFreed = s.lazyFreed ++ l ∧
      ∀ i ∈ l, (s.index i).freed = true ∧ ∃ b, (s.block b).index = some i) ∧
    ∀ i, (s.index i).freed = true → (s'.index i).freed = true := by
  cases hs with
  | @build _ i _ _ _ _ _ _ _ _ _ hs =>
    rcases buildSection_eq hs with rfl | ⟨-, -, part, -, rfl⟩
    · exact ⟨⟨[], by simp, by simp⟩, fun _ h => h⟩
    · refine ⟨⟨[], by simp, by simp⟩, fun j h => ?_⟩
      dsimp only
      split_ifs
      · rwa [update_refCount_freed]
      · exact h
  | @drop _ b i _ _ _ _ _ hs =>
    rcases dropSection_eq hs with ⟨rfl, -⟩ | ⟨hbi, -, -, part, -, k, -, -, rfl⟩
    · exact ⟨⟨[], by simp, by simp⟩, fun _ h => h⟩
    · refine ⟨⟨if k = 0 ∧ (s.index i).freed = true then [i] else [], by split_ifs <;> simp,
        fun j hj => ?_⟩, fun j h => ?_⟩
      · split_ifs at hj with hc
        · obtain rfl := List.mem_singleton.1 hj
          exact ⟨hc.2, b, hbi⟩
        · cases hj
      · rwa [update_refCount_freed]
  | prepare | insert | erase | update => exact ⟨⟨[], by simp, by simp⟩, fun _ h => h⟩
  | disable =>
    unfold Ahi.disable
    split_ifs
    · exact ⟨⟨[], by simp, by simp⟩, fun _ h => h⟩
    · exact ⟨⟨[], by simp, by simp⟩, fun _ h => h⟩
  | disableClear =>
    refine ⟨⟨garbage pool s, rfl, fun i hi => ?_⟩, fun i h => h⟩
    obtain ⟨hpos, hf⟩ := mem_garbage.1 hi
    obtain ⟨b, -, hb⟩ := refs_pos_iff.1 hpos
    exact ⟨hf, b, hb⟩
  | enable resize changed nCells =>
    unfold Ahi.enable
    split_ifs <;> exact ⟨⟨[], by simp, by simp⟩, fun _ h => h⟩
  | dictIndexRemove i _ =>
    unfold Ahi.dictIndexRemove
    split_ifs
    · exact ⟨⟨[], by simp, by simp⟩, fun _ h => h⟩
    · refine ⟨⟨[], by simp, by simp⟩, fun j h => ?_⟩
      by_cases hj : j = i
      · subst hj; simp
      · simpa [Function.update_noteq hj] using h

/-- Over every interleaving of the latched sections, the counts stay exact. -/
theorem ref_counts_exact (hp : pool.Nodup) (h : Reachable g maxNFields pool s) :
    (s.disabling = false → ∀ i, i ∉ s.lazyFreed → (s.index i).refCount = refs pool s.block i) ∧
    (s.disabling = true → ∀ i, (s.index i).freed = false → (s.index i).refCount = 0) ∧
    (s.disabling = false → ∀ b i, (s.block b).index = some i → (s.index i).refCount ≠ 0) ∧
    (∀ i ∈ s.lazyFreed, ∀ b, (s.block b).index ≠ some i) ∧
    s.lazyFreed.Nodup ∧
    ∀ s', Step g maxNFields pool s s' → ∀ i,
      (i ∉ s.lazyFreed ∧ i ∈ s'.lazyFreed ↔
        (s.index i).freed = true ∧ 0 < refs pool s.block i ∧ refs pool s'.block i = 0) := by
  have hI := h.refCounts hp
  refine ⟨fun hd i hi => hI.exact i hi (.inl hd), fun hd => (hI.window hd).2,
    fun hd b i hb => (hI.hashed hd hb).2.ne', fun i hi b hb => ?_, hI.lazy_nodup, fun s' hs i => ?_⟩
  · have := hI.lazy_unref i hi
    rw [← Nat.le_zero, ← Nat.not_lt, refs_pos_iff] at this
    exact this ⟨b, hI.mem_pool hb, hb⟩
  have hI' := hI.step hp hs
  obtain ⟨⟨l, hl, hnew⟩, hmono⟩ := hs.lazyFreed
  constructor
  · rintro ⟨hi, hi'⟩
    rw [hl, List.mem_append] at hi'
    obtain ⟨hf, b, hb⟩ := hnew i (hi'.resolve_left hi)
    exact ⟨hf, refs_pos_iff.2 ⟨b, hI.mem_pool hb, hb⟩, hI'.lazy_unref i (hl ▸ List.mem_append_right _
      (hi'.resolve_left hi))⟩
  · rintro ⟨hf, hpos, hzero⟩
    refine ⟨fun hm => by simp [hI.lazy_unref i hm] at hpos, by_contra fun hi' => ?_⟩
    -- a freed index still counted has a block
    have := hI'.freed_pos i (hmono i hf) hi'
    rw [hI'.exact i hi' (.inr (hmono i hf)), hzero] at this
    exact Nat.lt_irrefl 0 this

theorem ref_counts_exact_in_window :
    (builtAhi.disable.disabling = false → ∀ i, i ∉ builtAhi.disable.lazyFreed →
      (builtAhi.disable.index i).refCount = refs [5] builtAhi.disable.block i) ∧
    (builtAhi.disable.disabling = true → ∀ i, (builtAhi.disable.index i).freed = false →
      (builtAhi.disable.index i).refCount = 0) ∧
    (builtAhi.disable.disabling = false → ∀ b i, (builtAhi.disable.block b).index = some i →
      (builtAhi.disable.index i).refCount ≠ 0) ∧
    (∀ i ∈ builtAhi.disable.lazyFreed, ∀ b, (builtAhi.disable.block b).index ≠ some i) ∧
    builtAhi.disable.lazyFreed.Nodup ∧
    ∀ s', Step Partition.ahiGeom 1023 [5] builtAhi.disable s' → ∀ i,
      (i ∉ builtAhi.disable.lazyFreed ∧ i ∈ s'.lazyFreed ↔
        (builtAhi.disable.index i).freed = true ∧ 0 < refs [5] builtAhi.disable.block i ∧
          refs [5] s'.block i = 0) :=
  ref_counts_exact (by decide) (builtAhi_reachable.step (.disable (by decide)))

/-! ## The window of `disable` -/

/-- In `disable`'s window a removed index is freed while a block still points to it. -/
theorem disable_window_frees_hashed_index :
    Reachable Partition.ahiGeom 1023 [5] builtAhi.disable ∧ builtAhi.disable.disabling = true ∧
      (builtAhi.disable.block 5).index = some 0 ∧ (builtAhi.disable.index 0).freed = false ∧
      0 ∉ builtAhi.disable.lazyFreed ∧ (builtAhi.disable.index 0).refCount = 0 ∧
      refs [5] builtAhi.disable.block 0 = 1 ∧
      Step Partition.ahiGeom 1023 [5] builtAhi.disable (builtAhi.disable.dictIndexRemove 0) ∧
      0 ∈ (builtAhi.disable.dictIndexRemove 0).dictFreed ∧
      ((builtAhi.disable.dictIndexRemove 0).block 5).index = some 0 := by
  exact ⟨builtAhi_reachable.step (.disable (by decide)), by decide, by decide, by decide, by decide, by decide,
    by decide, .dictIndexRemove 0 (by decide) (by decide), by decide, by decide⟩

end Ahi

end Innobase
