import Innobase.Callbacks

/-!
# Coherence of blocks and nodes

The AHI together with the leaf page in the frame of every block, the pages
changing by the callback protocol. Every node points into the frame of a hashed
block and, outside the window of `disable`, to a user record of its page; so a
block whose `index` is null has no node in its page. The converse fails.
-/

namespace Innobase

/-! ## The nodes a table operation leaves -/

theorem mem_setFirst_fold {f r : Nat} :
    ∀ {V : List (Nat × Nat)} {x : Nat × Nat}, x ∈ setFirst (·.1 == f) r V → x = (f, r) ∨ x ∈ V
  | [], _, h => absurd h (List.not_mem_nil _)
  | y :: V, x, h => by
    rw [setFirst] at h
    split_ifs at h with hy
    · rcases List.mem_cons.1 h with rfl | h
      · exact .inl (by rw [beq_iff_eq.1 hy])
      · exact .inr (List.mem_cons_of_mem _ h)
    · rcases List.mem_cons.1 h with rfl | h
      · exact .inr (List.mem_cons_self _ _)
      · exact (mem_setFirst_fold h).imp_right (List.mem_cons_of_mem _)

theorem mem_setFirst_rec {d d' : Nat} :
    ∀ {V : List (Nat × Nat)} {x : Nat × Nat}, x ∈ setFirst (·.2 == d) d' V →
      x ∈ V ∨ ∃ y ∈ V, y.2 = d ∧ x = (y.1, d')
  | [], _, h => absurd h (List.not_mem_nil _)
  | y :: V, x, h => by
    rw [setFirst] at h
    split_ifs at h with hy
    · rcases List.mem_cons.1 h with rfl | h
      · exact .inr ⟨y, List.mem_cons_self _ _, beq_iff_eq.1 hy, rfl⟩
      · exact .inl (List.mem_cons_of_mem _ h)
    · rcases List.mem_cons.1 h with rfl | h
      · exact .inl (List.mem_cons_self _ _)
      · exact (mem_setFirst_rec h).imp (List.mem_cons_of_mem _)
          fun ⟨z, hz, hz'⟩ => ⟨z, List.mem_cons_of_mem _ hz, hz'⟩

theorem mem_cellInsert_pair {room : Bool} {f r : Nat} {V : List (Nat × Nat)} {x : Nat × Nat}
    (h : x ∈ cellInsert room f r V) : x = (f, r) ∨ x ∈ V := by
  unfold cellInsert at h
  split_ifs at h
  · exact mem_setFirst_fold h
  · rcases List.mem_append.1 h with h | h
    · exact .inr h
    · exact .inl (List.mem_singleton.1 h)
  · exact .inr h

theorem rec_ne_of_mem_eraseP {r f : Nat} {V : List (Nat × Nat)} (hV : (V.map Prod.fst).Nodup)
    (hf : ∀ y ∈ V, y.2 = r → y.1 = f) {x : Nat × Nat} (hx : x ∈ V.eraseP (·.2 == r)) : x.2 ≠ r := by
  intro hxr
  obtain ⟨a, u, w, hu, ha, rfl, he⟩ :=
    List.exists_of_eraseP (p := (·.2 == r)) (List.mem_of_mem_eraseP hx) (by simpa using hxr)
  rw [he] at hx
  rcases List.mem_append.1 hx with hx | hx
  · exact hu x hx (by simpa using hxr)
  · have hfa := hf a (by simp) (by simpa using ha)
    have hfx := hf x (by simp [hx]) hxr
    rw [List.map_append, List.map_cons, List.nodup_append, List.nodup_cons] at hV
    exact hV.2.1.1 (hfa ▸ hfx ▸ List.mem_map_of_mem _ hx)

namespace Partition

def HasNode (g : Geom) (p : Partition) (x : Nat × Nat) : Prop := ∃ j < p.nCells, x ∈ p.view g j

instance (g : Geom) (p : Partition) (x : Nat × Nat) : Decidable (p.HasNode g x) :=
  inferInstanceAs (Decidable (∃ j < p.nCells, x ∈ p.view g j))

variable {g : Geom} {p : Partition} {x : Nat × Nat}

theorem not_hasNode_of_nCells (h0 : p.nCells = 0) : ¬p.HasNode g x :=
  fun ⟨_, hj, _⟩ => absurd hj (h0 ▸ Nat.not_lt_zero _)

theorem Inv.hasNode_insert (h : p.Inv g) (hn : 0 < p.nCells) {f r : Nat} {q : Partition}
    (hq : p.insert g f r = some q) (hx : q.HasNode g x) : x = (f, r) ∨ p.HasNode g x := by
  obtain ⟨q', hq', -, -, hqn, hv⟩ := h.insert hn f r
  obtain rfl := Option.some_inj.1 (hq'.symm.trans hq)
  obtain ⟨j, hj, hx⟩ := hx
  rw [hqn] at hj
  rw [hv j hj] at hx
  split_ifs at hx
  · exact (mem_cellInsert_pair hx).imp_right fun hx => ⟨j, hj, hx⟩
  · exact .inr ⟨j, hj, hx⟩

theorem Inv.hasNode_insertAll : ∀ (pairs : List (Nat × Nat)) {p q : Partition}, p.Inv g →
    0 < p.nCells → Ahi.insertAll g p pairs = some q → q.HasNode g x → x ∈ pairs ∨ p.HasNode g x
  | [], _, _, _, _, e, hx => by cases e; exact .inr hx
  | (f, r) :: l, p, q, h, hn, e, hx => by
    obtain ⟨p₁, e₁, e⟩ := Option.bind_eq_some.1 e
    obtain ⟨p₁', e₁', h₁, -, hn₁, -⟩ := h.insert hn f r
    obtain rfl := Option.some_inj.1 (e₁'.symm.trans e₁)
    rcases Inv.hasNode_insertAll l h₁ (hn₁ ▸ hn) e hx with hx | hx
    · exact .inl (List.mem_cons_of_mem _ hx)
    · exact (h.hasNode_insert hn e₁ hx).imp (fun e => by rw [e]; exact List.mem_cons_self _ _) id

theorem Inv.hasNode_removeAllFolds (h : p.Inv g) (hn : 0 < p.nCells) {page : Nat} {fs : List Nat}
    {q : Partition} {freed : List Nat} (hq : Ahi.removeAllFolds g page p fs = some (q, freed))
    (hx : q.HasNode g x) : p.HasNode g x ∧ (x.1 ∈ fs → keepOffPage g page x = true) := by
  obtain ⟨q', fr', hq', -, hqn, hv⟩ := Inv.removeAllFolds page fs h hn
  obtain ⟨rfl, rfl⟩ := Prod.mk.inj (Option.some_inj.1 (hq'.symm.trans hq))
  obtain ⟨j, hj, hx⟩ := hx
  rw [hqn] at hj
  rw [hv j hj] at hx
  split_ifs at hx with hc
  · exact ⟨⟨j, hj, (List.mem_filter.1 hx).1⟩, fun _ => (List.mem_filter.1 hx).2⟩
  · exact ⟨⟨j, hj, hx⟩, fun hf => absurd ⟨x.1, hf, h.calcHash_of_mem_view hj hx⟩ hc⟩

theorem Inv.hasNode_erase (h : p.Inv g) (hn : 0 < p.nCells) {f r : Nat} {q : Partition × Option Nat × Bool}
    (hq : p.erase g f r = some q) (hr : ∀ y, p.HasNode g y → y.2 = r → y.1 = f) (hx : q.1.HasNode g x) :
    p.HasNode g x ∧ x.2 ≠ r := by
  obtain ⟨q', fr', hq', -, hqn, -, hv⟩ := h.erase hn f r
  obtain rfl := Option.some_inj.1 (hq'.symm.trans hq)
  obtain ⟨j, hj, hx⟩ := hx
  rw [hqn] at hj
  rw [hv j hj] at hx
  split_ifs at hx with hjf
  · refine ⟨⟨j, hj, List.mem_of_mem_eraseP hx⟩, rec_ne_of_mem_eraseP (h.view_fst_nodup hj)
      (fun y hy => hr y ⟨j, hj, hy⟩) hx⟩
  · exact ⟨⟨j, hj, hx⟩, fun hxr => hjf (by rw [← hr x ⟨j, hj, hx⟩ hxr, h.calcHash_of_mem_view hj hx])⟩

theorem Inv.hasNode_searchAndUpdate (h : p.Inv g) (hn : 0 < p.nCells) {en : Bool} {f d d' : Nat}
    {q : Partition × Bool} (hq : p.haSearchAndUpdateIfFound g en f d d' = some q) (hx : q.1.HasNode g x) :
    p.HasNode g x ∨ ∃ y, p.HasNode g y ∧ y.2 = d ∧ x = (y.1, d') := by
  obtain ⟨q', hq', -, -, hqn, hv⟩ := h.haSearchAndUpdateIfFound hn en f d d'
  obtain rfl := Option.some_inj.1 (hq'.symm.trans hq)
  obtain ⟨j, hj, hx⟩ := hx
  rw [hqn] at hj
  rw [hv j hj] at hx
  split_ifs at hx
  · exact (mem_setFirst_rec hx).imp (fun hx => ⟨j, hj, hx⟩) fun ⟨y, hy, hy'⟩ => ⟨y, ⟨j, hj, hy⟩, hy'⟩
  · exact .inl ⟨j, hj, hx⟩

theorem hasNode_prepareInsert (en : Bool) (b : Nat) :
    (p.prepareInsert en b).1.HasNode g x ↔ p.HasNode g x := by
  unfold prepareInsert
  split_ifs
  · simp only [HasNode, view_congr (p := p) (q := { p with spare := some b }) rfl rfl rfl]
  · rfl

end Partition

/-! ## Leaf pages in their frames -/

/-- The block whose frame, at `b * srv_page_size`, holds the address `r`. -/
def blockOf (g : Geom) (r : Nat) : Nat := r / g.pageSize

/-- A leaf page in the frame of block `b`: the infimum, an optional metadata
record, the user records `recs` and the supremum; `fold` is `rec_fold`. -/
structure LeafPage (g : Geom) (b : Nat) where
  img : PageImage
  pre : List Nat
  recs : List Nat
  fold : Nat → Nat → Nat → Nat
  frame_eq : img.frame = b * g.pageSize
  meta : (pre = [] ∧ ∀ r ∈ recs.head?, img.isMetadata r = false) ∨ ∃ m, pre = [m] ∧ img.isMetadata m = true
  links : PageImage.Links img.next img.infimum (pre ++ recs) img.supremum
  sup_not_mem : img.supremum ∉ pre ++ recs
  n_recs : img.nRecs = (pre ++ recs).length
  recs_in_frame : ∀ r ∈ recs, blockOf g r = b

namespace LeafPage

variable {g : Geom} {b : Nat} (pg : LeafPage g b)

theorem keepOffPage_frame (x : Nat × Nat) :
    Partition.keepOffPage g pg.img.frame x = !decide (blockOf g x.2 = b) := by
  have hps : 0 < g.pageSize := Nat.two_pow_pos _
  rw [Partition.keepOffPage_eq (by rw [pg.frame_eq]; exact Nat.mul_mod_left _ _), pg.frame_eq]
  congr 2
  apply propext
  constructor
  · rintro ⟨lo, hi⟩
    exact Nat.div_eq_of_lt_le lo (by rw [Nat.succ_mul]; exact hi)
  · intro e
    rw [blockOf] at e
    subst e
    exact ⟨Nat.div_mul_le_self _ _, calc
      x.2 = x.2 / g.pageSize * g.pageSize + x.2 % g.pageSize := (Nat.div_add_mod' _ _).symm
      _ < x.2 / g.pageSize * g.pageSize + g.pageSize := Nat.add_lt_add_left (Nat.mod_lt _ hps) _⟩

theorem mem_dropFolds {F : Nat → Nat} {n : Nat} {folds : List Nat} (h : pg.img.dropFolds F n = some folds)
    {r : Nat} (hr : r ∈ pg.recs) : F r ∈ folds := by
  obtain ⟨L, hL, hall⟩ := pg.img.dropFolds_links F pg.meta pg.links pg.sup_not_mem pg.n_recs
    (List.ne_nil_of_mem hr) (Nat.le_add_left pg.recs.length n)
  obtain rfl := Option.some_inj.1 ((pg.img.dropFolds_add F pg.recs.length h).symm.trans hL)
  exact hall r hr

theorem mem_buildCache {F : Nat → Nat} {indexId n : Nat} {leftSide : Bool} {pairs : List (Nat × Nat)}
    (h : pg.img.buildCache F indexId leftSide n = some (.cache pairs)) {y : Nat × Nat} (hy : y ∈ pairs) :
    ∃ r ∈ pg.recs, y = (F r, r) := by
  have hc := pg.img.buildCache_links F indexId leftSide pg.meta pg.links pg.sup_not_mem pg.n_recs
    (pg.img.buildCache_indexId F h) (Nat.le_add_left pg.recs.length n)
  rw [pg.img.buildCache_add F pg.recs.length h] at hc
  split_ifs at hc
  · cases hc
  obtain rfl := BuildWalk.cache.inj (Option.some_inj.1 hc)
  obtain ⟨r, hr, rfl⟩ := List.mem_map.1 (mem_of_mem_runReps _ _ hy)
  exact ⟨r, hr, rfl⟩

theorem next_of_mem {r r' : Nat} (hr : r ∈ pg.recs) (h : pg.img.next r = some r') :
    r' ∈ pg.recs ∨ r' = pg.img.supremum := by
  obtain ⟨u, w, hrw⟩ := List.append_of_mem hr
  have hl := (PageImage.Links.append (u := pg.pre ++ u)).1 (by rw [List.append_assoc, ← hrw]; exact pg.links)
  cases w with
  | nil => exact .inr (Option.some_inj.1 (h.symm.trans hl.2))
  | cons a w => exact .inl (by rw [Option.some_inj.1 (h.symm.trans hl.2.1), hrw]; simp)

end LeafPage

theorem LeafPage.mem_recs {g : Geom} {b : Nat} (pg : LeafPage g b) {r : Nat}
    (hr : r ∈ pg.img.infimum :: (pg.pre ++ pg.recs)) (hi : r ≠ pg.img.infimum)
    (hm : pg.img.isMetadata r = false) : r ∈ pg.recs := by
  rcases List.mem_cons.1 hr with rfl | hr
  · exact absurd rfl hi
  rcases List.mem_append.1 hr with hr | hr
  · rcases pg.meta with ⟨hpre, -⟩ | ⟨m, hpre, hmeta⟩
    · simp [hpre] at hr
    · simp only [hpre, List.mem_singleton] at hr
      simp [hr, hmeta] at hm
  · exact hr

/-! ## The AHI with its pages -/

/-- The AHI and the leaf page in the frame of every block. -/
structure PagedAhi (g : Geom) where
  ahi : Ahi
  page : (b : Nat) → LeafPage g b

namespace PagedAhi

variable {g : Geom}

def recFold (w : PagedAhi g) (nf nb r : Nat) : Nat := (w.page (blockOf g r)).fold nf nb r

variable (maxNFields : Nat) (pool : List Nat)

/-- A step of the AHI and its pages: a section of build or drop, a callback under
the page latch with its callers' guarantees, a step of `disable`, `enable` or
the dictionary, or a page change by the callback protocol. -/
inductive Step : PagedAhi g → PagedAhi g → Prop
  | build {w : PagedAhi g} {s' : Ahi} {i b nFields nBytes n : Nat} {leftSide : Bool}
      {pairs : List (Nat × Nat)} : w.ahi.disabling = false → b ∈ pool →
      (w.ahi.block b).index = none ∨ (w.ahi.block b).index = some i → i ∉ w.ahi.lazyFreed →
      nFields &&& maxNFields = nFields → nBytes &&& (2 ^ 15 - 1) = nBytes →
      (w.page b).img.buildCache (w.recFold nFields nBytes) (w.ahi.index i).id leftSide n =
        some (.cache pairs) →
      w.ahi.buildSection g maxNFields i b nFields nBytes leftSide pairs = some s' → Step w ⟨s', w.page⟩
  | drop {w : PagedAhi g} {s' : Ahi} {b i nFields nBytes n : Nat} {folds : List Nat} :
      w.ahi.disabling = false → (w.page b).img.dropFolds (w.recFold nFields nBytes) n = some folds →
      w.ahi.dropSection g b i nFields nBytes folds (w.page b).img.frame = some s' → Step w ⟨s', w.page⟩
  | prepare {w : PagedAhi g} (spare : Nat) : spare ∉ w.ahi.part.owned →
      Step w ⟨{ w.ahi with part := (w.ahi.part.prepareInsert w.ahi.enabled spare).1 }, w.page⟩
  | onInsert {w : PagedAhi g} {s' : Ahi} {i spare n : Nat} {c : Cursor} : w.ahi.disabling = false →
      spare ∉ w.ahi.part.owned →
      c.recPtr ∈ (w.page c.block).img.infimum :: ((w.page c.block).pre ++ (w.page c.block).recs) →
      (∀ r, (w.page c.block).img.next c.recPtr = some r → r ∈ (w.page c.block).recs) →
      w.ahi.updateHashOnInsert g i (w.page c.block).img w.recFold c spare n = some s' →
      Step w ⟨s', w.page⟩
  | nodeOnInsert {w : PagedAhi g} {s' : Ahi} {i spare n : Nat} {c : Cursor} : w.ahi.disabling = false →
      spare ∉ w.ahi.part.owned →
      c.recPtr ∈ (w.page c.block).img.infimum :: ((w.page c.block).pre ++ (w.page c.block).recs) →
      (∀ r, (w.page c.block).img.next c.recPtr = some r → r ∈ (w.page c.block).recs) →
      (c.flag = .hash → c.recPtr ∈ (w.page c.block).recs ∧
        ∀ r, (w.page c.block).img.next c.recPtr = some r →
          w.recFold (w.ahi.block c.block).currNFields (w.ahi.block c.block).currNBytes r =
            w.recFold (w.ahi.block c.block).currNFields (w.ahi.block c.block).currNBytes c.recPtr) →
      w.ahi.updateHashNodeOnInsert g i (w.page c.block).img w.recFold c spare n = some s' →
      Step w ⟨s', w.page⟩
  | updateRef {w : PagedAhi g} {s' : Ahi} {i b rec n : Nat} {info : RecommInfo} :
      w.ahi.disabling = false → rec ∈ (w.page b).recs →
      w.ahi.updateHashRef g i info (w.page b).img w.recFold b rec n = some s' → Step w ⟨s', w.page⟩
  | move {w : PagedAhi g} {s' : Ahi} {newBlock block spare n : Nat} : w.ahi.disabling = false →
      newBlock ∈ pool → spare ∉ w.ahi.part.owned →
      w.ahi.moveOrDeleteHashEntries g maxNFields newBlock block (w.page newBlock).img (w.page block).img
        w.recFold spare n = some s' → Step w ⟨s', w.page⟩
  | whenFreed {w : PagedAhi g} {s' : Ahi} {b n : Nat} : w.ahi.disabling = false →
      w.ahi.dropPageHashWhenFreed g (some b) (w.page b).img w.recFold n = some s' → Step w ⟨s', w.page⟩
  | keep {w : PagedAhi g} {b : Nat} (page' : LeafPage g b) :
      (∀ r ∈ (w.page b).recs, r ∈ page'.recs ∧ ∀ nf nb, page'.fold nf nb r = (w.page b).fold nf nb r) →
      Step w ⟨w.ahi, Function.update w.page b page'⟩
  | delete {w : PagedAhi g} {s' : Ahi} {i b rec n : Nat} (page' : LeafPage g b) :
      rec ∈ (w.page b).recs → (∀ r ∈ (w.page b).recs, r ≠ rec →
        r ∈ page'.recs ∧ ∀ nf nb, page'.fold nf nb r = (w.page b).fold nf nb r) →
      w.ahi.updateHashOnDelete g i (w.page b).img w.recFold b rec n = some s' →
      Step w ⟨s', Function.update w.page b page'⟩
  | replace {w : PagedAhi g} {s' : Ahi} {b n : Nat} (page' : LeafPage g b) :
      w.ahi.dropPageHashIndex g b (w.page b).img w.recFold false n = some s' →
      Step w ⟨s', Function.update w.page b page'⟩
  | disable {w : PagedAhi g} : w.ahi.disabling = false → Step w ⟨w.ahi.disable, w.page⟩
  | disableClear {w : PagedAhi g} : w.ahi.disabling = true → Step w ⟨w.ahi.disableClear pool, w.page⟩
  | enable {w : PagedAhi g} (resize changed : Bool) (nCells : Nat) : w.ahi.disabling = false →
      0 < nCells → Step w ⟨w.ahi.enable resize changed nCells, w.page⟩
  | dictIndexRemove {w : PagedAhi g} (i : Nat) : (w.ahi.index i).freed = false →
      i ∉ w.ahi.dictFreed → Step w ⟨w.ahi.dictIndexRemove i, w.page⟩

inductive Reachable : PagedAhi g → Prop
  | start {w : PagedAhi g} : Ahi.Reachable g maxNFields pool w.ahi → (∀ b, (w.ahi.block b).index = none) →
      (∀ x, ¬w.ahi.part.HasNode g x) → Reachable w
  | step {w w' : PagedAhi g} : Reachable w → Step maxNFields pool w w' → Reachable w'

/-- Where a node may point: into the frame of a hashed block of the pool and,
outside the window of `disable`, to a user record under the block's signature. -/
def Sound (w : PagedAhi g) (x : Nat × Nat) : Prop :=
  blockOf g x.2 ∈ pool ∧ (w.ahi.block (blockOf g x.2)).index ≠ none ∧
    (w.ahi.disabling = false → x.2 ∈ (w.page (blockOf g x.2)).recs ∧
      x.1 = w.recFold (w.ahi.block (blockOf g x.2)).currNFields (w.ahi.block (blockOf g x.2)).currNBytes x.2)

structure Coherent (w : PagedAhi g) : Prop where
  sound : ∀ x, w.ahi.part.HasNode g x → Sound pool w x
  masked : ∀ b, (w.ahi.block b).index ≠ none →
    (w.ahi.block b).currNFields &&& maxNFields = (w.ahi.block b).currNFields ∧
      (w.ahi.block b).currNBytes &&& (2 ^ 15 - 1) = (w.ahi.block b).currNBytes

/-! ## Each step keeps the AHI coherent -/

section Coherence

variable {maxNFields : Nat} {pool : List Nat} {w w' : PagedAhi g} {s' : Ahi}

theorem recFold_of_mem {b r : Nat} (hr : r ∈ (w.page b).recs) (nf nb : Nat) :
    w.recFold nf nb r = (w.page b).fold nf nb r := by
  obtain rfl := (w.page b).recs_in_frame r hr
  rfl

theorem Sound.mono {x : Nat × Nat} (hx : Sound pool w x)
    (hd : w'.ahi.disabling = false → w.ahi.disabling = false)
    (h : (w.ahi.block (blockOf g x.2)).index ≠ none → (w'.ahi.block (blockOf g x.2)).index ≠ none ∧
      (w'.ahi.disabling = false → x.2 ∈ (w.page (blockOf g x.2)).recs →
        x.2 ∈ (w'.page (blockOf g x.2)).recs ∧
        w'.recFold (w'.ahi.block (blockOf g x.2)).currNFields (w'.ahi.block (blockOf g x.2)).currNBytes x.2 =
          w.recFold (w.ahi.block (blockOf g x.2)).currNFields (w.ahi.block (blockOf g x.2)).currNBytes x.2)) :
    Sound pool w' x := by
  obtain ⟨hb, hh, hcur⟩ := hx
  obtain ⟨hh', hcur'⟩ := h hh
  refine ⟨hb, hh', fun hd' => ?_⟩
  obtain ⟨hr, hf⟩ := hcur (hd hd')
  obtain ⟨hr', hf'⟩ := hcur' hd' hr
  exact ⟨hr', hf.trans hf'.symm⟩

theorem sound_of_mem (hI : Ahi.RefCounts pool w.ahi) {b r : Nat} (hh : (w.ahi.block b).index ≠ none)
    (hr : r ∈ (w.page b).recs) :
    Sound pool w (w.recFold (w.ahi.block b).currNFields (w.ahi.block b).currNBytes r, r) := by
  obtain rfl := (w.page b).recs_in_frame r hr
  obtain ⟨i, hi⟩ := Option.ne_none_iff_exists'.1 hh
  exact ⟨hI.mem_pool hi, hh, fun _ => ⟨hr, rfl⟩⟩

theorem Coherent.of_part (hC : Coherent maxNFields pool w) {q : Partition}
    (hq : ∀ x, q.HasNode g x → w.ahi.part.HasNode g x ∨ Sound pool w x) :
    Coherent maxNFields pool ⟨{ w.ahi with part := q }, w.page⟩ :=
  ⟨fun x hx => (hq x hx).elim (hC.sound x) id, hC.masked⟩

theorem Coherent.update_page (hC : Coherent maxNFields pool w) {b : Nat} (page' : LeafPage g b)
    (hb : w.ahi.disabling = false → ∀ x, w.ahi.part.HasNode g x → blockOf g x.2 = b →
      x.2 ∈ (w.page b).recs → x.2 ∈ page'.recs ∧ ∀ nf nb, page'.fold nf nb x.2 = (w.page b).fold nf nb x.2) :
    Coherent maxNFields pool ⟨w.ahi, Function.update w.page b page'⟩ := by
  refine ⟨fun x hx => (hC.sound x hx).mono id fun hh => ⟨hh, fun hd hr => ?_⟩, hC.masked⟩
  by_cases hxb : blockOf g x.2 = b
  · subst hxb
    obtain ⟨hr', hf⟩ := hb hd x hx rfl hr
    simp only [recFold, Function.update_same]
    exact ⟨hr', hf _ _⟩
  · simp only [recFold, Function.update_noteq hxb, and_true]
    exact hr

theorem Coherent.dropSection (hC : Coherent maxNFields pool w) (hI : Ahi.RefCounts pool w.ahi)
    {acq ret : List Nat} (ht : Ahi.TableOk g w.ahi acq ret) (hd : w.ahi.disabling = false)
    {b i nFields nBytes : Nat} {folds : List Nat}
    (hcov : ∀ r ∈ (w.page b).recs, w.recFold nFields nBytes r ∈ folds)
    (hs : w.ahi.dropSection g b i nFields nBytes folds (w.page b).img.frame = some s') :
    Coherent maxNFields pool ⟨s', w.page⟩ ∧ ((w.ahi.block b).currNFields = nFields →
      (w.ahi.block b).currNBytes = nBytes → ∀ x, s'.part.HasNode g x → blockOf g x.2 ≠ b) := by
  rcases Ahi.dropSection_eq hs with ⟨rfl, hsame⟩ | ⟨hbi, hF, hB, part, freed, k, hr, -, rfl⟩
  · refine ⟨hC, fun hF hB x hx hxb => ?_⟩
    obtain ⟨-, hh, -⟩ := hC.sound x hx
    rw [hxb] at hh
    rcases hsame with h | h | h
    exacts [hh h, h hF, h hB]
  have hen : w.ahi.enabled = true := by
    by_contra hen
    simp [hI.disabled_unhashed (by simpa using hen) hd b] at hbi
  -- the nodes left were there, and none points into the page
  have hoff : ∀ x, part.HasNode g x → w.ahi.part.HasNode g x ∧ blockOf g x.2 ≠ b := fun x hx => by
    obtain ⟨hx, hkeep⟩ := ht.reachable.inv_ledger.1.hasNode_removeAllFolds (ht.cells_pos hen) hr hx
    refine ⟨hx, fun hxb => ?_⟩
    obtain ⟨-, -, hcur⟩ := hC.sound x hx
    rw [hxb] at hcur
    obtain ⟨hmem, hfold⟩ := hcur hd
    have hx1 : x.1 ∈ folds := by rw [hfold, hF, hB]; exact hcov x.2 hmem
    have := hkeep hx1
    rw [(w.page b).keepOffPage_frame] at this
    simp [hxb] at this
  refine ⟨⟨fun x hx => ?_, fun c hc => ?_⟩, fun _ _ x hx => (hoff x hx).2⟩
  · obtain ⟨hx, hxb⟩ := hoff x hx
    refine (hC.sound x hx).mono id fun hh => ?_
    simp only [Function.update_noteq hxb]
    exact ⟨hh, fun _ hr => ⟨hr, rfl⟩⟩
  · by_cases hcb : c = b
    · subst hcb
      simp at hc
    · simp only [Function.update_noteq hcb] at hc ⊢
      exact hC.masked c hc

theorem Coherent.buildSection (hC : Coherent maxNFields pool w) {acq ret : List Nat}
    (ht : Ahi.TableOk g w.ahi acq ret) {i b nFields nBytes : Nat} {leftSide : Bool}
    {pairs : List (Nat × Nat)} (hbp : b ∈ pool) (hmF : nFields &&& maxNFields = nFields)
    (hmB : nBytes &&& (2 ^ 15 - 1) = nBytes)
    (hpairs : ∀ y ∈ pairs, ∃ r ∈ (w.page b).recs, y = (w.recFold nFields nBytes r, r))
    (hs : w.ahi.buildSection g maxNFields i b nFields nBytes leftSide pairs = some s') :
    Coherent maxNFields pool ⟨s', w.page⟩ := by
  rcases Ahi.buildSection_eq hs with rfl | ⟨hen, hsig, part, hpart, rfl⟩
  · exact hC
  rw [hmF, hmB]
  refine ⟨fun x hx => ?_, fun c hc => ?_⟩
  · rcases ht.reachable.inv_ledger.1.hasNode_insertAll pairs (ht.cells_pos hen) hpart hx with hx | hx
    · obtain ⟨r, hr, rfl⟩ := hpairs x hx
      obtain rfl := (w.page b).recs_in_frame r hr
      exact ⟨hbp, by simp, fun _ => ⟨hr, by simp [recFold]⟩⟩
    · refine (hC.sound x hx).mono id fun hh => ?_
      by_cases hxb : blockOf g x.2 = b
      · rw [hxb] at hh ⊢
        obtain ⟨hF, hB, -⟩ := hsig (Option.isSome_iff_ne_none.2 hh)
        simp [recFold, hF, hB]
      · simp only [Function.update_noteq hxb]
        exact ⟨hh, fun _ hr => ⟨hr, rfl⟩⟩
  · by_cases hcb : c = b
    · subst hcb
      simp only [Function.update_same]
      exact ⟨hmF, hmB⟩
    · simp only [Function.update_noteq hcb] at hc ⊢
      exact hC.masked c hc

theorem Coherent.dropPageHashIndex (hC : Coherent maxNFields pool w) (hI : Ahi.RefCounts pool w.ahi)
    {acq ret : List Nat} (ht : Ahi.TableOk g w.ahi acq ret) {b n : Nat}
    (hs : w.ahi.dropPageHashIndex g b (w.page b).img w.recFold false n = some s') :
    Coherent maxNFields pool ⟨s', w.page⟩ ∧
      (s'.disabling = false → ∀ x, s'.part.HasNode g x → blockOf g x.2 ≠ b) := by
  rcases Ahi.dropPageHashIndex_eq hs with ⟨rfl, hwhy⟩ | ⟨hen, i, folds, -, hf, hs⟩
  · refine ⟨hC, fun hd x hx hxb => ?_⟩
    obtain ⟨-, hh, hcur⟩ := hC.sound x hx
    rw [hxb] at hh hcur
    rcases hwhy with h | h | h | h
    · exact hh h
    · cases h
    · exact hh (hI.disabled_unhashed h hd b)
    · -- an empty page has no record for the node
      have hn := (w.page b).n_recs
      rw [h, List.length_append] at hn
      exact List.ne_nil_of_mem (hcur hd).1 (List.length_eq_zero.1 (by omega))
  · exact (hC.dropSection hI ht (hI.disabling_of_enabled hen) (fun r hr => (w.page b).mem_dropFolds hf hr)
      hs).imp_right fun h _ => h rfl rfl

theorem Coherent.buildPageHashIndex (hp : pool.Nodup) (hr : Ahi.Reachable g maxNFields pool w.ahi)
    (hC : Coherent maxNFields pool w) (hd : w.ahi.disabling = false) {i b nFields nBytes spare n : Nat}
    {leftSide : Bool} (hbp : b ∈ pool) (hmF : nFields &&& maxNFields = nFields)
    (hmB : nBytes &&& (2 ^ 15 - 1) = nBytes) (hsp : spare ∉ w.ahi.part.owned)
    (hs : w.ahi.buildPageHashIndex g maxNFields i b (w.page b).img w.recFold nFields nBytes leftSide spare n =
      some s') :
    Coherent maxNFields pool ⟨s', w.page⟩ := by
  rcases Ahi.buildPageHashIndex_eq hs with rfl | ⟨s₁, h₁, h⟩
  · exact hC
  obtain ⟨acq, ret, ht⟩ := hr.table hp
  -- the drop of a rebuild
  obtain ⟨hC₁, hr₁, hd₁, hsp₁⟩ : Coherent maxNFields pool ⟨s₁, w.page⟩ ∧
      Ahi.Reachable g maxNFields pool s₁ ∧ s₁.disabling = false ∧ spare ∉ s₁.part.owned := by
    rcases h₁ with rfl | h₁
    · exact ⟨hC, hr, hd, hsp⟩
    · exact ⟨(hC.dropPageHashIndex (hr.refCounts hp) ht h₁).1, hr.run (Ahi.dropPageHashIndex_steps hd h₁),
        (Ahi.dropPageHashIndex_block h₁).2.1.trans hd, fun hm => hsp (Ahi.dropPageHashIndex_owned ht h₁ hm)⟩
  rcases h with rfl | ⟨pairs, hc, h⟩
  · exact hC₁
  -- then `prepare_insert` and the latched inserts
  obtain ⟨_, _, ht₂⟩ := (hr₁.step (.prepare spare hsp₁)).table hp
  exact (hC₁.of_part fun x hx => .inl ((Partition.hasNode_prepareInsert _ _).1 hx)).buildSection ht₂ hbp
    hmF hmB (fun y hy => (w.page b).mem_buildCache hc hy) h

theorem Coherent.updateHashOnInsert (hp : pool.Nodup) (hr : Ahi.Reachable g maxNFields pool w.ahi)
    (hC : Coherent maxNFields pool w) {i spare n : Nat} {c : Cursor} (hsp : spare ∉ w.ahi.part.owned)
    (hc : c.recPtr ∈ (w.page c.block).img.infimum :: ((w.page c.block).pre ++ (w.page c.block).recs))
    (hnext : ∀ r, (w.page c.block).img.next c.recPtr = some r → r ∈ (w.page c.block).recs)
    (hs : w.ahi.updateHashOnInsert g i (w.page c.block).img w.recFold c spare n = some s') :
    Coherent maxNFields pool ⟨s', w.page⟩ := by
  obtain ⟨acq, ret, ht⟩ := hr.table hp
  rcases Ahi.updateHashOnInsert_cases hs with rfl | h | ⟨insRec, nextRec, hins, hnr, h⟩
  · exact hC
  · exact (hC.dropPageHashIndex (hr.refCounts hp) ht h).1
  -- the records the inserts point to: the cursor record, the inserted one and the one after it
  have hins' := hnext insRec hins
  have hprev : ∀ z ∈ (if c.recPtr = (w.page c.block).img.infimum ∨
      (w.page c.block).img.isMetadata c.recPtr then none else some c.recPtr), z ∈ (w.page c.block).recs :=
    fun z hz => by
      rw [Option.mem_def] at hz
      split_ifs at hz with h
      obtain rfl := Option.some_inj.1 hz
      push_neg at h
      exact (w.page c.block).mem_recs hc h.1 (by simpa using h.2)
  have hnext' : ∀ z ∈ (if nextRec = (w.page c.block).img.supremum then none else some nextRec),
      z ∈ (w.page c.block).recs := fun z hz => by
    rw [Option.mem_def] at hz
    split_ifs at hz with h
    obtain rfl := Option.some_inj.1 hz
    exact ((w.page c.block).next_of_mem hins' hnr).resolve_right h
  have hC₁ := hC.of_part (q := (w.ahi.part.prepareInsert w.ahi.enabled spare).1) fun x hx =>
    .inl ((Partition.hasNode_prepareInsert _ _).1 hx)
  unfold Ahi.insertSection at h
  rcases ite_eq_iff.1 h with ⟨-, h⟩ | ⟨hc', h⟩
  · cases h
    exact hC₁
  obtain ⟨part, hpart, rfl⟩ := Option.map_eq_some'.1 h
  simp only [Bool.or_eq_true, Bool.not_eq_true', Option.isNone_iff_eq_none, not_or] at hc'
  obtain ⟨_, _, ht₁⟩ := (hr.step (.prepare spare hsp)).table hp
  refine hC₁.of_part fun x hx => ?_
  rcases ht₁.reachable.inv_ledger.1.hasNode_insertAll _ (ht₁.cells_pos (by simpa using hc'.1)) hpart hx
    with hx | hx
  · refine .inr ?_
    rcases mem_onInsertPairs.1 hx with ⟨rfl, -⟩ | ⟨z, hz, -, rfl⟩
    · exact sound_of_mem (hr.refCounts hp) hc'.2 hins'
    · have hz' : z ∈ (w.page c.block).recs := by
        revert hz
        cases (w.ahi.block c.block).currLeftSide
        exacts [hprev z, hnext' z]
      exact sound_of_mem (hr.refCounts hp) hc'.2 hz'
  · exact .inl hx

theorem Coherent.updateHashNodeOnInsert (hp : pool.Nodup) (hr : Ahi.Reachable g maxNFields pool w.ahi)
    (hC : Coherent maxNFields pool w) (hd : w.ahi.disabling = false) {i spare n : Nat} {c : Cursor}
    (hsp : spare ∉ w.ahi.part.owned)
    (hc : c.recPtr ∈ (w.page c.block).img.infimum :: ((w.page c.block).pre ++ (w.page c.block).recs))
    (hnext : ∀ r, (w.page c.block).img.next c.recPtr = some r → r ∈ (w.page c.block).recs)
    (hfast : c.flag = .hash → c.recPtr ∈ (w.page c.block).recs ∧
      ∀ r, (w.page c.block).img.next c.recPtr = some r →
        w.recFold (w.ahi.block c.block).currNFields (w.ahi.block c.block).currNBytes r =
          w.recFold (w.ahi.block c.block).currNFields (w.ahi.block c.block).currNBytes c.recPtr)
    (hs : w.ahi.updateHashNodeOnInsert g i (w.page c.block).img w.recFold c spare n = some s') :
    Coherent maxNFields pool ⟨s', w.page⟩ := by
  obtain ⟨acq, ret, ht⟩ := hr.table hp
  rcases Ahi.updateHashNodeOnInsert_cases hs with rfl | h | ⟨hen, hflag, hidx, newRec, q, hnew, hq, rfl⟩ | h
  · exact hC
  · exact (hC.dropPageHashIndex (hr.refCounts hp) ht h).1
  · obtain ⟨hcur, hfold⟩ := hfast hflag
    have hcb := (w.page c.block).recs_in_frame _ hcur
    refine hC.of_part fun x hx => ?_
    rcases ht.reachable.inv_ledger.1.hasNode_searchAndUpdate (ht.cells_pos hen) hq hx with hx | ⟨y, hy, hyd, rfl⟩
    · exact .inl hx
    · -- the moved node keeps its fold, that of the cursor record and of the new one
      obtain ⟨-, -, hyc⟩ := hC.sound y hy
      rw [hyd, hcb] at hyc
      have hs := sound_of_mem (hr.refCounts hp) (Option.isSome_iff_ne_none.1 hidx) (hnext newRec hnew)
      rw [hfold newRec hnew, ← (hyc hd).2] at hs
      exact .inr hs
  · exact hC.updateHashOnInsert hp hr hsp hc hnext h

theorem Coherent.updateHashRef (hp : pool.Nodup) (hr : Ahi.Reachable g maxNFields pool w.ahi)
    (hC : Coherent maxNFields pool w) {i b rec n : Nat} {info : RecommInfo} (hrec : rec ∈ (w.page b).recs)
    (hs : w.ahi.updateHashRef g i info (w.page b).img w.recFold b rec n = some s') :
    Coherent maxNFields pool ⟨s', w.page⟩ := by
  obtain ⟨acq, ret, ht⟩ := hr.table hp
  rcases Ahi.updateHashRef_cases hs with rfl | h | ⟨hen, hidx, part, hpart, rfl⟩
  · exact hC
  · exact (hC.dropPageHashIndex (hr.refCounts hp) ht h).1
  · refine hC.of_part fun x hx => ?_
    rcases ht.reachable.inv_ledger.1.hasNode_insert (ht.cells_pos hen) hpart hx with rfl | hx
    · exact .inr (sound_of_mem (hr.refCounts hp) (Option.isSome_iff_ne_none.1 hidx) hrec)
    · exact .inl hx

theorem Coherent.moveOrDeleteHashEntries (hp : pool.Nodup) (hr : Ahi.Reachable g maxNFields pool w.ahi)
    (hC : Coherent maxNFields pool w) (hd : w.ahi.disabling = false) {newBlock block spare n : Nat}
    (hnb : newBlock ∈ pool) (hsp : spare ∉ w.ahi.part.owned)
    (hs : w.ahi.moveOrDeleteHashEntries g maxNFields newBlock block (w.page newBlock).img (w.page block).img
      w.recFold spare n = some s') :
    Coherent maxNFields pool ⟨s', w.page⟩ := by
  obtain ⟨acq, ret, ht⟩ := hr.table hp
  rcases Ahi.moveOrDeleteHashEntries_cases hs with rfl | h | ⟨i, hbi, -, -, h⟩
  · exact hC
  · exact (hC.dropPageHashIndex (hr.refCounts hp) ht h).1
  · obtain ⟨hmF, hmB⟩ := hC.masked block (by simp [hbi])
    exact hC.buildPageHashIndex hp hr hd hnb hmF hmB hsp h

theorem Coherent.updateHashOnDelete (hp : pool.Nodup) (hr : Ahi.Reachable g maxNFields pool w.ahi)
    (hC : Coherent maxNFields pool w) {i b rec n : Nat} (page' : LeafPage g b) (hrec : rec ∈ (w.page b).recs)
    (hkeep : ∀ r ∈ (w.page b).recs, r ≠ rec →
      r ∈ page'.recs ∧ ∀ nf nb, page'.fold nf nb r = (w.page b).fold nf nb r)
    (hs : w.ahi.updateHashOnDelete g i (w.page b).img w.recFold b rec n = some s') :
    Coherent maxNFields pool ⟨s', Function.update w.page b page'⟩ := by
  obtain ⟨acq, ret, ht⟩ := hr.table hp
  have hI := hr.refCounts hp
  rcases Ahi.updateHashOnDelete_cases hs with ⟨rfl, hwhy⟩ | h | ⟨hen, hidx, q, hq, rfl⟩
  · -- outside the window no node points into the page
    refine hC.update_page page' fun hd x hx hxb _ => absurd ?_ (hC.sound x hx).2.1
    rw [hxb]
    exact hwhy.elim (fun h => hI.disabled_unhashed h hd b) id
  · obtain ⟨hC', hoff⟩ := hC.dropPageHashIndex hI ht h
    exact hC'.update_page page' fun hd x hx hxb => absurd hxb (hoff hd x hx)
  · -- every node of the record has its fold, so the erase leaves none
    have hd := hI.disabling_of_enabled hen
    have hrb := (w.page b).recs_in_frame rec hrec
    have hfold : ∀ y, w.ahi.part.HasNode g y → y.2 = rec →
        y.1 = w.recFold (w.ahi.block b).currNFields (w.ahi.block b).currNBytes rec := fun y hy hyr => by
      obtain ⟨-, -, hyc⟩ := hC.sound y hy
      rw [hyr, hrb] at hyc
      exact (hyc hd).2
    have herase := fun x (hx : q.1.HasNode g x) =>
      ht.reachable.inv_ledger.1.hasNode_erase (ht.cells_pos hen) hq hfold hx
    exact (hC.of_part fun x hx => .inl (herase x hx).1).update_page page' fun _ x hx _ hmem =>
      hkeep x.2 hmem (herase x hx).2

theorem Coherent.disable (hC : Coherent maxNFields pool w) :
    Coherent maxNFields pool ⟨w.ahi.disable, w.page⟩ := by
  unfold Ahi.disable
  split_ifs
  · exact hC
  · exact ⟨fun x hx => (hC.sound x hx).mono (fun h => absurd h (by simp))
      fun hh => ⟨hh, fun h => absurd h (by simp)⟩, hC.masked⟩

theorem Coherent.disableClear (hI : Ahi.RefCounts pool w.ahi) :
    Coherent maxNFields pool ⟨w.ahi.disableClear pool, w.page⟩ := by
  refine ⟨fun x hx => absurd hx (Partition.not_hasNode_of_nCells (Partition.clear_inv (g := g) _).2.1),
    fun b hb => absurd ?_ hb⟩
  simp only [Ahi.disableClear]
  split_ifs with h
  exacts [rfl, hI.off_pool b h]

theorem Coherent.enable (hC : Coherent maxNFields pool w) {acq ret : List Nat}
    (ht : Ahi.TableOk g w.ahi acq ret) (resize changed : Bool) (nCells : Nat) :
    Coherent maxNFields pool ⟨w.ahi.enable resize changed nCells, w.page⟩ := by
  unfold Ahi.enable
  split_ifs with h₁ h₂
  · exact hC
  · exact hC
  · have hv := (ht.reachable.inv_ledger.1.alloc (by omega) nCells).2.2
    exact ⟨fun x ⟨j, _, hx⟩ => absurd hx (by rw [hv j]; exact List.not_mem_nil _), hC.masked⟩

theorem Coherent.dictIndexRemove (hC : Coherent maxNFields pool w) (i : Nat) :
    Coherent maxNFields pool ⟨w.ahi.dictIndexRemove i, w.page⟩ := by
  unfold Ahi.dictIndexRemove
  split_ifs <;> exact ⟨hC.sound, hC.masked⟩

theorem Step.ahi_steps (hp : pool.Nodup) (hr : Ahi.Reachable g maxNFields pool w.ahi)
    (hs : Step maxNFields pool w w') : Relation.ReflTransGen (Ahi.Step g maxNFields pool) w.ahi w'.ahi := by
  cases hs with
  | build hd hb hidx hi _ _ _ hs => exact .single (.build hd hb hidx hi hs)
  | drop hd _ hs => exact .single (.drop hd hs)
  | prepare spare hsp => exact .single (.prepare spare hsp)
  | onInsert hd hsp _ _ hs => exact Ahi.updateHashOnInsert_steps hd hsp hs
  | nodeOnInsert hd hsp _ _ _ hs => exact Ahi.updateHashNodeOnInsert_steps hd hsp hs
  | updateRef hd _ hs => exact Ahi.updateHashRef_steps hd hs
  | move hd hnb hsp hs => exact Ahi.moveOrDeleteHashEntries_steps hp hr hd hnb hsp hs
  | whenFreed hd hs => exact Ahi.dropPageHashWhenFreed_steps hd hs
  | keep => exact .refl
  | delete _ _ _ hs =>
    cases hd : w.ahi.disabling
    · exact Ahi.updateHashOnDelete_steps hd hs
    · obtain rfl := Ahi.updateHashOnDelete_of_disabled ((hr.refCounts hp).window hd).1 hs
      exact .refl
  | replace _ hs =>
    cases hd : w.ahi.disabling
    · exact Ahi.dropPageHashIndex_steps hd hs
    · obtain rfl := Ahi.dropPageHashIndex_of_disabled ((hr.refCounts hp).window hd).1 hs
      exact .refl
  | disable hd => exact .single (.disable hd)
  | disableClear hd => exact .single (.disableClear hd)
  | enable resize changed nCells hd hn => exact .single (.enable resize changed nCells hd hn)
  | dictIndexRemove i hf hi => exact .single (.dictIndexRemove i hf hi)

theorem Coherent.step (hp : pool.Nodup) (hr : Ahi.Reachable g maxNFields pool w.ahi)
    (hC : Coherent maxNFields pool w) (hs : Step maxNFields pool w w') : Coherent maxNFields pool w' := by
  obtain ⟨acq, ret, ht⟩ := hr.table hp
  have hI := hr.refCounts hp
  cases hs with
  | build _ hb _ _ hmF hmB hc hs =>
    exact hC.buildSection ht hb hmF hmB (fun y hy => (w.page _).mem_buildCache hc hy) hs
  | drop hd hf hs => exact (hC.dropSection hI ht hd (fun r hr => (w.page _).mem_dropFolds hf hr) hs).1
  | prepare => exact hC.of_part fun x hx => .inl ((Partition.hasNode_prepareInsert _ _).1 hx)
  | onInsert _ hsp hc hnext hs => exact hC.updateHashOnInsert hp hr hsp hc hnext hs
  | nodeOnInsert hd hsp hc hnext hfast hs => exact hC.updateHashNodeOnInsert hp hr hd hsp hc hnext hfast hs
  | updateRef _ hrec hs => exact hC.updateHashRef hp hr hrec hs
  | move hd hnb hsp hs => exact hC.moveOrDeleteHashEntries hp hr hd hnb hsp hs
  | whenFreed _ hs =>
    rcases Ahi.dropPageHashWhenFreed_cases hs with rfl | ⟨_, hb, hs⟩
    · exact hC
    · cases hb
      exact (hC.dropPageHashIndex hI ht hs).1
  | keep page' hkeep => exact hC.update_page page' fun _ x _ _ hmem => hkeep x.2 hmem
  | delete page' hrec hkeep hs => exact hC.updateHashOnDelete hp hr page' hrec hkeep hs
  | replace page' hs =>
    obtain ⟨hC', hoff⟩ := hC.dropPageHashIndex hI ht hs
    exact hC'.update_page page' fun hd x hx hxb => absurd hxb (hoff hd x hx)
  | disable => exact hC.disable
  | disableClear => exact Coherent.disableClear hI
  | enable resize changed nCells => exact hC.enable ht resize changed nCells
  | dictIndexRemove i => exact hC.dictIndexRemove i

theorem Reachable.ahi (hp : pool.Nodup) (h : Reachable maxNFields pool w) :
    Ahi.Reachable g maxNFields pool w.ahi := by
  induction h with
  | start hr => exact hr
  | step _ hs ih => exact ih.run (hs.ahi_steps hp ih)

end Coherence

/-! ## A page whose only record is deleted -/

end PagedAhi

end Innobase
