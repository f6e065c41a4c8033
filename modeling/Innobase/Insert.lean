import Innobase.Runs
import Innobase.BuildDrop
import Innobase.Guess

/-!
# Keeping the hash entries of a page after an insert

`btr_search_update_hash_on_insert` inserts the new record or its neighbours
under their folds; on a page whose entries are the run representatives of its
records, that gives the representatives of the new record list.
-/

namespace Innobase

def PageImage.Holds (g : Geom) (pg : PageImage) (r : Nat) : Prop :=
  pg.frame ≤ r ∧ r < pg.frame + g.pageSize

instance (g : Geom) (pg : PageImage) (r : Nat) : Decidable (pg.Holds g r) :=
  inferInstanceAs (Decidable (_ ∧ _))

/-! ## The records around the cursor -/

namespace PageImage

variable {next : Nat → Option Nat}

theorem Links.append {a b c : Nat} {w : List Nat} :
    ∀ {u : List Nat}, Links next a (u ++ c :: w) b ↔ Links next a u c ∧ Links next c w b
  | [] => Iff.rfl
  | r :: u => by
    show next a = some r ∧ Links next r (u ++ c :: w) b ↔ (next a = some r ∧ Links next r u c) ∧ _
    rw [Links.append, and_assoc]

theorem Links.mem_of_lt : ∀ {a b b' : Nat} {l l' : List Nat}, Links next a l b → Links next a l' b' →
    l.length < l'.length → b ∈ l'
  | _, _, _, [], r :: _, h, h', _ => by
    simp only [Links] at h h'
    exact Option.some_inj.1 (h.symm.trans h'.1) ▸ List.mem_cons_self _ _
  | _, _, _, r :: l, r' :: l', h, h', hl => by
    obtain ⟨h1, h⟩ := h
    obtain ⟨h1', h'⟩ := h'
    obtain rfl := Option.some_inj.1 (h1.symm.trans h1')
    exact List.mem_cons_of_mem _ (Links.mem_of_lt h h' (by simpa using hl))
  | _, _, _, _, [], _, _, hl => absurd hl (Nat.not_lt_zero _)

theorem Links.not_mem_start {a b : Nat} {l : List Nat} (h : Links next a l b) (hb : b ∉ l) : a ∉ l := by
  intro ha
  obtain ⟨u, w, rfl⟩ := List.append_of_mem ha
  exact hb (Links.mem_of_lt (Links.append.1 h).2 h (by simp only [List.length_append, List.length_cons]; omega))

theorem Links.nodup {a b : Nat} : ∀ {l : List Nat}, Links next a l b → b ∉ l → l.Nodup
  | [], _, _ => List.nodup_nil
  | _ :: _, h, hb => List.nodup_cons.2
      ⟨h.2.not_mem_start fun h' => hb (List.mem_cons_of_mem _ h'),
        Links.nodup h.2 fun h' => hb (List.mem_cons_of_mem _ h')⟩

theorem Links.next_getLast {a c : Nat} : ∀ {u : List Nat}, Links next a u c → next (u.getLast?.getD a) = some c
  | [], h => h
  | [r], h => h.2
  | r :: r' :: u, h => by
    have := Links.next_getLast (u := r' :: u) h.2
    simpa using this

end PageImage

/-! ## The partition as a map from folds to records -/

def foldLookup (l : List (Nat × Nat)) (f : Nat) : Option Nat := (l.find? (·.1 == f)).map (·.2)

def Partition.find (g : Geom) (p : Partition) (f : Nat) : Option Nat :=
  foldLookup (p.view g (p.calcHash f)) f

theorem foldLookup_nil (f : Nat) : foldLookup [] f = none := rfl

theorem foldLookup_cons (y : Nat × Nat) (l : List (Nat × Nat)) (f : Nat) :
    foldLookup (y :: l) f = if y.1 = f then some y.2 else foldLookup l f := by
  by_cases h : y.1 = f <;> simp [foldLookup, List.find?_cons, h]

theorem foldLookup_append (l l' : List (Nat × Nat)) (f : Nat) :
    foldLookup (l ++ l') f = (foldLookup l f).or (foldLookup l' f) := by
  induction l with
  | nil => rfl
  | cons y l ih => by_cases h : y.1 = f <;> simp [foldLookup_cons, h, ih]

theorem foldLookup_isSome {l : List (Nat × Nat)} {f : Nat} :
    (foldLookup l f).isSome = l.any (·.1 == f) := by
  induction l with
  | nil => rfl
  | cons y l ih => by_cases h : y.1 = f <;> simp [foldLookup_cons, h, ih]

theorem foldLookup_eq_some {f r : Nat} : ∀ {l : List (Nat × Nat)}, foldLookup l f = some r →
    ∃ u w, l = u ++ (f, r) :: w ∧ ∀ z ∈ u, z.1 ≠ f
  | [], h => by simp [foldLookup_nil] at h
  | (f', r') :: l, h => by
    rw [foldLookup_cons] at h
    split_ifs at h with hy
    · obtain ⟨rfl, rfl⟩ : f' = f ∧ r' = r := ⟨hy, Option.some_inj.1 h⟩
      exact ⟨[], l, rfl, fun _ h => absurd h (List.not_mem_nil _)⟩
    · obtain ⟨u, w, rfl, hu⟩ := foldLookup_eq_some h
      exact ⟨(f', r') :: u, w, rfl, List.forall_mem_cons.2 ⟨hy, hu⟩⟩

theorem foldLookup_of_mem {z : Nat × Nat} : ∀ {l : List (Nat × Nat)}, (l.map Prod.fst).Nodup →
    z ∈ l → foldLookup l z.1 = some z.2
  | y :: l, hnd, hz => by
    rw [List.map_cons, List.nodup_cons] at hnd
    rw [foldLookup_cons]
    rcases List.mem_cons.1 hz with rfl | hz
    · simp
    · rw [if_neg fun e => hnd.1 (List.mem_map.2 ⟨z, hz, e.symm⟩)]
      exact foldLookup_of_mem hnd.2 hz

theorem foldLookup_setFirst {f r f' : Nat} : ∀ {l : List (Nat × Nat)},
    foldLookup (setFirst (·.1 == f) r l) f' =
      if f' = f ∧ (foldLookup l f).isSome then some r else foldLookup l f'
  | [] => by simp [setFirst, foldLookup_nil]
  | y :: l => by
    by_cases hy : y.1 = f
    · subst hy
      by_cases h' : f' = y.1
      · simp [setFirst, foldLookup_cons, h']
      · simp [setFirst, foldLookup_cons, h', Ne.symm h']
    · by_cases h' : y.1 = f'
      · subst h'
        simp [setFirst, foldLookup_cons, hy, Ne.symm hy]
      · simp [setFirst, foldLookup_cons, hy, h', foldLookup_setFirst]

theorem foldLookup_cellInsert {room : Bool} {f r f' : Nat} {l : List (Nat × Nat)} :
    foldLookup (cellInsert room f r l) f' =
      if f' = f ∧ ((foldLookup l f).isSome ∨ room) then some r else foldLookup l f' := by
  unfold cellInsert
  rw [← foldLookup_isSome]
  by_cases hf : f' = f
  · subst hf
    split_ifs <;> simp_all [foldLookup_setFirst, foldLookup_append, foldLookup_cons, foldLookup_nil]
  · have := Ne.symm hf
    split_ifs <;> simp_all [foldLookup_setFirst, foldLookup_append, foldLookup_cons, foldLookup_nil]

namespace Partition

variable {g : Geom} {p : Partition}

theorem Inv.find_insert (h : p.Inv g) (hn : 0 < p.nCells) (f r : Nat) :
    ∃ p', p.insert g f r = some p' ∧ p'.Inv g ∧ p'.owned = p.owned ∧ p'.nCells = p.nCells ∧
      ∀ f', p'.find g f' =
        if f' = f ∧ ((p.find g f).isSome ∨ (p.allocNode g).isSome) then some r else p.find g f' := by
  obtain ⟨p', hp', hI', how, hn', hv⟩ := h.insert hn f r
  refine ⟨p', hp', hI', how, hn', fun f' => ?_⟩
  rw [find, calcHash_congr hn', hv _ (calcHash_lt hn f')]
  by_cases hj : p.calcHash f' = p.calcHash f
  · rw [if_pos hj, foldLookup_cellInsert]
    unfold find
    rw [hj]
  · have hf : f' ≠ f := fun e => hj (e ▸ rfl)
    rw [if_neg hj, if_neg fun h => hf h.1]
    rfl

theorem Inv.find_of_mem_view (h : p.Inv g) {j : Nat} (hj : j < p.nCells) {z : Nat × Nat}
    (hz : z ∈ p.view g j) : p.find g z.1 = some z.2 := by
  rw [find, h.calcHash_of_mem_view hj hz]
  exact foldLookup_of_mem (h.view_fst_nodup hj) hz

theorem Inv.insert_of_find (h : p.Inv g) (hn : 0 < p.nCells) {f : Nat} (hf : (p.find g f).isSome)
    (r : Nat) : ∃ a, p.insert g f r = some (p.setRec a r) := by
  rcases h.seek_cell (calcHash_lt hn f) (fun a => (p.mem a).fold == f) with
    ⟨hP, -⟩ | ⟨u, a, w, -, -, -, hseek⟩
  · rw [find, foldLookup_isSome, view, pairs] at hf
    obtain ⟨y, hy, e⟩ := List.any_eq_true.1 hf
    obtain ⟨a, ha, rfl⟩ := List.mem_map.1 hy
    simp [hP a ha] at e
  · exact ⟨a, by simp [Partition.insert, hseek]⟩

theorem allocNode_setRec (a : Slot) (r : Nat) :
    ((p.setRec a r).allocNode g).isSome = (p.allocNode g).isSome := by
  rw [allocNode_isSome, allocNode_isSome]
  rfl

theorem Inv.find_insertAll : ∀ (pairs : List (Nat × Nat)) {p : Partition}, p.Inv g → 0 < p.nCells →
    (pairs.map Prod.fst).Nodup →
    ∃ q, Ahi.insertAll g p pairs = some q ∧ q.Inv g ∧ q.owned = p.owned ∧ q.nCells = p.nCells ∧
      (∀ f, f ∉ pairs.map Prod.fst → q.find g f = p.find g f) ∧
      (∀ x ∈ pairs, q.find g x.1 = some x.2 ∨ q.find g x.1 = none ∧ p.find g x.1 = none) ∧
      ((p.allocNode g).isSome →
        (∀ x ∈ pairs, ∀ y ∈ pairs, p.find g x.1 = none → p.find g y.1 = none → x = y) →
        ∀ x ∈ pairs, q.find g x.1 = some x.2)
  | [], p, h, _, _ => ⟨p, rfl, h, rfl, rfl, fun _ _ => rfl, fun _ h => absurd h (List.not_mem_nil _),
      fun _ _ _ h => absurd h (List.not_mem_nil _)⟩
  | (f, r) :: pairs, p, h, hn, hnd => by
    rw [List.map_cons, List.nodup_cons] at hnd
    obtain ⟨p₁, hp₁, h₁, how₁, hn₁, hf₁⟩ := h.find_insert hn f r
    obtain ⟨q, hq, hI, how, hqn, hframe, hpairs, hexact⟩ :=
      Inv.find_insertAll pairs h₁ (hn₁ ▸ hn) hnd.2
    have hne : ∀ x ∈ pairs, x.1 ≠ f := fun x hx e => hnd.1 (List.mem_map.2 ⟨x, hx, e⟩)
    have hp₁x : ∀ x ∈ pairs, p₁.find g x.1 = p.find g x.1 := fun x hx => by
      rw [hf₁, if_neg fun h => hne x hx h.1]
    have hqf : q.find g f = p₁.find g f := hframe f hnd.1
    refine ⟨q, by simp [Ahi.insertAll, hp₁, hq], hI, how.trans how₁, hqn.trans hn₁, fun f' hf' => ?_,
      List.forall_mem_cons.2 ⟨?_, fun x hx => hp₁x x hx ▸ hpairs x hx⟩, fun hroom hone => ?_⟩
    · rw [List.map_cons, List.mem_cons, not_or] at hf'
      rw [hframe f' hf'.2, hf₁, if_neg fun h => hf'.1 h.1]
    · rw [hqf, hf₁]
      split_ifs with hc
      · exact .inl rfl
      · simp only [true_and, not_or, Option.not_isSome_iff_eq_none] at hc
        exact .inr ⟨hc.1, hc.1⟩
    · refine List.forall_mem_cons.2 ⟨by rw [hqf, hf₁, if_pos ⟨rfl, .inr hroom⟩], fun x hx => ?_⟩
      by_cases hfr : (p.find g f).isSome
      · -- the first pair only set a record: the room and the new folds stay
        obtain ⟨a, ha⟩ := h.insert_of_find hn hfr r
        obtain rfl : p₁ = p.setRec a r := Option.some_inj.1 (hp₁.symm.trans ha)
        exact hexact (by rw [allocNode_setRec]; exact hroom)
          (fun x hx y hy hx' hy' => hone x (List.mem_cons_of_mem _ hx) y (List.mem_cons_of_mem _ hy)
            (hp₁x x hx ▸ hx') (hp₁x y hy ▸ hy')) x hx
      · -- the first pair was the new fold, so every other fold has a node
        have hx' : p.find g x.1 ≠ none := fun e => hne x hx (congrArg Prod.fst
          (hone x (List.mem_cons_of_mem _ hx) (f, r) (List.mem_cons_self _ _) e
            (Option.not_isSome_iff_eq_none.1 hfr)))
        exact (hpairs x hx).resolve_right fun h' => hx' (hp₁x x hx ▸ h'.2)

end Partition

/-! ## The model -/

/-- The `ha_insert_for_fold` calls of `btr_search_update_hash_on_insert`, in order. -/
def onInsertPairs (F : Nat → Nat) (leftSide : Bool) (prev : Option Nat) (insRec : Nat)
    (next : Option Nat) : List (Nat × Nat) :=
  (match prev with
    | none => if leftSide then [(F insRec, insRec)] else []
    | some rec =>
      if F rec ≠ F insRec then [if leftSide then (F insRec, insRec) else (F rec, rec)] else []) ++
  (match next with
    | none => if leftSide then [] else [(F insRec, insRec)]
    | some nextRec =>
      if F insRec ≠ F nextRec then [if leftSide then (F nextRec, nextRec) else (F insRec, insRec)]
      else [])

namespace Ahi

variable (g : Geom)

def insertSection (s : Ahi) (b : Nat) (pairs : List (Nat × Nat)) : Option Ahi :=
  if !s.enabled || (s.block b).index.isNone then some s
  else (insertAll g s.part pairs).map fun part => { s with part }

/-- `btr_search_update_hash_on_insert(cursor)`, when no other thread runs meanwhile. -/
def updateHashOnInsert (s : Ahi) (i : Nat) (pg : PageImage) (fold : Nat → Nat → Nat → Nat)
    (c : Cursor) (spare n : Nat) : Option Ahi :=
  if !s.enabled then some s else
  match (s.block c.block).index with
  | none => some s
  | some j =>
    if j ≠ i then s.dropPageHashIndex g c.block pg fold false n else
    let blk := s.block c.block
    match pg.next c.recPtr with
    | none => s.dropPageHashIndex g c.block pg fold false n
    | some insRec =>
      match pg.next insRec with
      | none => s.dropPageHashIndex g c.block pg fold false n
      | some nextRec =>
        let prev := if c.recPtr = pg.infimum ∨ pg.isMetadata c.recPtr then none else some c.recPtr
        let next := if nextRec = pg.supremum then none else some nextRec
        insertSection g { s with part := (s.part.prepareInsert s.enabled spare).1 } c.block
          (onInsertPairs (fold blk.currNFields blk.currNBytes) blk.currLeftSide prev insRec next)

def updateHashNodeOnInsert (s : Ahi) (i : Nat) (pg : PageImage) (fold : Nat → Nat → Nat → Nat)
    (c : Cursor) (spare n : Nat) : Option Ahi :=
  if !s.enabled then some s else
  match (s.block c.block).index with
  | none => some s
  | some j =>
    if j ≠ i then s.dropPageHashIndex g c.block pg fold false n else
    let blk := s.block c.block
    if c.flag = .hash ∧ c.nFields = blk.currNFields ∧ c.nBytes = blk.currNBytes ∧
        blk.currLeftSide = false then
      match pg.next c.recPtr with
      | some newRec =>
        (s.part.haSearchAndUpdateIfFound g s.enabled c.fold c.recPtr newRec).map fun r =>
          { s with part := r.1 }
      | none => some s
    else s.updateHashOnInsert g i pg fold c spare n

end Ahi

theorem mem_onInsertPairs {F : Nat → Nat} {leftSide : Bool} {prev next : Option Nat} {x : Nat}
    {y : Nat × Nat} :
    y ∈ onInsertPairs F leftSide prev x next ↔
      (y = (F x, x) ∧ ∀ p ∈ (if leftSide then prev else next), F p ≠ F x) ∨
        ∃ n ∈ (if leftSide then next else prev), F n ≠ F x ∧ y = (F n, n) := by
  cases leftSide <;> cases prev <;> cases next <;>
    simp [onInsertPairs, List.mem_ite_nil_right, and_comm, ne_comm, or_comm]

theorem onInsertPairs_nodup {F : Nat → Nat} {leftSide : Bool} {prev next : Option Nat} {x : Nat} :
    ((onInsertPairs F leftSide prev x next).map Prod.fst).Nodup := by
  cases leftSide <;> cases prev <;> cases next <;>
    simp only [onInsertPairs, Bool.false_eq_true, ↓reduceIte, List.nil_append, List.append_nil] <;>
    (try split_ifs) <;> simp_all [eq_comm]

/-- The entries of `p` into the page `pg` are the run representatives of `l` under `F`. -/
def Partition.RepsOn (g : Geom) (p : Partition) (pg : PageImage) (F : Nat → Nat) (leftSide : Bool)
    (l : List Nat) : Prop :=
  ∀ f r, pg.Holds g r → (p.find g f = some r ↔ (f, r) ∈ runReps leftSide (l.map fun r => (F r, r)))

theorem Partition.RepsOn.fold_eq {g : Geom} {p : Partition} {pg : PageImage} {F : Nat → Nat}
    {leftSide : Bool} {l : List Nat} (h : p.RepsOn g pg F leftSide l) {f r : Nat} (hr : pg.Holds g r)
    (hf : p.find g f = some r) : f = F r := by
  obtain ⟨r', -, e⟩ := List.mem_map.1 (mem_of_mem_runReps _ _ ((h f r hr).1 hf))
  obtain ⟨e₁, rfl⟩ := Prod.mk.inj e
  exact e₁.symm

section Section

variable {g : Geom} {pg : PageImage} {F : Nat → Nat} {leftSide : Bool} {A B : List Nat} {x : Nat}
  {p : Partition}

theorem Partition.Inv.insertAll_onInsertPairs (h : p.Inv g) (hn : 0 < p.nCells)
    (hc : FoldsContiguous F (A ++ x :: B)) (hin : ∀ r ∈ A ++ x :: B, pg.Holds g r)
    (hreps : p.RepsOn g pg F leftSide (A ++ B))
    (hother : ∀ r, p.find g (F x) = some r → pg.Holds g r) :
    ∃ q, Ahi.insertAll g p (onInsertPairs F leftSide A.getLast? x B.head?) = some q ∧ q.Inv g ∧
      q.owned = p.owned ∧ q.nCells = p.nCells ∧
      (∀ f r, pg.Holds g r → q.find g f = some r →
        (f, r) ∈ runReps leftSide ((A ++ x :: B).map fun r => (F r, r))) ∧
      ((p.allocNode g).isSome → q.RepsOn g pg F leftSide (A ++ x :: B)) ∧
      ∀ f r, ¬pg.Holds g r → (q.find g f = some r ↔ p.find g f = some r) := by
  set pairs := onInsertPairs F leftSide A.getLast? x B.head?
  obtain ⟨h1, h2, h3⟩ := repOf_insert leftSide hc
  have hE : ∀ f r, pg.Holds g r → (p.find g f = some r ↔ repOf F leftSide (A ++ B) f = some r) :=
    fun f r hr => (hreps f r hr).trans
      (mem_runReps_iff leftSide (hc.sublist ((List.sublist_cons_self x B).append_left A)))
  have hN : ∀ n ∈ (if leftSide then B.head? else A.getLast?), pg.Holds g n := fun n hn' => by
    refine hin n ?_
    cases leftSide
    · exact List.mem_append_left _ (List.mem_of_mem_getLast? hn')
    · exact List.mem_append_right _ (List.mem_cons_of_mem _ (List.mem_of_mem_head? hn'))
  -- the neighbour's fold has a node, so the only new fold can be that of `x`
  have hfresh : ∀ y ∈ pairs, p.find g y.1 = none → y = (F x, x) := fun y hy hy' => by
    rcases mem_onInsertPairs.1 hy with ⟨rfl, -⟩ | ⟨n, hn', hne, rfl⟩
    · rfl
    · simp [(hE _ _ (hN n hn')).2 (h3 n hn' hne)] at hy'
  obtain ⟨q, hq, hI, how, hqn, hframe, hpairs, hexact⟩ := h.find_insertAll pairs hn onInsertPairs_nodup
  have hexact' := fun hroom => hexact hroom fun a ha b hb hna hnb =>
    (hfresh a ha hna).trans (hfresh b hb hnb).symm
  -- each fold ends up one of three ways
  have hcases : ∀ f, (q.find g f = p.find g f ∧
        repOf F leftSide (A ++ x :: B) f = repOf F leftSide (A ++ B) f) ∨
      (f = F x ∧ repOf F leftSide (A ++ x :: B) f = some x ∧
        (q.find g f = some x ∨ q.find g f = none ∧ p.find g f = none) ∧
        ((p.allocNode g).isSome → q.find g f = some x)) ∨
      ∃ n, pg.Holds g n ∧ repOf F leftSide (A ++ x :: B) f = some n ∧ q.find g f = some n ∧
        p.find g f = some n := by
    intro f
    by_cases hf : f ∈ pairs.map Prod.fst
    · obtain ⟨y, hy, rfl⟩ := List.mem_map.1 hf
      rcases mem_onInsertPairs.1 hy with ⟨rfl, hP⟩ | ⟨n, hn', hne, rfl⟩
      · exact .inr (.inl ⟨rfl, by rw [h2, if_pos hP], hpairs _ hy, fun hroom => hexact' hroom _ hy⟩)
      · have hnE : p.find g (F n) = some n := (hE _ _ (hN n hn')).2 (h3 n hn' hne)
        refine .inr (.inr ⟨n, hN n hn', by rw [h1 _ hne, h3 n hn' hne], ?_, hnE⟩)
        exact (hpairs _ hy).resolve_right fun h' => by simp [hnE] at h'
    · refine .inl ⟨hframe f hf, ?_⟩
      by_cases hfx : f = F x
      · subst hfx
        rw [h2, if_neg fun hP => hf (List.mem_map.2 ⟨_, mem_onInsertPairs.2 (.inl ⟨rfl, hP⟩), rfl⟩)]
      · exact h1 f hfx
  refine ⟨q, hq, hI, how, hqn, fun f r hr hqr => (mem_runReps_iff leftSide hc).2 ?_,
    fun hroom f r hr => (Iff.trans ?_ (mem_runReps_iff leftSide hc).symm), fun f r hr => ?_⟩
  · rcases hcases f with ⟨hq', hrep⟩ | ⟨-, hrep, hq' | hq', -⟩ | ⟨n, -, hrep, hq', -⟩
    · rw [hrep, ← hE f r hr, ← hq', hqr]
    · rwa [hrep, ← hq']
    · simp [hq'.1] at hqr
    · rwa [hrep, ← hq']
  · rcases hcases f with ⟨hq', hrep⟩ | ⟨-, hrep, -, hq'⟩ | ⟨n, -, hrep, hq', -⟩
    · rw [hrep, ← hE f r hr, hq']
    · rw [hrep, hq' hroom]
    · rw [hrep, hq']
  · rcases hcases f with ⟨hq', -⟩ | ⟨rfl, -, hq', -⟩ | ⟨n, hn', -, hq', hp'⟩
    · rw [hq']
    · refine ⟨fun h' => ?_, fun h' => absurd (hother r h') hr⟩
      rcases hq' with hq' | ⟨hq', -⟩ <;> rw [hq'] at h'
      · exact absurd (Option.some_inj.1 h' ▸ hin x (List.mem_append_right _ (List.mem_cons_self _ _))) hr
      · cases h'
    · rw [hq', hp']

end Section

theorem Partition.find_congr {g : Geom} {p q : Partition} (hn : q.nCells = p.nCells)
    (hv : ∀ j, q.view g j = p.view g j) (f : Nat) : q.find g f = p.find g f := by
  rw [find, find, Partition.calcHash_congr hn, hv]

theorem Partition.prepareInsert_room {g : Geom} (p : Partition) (b : Nat) :
    ((p.prepareInsert true b).1.allocNode g).isSome := by
  rw [allocNode_isSome]
  unfold prepareInsert
  split_ifs with h
  · simp
  · simp only [Bool.and_true, Option.isNone_iff_eq_none] at h
    simp [Option.ne_none_iff_isSome.1 h]

def Partition.single (f r : Nat) : Partition :=
  (((Partition.init.alloc 4).prepareInsert true 100).1.insert Partition.ahiGeom f r).getD Partition.init

theorem Partition.single_spec (f r : Nat) :
    (single f r).Inv ahiGeom ∧ (single f r).nCells = 4 ∧ (single f r).owned = [100] ∧
      ∀ f', (single f r).find ahiGeom f' = if f' = f then some r else none := by
  obtain ⟨h₀, -, hv₀⟩ := inv_init.alloc (g := ahiGeom) rfl 4
  obtain ⟨h₁, hn₁, hv₁, -⟩ := h₀.prepareInsert true (b := 100) (by decide)
  obtain ⟨p', hp', hI', how, hn', hf'⟩ := h₁.find_insert (by decide) f r
  have hf₁ : ∀ f', ((init.alloc 4).prepareInsert true 100).1.find ahiGeom f' = none := fun f' => by
    rw [find_congr hn₁ hv₁, find, hv₀, foldLookup_nil]
  rw [show single f r = p' by simp [single, hp']]
  refine ⟨hI', hn', how, fun f' => ?_⟩
  rw [hf', hf₁, hf₁, prepareInsert_room]
  simp

/-! ## The update on insert -/

namespace Ahi

variable {g : Geom} {s : Ahi} {i : Nat} {pg : PageImage} {fold : Nat → Nat → Nat → Nat} {c : Cursor}
  {spare n : Nat}

theorem insertSection_eq {b : Nat} (hen : s.enabled = true) (hb : (s.block b).index.isSome)
    (pairs : List (Nat × Nat)) :
    insertSection g s b pairs = (insertAll g s.part pairs).map fun part => { s with part } := by
  obtain ⟨v, hv⟩ := Option.isSome_iff_exists.1 hb
  simp [insertSection, hen, hv]

theorem updateHashOnInsert_links {nFields nBytes : Nat} {leftSide : Bool} {pre A B : List Nat}
    {x : Nat} (hen : s.enabled = true) (hb : s.block c.block = ⟨some i, nFields, nBytes, leftSide⟩)
    (hpre : pre = [] ∨ ∃ m, pre = [m] ∧ pg.isMetadata m = true)
    (hmeta : ∀ r ∈ A, pg.isMetadata r = false)
    (hl : PageImage.Links pg.next pg.infimum (pre ++ A ++ x :: B) pg.supremum)
    (hs : pg.supremum ∉ pre ++ A ++ x :: B) (hrec : c.recPtr = (pre ++ A).getLast?.getD pg.infimum) :
    s.updateHashOnInsert g i pg fold c spare n =
      insertSection g { s with part := (s.part.prepareInsert true spare).1 } c.block
        (onInsertPairs (fold nFields nBytes) leftSide A.getLast? x B.head?) := by
  obtain ⟨hl₁, hl₂⟩ := PageImage.Links.append.1 hl
  have hinf := hl.not_mem_start hs
  have hx : pg.next c.recPtr = some x := hrec ▸ hl₁.next_getLast
  have hnx : pg.next x = some (B.head?.getD pg.supremum) := by
    cases B with
    | nil => exact hl₂
    | cons b B => exact hl₂.1
  have hprev : (if c.recPtr = pg.infimum ∨ pg.isMetadata c.recPtr = true then none
      else some c.recPtr) = A.getLast? := by
    rcases List.eq_nil_or_concat A with rfl | ⟨A₀, p, rfl⟩
    · rcases hpre with rfl | ⟨m, rfl, hm⟩
      · simp [hrec]
      · simp [hrec, hm]
    · have hr : c.recPtr = p := by simp [hrec]
      have hp : p ∈ pre ++ A₀.concat p ++ x :: B := by simp
      rw [hr, if_neg (not_or.2 ⟨fun e : p = pg.infimum => hinf (e ▸ hp), by simp [hmeta p (by simp)]⟩)]
      simp
  have hnext : (if B.head?.getD pg.supremum = pg.supremum then none
      else some (B.head?.getD pg.supremum)) = B.head? := by
    cases B with
    | nil => simp
    | cons b B =>
      have : b ≠ pg.supremum := fun e => hs (by rw [← e]; simp)
      simp [this]
  simp only [updateHashOnInsert, hen, hb, Bool.not_true, Bool.false_eq_true, if_false, ne_eq,
    not_true_eq_false, hx, hnx, hprev, hnext]

/-- After an insert, the entries into the page are the run representatives of the new list. -/
theorem update_hash_on_insert_reps (s : Ahi) (i : Nat) (pg : PageImage)
    (fold : Nat → Nat → Nat → Nat) (c : Cursor) (spare n : Nat) {nFields nBytes : Nat}
    {leftSide : Bool} {pre A B : List Nat} {x : Nat}
    (hI : s.part.Inv g) (hn : 0 < s.part.nCells) (hen : s.enabled = true)
    (hb : s.block c.block = ⟨some i, nFields, nBytes, leftSide⟩)
    (hpre : pre = [] ∨ ∃ m, pre = [m] ∧ pg.isMetadata m = true)
    (hmeta : ∀ r ∈ A, pg.isMetadata r = false)
    (hl : PageImage.Links pg.next pg.infimum (pre ++ A ++ x :: B) pg.supremum)
    (hs : pg.supremum ∉ pre ++ A ++ x :: B) (hrec : c.recPtr = (pre ++ A).getLast?.getD pg.infimum)
    (hin : ∀ r ∈ A ++ x :: B, pg.Holds g r)
    (hc : FoldsContiguous (fold nFields nBytes) (A ++ x :: B))
    (hreps : s.part.RepsOn g pg (fold nFields nBytes) leftSide (A ++ B))
    (hother : ∀ r, s.part.find g (fold nFields nBytes x) = some r → pg.Holds g r)
    (hspare : spare ∉ s.part.owned) :
    (∃ s', s.updateHashOnInsert g i pg fold c spare n = some s' ∧ s'.part.Inv g ∧
      s'.part.RepsOn g pg (fold nFields nBytes) leftSide (A ++ x :: B) ∧
      ∀ f r, ¬pg.Holds g r → (s'.part.find g f = some r ↔ s.part.find g f = some r)) ∧
    ∃ s', s.insertSection g c.block (onInsertPairs (fold nFields nBytes) leftSide A.getLast? x B.head?) =
        some s' ∧ s'.part.Inv g ∧
      (∀ f r, pg.Holds g r → s'.part.find g f = some r →
        (f, r) ∈ runReps leftSide ((A ++ x :: B).map fun r => (fold nFields nBytes r, r))) ∧
      ∀ f r, ¬pg.Holds g r → (s'.part.find g f = some r ↔ s.part.find g f = some r) := by
  have hix : (s.block c.block).index.isSome := by simp [hb]
  obtain ⟨hI₀, hn₀, hv₀, -⟩ := hI.prepareInsert true hspare
  have hf₀ := Partition.find_congr hn₀ hv₀
  constructor
  · obtain ⟨q, hq, hIq, -, -, -, hreps', hoff⟩ := Partition.Inv.insertAll_onInsertPairs hI₀
      (hn₀ ▸ hn) hc hin (fun f r hr => hf₀ f ▸ hreps f r hr) (fun r hr => hother r (hf₀ _ ▸ hr))
    have hupd : s.updateHashOnInsert g i pg fold c spare n = some { s with part := q } := by
      rw [updateHashOnInsert_links hen hb hpre hmeta hl hs hrec,
        insertSection_eq (s := { s with part := (s.part.prepareInsert true spare).1 }) hen hix, hq]
      rfl
    exact ⟨_, hupd, hIq, hreps' (s.part.prepareInsert_room spare),
      fun f r hr => (hoff f r hr).trans (by rw [hf₀])⟩
  · obtain ⟨q, hq, hIq, -, -, hsub, -, hoff⟩ :=
      Partition.Inv.insertAll_onInsertPairs hI hn hc hin hreps hother
    exact ⟨_, by rw [insertSection_eq hen hix, hq]; rfl, hIq, hsub, hoff⟩

def insertedPage : PageImage :=
  ⟨0, 2, 1, 2, fun r => [(1, 10), (10, 20), (20, 2)].lookup r, fun _ => false, 7⟩

def oneNodeAhi (f r : Nat) : Ahi :=
  ⟨Partition.single f r, true, fun _ => ⟨some 0, 1, 0, false⟩, fun _ => ⟨7, 2, 1, false⟩, [],
    fun _ => ⟨0, 0, 0, false⟩, [], false⟩

theorem update_hash_on_insert_reps_after_first :
    (∃ s', (oneNodeAhi 1 10).updateHashOnInsert Partition.ahiGeom 0 insertedPage (fun _ _ r => r / 10)
          ⟨10, 5, .other, 0, 1, 0, 0, 0⟩ 101 3 = some s' ∧ s'.part.Inv Partition.ahiGeom ∧
        s'.part.RepsOn Partition.ahiGeom insertedPage (· / 10) false ([10] ++ [20]) ∧
        ∀ f r, ¬insertedPage.Holds Partition.ahiGeom r →
          (s'.part.find Partition.ahiGeom f = some r ↔
            (oneNodeAhi 1 10).part.find Partition.ahiGeom f = some r)) ∧
      ∃ s', (oneNodeAhi 1 10).insertSection Partition.ahiGeom 5
          (onInsertPairs (· / 10) false [10].getLast? 20 ([] : List Nat).head?) = some s' ∧
        s'.part.Inv Partition.ahiGeom ∧
        (∀ f r, insertedPage.Holds Partition.ahiGeom r → s'.part.find Partition.ahiGeom f = some r →
          (f, r) ∈ runReps false (([10] ++ [20]).map fun r => (r / 10, r))) ∧
        ∀ f r, ¬insertedPage.Holds Partition.ahiGeom r →
          (s'.part.find Partition.ahiGeom f = some r ↔
            (oneNodeAhi 1 10).part.find Partition.ahiGeom f = some r) := by
  obtain ⟨hI, hn, how, hf⟩ := Partition.single_spec 1 10
  exact update_hash_on_insert_reps (oneNodeAhi 1 10) 0 insertedPage (fun _ _ r => r / 10)
    ⟨10, 5, .other, 0, 1, 0, 0, 0⟩ 101 3 (A := [10]) (B := []) (x := 20)
    hI (show 0 < (Partition.single 1 10).nCells by rw [hn]; decide) rfl rfl (.inl rfl) (by decide) ⟨rfl, rfl, rfl⟩ (by decide) rfl
    (by decide) (fun a y b h => absurd h.length_le (by simp))
    (fun f r _ => by simp [oneNodeAhi, hf, runReps_singleton, eq_comm])
    (fun r h => by simp [oneNodeAhi, hf] at h) (by simp [oneNodeAhi, how])

def splitPage : PageImage :=
  ⟨0, 3, 1, 2, fun r => [(1, 10), (10, 25), (25, 11), (11, 2)].lookup r, fun _ => false, 7⟩

def lonePage : PageImage := ⟨0, 1, 1, 2, fun r => [(1, 20), (20, 2)].lookup r, fun _ => false, 7⟩

theorem update_hash_on_insert_reps_unamended :
    ((Partition.single 1 11).Inv Partition.ahiGeom ∧
      PageImage.Links splitPage.next splitPage.infimum ([] ++ [10] ++ 25 :: [11]) splitPage.supremum ∧
      splitPage.supremum ∉ [] ++ [10] ++ 25 :: [11] ∧
      (∀ r ∈ [10] ++ 25 :: [11], splitPage.Holds Partition.ahiGeom r) ∧
      FoldsContiguous (· / 10) ([10] ++ [11]) ∧
      (Partition.single 1 11).RepsOn Partition.ahiGeom splitPage (· / 10) false ([10] ++ [11]) ∧
      ∃ s', (oneNodeAhi 1 11).updateHashOnInsert Partition.ahiGeom 0 splitPage (fun _ _ r => r / 10)
          ⟨10, 5, .other, 0, 1, 0, 0, 0⟩ 101 3 = some s' ∧
        ¬s'.part.RepsOn Partition.ahiGeom splitPage (· / 10) false ([10] ++ 25 :: [11])) ∧
    ((Partition.single 2 20000).Inv Partition.ahiGeom ∧
      PageImage.Links lonePage.next lonePage.infimum ([] ++ [] ++ 20 :: []) lonePage.supremum ∧
      lonePage.supremum ∉ [] ++ [] ++ 20 :: [] ∧ lonePage.Holds Partition.ahiGeom 20 ∧
      (Partition.single 2 20000).RepsOn Partition.ahiGeom lonePage (· / 10) false ([] ++ []) ∧
      ¬lonePage.Holds Partition.ahiGeom 20000 ∧
      (oneNodeAhi 2 20000).part.find Partition.ahiGeom 2 = some 20000 ∧
      ∃ s', (oneNodeAhi 2 20000).updateHashOnInsert Partition.ahiGeom 0 lonePage (fun _ _ r => r / 10)
          ⟨1, 5, .other, 0, 1, 0, 0, 0⟩ 101 3 = some s' ∧
        s'.part.find Partition.ahiGeom 2 = some 20) := by
  obtain ⟨hI₁, -, -, hf₁⟩ := Partition.single_spec 1 11
  obtain ⟨hI₂, -, -, hf₂⟩ := Partition.single_spec 2 20000
  have e₁ : ((oneNodeAhi 1 11).updateHashOnInsert Partition.ahiGeom 0 splitPage (fun _ _ r => r / 10)
      ⟨10, 5, .other, 0, 1, 0, 0, 0⟩ 101 3).map (·.part.find Partition.ahiGeom 1) = some (some 10) := by
    decide
  have e₂ : ((oneNodeAhi 2 20000).updateHashOnInsert Partition.ahiGeom 0 lonePage (fun _ _ r => r / 10)
      ⟨1, 5, .other, 0, 1, 0, 0, 0⟩ 101 3).map (·.part.find Partition.ahiGeom 2) = some (some 20) := by
    decide
  obtain ⟨s₁, h₁, e₁⟩ := Option.map_eq_some'.1 e₁
  obtain ⟨s₂, h₂, e₂⟩ := Option.map_eq_some'.1 e₂
  refine ⟨⟨hI₁, ⟨rfl, rfl, rfl, rfl⟩, by decide, by decide, fun a y b h => absurd h.length_le (by simp),
    fun f r _ => ?_, s₁, h₁, fun h => ?_⟩, ⟨hI₂, ⟨rfl, rfl⟩, by decide, by decide, fun f r hr => ?_,
    by decide, by simp [oneNodeAhi, hf₂], s₂, h₂, e₂⟩⟩
  · have : runReps false (([10] ++ [11]).map fun r => ((fun x => x / 10) r, r)) = [(1, 11)] := by
      decide
    rw [hf₁, this]
    by_cases hf : f = 1 <;> simp [hf, eq_comm]
  · have := (h 1 11 (by decide)).2 (by decide)
    rw [e₁] at this
    cases this
  · rw [hf₂]
    split_ifs with hf
    · exact ⟨fun e => absurd (Option.some_inj.1 e ▸ hr) (by decide), fun h => by simp [runReps] at h⟩
    · simp [runReps]

end Ahi

end Innobase
