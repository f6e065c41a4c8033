import Mathlib.Data.List.SplitBy

/-!
# The record walks of build and drop

The caching loop of `btr_search_build_page_hash_index` and the fold collection
of `btr_search_drop_page_hash_index`; neither has a bound of its own, so both take fuel.
-/

namespace Innobase

/-- What the AHI reads of a leaf page. -/
structure PageImage where
  frame : Nat
  nRecs : Nat
  infimum : Nat
  supremum : Nat
  next : Nat → Option Nat
  isMetadata : Nat → Bool
  indexId : Nat

inductive BuildWalk
  | skip
  | cache (pairs : List (Nat × Nat))
  deriving DecidableEq, Repr

/-- Where a pass of drop's fold collection leaves its loop: done, or about to visit `rec`. -/
inductive DropState
  | done (folds : List Nat)
  | visit (rec prevFold : Nat) (folds : List Nat)
  deriving DecidableEq, Repr

def DropState.folds : DropState → List Nat
  | .done folds => folds
  | .visit _ _ folds => folds

namespace PageImage

variable (pg : PageImage) (fold : Nat → Nat)

def buildLoop (leftSide : Bool) : Nat → Nat → Nat → List (Nat × Nat) → Option (List (Nat × Nat))
  | 0, _, _, _ => none
  | n + 1, rec, f, cache =>
    match pg.next rec with
    | none => some cache
    | some nextRec =>
      if nextRec = pg.supremum then some (if leftSide then cache else cache ++ [(f, rec)])
      else
        buildLoop leftSide n nextRec (fold nextRec)
          (if f ≠ fold nextRec then cache ++ [if leftSide then (fold nextRec, nextRec) else (f, rec)]
            else cache)

def buildCache (indexId : Nat) (leftSide : Bool) (n : Nat) : Option BuildWalk :=
  if pg.nRecs = 0 then some .skip else
  match pg.next pg.infimum with
  | none => some .skip
  | some rec =>
    let first : Option Nat :=
      if pg.isMetadata rec then
        match pg.next rec with
        | some r => if pg.nRecs - 1 = 0 then none else some r
        | none => none
      else some rec
    match first with
    | none => some .skip
    | some rec =>
      if rec = pg.supremum then some .skip
      else if indexId ≠ pg.indexId then none
      else (pg.buildLoop fold leftSide n rec (fold rec) (if leftSide then [(fold rec, rec)] else [])).map
        .cache

def dropLoop (nRecs : Nat) : Nat → Nat → Nat → List Nat → Option (List Nat)
  | 0, _, _, _ => none
  | n + 1, rec, prevFold, folds =>
    if nRecs ≤ folds.length then some folds
    else
      let folds := if fold rec = prevFold ∧ prevFold ≠ 0 then folds else folds ++ [fold rec]
      match pg.next rec with
      | none => some folds
      | some r => if r = pg.supremum then some folds else dropLoop nRecs n r (fold rec) folds

def dropPass (nRecs rec prevFold : Nat) (folds : List Nat) : DropState :=
  if nRecs ≤ folds.length then .done folds
  else
    let folds := if fold rec = prevFold ∧ prevFold ≠ 0 then folds else folds ++ [fold rec]
    match pg.next rec with
    | none => .done folds
    | some r => if r = pg.supremum then .done folds else .visit r (fold rec) folds

def dropPasses (nRecs : Nat) : Nat → DropState → DropState
  | 0, st => st
  | _ + 1, .done folds => .done folds
  | k + 1, .visit rec prevFold folds => dropPasses nRecs k (pg.dropPass fold nRecs rec prevFold folds)

def dropFolds (n : Nat) : Option (List Nat) :=
  match pg.next pg.infimum with
  | none => some []
  | some rec =>
    if pg.isMetadata rec then
      if pg.nRecs - 1 = 0 then some []
      else
        match pg.next rec with
        | none => some []
        | some r => pg.dropLoop fold (pg.nRecs - 1) n r 0 []
    else pg.dropLoop fold pg.nRecs n rec 0 []

/-! ## Consistent pages -/

def Links (next : Nat → Option Nat) : Nat → List Nat → Nat → Prop
  | a, [], b => next a = some b
  | a, r :: l, b => next a = some r ∧ Links next r l b

end PageImage

/-! ## Runs of equal folds -/

section SplitBy

variable {α : Type} (R : α → α → Bool)

theorem splitBy_loop_eq_append :
    ∀ (l : List α) (a : α) (g : List α) (gs : List (List α)),
      List.splitBy.loop R l a g gs = gs.reverse ++ List.splitBy.loop R l a g []
  | [], _, _, _ => by simp [List.splitBy.loop]
  | b :: l, a, g, gs => by
    simp only [List.splitBy.loop]
    split
    · exact splitBy_loop_eq_append l b (a :: g) gs
    · rw [splitBy_loop_eq_append l b [] (_ :: gs), splitBy_loop_eq_append l b [] [_]]
      simp

theorem splitBy_loop_head :
    ∀ (l : List α) (a : α) (g : List α),
      ∃ G Gs, List.splitBy.loop R l a g [] = (g.reverse ++ a :: G) :: Gs
  | [], a, g => ⟨[], [], by simp [List.splitBy.loop]⟩
  | b :: l, a, g => by
    simp only [List.splitBy.loop]
    split
    · obtain ⟨G, Gs, h⟩ := splitBy_loop_head l b (a :: g)
      exact ⟨b :: G, Gs, by simp [h]⟩
    · obtain ⟨G, Gs, h⟩ := splitBy_loop_head l b []
      exact ⟨[], (b :: G) :: Gs, by rw [splitBy_loop_eq_append, h]; simp⟩

theorem splitBy_loop_modifyHead :
    ∀ (l : List α) (a : α) (g : List α),
      List.splitBy.loop R l a g [] = (List.splitBy.loop R l a [] []).modifyHead (g.reverse ++ ·)
  | [], _, _ => by simp [List.splitBy.loop]
  | b :: l, a, g => by
    simp only [List.splitBy.loop]
    split
    · rw [splitBy_loop_modifyHead l b (a :: g), splitBy_loop_modifyHead l b [a]]
      cases List.splitBy.loop R l b [] [] <;> simp
    · rw [splitBy_loop_eq_append R l b [] [_], splitBy_loop_eq_append R l b [] [_]]
      simp

theorem splitBy_cons_head (a : α) (l : List α) : ∃ G Gs, (a :: l).splitBy R = (a :: G) :: Gs := by
  simpa using splitBy_loop_head R l a []

theorem splitBy_cons_cons (a b : α) (l : List α) :
    (a :: b :: l).splitBy R =
      if R a b then ((b :: l).splitBy R).modifyHead (a :: ·) else [a] :: (b :: l).splitBy R := by
  show List.splitBy.loop R (b :: l) a [] [] = _
  rw [List.splitBy.loop]
  cases R a b
  · rw [if_neg Bool.false_ne_true]; dsimp only; rw [splitBy_loop_eq_append]; rfl
  · rw [if_pos rfl]; dsimp only; rw [splitBy_loop_modifyHead]; rfl

end SplitBy

/-- One `(fold, rec)` pair per maximal run of equal folds: the first for `left_side`, else the last. -/
def runReps (leftSide : Bool) (xs : List (Nat × Nat)) : List (Nat × Nat) :=
  (xs.splitBy fun x y => x.1 == y.1).filterMap fun run => if leftSide then run.head? else run.getLast?

theorem runReps_singleton (leftSide : Bool) (x : Nat × Nat) : runReps leftSide [x] = [x] := by
  cases leftSide <;> rfl

theorem runReps_true_cons (x : Nat × Nat) (l : List (Nat × Nat)) :
    runReps true (x :: l) = x :: (runReps true (x :: l)).tail := by
  obtain ⟨G, Gs, h⟩ := splitBy_cons_head (fun x y : Nat × Nat => x.1 == y.1) x l
  simp [runReps, h, List.filterMap_cons]

theorem runReps_cons_cons (leftSide : Bool) (x y : Nat × Nat) (l : List (Nat × Nat)) :
    runReps leftSide (x :: y :: l) =
      if x.1 = y.1 then
        (if leftSide then x :: (runReps leftSide (y :: l)).tail else runReps leftSide (y :: l))
      else x :: runReps leftSide (y :: l) := by
  obtain ⟨G, Gs, h⟩ := splitBy_cons_head (fun x y : Nat × Nat => x.1 == y.1) y l
  rw [runReps, splitBy_cons_cons, h]
  by_cases hxy : x.1 = y.1 <;> cases leftSide <;> simp [hxy, runReps, h, List.filterMap_cons]

theorem fst_eq_of_chain : ∀ {a : Nat × Nat} {run : List (Nat × Nat)},
    List.Chain (fun x y : Nat × Nat => x.1 == y.1) a run → ∀ z ∈ run, z.1 = a.1
  | _, [], _, z, hz => absurd hz (List.not_mem_nil z)
  | a, y :: run, h, z, hz => by
    rw [List.chain_cons, beq_iff_eq] at h
    rcases List.mem_cons.1 hz with rfl | hz
    · exact h.1.symm
    · exact (fst_eq_of_chain h.2 z hz).trans h.1.symm

theorem mem_runReps {leftSide : Bool} {xs : List (Nat × Nat)} {z : Nat × Nat} :
    z ∈ runReps leftSide xs ↔ ∃ run ∈ xs.splitBy (fun x y => x.1 == y.1),
      (if leftSide then run.head? else run.getLast?) = some z :=
  List.mem_filterMap

theorem mem_of_rep {leftSide : Bool} {run : List (Nat × Nat)} {z : Nat × Nat}
    (h : (if leftSide then run.head? else run.getLast?) = some z) : z ∈ run := by
  split at h
  · exact List.mem_of_mem_head? h
  · exact List.mem_of_mem_getLast? h

theorem mem_of_mem_runReps (leftSide : Bool) :
    ∀ (xs : List (Nat × Nat)) {z : Nat × Nat}, z ∈ runReps leftSide xs → z ∈ xs := by
  intro xs z h
  obtain ⟨run, hrun, hz⟩ := mem_runReps.1 h
  rw [← List.flatten_splitBy (fun x y : Nat × Nat => x.1 == y.1) xs]
  exact List.mem_flatten.2 ⟨run, hrun, mem_of_rep hz⟩

theorem fst_mem_runReps (leftSide : Bool) :
    ∀ (xs : List (Nat × Nat)) {x : Nat × Nat}, x ∈ xs → ∃ z ∈ runReps leftSide xs, z.1 = x.1 := by
  intro xs x h
  rw [← List.flatten_splitBy (fun x y : Nat × Nat => x.1 == y.1) xs] at h
  obtain ⟨run, hrun, hx⟩ := List.mem_flatten.1 h
  obtain ⟨a, run, rfl⟩ := List.exists_cons_of_ne_nil (List.ne_nil_of_mem_splitBy _ hrun)
  -- every pair of the run, its representative included, has the fold of its first pair
  have hfold : ∀ z ∈ a :: run, z.1 = a.1 :=
    List.forall_mem_cons.2 ⟨rfl, fst_eq_of_chain (List.chain'_of_mem_splitBy hrun)⟩
  obtain ⟨z, hz⟩ := Option.isSome_iff_exists.1
    (show (if leftSide then (a :: run).head? else (a :: run).getLast?).isSome by split <;> simp)
  exact ⟨z, mem_runReps.2 ⟨_, hrun, hz⟩, (hfold z (mem_of_rep hz)).trans (hfold x hx).symm⟩

theorem fst_mem_runReps_map_iff {leftSide : Bool} {F : Nat → Nat} {l : List Nat} {f : Nat} :
    f ∈ (runReps leftSide (l.map fun r => (F r, r))).map Prod.fst ↔ f ∈ l.map F := by
  constructor
  · intro hf
    obtain ⟨x, hx, rfl⟩ := List.mem_map.1 hf
    obtain ⟨r, hr, rfl⟩ := List.mem_map.1 (mem_of_mem_runReps _ _ hx)
    exact List.mem_map_of_mem _ hr
  · intro hf
    obtain ⟨r, hr, rfl⟩ := List.mem_map.1 hf
    obtain ⟨z, hz, hzf⟩ := fst_mem_runReps leftSide _ (List.mem_map_of_mem (fun r => (F r, r)) hr)
    exact (show z.1 = F r from hzf) ▸ List.mem_map_of_mem _ hz

/-! ## The caching loop of build -/

namespace PageImage

variable (pg : PageImage) (fold : Nat → Nat)

theorem buildLoop_links (leftSide : Bool) :
    ∀ (l : List Nat) (rec n : Nat) (cache : List (Nat × Nat)),
      Links pg.next rec l pg.supremum → pg.supremum ∉ l → l.length < n →
        pg.buildLoop fold leftSide n rec (fold rec) cache =
          some (cache ++ (runReps leftSide ((rec :: l).map fun r => (fold r, r))).drop leftSide.toNat)
  | _, _, 0, _, _, _, hn => absurd hn (Nat.not_lt_zero _)
  | [], rec, n + 1, cache, hl, _, _ => by
    cases leftSide <;> simp [buildLoop, show pg.next rec = some pg.supremum from hl, runReps_singleton]
  | r :: l, rec, n + 1, cache, hl, hs, hn => by
    obtain ⟨hr, hl⟩ := hl
    have hrs : r ≠ pg.supremum := fun e => hs (e ▸ List.mem_cons_self _ _)
    rw [buildLoop, hr]
    simp only [hrs, if_false]
    rw [buildLoop_links leftSide l r n _ hl (fun h => hs (List.mem_cons_of_mem _ h)) (by simp at hn; omega)]
    simp only [List.map_cons, runReps_cons_cons]
    by_cases hf : fold rec = fold r <;> cases leftSide <;> simp [hf]
    rw [runReps_true_cons]
    rfl

theorem buildLoop_first (leftSide : Bool) {r : Nat} {l : List Nat}
    (hl : Links pg.next r l pg.supremum) (hs : pg.supremum ∉ l) {n : Nat} (hn : l.length < n) :
    (pg.buildLoop fold leftSide n r (fold r) (if leftSide then [(fold r, r)] else [])).map
        BuildWalk.cache = some (.cache (runReps leftSide ((r :: l).map fun r => (fold r, r)))) := by
  rw [buildLoop_links pg fold leftSide l r n _ hl hs hn]
  cases leftSide
  · rfl
  · simp only [List.map_cons, ite_true, Bool.toNat_true]
    rw [runReps_true_cons]
    rfl

theorem runReps_of_forall_eq (leftSide : Bool) :
    ∀ (x : Nat × Nat) (l : List (Nat × Nat)), (∀ y ∈ l, y.1 = x.1) →
      ∃ z, runReps leftSide (x :: l) = [z]
  | x, [], _ => ⟨x, runReps_singleton _ _⟩
  | x, y :: l, h => by
    obtain ⟨z, hz⟩ := runReps_of_forall_eq leftSide y l fun w hw =>
      (h w (List.mem_cons_of_mem _ hw)).trans (h y (List.mem_cons_self _ _)).symm
    rw [runReps_cons_cons, if_pos (h y (List.mem_cons_self _ _)).symm, hz]
    cases leftSide
    · exact ⟨z, rfl⟩
    · exact ⟨x, rfl⟩

theorem buildCache_links (indexId : Nat) (leftSide : Bool) {pre recs : List Nat}
    (hpre : (pre = [] ∧ ∀ r ∈ recs.head?, pg.isMetadata r = false) ∨
      ∃ m, pre = [m] ∧ pg.isMetadata m = true)
    (hl : Links pg.next pg.infimum (pre ++ recs) pg.supremum) (hs : pg.supremum ∉ pre ++ recs)
    (hn : pg.nRecs = (pre ++ recs).length) (hid : pg.indexId = indexId) {n : Nat}
    (hf : recs.length ≤ n) :
    pg.buildCache fold indexId leftSide n =
      if recs = [] then some .skip else some (.cache (runReps leftSide (recs.map fun r => (fold r, r)))) := by
  rcases hpre with ⟨rfl, hmeta⟩ | ⟨m, rfl, hm⟩
  · cases recs with
    | nil => simp [buildCache, hn]
    | cons r l =>
      obtain ⟨hr, hl⟩ := hl
      have hrs : r ≠ pg.supremum := fun e => hs (e ▸ List.mem_cons_self _ _)
      simp only [List.nil_append, List.length_cons] at hn hs
      simp only [buildCache, hn, hr, hmeta r rfl, hrs, hid, Nat.add_one_ne_zero, if_false,
        reduceCtorEq, ne_eq, not_true_eq_false]
      exact buildLoop_first pg fold leftSide hl (fun h => hs (List.mem_cons_of_mem _ h)) (by simpa using hf)
  · obtain ⟨hm', hl⟩ := hl
    cases recs with
    | nil => simp [buildCache, hn, hm', hm, show pg.next m = some pg.supremum from hl]
    | cons r l =>
      obtain ⟨hr, hl⟩ := hl
      have hrs : r ≠ pg.supremum := fun e => hs (by simp [e])
      simp only [List.singleton_append, List.length_cons] at hn hs
      simp only [buildCache, hn, hm', hm, hr, hrs, hid, Nat.add_one_ne_zero, if_false, if_true,
        Nat.add_sub_cancel, reduceCtorEq, ne_eq, not_true_eq_false]
      exact buildLoop_first pg fold leftSide hl (fun h => hs (List.mem_cons_of_mem _ (List.mem_cons_of_mem _ h)))
        (by simpa using hf)

/-- Build caches one pair per maximal run of equal folds of the user records, in page order. -/
theorem build_caches_run_reps (indexId : Nat) (leftSide : Bool) {pre recs : List Nat}
    (hpre : (pre = [] ∧ ∀ r ∈ recs.head?, pg.isMetadata r = false) ∨
      ∃ m, pre = [m] ∧ pg.isMetadata m = true)
    (hl : Links pg.next pg.infimum (pre ++ recs) pg.supremum) (hs : pg.supremum ∉ pre ++ recs)
    (hn : pg.nRecs = (pre ++ recs).length) (hid : pg.indexId = indexId) {n : Nat}
    (hf : recs.length ≤ n) :
    pg.buildCache fold indexId leftSide n =
        (if recs = [] then some .skip else some (.cache (runReps leftSide (recs.map fun r => (fold r, r))))) ∧
      ((∀ r ∈ recs, ∀ r' ∈ recs, fold r = fold r') → recs ≠ [] →
        ∃ x, pg.buildCache fold indexId leftSide n = some (.cache [x])) := by
  have hcache := pg.buildCache_links fold indexId leftSide hpre hl hs hn hid hf
  refine ⟨hcache, fun hall hne => ?_⟩
  obtain ⟨r, l, rfl⟩ := List.exists_cons_of_ne_nil hne
  obtain ⟨x, hx⟩ := runReps_of_forall_eq leftSide (fold r, r) (l.map fun r => (fold r, r)) (by
    simp only [List.mem_map]
    rintro _ ⟨r', hr', rfl⟩
    exact hall r' (List.mem_cons_of_mem _ hr') r (List.mem_cons_self _ _))
  exact ⟨x, by rw [hcache, if_neg hne, List.map_cons, hx]⟩

/-! ## The fold collection of drop -/

theorem dropLoop_links (nRecs : Nat) :
    ∀ (l : List Nat) (rec n prevFold : Nat) (folds : List Nat),
      Links pg.next rec l pg.supremum → pg.supremum ∉ l → l.length < n →
      folds.length + l.length < nRecs → (prevFold ≠ 0 → prevFold ∈ folds) →
        ∃ L, pg.dropLoop fold nRecs n rec prevFold folds = some L ∧ (∀ f ∈ folds, f ∈ L) ∧
          ∀ r ∈ rec :: l, fold r ∈ L
  | _, _, 0, _, _, _, _, hn, _, _ => absurd hn (Nat.not_lt_zero _)
  | l, rec, n + 1, prevFold, folds, hl, hs, hn, hlen, hprev => by
    set folds' := if fold rec = prevFold ∧ prevFold ≠ 0 then folds else folds ++ [fold rec] with hf'
    have hsub : ∀ f ∈ folds, f ∈ folds' := fun f hf => by
      rw [hf']; split_ifs
      · exact hf
      · exact List.mem_append_left _ hf
    have hmem : fold rec ∈ folds' := by
      rw [hf']; split_ifs with h
      · exact h.1 ▸ hprev h.2
      · exact List.mem_append_right _ (List.mem_singleton_self _)
    have hlen' : folds'.length ≤ folds.length + 1 := by
      rw [hf']; split_ifs <;> simp
    have hstep : pg.dropLoop fold nRecs (n + 1) rec prevFold folds =
        match pg.next rec with
        | none => some folds'
        | some r => if r = pg.supremum then some folds' else pg.dropLoop fold nRecs n r (fold rec) folds' := by
      rw [dropLoop, if_neg (by omega)]
    cases l with
    | nil =>
      simp only [hstep, show pg.next rec = some pg.supremum from hl, ite_true]
      exact ⟨folds', rfl, hsub, by simpa using hmem⟩
    | cons r l =>
      obtain ⟨hr, hl⟩ := hl
      have hrs : r ≠ pg.supremum := fun e => hs (e ▸ List.mem_cons_self _ _)
      simp only [hstep, hr, hrs, ite_false]
      obtain ⟨L, hL, hsubL, hallL⟩ := dropLoop_links nRecs l r n (fold rec) folds' hl
        (fun h => hs (List.mem_cons_of_mem _ h)) (by simp at hn; omega) (by simp at hlen; omega)
        fun _ => hmem
      refine ⟨L, hL, fun f hf => hsubL f (hsub f hf), fun r' hr' => ?_⟩
      rcases List.mem_cons.mp hr' with rfl | hr'
      · exact hsubL _ hmem
      · exact hallL r' hr'

theorem dropFolds_links {pre recs : List Nat}
    (hpre : (pre = [] ∧ ∀ r ∈ recs.head?, pg.isMetadata r = false) ∨
      ∃ m, pre = [m] ∧ pg.isMetadata m = true)
    (hl : Links pg.next pg.infimum (pre ++ recs) pg.supremum) (hs : pg.supremum ∉ pre ++ recs)
    (hn : pg.nRecs = (pre ++ recs).length) (hne : recs ≠ []) {n : Nat} (hf : recs.length ≤ n) :
    ∃ L, pg.dropFolds fold n = some L ∧ ∀ r ∈ recs, fold r ∈ L := by
  obtain ⟨r, l, rfl⟩ := List.exists_cons_of_ne_nil hne
  have key : ∀ k, k = l.length + 1 → Links pg.next r l pg.supremum → pg.supremum ∉ l →
      ∃ L, pg.dropLoop fold k n r 0 [] = some L ∧ ∀ r' ∈ r :: l, fold r' ∈ L := fun k hk hl hs => by
    obtain ⟨L, hL, -, hall⟩ := pg.dropLoop_links fold k l r n 0 [] hl hs (by simp at hf; omega)
      (by simp [hk]) (fun h => absurd rfl h)
    exact ⟨L, hL, hall⟩
  rcases hpre with ⟨rfl, hmeta⟩ | ⟨m, rfl, hm⟩
  · obtain ⟨hr, hl⟩ := hl
    simp only [List.nil_append, List.length_cons, List.mem_cons, not_or] at hn hs
    rw [dropFolds, hr]
    simp only [hmeta r rfl, Bool.false_eq_true, if_false]
    exact key _ hn hl hs.2
  · obtain ⟨hm', hr, hl⟩ := hl
    simp only [List.singleton_append, List.length_cons, List.mem_cons, not_or] at hn hs
    rw [dropFolds, hm']
    simp only [hm, if_true, hn, Nat.add_sub_cancel, Nat.add_one_ne_zero, if_false, hr]
    exact key _ rfl hl hs.2.2

def threeRecordPage : PageImage :=
  ⟨0, 3, 1, 2, fun r => [(1, 10), (10, 20), (20, 30), (30, 2)].lookup r, fun _ => false, 7⟩

theorem build_caches_run_reps_three :
    threeRecordPage.buildCache (· / 20) 7 true 3 =
        (if [10, 20, 30] = [] then some .skip
          else some (.cache (runReps true ([10, 20, 30].map fun r => (r / 20, r))))) ∧
      ((∀ r ∈ [10, 20, 30], ∀ r' ∈ [10, 20, 30], r / 20 = r' / 20) → [10, 20, 30] ≠ [] →
        ∃ x, threeRecordPage.buildCache (· / 20) 7 true 3 = some (.cache [x])) :=
  build_caches_run_reps threeRecordPage (· / 20) 7 true (Or.inl ⟨rfl, fun _ _ => rfl⟩)
    (by exact ⟨rfl, rfl, rfl, rfl⟩) (by decide) (by rfl) rfl (by decide)

example : threeRecordPage.buildCache (· / 20) 7 false 3 = some (.cache [(0, 10), (1, 30)]) := by
  decide

/-! ## More fuel -/

theorem buildLoop_add (leftSide : Bool) (k : Nat) :
    ∀ {n rec f : Nat} {cache L : List (Nat × Nat)}, pg.buildLoop fold leftSide n rec f cache = some L →
      pg.buildLoop fold leftSide (n + k) rec f cache = some L
  | 0, _, _, _, _, h => by cases h
  | n + 1, rec, f, cache, L, h => by
    rw [Nat.add_right_comm]
    cases hnext : pg.next rec with
    | none => simpa [buildLoop, hnext] using h
    | some r =>
      simp only [buildLoop, hnext] at h ⊢
      split_ifs at h ⊢
      all_goals first | exact h | exact buildLoop_add leftSide k h

theorem dropLoop_add (nRecs k : Nat) :
    ∀ {n rec prevFold : Nat} {folds L : List Nat}, pg.dropLoop fold nRecs n rec prevFold folds = some L →
      pg.dropLoop fold nRecs (n + k) rec prevFold folds = some L
  | 0, _, _, _, _, h => by cases h
  | n + 1, rec, prevFold, folds, L, h => by
    rw [Nat.add_right_comm]
    cases hnext : pg.next rec with
    | none => simpa [dropLoop, hnext] using h
    | some r =>
      simp only [dropLoop, hnext] at h ⊢
      split_ifs at h ⊢
      all_goals first | exact h | exact dropLoop_add nRecs k h

theorem buildCache_add {indexId n : Nat} {leftSide : Bool} {w : BuildWalk} (k : Nat)
    (h : pg.buildCache fold indexId leftSide n = some w) : pg.buildCache fold indexId leftSide (n + k) = some w := by
  unfold buildCache at h ⊢
  by_cases h0 : pg.nRecs = 0
  · rw [if_pos h0] at h ⊢; exact h
  rw [if_neg h0] at h ⊢
  cases hinf : pg.next pg.infimum with
  | none => simpa [hinf] using h
  | some rec =>
    simp only [hinf] at h ⊢
    generalize (if pg.isMetadata rec = true then _ else _ : Option Nat) = first at h ⊢
    cases first with
    | none => exact h
    | some r =>
      dsimp only at h ⊢
      by_cases hs : r = pg.supremum
      · rw [if_pos hs] at h ⊢; exact h
      rw [if_neg hs] at h ⊢
      by_cases hid : indexId ≠ pg.indexId
      · rw [if_pos hid] at h; cases h
      rw [if_neg hid] at h ⊢
      obtain ⟨L, hL, rfl⟩ := Option.map_eq_some'.1 h
      rw [buildLoop_add pg fold leftSide k hL]
      rfl

theorem dropFolds_add {n : Nat} {L : List Nat} (k : Nat) (h : pg.dropFolds fold n = some L) :
    pg.dropFolds fold (n + k) = some L := by
  unfold dropFolds at h ⊢
  cases hinf : pg.next pg.infimum with
  | none => simpa [hinf] using h
  | some rec =>
    simp only [hinf] at h ⊢
    split_ifs at h ⊢
    · exact h
    · cases hn : pg.next rec with
      | none => simpa [hn] using h
      | some r => simp only [hn] at h ⊢; exact dropLoop_add pg fold _ k h
    · exact dropLoop_add pg fold _ k h

theorem buildCache_indexId {indexId n : Nat} {leftSide : Bool} {pairs : List (Nat × Nat)}
    (h : pg.buildCache fold indexId leftSide n = some (.cache pairs)) : pg.indexId = indexId := by
  unfold buildCache at h
  rw [if_neg fun h0 => by simp [h0] at h] at h
  cases hinf : pg.next pg.infimum with
  | none => simp [hinf] at h
  | some rec =>
    simp only [hinf] at h
    generalize (if pg.isMetadata rec = true then _ else _ : Option Nat) = first at h
    cases first with
    | none => cases h
    | some r =>
      dsimp only at h
      rw [if_neg fun hs => by simp [hs] at h] at h
      by_contra hid
      rw [if_pos (Ne.symm hid)] at h
      cases h

/-! ## Malformed pages

Drop checks its count before each write; build's loop ends only at the supremum. -/

theorem dropLoop_succ (nRecs n rec prevFold : Nat) (folds : List Nat) :
    pg.dropLoop fold nRecs (n + 1) rec prevFold folds =
      match pg.dropPass fold nRecs rec prevFold folds with
      | .done folds => some folds
      | .visit r f folds => pg.dropLoop fold nRecs n r f folds := by
  rw [dropLoop, dropPass]
  by_cases h : nRecs ≤ folds.length
  · simp only [if_pos h]
  · simp only [if_neg h]
    cases pg.next rec with
    | none => rfl
    | some r => by_cases hr : r = pg.supremum <;> simp [hr]

theorem dropPass_folds (nRecs rec prevFold : Nat) (folds : List Nat) :
    (pg.dropPass fold nRecs rec prevFold folds).folds = folds ∨
      folds.length < nRecs ∧ (pg.dropPass fold nRecs rec prevFold folds).folds = folds ++ [fold rec] := by
  unfold dropPass
  by_cases h : nRecs ≤ folds.length
  · exact .inl (by rw [if_pos h]; rfl)
  have hw : (if fold rec = prevFold ∧ prevFold ≠ 0 then folds else folds ++ [fold rec]) = folds ∨
      folds.length < nRecs ∧
        (if fold rec = prevFold ∧ prevFold ≠ 0 then folds else folds ++ [fold rec]) = folds ++ [fold rec] := by
    split_ifs
    · exact .inl rfl
    · exact .inr ⟨by omega, rfl⟩
  rw [if_neg h]
  cases pg.next rec with
  | none => exact hw
  | some r =>
    dsimp only
    generalize (if fold rec = prevFold ∧ prevFold ≠ 0 then folds else folds ++ [fold rec]) = F at hw ⊢
    split_ifs <;> exact hw

theorem dropPasses_length_le (nRecs : Nat) : ∀ (k : Nat) (st : DropState), st.folds.length ≤ nRecs →
    (pg.dropPasses fold nRecs k st).folds.length ≤ nRecs
  | 0, _, h => h
  | _ + 1, .done _, h => h
  | k + 1, .visit rec prevFold folds, h => by
    refine dropPasses_length_le nRecs k _ ?_
    rcases pg.dropPass_folds fold nRecs rec prevFold folds with e | ⟨hlt, e⟩ <;> rw [e]
    · exact h
    · simpa using hlt

theorem dropPasses_of_dropLoop {nRecs : Nat} : ∀ {n rec prevFold : Nat} {folds L : List Nat},
    pg.dropLoop fold nRecs n rec prevFold folds = some L →
      pg.dropPasses fold nRecs n (.visit rec prevFold folds) = .done L
  | 0, _, _, _, _, h => by simp [dropLoop] at h
  | n + 1, rec, prevFold, folds, L, h => by
    rw [dropLoop_succ] at h
    rw [dropPasses]
    cases hp : pg.dropPass fold nRecs rec prevFold folds with
    | done f =>
      rw [hp] at h
      cases h
      cases n <;> rfl
    | visit r f fs =>
      rw [hp] at h
      exact dropPasses_of_dropLoop h

theorem dropLoop_length_le (nRecs : Nat) {n rec prevFold : Nat} {folds L : List Nat}
    (hf : folds.length ≤ nRecs) (h : pg.dropLoop fold nRecs n rec prevFold folds = some L) : L.length ≤ nRecs := by
  have := pg.dropPasses_length_le fold nRecs n (.visit rec prevFold folds) hf
  rwa [pg.dropPasses_of_dropLoop fold h] at this

theorem dropFolds_length_le {n : Nat} {L : List Nat} (h : pg.dropFolds fold n = some L) :
    L.length ≤ pg.nRecs ∧
      ∀ r, pg.next pg.infimum = some r → pg.isMetadata r = true → L.length ≤ pg.nRecs - 1 := by
  unfold dropFolds at h
  split at h
  · cases h; simp
  · rename_i r hr
    split_ifs at h with hm h0
    · cases h; simp
    · split at h
      · cases h; simp
      · have := pg.dropLoop_length_le fold (pg.nRecs - 1) (Nat.zero_le _) h
        exact ⟨by omega, fun r' hr' _ => by rw [hr] at hr'; cases hr'; exact this⟩
    · have := pg.dropLoop_length_le fold pg.nRecs (Nat.zero_le _) h
      exact ⟨this, fun r' hr' hm' => by rw [hr] at hr'; cases hr'; exact absurd hm' hm⟩

/-- Drop writes `folds[i]` only below the count it stops at, on every pass of its loop. -/
theorem drop_folds_within_n_recs (nRecs rec k : Nat) :
    (pg.dropPasses fold nRecs k (.visit rec 0 [])).folds.length ≤ nRecs ∧
      ∀ {n : Nat} {L : List Nat}, pg.dropFolds fold n = some L → L.length ≤ pg.nRecs ∧
        ∀ r, pg.next pg.infimum = some r → pg.isMetadata r = true → L.length ≤ pg.nRecs - 1 :=
  ⟨pg.dropPasses_length_le fold nRecs k _ (Nat.zero_le _), pg.dropFolds_length_le fold⟩

section Cycle

/- `S`: records whose successors stay among them and are never the supremum, a
cycle of the chain. -/
variable {S : List Nat} (hS : ∀ x ∈ S, ∃ y ∈ S, pg.next x = some y ∧ y ≠ pg.supremum)
include hS

theorem buildLoop_cycle (leftSide : Bool) :
    ∀ {n x f : Nat} {cache : List (Nat × Nat)}, x ∈ S → pg.buildLoop fold leftSide n x f cache = none
  | 0, _, _, _, _ => rfl
  | n + 1, x, f, cache, hx => by
    obtain ⟨y, hy, hn, hys⟩ := hS x hx
    rw [buildLoop, hn]
    simp only [hys, if_false]
    exact buildLoop_cycle leftSide hy

theorem dropLoop_cycle {f nRecs : Nat} (hf : ∀ x ∈ S, fold x = f) (h0 : f ≠ 0)
    {folds : List Nat} (hlen : folds.length < nRecs) :
    ∀ {n x : Nat}, x ∈ S → pg.dropLoop fold nRecs n x f folds = none
  | 0, _, _ => rfl
  | n + 1, x, hx => by
    obtain ⟨y, hy, hn, hys⟩ := hS x hx
    rw [dropLoop, if_neg (by omega), if_pos ⟨hf x hx, h0⟩, hn]
    simp only [hys, if_false, hf x hx]
    exact dropLoop_cycle hf h0 hlen hy

end Cycle

def cyclicPage : PageImage :=
  ⟨0, 2, 1, 2, fun r => [(1, 10), (10, 20), (20, 10)].lookup r, fun _ => false, 7⟩

def longChainPage : PageImage :=
  ⟨0, 1, 1, 2, fun r => [(1, 10), (10, 20), (20, 30), (30, 2)].lookup r, fun _ => false, 7⟩

theorem drop_folds_within_n_recs_cyclic :
    (cyclicPage.dropPasses (fun _ => 5) 2 100 (.visit 10 0 [])).folds.length ≤ 2 ∧
      [10].length ≤ longChainPage.nRecs :=
  ⟨(cyclicPage.drop_folds_within_n_recs (fun _ => 5) 2 10 100).1,
    ((longChainPage.drop_folds_within_n_recs id 1 10 0).2 (by decide : longChainPage.dropFolds id 3 = some [10])).1⟩

example : cyclicPage.dropPasses (fun _ => 5) 2 100 (.visit 10 0 []) = .visit 10 5 [5] := by decide

theorem page_walks_malformed :
    (∀ n, cyclicPage.dropFolds (fun _ => 5) n = none) ∧
      (∀ leftSide n, cyclicPage.buildCache (fun _ => 5) 7 leftSide n = none) ∧
      longChainPage.buildCache id 7 true 3 = some (.cache [(10, 10), (20, 20), (30, 30)]) ∧
      longChainPage.nRecs = 1 := by
  have hS : ∀ x ∈ [10, 20], ∃ y ∈ [10, 20], cyclicPage.next x = some y ∧ y ≠ cyclicPage.supremum := by
    decide
  refine ⟨fun n => ?_, fun leftSide n => ?_, by decide, rfl⟩
  · cases n with
    | zero => rfl
    | succ n =>
      exact (cyclicPage.dropLoop_cycle (fun _ => 5) hS (fun _ _ => rfl) (by decide)
        (by decide : [5].length < 2) (by decide) : cyclicPage.dropLoop (fun _ => 5) 2 n 20 5 [5] = none)
  · have h : cyclicPage.buildCache (fun _ => 5) 7 leftSide n =
        (cyclicPage.buildLoop (fun _ => 5) leftSide n 10 5 (if leftSide then [(5, 10)] else [])).map
          .cache := by
      cases leftSide <;> rfl
    rw [h, cyclicPage.buildLoop_cycle (fun _ => 5) hS leftSide (by decide)]
    rfl

end PageImage

end Innobase
