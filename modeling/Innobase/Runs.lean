import Innobase.PageWalk

/-!
# Run representatives as a lookup

Where equal folds are consecutive, inserting one record moves the representative
of its own fold at most.
-/

namespace Innobase

section Reps

variable (F : Nat → Nat)

/-- Equal folds occur only in consecutive records: of three records in order,
the middle one has the fold of the outer two when these agree. -/
def FoldsContiguous (l : List Nat) : Prop :=
  ∀ a y b, List.Sublist [a, y, b] l → F a = F b → F y = F a

def firstOf (l : List Nat) (f : Nat) : Option Nat := l.find? (F · == f)

def repOf (leftSide : Bool) (l : List Nat) (f : Nat) : Option Nat :=
  firstOf F (if leftSide then l else l.reverse) f

variable {F}

theorem FoldsContiguous.sublist {l l' : List Nat} (h : FoldsContiguous F l') (hs : List.Sublist l l') :
    FoldsContiguous F l :=
  fun a y b h3 => h a y b (h3.trans hs)

theorem FoldsContiguous.reverse {l : List Nat} (h : FoldsContiguous F l) :
    FoldsContiguous F l.reverse :=
  fun a y b h3 hab => (h b y a (List.reverse_sublist.1 (by simpa using h3)) hab.symm).trans hab.symm

theorem FoldsContiguous.between {u w : List Nat} {a y c : Nat} (h : FoldsContiguous F (u ++ y :: w))
    (ha : a ∈ u) (hc : c ∈ w) (e : F a = F c) : F y = F a :=
  h a y c ((List.singleton_sublist.2 ha).append ((List.singleton_sublist.2 hc).cons₂ y)) e

theorem FoldsContiguous.ne_of_ne {x y : Nat} {l : List Nat} (h : FoldsContiguous F (x :: y :: l))
    (hxy : F x ≠ F y) : ∀ z ∈ y :: l, F z ≠ F x := by
  intro z hz e
  rcases List.mem_cons.1 hz with rfl | hz
  · exact hxy e.symm
  · exact hxy (h.between (u := [x]) (List.mem_singleton_self x) hz e.symm).symm

/-! ## The lookups -/

theorem firstOf_cons (x : Nat) (l : List Nat) (f : Nat) :
    firstOf F (x :: l) f = if F x = f then some x else firstOf F l f := by
  by_cases h : F x = f <;> simp [firstOf, List.find?_cons, h]

theorem firstOf_append (l l' : List Nat) (f : Nat) :
    firstOf F (l ++ l') f = (firstOf F l f).or (firstOf F l' f) :=
  List.find?_append

theorem firstOf_eq_none {l : List Nat} {f : Nat} (h : ∀ z ∈ l, F z ≠ f) : firstOf F l f = none :=
  List.find?_eq_none.2 fun z hz => by simpa using h z hz

theorem firstOf_isSome {l : List Nat} {r : Nat} (hr : r ∈ l) : (firstOf F l (F r)).isSome :=
  List.find?_isSome.2 ⟨r, hr, by simp⟩

theorem repOf_cons_true (x : Nat) (l : List Nat) (f : Nat) :
    repOf F true (x :: l) f = if F x = f then some x else repOf F true l f :=
  firstOf_cons x l f

theorem repOf_cons_false (x : Nat) (l : List Nat) (f : Nat) :
    repOf F false (x :: l) f = (repOf F false l f).or (if F x = f then some x else none) := by
  simp only [repOf, Bool.false_eq_true, if_false, List.reverse_cons, firstOf_append, firstOf_cons]
  rfl

theorem repOf_eq_none {leftSide : Bool} {l : List Nat} {f : Nat} (h : ∀ z ∈ l, F z ≠ f) :
    repOf F leftSide l f = none :=
  firstOf_eq_none fun z hz => h z (by split at hz <;> simp_all)

theorem repOf_isSome {leftSide : Bool} {l : List Nat} {r : Nat} (hr : r ∈ l) :
    (repOf F leftSide l (F r)).isSome :=
  firstOf_isSome (by split <;> simpa)

/-! ## Representatives of the runs -/

theorem fst_ne_of_mem_tail_runReps :
    ∀ {y : Nat} {l : List Nat}, FoldsContiguous F (y :: l) →
      ∀ z ∈ (runReps true ((y :: l).map fun r => (F r, r))).tail, z.1 ≠ F y
  | y, [], _, z, hz => by simp [runReps_singleton] at hz
  | y, w :: l, hc, z, hz => by
    simp only [List.map_cons] at hz
    rw [runReps_cons_cons] at hz
    by_cases hyw : F y = F w
    · simp only [hyw, if_true, List.tail_cons] at hz
      rw [hyw]
      exact fst_ne_of_mem_tail_runReps (hc.sublist (List.sublist_cons_self _ _)) z hz
    · simp only [hyw, if_false, List.tail_cons] at hz
      obtain ⟨r, hr, rfl⟩ :=
        List.mem_map.1 (show z ∈ (w :: l).map fun r => (F r, r) from mem_of_mem_runReps _ _ hz)
      exact hc.ne_of_ne hyw r hr

theorem mem_runReps_iff (leftSide : Bool) :
    ∀ {l : List Nat}, FoldsContiguous F l → ∀ {f r : Nat},
      (f, r) ∈ runReps leftSide (l.map fun r => (F r, r)) ↔ repOf F leftSide l f = some r
  | [], _, f, r => by simp [runReps, repOf, firstOf]
  | [x], _, f, r => by
    rw [List.map_singleton, runReps_singleton, List.mem_singleton, Prod.mk.injEq]
    by_cases hx : F x = f
    · subst hx
      cases leftSide <;> simp [repOf, firstOf_cons, eq_comm]
    · cases leftSide <;> simp [repOf, firstOf_cons, firstOf, hx, Ne.symm hx]
  | x :: y :: l, hc, f, r => by
    have ih := mem_runReps_iff leftSide (hc.sublist (List.sublist_cons_self _ _)) (f := f) (r := r)
    simp only [List.map_cons] at ih ⊢
    rw [runReps_cons_cons]
    dsimp only
    by_cases hxy : F x = F y
    · cases leftSide
      · simp only [hxy, if_true, Bool.false_eq_true, if_false]
        rw [ih, repOf_cons_false x]
        by_cases hf : F y = f
        · obtain ⟨r', hr'⟩ := Option.isSome_iff_exists.1
            (hf ▸ (repOf_isSome (List.mem_cons_self y l) : (repOf F false (y :: l) (F y)).isSome))
          simp [hr']
        · simp [hxy, hf]
      · have hT := fst_ne_of_mem_tail_runReps (F := F) (hc.sublist (List.sublist_cons_self _ _))
        simp only [List.map_cons] at hT
        rw [runReps_true_cons] at ih
        simp only [hxy, if_true, repOf_cons_true, List.mem_cons, Prod.mk.injEq] at ih ⊢
        by_cases hf : F y = f
        · subst hf
          have := hT (F y, r)
          simp_all [eq_comm]
        · simp_all [Ne.symm hf]
    · have hno := hc.ne_of_ne hxy
      have hnr : ∀ r, (F x, r) ∉ runReps leftSide ((F y, y) :: l.map fun r => (F r, r)) := fun r hr => by
        obtain ⟨z, hz, hzr⟩ := List.mem_map.1
          (show (F x, r) ∈ (y :: l).map fun r => (F r, r) from mem_of_mem_runReps _ _ hr)
        exact hno z hz (Prod.mk.inj hzr).1
      simp only [hxy, if_false, List.mem_cons, Prod.mk.injEq]
      by_cases hf : F x = f
      · subst hf
        cases leftSide
        · simp [repOf_cons_false, repOf_eq_none hno, hnr, eq_comm]
        · simp [repOf_cons_true, hnr, eq_comm]
      · cases leftSide <;> simp [repOf_cons_false, repOf_cons_true, hf, Ne.symm hf, ih]

/-! ## One record inserted -/

section Insert

variable {A B : List Nat} {x : Nat}

theorem repOf_true (l : List Nat) (f : Nat) : repOf F true l f = firstOf F l f := rfl

theorem repOf_false (l : List Nat) (f : Nat) : repOf F false l f = firstOf F l.reverse f := rfl

theorem repOf_false_next {u B : List Nat} {r : Nat} (hr : r ∉ B)
    (h : repOf F false (u ++ r :: B) (F r) = some r) : ∀ b ∈ B.head?, F b ≠ F r := by
  intro b hb e
  obtain ⟨B', rfl⟩ : ∃ B', B = b :: B' := by
    cases B with
    | nil => simp at hb
    | cons b' B' => exact ⟨B', by simpa using hb⟩
  obtain ⟨y, hy⟩ := Option.isSome_iff_exists.1
    (firstOf_isSome (F := F) (List.mem_reverse.2 (List.mem_cons_self b B')))
  rw [e] at hy
  rw [repOf_false, List.reverse_append, List.reverse_cons, List.append_assoc, firstOf_append, hy,
    Option.or_some] at h
  obtain rfl := Option.some_inj.1 h
  exact hr (List.mem_reverse.1 (List.mem_of_find?_eq_some hy))

theorem firstOf_insert_of_ne {f : Nat} (h : f ≠ F x) :
    firstOf F (A ++ x :: B) f = firstOf F (A ++ B) f := by
  rw [firstOf_append, firstOf_append, firstOf_cons, if_neg fun e => h e.symm]

theorem firstOf_insert_self (hc : FoldsContiguous F (A ++ x :: B)) :
    firstOf F (A ++ x :: B) (F x) =
      if ∀ p ∈ A.getLast?, F p ≠ F x then some x else firstOf F (A ++ B) (F x) := by
  split_ifs with hp
  · have hA : ∀ a ∈ A, F a ≠ F x := by
      cases hl : A.getLast? with
      | none => simp [List.getLast?_eq_none_iff.1 hl]
      | some p =>
        obtain ⟨A₀, rfl⟩ := List.getLast?_eq_some_iff.1 hl
        have hpx := hp p (by simp)
        rw [List.append_assoc, List.singleton_append] at hc
        intro a ha e
        rcases List.mem_append.1 ha with ha | ha
        · exact hpx ((hc.between ha (List.mem_cons_self x B) e).trans e)
        · exact hpx (List.mem_singleton.1 ha ▸ e)
    rw [firstOf_append, firstOf_eq_none hA, firstOf_cons, if_pos rfl]
    rfl
  · push_neg at hp
    obtain ⟨p, hp, hpx⟩ := hp
    obtain ⟨r, hr⟩ := Option.isSome_iff_exists.1 (hpx ▸ firstOf_isSome (F := F) (List.mem_of_mem_getLast? hp))
    rw [firstOf_append, firstOf_append, hr]
    rfl

theorem firstOf_next (hc : FoldsContiguous F (A ++ x :: B)) {n : Nat} (hn : n ∈ B.head?)
    (hne : F n ≠ F x) : firstOf F (A ++ B) (F n) = some n := by
  obtain ⟨B', rfl⟩ : ∃ B', B = n :: B' := by
    cases B with
    | nil => simp at hn
    | cons b B' => exact ⟨B', by simp_all⟩
  have hA : ∀ a ∈ A, F a ≠ F n := fun a ha e =>
    hne ((hc.between ha (List.mem_cons_self n B') e).trans e).symm
  rw [firstOf_append, firstOf_eq_none hA, firstOf_cons, if_pos rfl]
  rfl

theorem repOf_insert (leftSide : Bool) (hc : FoldsContiguous F (A ++ x :: B)) :
    (∀ f, f ≠ F x → repOf F leftSide (A ++ x :: B) f = repOf F leftSide (A ++ B) f) ∧
      repOf F leftSide (A ++ x :: B) (F x) =
        (if ∀ p ∈ (if leftSide then A.getLast? else B.head?), F p ≠ F x then some x
          else repOf F leftSide (A ++ B) (F x)) ∧
      ∀ n ∈ (if leftSide then B.head? else A.getLast?), F n ≠ F x →
        repOf F leftSide (A ++ B) (F n) = some n := by
  cases leftSide
  · have hr : (A ++ x :: B).reverse = B.reverse ++ x :: A.reverse := by simp
    have hc' : FoldsContiguous F (B.reverse ++ x :: A.reverse) := hr ▸ hc.reverse
    simp only [repOf_false, hr, List.reverse_append, Bool.false_eq_true, if_false]
    refine ⟨fun f hf => firstOf_insert_of_ne hf, ?_, fun n hn hne => firstOf_next hc' (by simpa using hn) hne⟩
    rw [firstOf_insert_self hc', List.getLast?_reverse]
  · simp only [repOf_true, if_true]
    exact ⟨fun f hf => firstOf_insert_of_ne hf, firstOf_insert_self hc, fun n hn hne => firstOf_next hc hn hne⟩

end Insert

end Reps

end Innobase
