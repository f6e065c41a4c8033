import Innobase.Partition
import Mathlib.Data.List.Nodup

/-!
# Chains of hash nodes

`Chain mem x l`: following `next` from `x` visits the slots `l` and then reads
null; what the walks of `Partition` return on a chain, and how pointer writes
change it.
-/

namespace Innobase

inductive Chain (mem : Slot → AhiNode) : Option Slot → List Slot → Prop
  | nil : Chain mem none []
  | cons {a : Slot} {l : List Slot} : Chain mem (mem a).next l → Chain mem (some a) (a :: l)

def linkAfter : Link → List Slot → Link
  | l, [] => l
  | _, a :: u => linkAfter (.next a) u

theorem linkAfter_append_singleton (l : Link) (u : List Slot) (y : Slot) :
    linkAfter l (u ++ [y]) = .next y := by
  induction u generalizing l with
  | nil => rfl
  | cons a u ih => exact ih _

namespace Chain

variable {mem mem' : Slot → AhiNode}

theorem unique {x : Option Slot} {l : List Slot} (h : Chain mem x l) :
    ∀ {l'}, Chain mem x l' → l = l' := by
  induction h with
  | nil => intro l' h'; cases h'; rfl
  | cons _ ih => intro l' h'; cases h' with
    | cons h' => rw [ih h']

theorem of_append {x : Option Slot} {y : Slot} {w : List Slot} :
    ∀ {u : List Slot}, Chain mem x (u ++ y :: w) → Chain mem (mem y).next w
  | [], h => by cases h; assumption
  | _ :: u, h => by cases h with
    | cons h => exact of_append (u := u) h

theorem not_mem_none {x : Option Slot} {l : List Slot} (h : Chain mem x l) (hx : x = none) :
    l = [] := by
  cases h with
  | nil => rfl
  | cons => cases hx

theorem frame {x : Option Slot} {l : List Slot} (h : Chain mem x l)
    (hm : ∀ a ∈ l, (mem' a).next = (mem a).next) : Chain mem' x l := by
  induction h with
  | nil => exact .nil
  | @cons a l _ ih =>
    refine .cons ?_
    rw [hm a (List.mem_cons_self _ _)]
    exact ih fun b hb => hm b (List.mem_cons_of_mem _ hb)

theorem frame_update {x : Option Slot} {l : List Slot} (h : Chain mem x l) {y : Slot}
    (hy : y ∉ l) (v : AhiNode) : Chain (Function.update mem y v) x l :=
  h.frame fun a ha => by rw [Function.update_noteq (ne_of_mem_of_not_mem ha hy)]

theorem splice {x v : Option Slot} {y : Slot} {w z : List Slot} (hz : Chain mem v z)
    (hyz : y ∉ z) : ∀ {u : List Slot}, Chain mem x (u ++ y :: w) → y ∉ u →
      Chain (Function.update mem y { mem y with next := v }) x (u ++ y :: z)
  | [], h, _ => by
    cases h
    exact .cons (by rw [Function.update_same]; exact hz.frame_update hyz _)
  | c :: u, h, hyu => by
    cases h with
    | cons h =>
      have hc : c ≠ y := fun e => hyu (e ▸ List.mem_cons_self _ _)
      refine .cons ?_
      rw [Function.update_noteq hc]
      exact splice hz hyz (u := u) h fun e => hyu (List.mem_cons_of_mem _ e)

theorem walk_eq {p : Partition} {x : Option Slot} {l : List Slot} (h : Chain p.mem x l) :
    ∀ {n : Nat}, l.length < n → p.walk n x = l := by
  induction h with
  | nil => intro n hn; cases n with
    | zero => cases hn
    | succ n => rfl
  | cons _ ih => intro n hn; cases n with
    | zero => cases hn
    | succ n => rw [Partition.walk, ih (n := n) (by simp at hn; omega)]

end Chain

/-! ## Walks of the partition along a chain -/

namespace Partition

variable {p : Partition} {P : Slot → Bool}

@[simp] theorem read_cell (i : Nat) : p.read (.cell i) = p.cell i := rfl
@[simp] theorem read_next (a : Slot) : p.read (.next a) = (p.mem a).next := rfl

theorem seek_of_forall {x : Option Slot} {xs : List Slot} (h : Chain p.mem x xs) :
    ∀ {l : Link} {n : Nat}, p.read l = x → (∀ a ∈ xs, P a = false) → xs.length < n →
      p.seek P n l = some none := by
  induction h with
  | nil => intro l n hr _ hn; cases n with
    | zero => cases hn
    | succ n => simp [seek, hr]
  | @cons a l _ ih => intro l' n hr hP hn; cases n with
    | zero => cases hn
    | succ n =>
      simp only [seek, hr, hP a (List.mem_cons_self _ _), Bool.false_eq_true, ite_false]
      exact ih (read_next a) (fun b hb => hP b (List.mem_cons_of_mem _ hb)) (by simp at hn; omega)

theorem seek_of_split {a : Slot} {w : List Slot} (ha : P a = true) :
    ∀ {u : List Slot} {x : Option Slot} {l : Link} {n : Nat}, Chain p.mem x (u ++ a :: w) →
      p.read l = x → (∀ b ∈ u, P b = false) → u.length < n →
        p.seek P n l = some (some (linkAfter l u, a))
  | _, _, _, 0, _, _, _, hn => absurd hn (Nat.not_lt_zero _)
  | [], _, l, n + 1, h, hr, _, _ => by
    cases h
    simp [seek, hr, ha, linkAfter]
  | b :: u, _, l, n + 1, h, hr, hP, hn => by
    cases h with
    | cons h =>
      simp only [seek, hr, hP b (List.mem_cons_self _ _), Bool.false_eq_true, ite_false]
      exact seek_of_split ha h (read_next b) (fun c hc => hP c (List.mem_cons_of_mem _ hc))
        (by simp at hn; omega)

theorem seekEnd_eq {x : Option Slot} {xs : List Slot} (h : Chain p.mem x xs) :
    ∀ {l : Link} {n : Nat}, p.read l = x → xs.length < n → p.seekEnd n l = some (linkAfter l xs) := by
  induction h with
  | nil => intro l n hr hn; cases n with
    | zero => cases hn
    | succ n => simp [seekEnd, hr, linkAfter]
  | @cons a l _ ih => intro l' n hr hn; cases n with
    | zero => cases hn
    | succ n =>
      simp only [seekEnd, hr, linkAfter]
      exact ih (read_next a) (by simp at hn; omega)

theorem forall_or_split (P : Slot → Bool) : ∀ xs : List Slot, (∀ a ∈ xs, P a = false) ∨
    ∃ u a w, xs = u ++ a :: w ∧ (∀ b ∈ u, P b = false) ∧ P a = true
  | [] => .inl fun _ h => absurd h (List.not_mem_nil _)
  | a :: xs => by
    cases ha : P a
    · rcases forall_or_split P xs with h | ⟨u, b, w, rfl, hu, hb⟩
      · exact .inl fun c hc => by
          rcases List.mem_cons.mp hc with rfl | hc
          exacts [ha, h c hc]
      · exact .inr ⟨a :: u, b, w, rfl, fun c hc => by
          rcases List.mem_cons.mp hc with rfl | hc
          exacts [ha, hu c hc], hb⟩
    · exact .inr ⟨[], a, xs, rfl, fun _ h => absurd h (List.not_mem_nil _), ha⟩

/-! ## Pointer writes -/

@[simp] theorem write_cell_mem (i : Nat) (v : Option Slot) : (p.write (.cell i) v).mem = p.mem := rfl

@[simp] theorem write_cell_cell (i j : Nat) (v : Option Slot) :
    (p.write (.cell i) v).cell j = if j = i then v else p.cell j := by
  simp [write, Function.update_apply]

@[simp] theorem write_next_cell (a : Slot) (v : Option Slot) : (p.write (.next a) v).cell = p.cell := rfl

@[simp] theorem write_fold (l : Link) (v : Option Slot) (a : Slot) :
    ((p.write l v).mem a).fold = (p.mem a).fold := by
  cases l with
  | cell => rfl
  | next b => by_cases h : a = b <;> simp [write, Function.update_apply, h]

@[simp] theorem write_recPtr (l : Link) (v : Option Slot) (a : Slot) :
    ((p.write l v).mem a).recPtr = (p.mem a).recPtr := by
  cases l with
  | cell => rfl
  | next b => by_cases h : a = b <;> simp [write, Function.update_apply, h]

@[simp] theorem write_blocks (l : Link) (v : Option Slot) : (p.write l v).blocks = p.blocks := by
  cases l <;> rfl

@[simp] theorem write_spare (l : Link) (v : Option Slot) : (p.write l v).spare = p.spare := by
  cases l <;> rfl

@[simp] theorem write_nCells (l : Link) (v : Option Slot) : (p.write l v).nCells = p.nCells := by
  cases l <;> rfl

theorem chain_write_linkAfter {i : Nat} {u w z : List Slot} {v : Option Slot}
    (h : Chain p.mem (p.cell i) (u ++ w)) (hu : u.Nodup) (hz : Chain p.mem v z)
    (huz : ∀ a ∈ u, a ∉ z) :
    Chain (p.write (linkAfter (.cell i) u) v).mem ((p.write (linkAfter (.cell i) u) v).cell i)
      (u ++ z) := by
  rcases List.eq_nil_or_concat u with rfl | ⟨u, y, rfl⟩
  · simpa [linkAfter] using hz
  · rw [List.concat_eq_append] at h hu huz ⊢
    rw [linkAfter_append_singleton, write_next_cell, List.append_assoc, List.singleton_append]
    have hyu : y ∉ u := fun hy => (List.nodup_append.mp hu).2.2 hy (List.mem_singleton_self y)
    exact Chain.splice hz (huz y (by simp)) (by simpa only [List.append_assoc, List.singleton_append] using h) hyu

theorem chain_write_linkAfter_other {i j : Nat} (hij : j ≠ i) {u l : List Slot} {v : Option Slot}
    (h : Chain p.mem (p.cell j) l) (hul : ∀ a ∈ u, a ∉ l) :
    Chain (p.write (linkAfter (.cell i) u) v).mem ((p.write (linkAfter (.cell i) u) v).cell j) l := by
  rcases List.eq_nil_or_concat u with rfl | ⟨u, y, rfl⟩
  · simpa [linkAfter, hij] using h
  · rw [List.concat_eq_append, linkAfter_append_singleton, write_next_cell]
    exact h.frame_update (hul y (by simp)) _

end Partition

end Innobase
