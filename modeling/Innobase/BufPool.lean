import Mathlib.Data.List.Basic
import Mathlib.Algebra.Group.Nat.Basic

/-!
# From a record pointer to its buffer block

`buf_pool_t::block_from_ahi` through `chunk_t::map`: when the chunks hold a
block each and their frames do not overlap, the block whose frame holds the
pointer, on both branches.
-/

namespace Innobase

/-- A chunk: the frame of its first block and `chunk->size`. -/
structure Chunk where
  frame0 : UInt64
  size : Nat
  deriving DecidableEq, Repr

def Chunk.Holds (ps : Nat) (c : Chunk) (q : Nat) : Prop :=
  c.frame0.toNat ≤ q ∧ q < c.frame0.toNat + c.size * ps

structure ChunkMap where
  entries : List (UInt64 × Chunk)
  sorted : entries.Pairwise fun a b => a.1 < b.1

def upperBound {α : Type} (key : UInt64) : List (UInt64 × α) → Nat
  | [] => 0
  | e :: m => if key < e.1 then 0 else upperBound key m + 1

/-- `buf_pool_t::block_from_ahi(ptr)`: the chunk and the block's position in it;
`none` is a failed `ut_a`. -/
def blockFromAhi (m : ChunkMap) (srvPageSizeShift : Nat) (ptr : UInt64) : Option (Chunk × Nat) :=
  let it := upperBound ptr m.entries
  if it = 0 then none
  else
    let chunk := if it = m.entries.length then m.entries.getLast?.map (·.2)
      else m.entries[it - 1]?.map (·.2)
    chunk.bind fun chunk =>
      let offs := (ptr - chunk.frame0).toNat >>> srvPageSizeShift
      if offs < chunk.size then some (chunk, offs) else none

/-! ## The search -/

theorem uint64_lt_iff {a b : UInt64} : a < b ↔ a.toNat < b.toNat := by
  rw [UInt64.lt_def, BitVec.lt_def]; rfl

theorem uint64_le_iff {a b : UInt64} : a ≤ b ↔ a.toNat ≤ b.toNat := by
  rw [UInt64.le_def, BitVec.le_def]; rfl

theorem upperBound_append {α : Type} {key : UInt64} :
    ∀ {A : List (UInt64 × α)} (B : List (UInt64 × α)), (∀ e ∈ A, ¬key < e.1) →
      upperBound key (A ++ B) = A.length + upperBound key B
  | [], _, _ => by simp
  | e :: A, B, h => by
    rw [List.cons_append, upperBound, if_neg (h e (List.mem_cons_self _ _)),
      upperBound_append B fun e he => h e (List.mem_cons_of_mem _ he)]
    simp only [List.length_cons]
    omega

variable {m : ChunkMap} {shift : Nat}

/-- The block of a pointer into the frame of block `n` of a chunk registered in
the map under its first frame, when every chunk has a block and no two chunks'
frames overlap: `ut_a` holds twice and the block is block `n` of that chunk. -/
theorem block_from_ahi_exact (hkey : ∀ e ∈ m.entries, e.1 = e.2.frame0)
    (hsize : ∀ e ∈ m.entries, 0 < e.2.size)
    (hdisj : m.entries.Pairwise fun a b => ∀ q, ¬(a.2.Holds (2 ^ shift) q ∧ b.2.Holds (2 ^ shift) q))
    {c : Chunk} (hc : (c.frame0, c) ∈ m.entries) {n : Nat} (hn : n < c.size) {ptr : UInt64}
    (hlo : c.frame0.toNat + n * 2 ^ shift ≤ ptr.toNat)
    (hhi : ptr.toNat < c.frame0.toNat + (n + 1) * 2 ^ shift) :
    blockFromAhi m shift ptr = some (c, n) := by
  obtain ⟨A, B, hAB⟩ := List.append_of_mem hc
  have hs := m.sorted
  have hd := hdisj
  rw [hAB, List.pairwise_append, List.pairwise_cons] at hs hd
  have hk : c.frame0 ≤ ptr := uint64_le_iff.2 (by omega)
  have hend : (n + 1) * 2 ^ shift ≤ c.size * 2 ^ shift := Nat.mul_le_mul_right _ hn
  -- the entries before the chunk's have smaller keys
  have hA : ∀ a ∈ A, ¬ptr < a.1 := fun a ha h => by
    have := hs.2.2 a ha _ (List.mem_cons_self _ _)
    rw [uint64_lt_iff] at this h
    simp only at this
    omega
  -- the next entry's chunk would overlap this one if its key were not above the pointer
  have hB : upperBound ptr B = 0 := by
    cases B with
    | nil => rfl
    | cons b B =>
      rw [upperBound, if_pos]
      rw [uint64_lt_iff]
      by_contra hb
      have hmem : b ∈ m.entries := by rw [hAB]; simp
      have hbk := hs.2.1.1 b (List.mem_cons_self _ _)
      have hb1 := congrArg UInt64.toNat (hkey b hmem)
      have hbs := Nat.mul_pos (hsize b hmem) (Nat.two_pow_pos shift)
      rw [uint64_lt_iff] at hbk
      refine hd.2.1.1 b (List.mem_cons_self _ _) b.1.toNat ⟨⟨?_, ?_⟩, ?_, ?_⟩ <;> simp only at hbk ⊢ <;>
        omega
  have hit : upperBound ptr m.entries = A.length + 1 := by
    rw [hAB, upperBound_append _ hA, upperBound, if_neg (by rw [uint64_lt_iff]; simp only; omega), hB]
  have hchunk : (if A.length + 1 = m.entries.length then m.entries.getLast?.map (·.2)
      else m.entries[A.length + 1 - 1]?.map (·.2)) = some c := by
    rw [hAB]
    cases B <;> simp [List.getElem_append_right]
  have hoffs : (ptr - c.frame0).toNat >>> shift = n := by
    rw [UInt64.toNat_sub_of_le _ _ hk, Nat.shiftRight_eq_div_pow]
    exact Nat.div_eq_of_lt_le (by omega) (by omega)
  simp only [blockFromAhi, hit, Nat.add_one_ne_zero, if_false, hchunk, Option.some_bind, hoffs, hn,
    if_true]

def twoChunks : ChunkMap := ⟨[(0, ⟨0, 2⟩), (32768, ⟨32768, 1⟩)], by decide⟩

theorem block_from_ahi_exact_two_chunks : blockFromAhi twoChunks 14 16389 = some (⟨0, 2⟩, 1) :=
  block_from_ahi_exact (by decide) (by decide)
    (.cons (fun b hb q ⟨⟨_, h2⟩, h3, _⟩ => by
      obtain rfl := List.mem_singleton.1 hb
      exact absurd (h3.trans_lt h2) (by decide)) (.cons (fun _ h => absurd h (List.not_mem_nil _)) .nil))
    (by decide) (by decide)
    (by decide) (by decide)

example : blockFromAhi twoChunks 14 32768 = some (⟨32768, 1⟩, 0) := by decide

end Innobase
