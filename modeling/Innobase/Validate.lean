import Innobase.Heuristic

/-!
# Validating the AHI

`btr_search_validate` checks every node's fold against its record, then calls
`ha_validate` chunk by chunk, giving its latches back after every `chunk_size`
cells; `Relock` is what it finds when it takes them again.
-/

namespace Innobase

namespace Partition

variable {α : Type} {g : Geom} {p : Partition}

def chainReports (p : Partition) (report : AhiNode → Option (List α)) : Nat → Option Slot → Option (List α)
  | 0, _ => none
  | _ + 1, none => some []
  | n + 1, some a => do
    let r ← report (p.mem a)
    let l ← p.chainReports report n (p.mem a).next
    pure (r ++ l)

def cellsReports (g : Geom) (p : Partition) (report : Nat → AhiNode → Option (List α)) (start n : Nat) :
    Option (List α) :=
  ((List.range' start n).mapM fun i => p.chainReports (report i) (p.fuel g) (p.cell i)).map List.flatten

def hashReport (p : Partition) (i : Nat) (node : AhiNode) : Option (List (Nat × Nat)) :=
  some (if p.calcHash node.fold ≠ i then [(node.fold, i)] else [])

/-- `ha_validate(table, start_index, end_index)`; `none` is a failed `ut_a` or an endless walk. -/
def haValidate (g : Geom) (p : Partition) (start endIndex : Nat) : Option (List (Nat × Nat)) :=
  if start ≤ endIndex ∧ endIndex < p.nCells then p.cellsReports g p.hashReport start (endIndex + 1 - start)
  else none

end Partition

def btrSearchValidateChunk : Nat := 10000

/-- A node's block as the buffer pool finds it: a file page, a page being freed
(`REMOVE_HASH`), or neither, where `ut_a` fails. -/
inductive PageState
  | inPageHash
  | removeHash
  | other
  deriving DecidableEq, Repr

structure Relock where
  ahi : Ahi
  state : Nat → PageState
  killed : Bool

structure FoldReport where
  block : Nat
  recPtr : Nat
  nodeFold : Nat
  recFold : Nat
  deriving DecidableEq, Repr

inductive FirstLoopEnd
  | exit
  | next (s : Ahi) (rs : List Relock) (cellCount : Nat)

namespace Partition

def haValidateChunks (g : Geom) (p : Partition) (i cellCount : Nat) : Option (List (Nat × Nat)) :=
  if i < cellCount then do
    let errs ← p.haValidate g i (min (i + btrSearchValidateChunk - 1) (cellCount - 1))
    let rest ← p.haValidateChunks g (i + btrSearchValidateChunk) cellCount
    pure (errs ++ rest)
  else some []
termination_by cellCount - i
decreasing_by simp only [btrSearchValidateChunk]; omega

end Partition

namespace Ahi

/-- The first loop's check of a node; `none` for a failed `ut_a` or a null `block->index`. -/
def foldReport (s : Ahi) (blockOf : Nat → Nat) (state : Nat → PageState)
    (fold : Nat → Nat → Nat → Nat → Nat) (node : AhiNode) : Option (List FoldReport) :=
  let b := blockOf node.recPtr
  if state b = .other then none else
  match (s.block b).index with
  | none => none
  | some j =>
    let f := fold j (s.block b).currNFields (s.block b).currNBytes node.recPtr
    some (if node.fold ≠ f then [⟨b, node.recPtr, node.fold, f⟩] else [])

variable (g : Geom) (blockOf : Nat → Nat) (fold : Nat → Nat → Nat → Nat → Nat)

/-- The first loop of `btr_search_validate` from the re-lock at cell `i`. -/
def foldsLoop (s : Ahi) (state : Nat → PageState) :
    List Relock → Nat → Nat → Option (List FoldReport × FirstLoopEnd)
  | [], i, cellCount =>
    (s.part.cellsReports g (fun _ => s.foldReport blockOf state fold) i (cellCount - i)).map
      fun log => (log, .next s [] cellCount)
  | r :: rs, i, cellCount =>
    if i < cellCount then
      if !r.ahi.enabled || r.killed then some ([], .exit)
      else if cellCount ≠ r.ahi.part.nCells ∧ r.ahi.part.nCells ≤ i then
        some ([], .next r.ahi rs r.ahi.part.nCells)
      else do
        let log ← r.ahi.part.cellsReports g (fun _ => r.ahi.foldReport blockOf r.state fold) i
          (min (i + btrSearchValidateChunk) r.ahi.part.nCells - i)
        let (rest, e) ← foldsLoop r.ahi r.state rs (i + btrSearchValidateChunk) r.ahi.part.nCells
        pure (log ++ rest, e)
    else some ([], .next s (r :: rs) cellCount)

def haValidateLoop (s : Ahi) : List Relock → Nat → Nat → Option (List (Nat × Nat))
  | [], i, cellCount => s.part.haValidateChunks g i cellCount
  | r :: rs, i, cellCount =>
    if i < cellCount then
      if !r.ahi.enabled || r.killed then some []
      else if cellCount ≠ r.ahi.part.nCells ∧ r.ahi.part.nCells ≤ i then some []
      else do
        let errs ← r.ahi.part.haValidate g i (min (i + btrSearchValidateChunk - 1) (r.ahi.part.nCells - 1))
        let rest ← haValidateLoop r.ahi rs (i + btrSearchValidateChunk) r.ahi.part.nCells
        pure (errs ++ rest)
    else some []

def haValidateAll (s : Ahi) (rs : List Relock) (cellCount : Nat) : Option (List (Nat × Nat)) :=
  if 0 < cellCount then do
    let errs ← s.part.haValidate g 0 (min (btrSearchValidateChunk - 1) (cellCount - 1))
    let rest ← haValidateLoop g s rs btrSearchValidateChunk cellCount
    pure (errs ++ rest)
  else some []

/-- `btr_search_validate(thd)`: what the two loops log. -/
def btrSearchValidate (s : Ahi) (state : Nat → PageState) (killed : Bool) (rs : List Relock) :
    Option (List FoldReport × List (Nat × Nat)) :=
  if !s.enabled || killed then some ([], []) else do
  let log₀ ← s.part.cellsReports g (fun _ => s.foldReport blockOf state fold) 0
    (min btrSearchValidateChunk s.part.nCells)
  let (log₁, e) ← foldsLoop g blockOf fold s state rs btrSearchValidateChunk s.part.nCells
  match e with
  | .exit => pure (log₀ ++ log₁, [])
  | .next s rs cellCount => do
    let errs ← haValidateAll g s rs cellCount
    pure (log₀ ++ log₁, errs)

def checkMarkedFreeIndex (s : Ahi) (b : Nat) : Bool :=
  match (s.block b).index with
  | some i => (s.index i).freed
  | none => false

/-- Every node points into a hashed block whose page the buffer pool finds or is freeing. -/
def NodesHashed (s : Ahi) (state : Nat → PageState) : Prop :=
  ∀ j < s.part.nCells, ∀ a ∈ s.part.chainOf g j,
    (s.block (blockOf (s.part.mem a).recPtr)).index.isSome ∧ state (blockOf (s.part.mem a).recPtr) ≠ .other

instance (s : Ahi) (state : Nat → PageState) : Decidable (NodesHashed g blockOf s state) :=
  inferInstanceAs (Decidable (∀ j < s.part.nCells, ∀ _ ∈ _, _))

end Ahi

/-! ## Walks and ranges of cells -/

section MapM

variable {β γ : Type} {f : β → Option γ}

theorem mapM_some_of_forall {F : β → γ} : ∀ {l : List β}, (∀ x ∈ l, f x = some (F x)) →
    l.mapM f = some (l.map F)
  | [], _ => rfl
  | x :: l, h => by
    rw [List.mapM_cons, h x (List.mem_cons_self _ _), mapM_some_of_forall fun y hy => h y (List.mem_cons_of_mem _ hy)]
    rfl

theorem mapM_none_of_exists : ∀ {l : List β}, (∃ x ∈ l, f x = none) → l.mapM f = none
  | [], ⟨_, h, _⟩ => absurd h (List.not_mem_nil _)
  | x :: l, ⟨y, hy, hn⟩ => by
    rw [List.mapM_cons]
    cases e : f x with
    | none => rfl
    | some z =>
      rcases List.mem_cons.1 hy with rfl | hy
      · rw [hn] at e; cases e
      · rw [mapM_none_of_exists ⟨y, hy, hn⟩]; rfl

end MapM

namespace Partition

variable {α : Type} {g : Geom} {p : Partition} {report : Nat → AhiNode → Option (List α)}

@[simp] theorem cellsReports_zero (start : Nat) : p.cellsReports g report start 0 = some [] := rfl

theorem chainReports_of_chain {r : AhiNode → Option (List α)} {f : Slot → List α} {x : Option Slot}
    {L : List Slot} (h : Chain p.mem x L) :
    (∀ a ∈ L, r (p.mem a) = some (f a)) → ∀ {n}, L.length < n → p.chainReports r n x = some (L.flatMap f) := by
  induction h with
  | nil => intro _ n hn; cases n with
    | zero => cases hn
    | succ n => rfl
  | @cons a l _ ih => intro hf n hn; cases n with
    | zero => cases hn
    | succ n =>
      simp only [chainReports, hf a (List.mem_cons_self _ _),
        ih (fun b hb => hf b (List.mem_cons_of_mem _ hb)) (n := n) (by simp at hn; omega)]
      rfl

theorem chainReports_none_of_chain {r : AhiNode → Option (List α)} {x : Option Slot} {L : List Slot}
    (h : Chain p.mem x L) :
    (∃ a ∈ L, r (p.mem a) = none) → ∀ {n}, L.length < n → p.chainReports r n x = none := by
  induction h with
  | nil => intro ⟨_, ha, _⟩; cases ha
  | @cons a l _ ih => intro ⟨b, hb, hr⟩ n hn; cases n with
    | zero => rfl
    | succ n =>
      cases e : r (p.mem a) with
      | none => simp [chainReports, e]
      | some z =>
        rcases List.mem_cons.1 hb with rfl | hb
        · rw [hr] at e; cases e
        · simp [chainReports, e, ih ⟨b, hb, hr⟩ (n := n) (by simp at hn; omega)]

theorem cellsReports_of_forall {F : Nat → List α} {start n : Nat}
    (h : ∀ i ∈ List.range' start n, p.chainReports (report i) (p.fuel g) (p.cell i) = some (F i)) :
    p.cellsReports g report start n = some ((List.range' start n).flatMap F) := by
  rw [cellsReports, mapM_some_of_forall h]; rfl

theorem cellsReports_none_of_exists {start n : Nat}
    (h : ∃ i ∈ List.range' start n, p.chainReports (report i) (p.fuel g) (p.cell i) = none) :
    p.cellsReports g report start n = none := by
  rw [cellsReports, mapM_none_of_exists h]; rfl

theorem cellsReports_append (a m k : Nat) :
    p.cellsReports g report a (m + k) = (do
      let x ← p.cellsReports g report a m
      let y ← p.cellsReports g report (a + m) k
      pure (x ++ y)) := by
  rw [show m + k = k + m from Nat.add_comm m k, cellsReports, ← List.range'_append_1, List.mapM_append,
    cellsReports, cellsReports]
  cases (List.range' a m).mapM fun i => p.chainReports (report i) (p.fuel g) (p.cell i) <;>
    cases (List.range' (a + m) k).mapM fun i => p.chainReports (report i) (p.fuel g) (p.cell i) <;>
    simp

theorem cellsReports_split {i n : Nat} (c : Nat) :
    p.cellsReports g report i (n - i) = (do
      let x ← p.cellsReports g report i (min (i + c) n - i)
      let y ← p.cellsReports g report (i + c) (n - (i + c))
      pure (x ++ y)) := by
  by_cases hc : i + c ≤ n
  · rw [show n - i = (min (i + c) n - i) + (n - (i + c)) by omega, cellsReports_append,
      show i + (min (i + c) n - i) = i + c by omega]
  · rw [show n - (i + c) = 0 by omega, show n - i = (min (i + c) n - i) + 0 by omega, cellsReports_append,
      cellsReports_zero, cellsReports_zero]

theorem Inv.chainReports_cell (h : p.Inv g) {i : Nat} (hi : i < p.nCells) {r : AhiNode → Option (List α)}
    {f : Slot → List α} (hf : ∀ a ∈ p.chainOf g i, r (p.mem a) = some (f a)) :
    p.chainReports r (p.fuel g) (p.cell i) = some ((p.chainOf g i).flatMap f) :=
  chainReports_of_chain (h.layout.chain i hi) hf (h.length_lt_fuel hi)

theorem Inv.chainReports_cell_none (h : p.Inv g) {i : Nat} (hi : i < p.nCells) {r : AhiNode → Option (List α)}
    (hf : ∃ a ∈ p.chainOf g i, r (p.mem a) = none) : p.chainReports r (p.fuel g) (p.cell i) = none :=
  chainReports_none_of_chain (h.layout.chain i hi) hf (h.length_lt_fuel hi)

theorem Inv.cellsReports_hash (h : p.Inv g) {start n : Nat} (hn : n ≤ p.nCells) :
    p.cellsReports g p.hashReport start (n - start) = some [] := by
  rw [cellsReports_of_forall (F := fun _ => []) fun i hi => ?_]
  · simp
  have hi' : i < p.nCells := by rw [List.mem_range'_1] at hi; omega
  rw [h.chainReports_cell hi' (f := fun _ => []) fun a ha => by simp [hashReport, h.layout.hash i hi' a ha]]
  simp

theorem Inv.haValidate_eq_nil (h : p.Inv g) {start endIndex : Nat} (hs : start ≤ endIndex)
    (he : endIndex < p.nCells) : p.haValidate g start endIndex = some [] := by
  rw [Partition.haValidate, if_pos ⟨hs, he⟩]
  exact h.cellsReports_hash he

theorem haValidateChunks_eq {n : Nat} (hn : n ≤ p.nCells) (i : Nat) :
    p.haValidateChunks g i n = p.cellsReports g p.hashReport i (n - i) := by
  induction i, n using haValidateChunks.induct g p with
  | case1 i n hi ih =>
    have hc : btrSearchValidateChunk = 10000 := rfl
    rw [haValidateChunks, if_pos hi, ih hn, haValidate, if_pos ⟨by omega, by omega⟩,
      show min (i + btrSearchValidateChunk - 1) (n - 1) + 1 - i = min (i + btrSearchValidateChunk) n - i by omega,
      cellsReports_split (i := i) (n := n) btrSearchValidateChunk]
  | case2 i n hi =>
    rw [haValidateChunks, if_neg hi, show n - i = 0 by omega]
    rfl

end Partition

/-! ## The loops of `btr_search_validate` -/

namespace Ahi

variable {g : Geom} {blockOf : Nat → Nat} {fold : Nat → Nat → Nat → Nat → Nat} {s : Ahi}
  {state : Nat → PageState}

theorem foldReport_of_hashed {node : AhiNode} (h : (s.block (blockOf node.recPtr)).index.isSome)
    (hs : state (blockOf node.recPtr) ≠ .other) :
    s.foldReport blockOf state fold node = some ((s.foldReport blockOf state fold node).getD []) := by
  cases e : (s.block (blockOf node.recPtr)).index with
  | none => rw [e] at h; cases h
  | some j => simp only [foldReport, hs, e, if_false, Option.getD_some]

theorem foldReport_none {node : AhiNode}
    (h : (s.block (blockOf node.recPtr)).index = none ∨ state (blockOf node.recPtr) = .other) :
    s.foldReport blockOf state fold node = none := by
  rcases h with h | h <;> simp [foldReport, h]

theorem cellsReports_folds (fold : Nat → Nat → Nat → Nat → Nat) (hI : s.part.Inv g)
    (hh : NodesHashed g blockOf s state) (start : Nat) {n : Nat} (hn : n ≤ s.part.nCells) :
    s.part.cellsReports g (fun _ => s.foldReport blockOf state fold) start (n - start) =
      some ((List.range' start (n - start)).flatMap fun j =>
        (s.part.chainOf g j).flatMap fun a => (s.foldReport blockOf state fold (s.part.mem a)).getD []) :=
  Partition.cellsReports_of_forall fun j hj =>
    have hj' : j < s.part.nCells := by rw [List.mem_range'_1] at hj; omega
    hI.chainReports_cell hj' fun a ha => foldReport_of_hashed (hh j hj' a ha).1 (hh j hj' a ha).2

theorem cellsReports_folds_none (fold : Nat → Nat → Nat → Nat → Nat) (hI : s.part.Inv g) {start n : Nat}
    (hn : n ≤ s.part.nCells)
    (h : ∃ j ∈ List.range' start (n - start), ∃ a ∈ s.part.chainOf g j,
      (s.block (blockOf (s.part.mem a).recPtr)).index = none ∨ state (blockOf (s.part.mem a).recPtr) = .other) :
    s.part.cellsReports g (fun _ => s.foldReport blockOf state fold) start (n - start) = none :=
  let ⟨j, hj, a, ha, hu⟩ := h
  have hj' : j < s.part.nCells := by rw [List.mem_range'_1] at hj; omega
  Partition.cellsReports_none_of_exists ⟨j, hj, hI.chainReports_cell_none hj' ⟨a, ha, foldReport_none hu⟩⟩

theorem haValidateLoop_of_inv : ∀ (rs : List Relock) (s : Ahi) (i : Nat), s.part.Inv g →
    (∀ r ∈ rs, r.ahi.part.Inv g) → haValidateLoop g s rs i s.part.nCells = some []
  | [], s, i, hI, _ => by
    rw [haValidateLoop, Partition.haValidateChunks_eq le_rfl]
    exact hI.cellsReports_hash le_rfl
  | r :: rs, s, i, _, hrs => by
    have hr := hrs r (List.mem_cons_self _ _)
    rw [haValidateLoop]
    by_cases hi : i < s.part.nCells
    · rw [if_pos hi]
      by_cases he : (!r.ahi.enabled || r.killed) = true
      · rw [if_pos he]
      rw [if_neg he]
      by_cases hb : s.part.nCells ≠ r.ahi.part.nCells ∧ r.ahi.part.nCells ≤ i
      · rw [if_pos hb]
      -- the chunk lies within the table found at the re-lock
      have hi' : i < r.ahi.part.nCells := by omega
      rw [if_neg hb, hr.haValidate_eq_nil (by simp only [btrSearchValidateChunk]; omega) (by omega),
        haValidateLoop_of_inv rs r.ahi _ hr fun r' hr' => hrs r' (List.mem_cons_of_mem _ hr')]
      rfl
    · rw [if_neg hi]

theorem haValidateAll_of_inv (rs : List Relock) (hI : s.part.Inv g) (hrs : ∀ r ∈ rs, r.ahi.part.Inv g) :
    haValidateAll g s rs s.part.nCells = some [] := by
  rw [haValidateAll]
  split_ifs with hn
  · rw [hI.haValidate_eq_nil (Nat.zero_le _) (by omega), haValidateLoop_of_inv rs s _ hI hrs]
    rfl
  · rfl

theorem haValidateAll_nil (n : Nat) : haValidateAll g s [] n = s.part.haValidateChunks g 0 n := by
  rw [haValidateAll, Partition.haValidateChunks, Nat.zero_add]
  rfl

theorem ha_validate_chunks_agree_with_whole_table (s : Ahi) :
    haValidateAll g s [] s.part.nCells =
      if 0 < s.part.nCells then s.part.haValidate g 0 (s.part.nCells - 1) else some [] := by
  rw [haValidateAll_nil, Partition.haValidateChunks_eq le_rfl, Nat.sub_zero]
  split_ifs with hn
  · rw [Partition.haValidate, if_pos ⟨Nat.zero_le _, by omega⟩,
      show s.part.nCells - 1 + 1 - 0 = s.part.nCells by omega]
  · rw [show s.part.nCells = 0 by omega]
    rfl

theorem foldsLoop_some : ∀ (rs : List Relock) (s : Ahi) (state : Nat → PageState) (i : Nat), s.part.Inv g →
    NodesHashed g blockOf s state → (∀ r ∈ rs, r.ahi.part.Inv g ∧ NodesHashed g blockOf r.ahi r.state) →
    ∃ log e, foldsLoop g blockOf fold s state rs i s.part.nCells = some (log, e) ∧
      (e = .exit ∨ ∃ s' rs', e = .next s' rs' s'.part.nCells ∧ s'.part.Inv g ∧ ∀ r ∈ rs', r.ahi.part.Inv g)
  | [], s, _, i, hI, hh, _ => by
    rw [foldsLoop, cellsReports_folds fold hI hh _ le_rfl]
    exact ⟨_, _, rfl, .inr ⟨s, [], rfl, hI, fun _ h => absurd h (List.not_mem_nil _)⟩⟩
  | r :: rs, s, _, i, hI, _, hrs => by
    obtain ⟨hrI, hrh⟩ := hrs r (List.mem_cons_self _ _)
    have hrs' : ∀ r' ∈ rs, r'.ahi.part.Inv g ∧ NodesHashed g blockOf r'.ahi r'.state :=
      fun r' hr' => hrs r' (List.mem_cons_of_mem _ hr')
    rw [foldsLoop]
    by_cases hi : i < s.part.nCells
    · rw [if_pos hi]
      by_cases he : (!r.ahi.enabled || r.killed) = true
      · rw [if_pos he]; exact ⟨_, _, rfl, .inl rfl⟩
      rw [if_neg he]
      by_cases hb : s.part.nCells ≠ r.ahi.part.nCells ∧ r.ahi.part.nCells ≤ i
      · rw [if_pos hb]
        exact ⟨_, _, rfl, .inr ⟨r.ahi, rs, rfl, hrI, fun r' hr' => (hrs' r' hr').1⟩⟩
      obtain ⟨rest, e, hrest, he'⟩ :=
        foldsLoop_some rs r.ahi r.state (i + btrSearchValidateChunk) hrI hrh hrs'
      rw [if_neg hb, cellsReports_folds fold hrI hrh _ (min_le_right _ _), hrest]
      exact ⟨_, e, rfl, he'⟩
    · rw [if_neg hi]
      exact ⟨_, _, rfl, .inr ⟨s, r :: rs, rfl, hI, fun r' hr' => (hrs r' hr').1⟩⟩

/-! ## `btr_search_validate` -/

/-- Whatever other threads do between chunks, `ha_validate` logs nothing. -/
theorem btr_search_validate_hash_check_passes {killed : Bool} {rs : List Relock} (hI : s.part.Inv g)
    (hh : NodesHashed g blockOf s state)
    (hrs : ∀ r ∈ rs, r.ahi.part.Inv g ∧ NodesHashed g blockOf r.ahi r.state) :
    ∃ log, s.btrSearchValidate g blockOf fold state killed rs = some (log, []) := by
  rw [btrSearchValidate]
  split_ifs with hk
  · exact ⟨[], rfl⟩
  have h₀ := cellsReports_folds fold hI hh 0 (min_le_right btrSearchValidateChunk _)
  rw [Nat.sub_zero] at h₀
  obtain ⟨log₁, e, h₁, he⟩ := @foldsLoop_some g blockOf fold rs s state btrSearchValidateChunk hI hh hrs
  rw [h₀, h₁]
  rcases he with rfl | ⟨s', rs', rfl, hI', hrs'⟩
  · exact ⟨_, rfl⟩
  · simp only [Option.bind_eq_bind, Option.some_bind, haValidateAll_of_inv _ hI' hrs']
    exact ⟨_, rfl⟩

theorem btr_search_validate_hash_check_passes_built :
    Partition.Inv Partition.ahiGeom builtAhi.part ∧
      NodesHashed Partition.ahiGeom (fun _ => 5) builtAhi (fun _ => .inPageHash) ∧
      (∀ r ∈ [(⟨builtAhi, fun _ => .removeHash, false⟩ : Relock)],
        r.ahi.part.Inv Partition.ahiGeom ∧ NodesHashed Partition.ahiGeom (fun _ => 5) r.ahi r.state) ∧
      ∃ log, builtAhi.btrSearchValidate Partition.ahiGeom (fun _ => 5) (fun _ _ _ r => r / 20)
        (fun _ => .inPageHash) false [⟨builtAhi, fun _ => .removeHash, false⟩] = some (log, []) := by
  obtain ⟨_, _, ht⟩ := builtAhi_reachable.table (by decide)
  have hI := ht.reachable.inv_ledger.1
  have hrs : ∀ r ∈ [(⟨builtAhi, fun _ => .removeHash, false⟩ : Relock)],
      r.ahi.part.Inv Partition.ahiGeom ∧ NodesHashed Partition.ahiGeom (fun _ => 5) r.ahi r.state := by
    simp only [List.mem_singleton, forall_eq]
    exact ⟨hI, by decide⟩
  exact ⟨hI, by decide, hrs, btr_search_validate_hash_check_passes hI (by decide) hrs⟩

/-- Without other threads, the chunked loops log what one walk of all the cells would. -/
theorem btr_search_validate_without_interference (hI : s.part.Inv g) (hen : s.enabled = true) :
    s.btrSearchValidate g blockOf fold state false [] =
      if NodesHashed g blockOf s state then
        some ((List.range s.part.nCells).flatMap fun j =>
          (s.part.chainOf g j).flatMap fun a => (s.foldReport blockOf state fold (s.part.mem a)).getD [], [])
      else none := by
  -- the first chunk and the rest of the first loop make up all the cells
  have hsplit := @Partition.cellsReports_split _ g s.part (fun _ => s.foldReport blockOf state fold) 0
    s.part.nCells btrSearchValidateChunk
  simp only [Nat.sub_zero, Nat.zero_add] at hsplit
  have key : s.btrSearchValidate g blockOf fold state false [] =
      (s.part.cellsReports g (fun _ => s.foldReport blockOf state fold) 0 s.part.nCells).map (·, []) := by
    rw [btrSearchValidate, if_neg (by simp [hen]), foldsLoop, hsplit]
    cases s.part.cellsReports g (fun _ => s.foldReport blockOf state fold) 0
        (min btrSearchValidateChunk s.part.nCells) <;>
      cases s.part.cellsReports g (fun _ => s.foldReport blockOf state fold) btrSearchValidateChunk
        (s.part.nCells - btrSearchValidateChunk) <;>
      simp [haValidateAll_of_inv [] hI fun _ h => absurd h (List.not_mem_nil _)]
  rw [key]
  split_ifs with hh
  · have h := cellsReports_folds fold hI hh 0 le_rfl
    rw [Nat.sub_zero] at h
    rw [h, List.range_eq_range']
    rfl
  · -- a node whose block is not hashed, or whose page fails the `ut_a`
    have hu : ∃ j ∈ List.range' 0 (s.part.nCells - 0), ∃ a ∈ s.part.chainOf g j,
        (s.block (blockOf (s.part.mem a).recPtr)).index = none ∨
          state (blockOf (s.part.mem a).recPtr) = .other := by
      simp only [NodesHashed, not_forall, not_and_or, Option.not_isSome_iff_eq_none, ne_eq, not_not] at hh
      obtain ⟨j, hj, a, ha, hu⟩ := hh
      exact ⟨j, List.mem_range'_1.2 ⟨Nat.zero_le _, by omega⟩, a, ha, hu⟩
    have h := cellsReports_folds_none fold hI le_rfl hu
    rw [Nat.sub_zero] at h
    rw [h]
    rfl

theorem btr_search_validate_without_interference_built :
    Partition.Inv Partition.ahiGeom builtAhi.part ∧ builtAhi.enabled = true ∧
      builtAhi.btrSearchValidate Partition.ahiGeom (fun _ => 5) (fun _ _ _ r => r / 10) (fun _ => .inPageHash)
          false [] =
        if NodesHashed Partition.ahiGeom (fun _ => 5) builtAhi (fun _ => .inPageHash) then
          some ((List.range builtAhi.part.nCells).flatMap fun j =>
            (builtAhi.part.chainOf Partition.ahiGeom j).flatMap fun a =>
              (builtAhi.foldReport (fun _ => 5) (fun _ => .inPageHash) (fun _ _ _ r => r / 10)
                (builtAhi.part.mem a)).getD [], [])
        else none := by
  obtain ⟨_, _, ht⟩ := builtAhi_reachable.table (by decide)
  exact ⟨ht.reachable.inv_ledger.1, rfl, btr_search_validate_without_interference ht.reachable.inv_ledger.1 rfl⟩

example : builtAhi.btrSearchValidate Partition.ahiGeom (fun _ => 5) (fun _ _ _ r => r / 10) (fun _ => .other)
    false [] = none := by decide

end Ahi

end Innobase
