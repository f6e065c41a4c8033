import Innobase.Lifecycle
import Innobase.Recommend

/-!
# The other callbacks, and runs of entry points

`btr_search_update_hash_ref`, `btr_search_update_hash_on_delete`,
`btr_search_move_or_delete_hash_entries` and
`btr_search_drop_page_hash_when_freed`, each run without interference. Every
entry point is a run of latched sections, so the counts and the table stay
right over every sequence of calls.
-/

namespace Innobase

namespace Ahi

variable (g : Geom) (maxNFields : Nat)

/-- `btr_search_update_hash_ref(cursor)` on the record `rec` of block `b`, with
`info` the `search_info` of the block's index. -/
def updateHashRef (s : Ahi) (i : Nat) (info : RecommInfo) (pg : PageImage)
    (fold : Nat → Nat → Nat → Nat) (b rec n : Nat) : Option Ahi :=
  match (s.block b).index with
  | none => some s
  | some j =>
    if info.nHashPotential = 0 then some s
    else if j ≠ i then s.dropPageHashIndex g b pg fold false n
    else
      let blk := s.block b
      if blk.index.isSome ∧ blk.currNFields = info.nFields ∧ blk.currNBytes = info.nBytes ∧
          blk.currLeftSide = info.leftSide ∧ rec ≠ pg.infimum ∧ rec ≠ pg.supremum ∧ s.enabled then
        (s.part.insert g (fold blk.currNFields blk.currNBytes rec) rec).map fun part => { s with part }
      else some s

/-- `btr_search_update_hash_on_delete(cursor)`; `none` is a failed `ut_a`. -/
def updateHashOnDelete (s : Ahi) (i : Nat) (pg : PageImage) (fold : Nat → Nat → Nat → Nat)
    (b rec n : Nat) : Option Ahi :=
  if !s.enabled then some s else
  match (s.block b).index with
  | none => some s
  | some j =>
    if j ≠ i then s.dropPageHashIndex g b pg fold false n
    else
      let blk := s.block b
      if blk.currNFields = 0 ∧ blk.currNBytes = 0 then none
      else (s.part.erase g (fold blk.currNFields blk.currNBytes rec) rec).map fun r =>
        { s with part := r.1 }

/-- `btr_search_drop_page_hash_when_freed(page_id)`, where `b` is the block
`buf_page_get_gen` finds for the page, if any. -/
def dropPageHashWhenFreed (s : Ahi) (b : Option Nat) (pg : PageImage)
    (fold : Nat → Nat → Nat → Nat) (n : Nat) : Option Ahi :=
  match b with
  | some b => if (s.block b).index.isSome then s.dropPageHashIndex g b pg fold false n else some s
  | none => some s

def moveOrDeleteHashEntries (s : Ahi) (newBlock block : Nat) (newPg pg : PageImage)
    (fold : Nat → Nat → Nat → Nat) (spare n : Nat) : Option Ahi :=
  if !s.enabled then some s else
  let index := if (s.block block).index.isNone then (s.block newBlock).index else (s.block block).index
  if (s.block newBlock).index.isSome then s.dropPageHashIndex g block pg fold false n
  else match index with
    | none => some s
    | some i =>
      if (s.index i).freed then s.dropPageHashIndex g block pg fold false n
      else if (s.block block).index.isSome then
        if (s.block block).currNFields = 0 ∧ (s.block block).currNBytes = 0 then none
        else s.buildPageHashIndex g maxNFields i newBlock newPg fold (s.block block).currNFields
          (s.block block).currNBytes (s.block block).currLeftSide spare n
      else some s

/-! ## The callbacks are runs of sections -/

section Calls

variable {g maxNFields} {pool : List Nat} {s s' : Ahi} {pg : PageImage}
  {fold : Nat → Nat → Nat → Nat} {n : Nat}

theorem updateHashRef_cases {i b rec : Nat} {info : RecommInfo}
    (h : s.updateHashRef g i info pg fold b rec n = some s') :
    s' = s ∨ s.dropPageHashIndex g b pg fold false n = some s' ∨
      s.enabled = true ∧ (s.block b).index.isSome ∧ ∃ part,
        s.part.insert g (fold (s.block b).currNFields (s.block b).currNBytes rec) rec = some part ∧
        s' = { s with part } := by
  unfold updateHashRef at h
  split at h
  · exact .inl (Option.some_inj.1 h).symm
  rcases ite_eq_iff.1 h with ⟨-, h⟩ | ⟨-, h⟩
  · exact .inl (Option.some_inj.1 h).symm
  rcases ite_eq_iff.1 h with ⟨-, h⟩ | ⟨-, h⟩
  · exact .inr (.inl h)
  rcases ite_eq_iff.1 h with ⟨hc, h⟩ | ⟨-, h⟩
  · obtain ⟨part, hp, rfl⟩ := Option.map_eq_some'.1 h
    exact .inr (.inr ⟨hc.2.2.2.2.2.2, hc.1, part, hp, rfl⟩)
  · exact .inl (Option.some_inj.1 h).symm

theorem updateHashRef_of_index {i b rec : Nat} {info : RecommInfo}
    (hidx : (s.block b).index = none ∨ (s.block b).index = some i)
    (h : s.updateHashRef g i info pg fold b rec n = some s') :
    s' = s ∨ s.enabled = true ∧ ∃ f part, s.part.insert g f rec = some part ∧ s' = { s with part } := by
  unfold updateHashRef at h
  rcases hidx with e | e <;> simp only [e] at h
  · exact .inl (Option.some_inj.1 h).symm
  rcases ite_eq_iff.1 h with ⟨-, h⟩ | ⟨-, h⟩
  · exact .inl (Option.some_inj.1 h).symm
  rw [if_neg (not_not.2 rfl)] at h
  rcases ite_eq_iff.1 h with ⟨hc, h⟩ | ⟨-, h⟩
  · obtain ⟨part, hp, rfl⟩ := Option.map_eq_some'.1 h
    exact .inr ⟨hc.2.2.2.2.2.2, _, part, hp, rfl⟩
  · exact .inl (Option.some_inj.1 h).symm

theorem updateHashOnDelete_cases {i b rec : Nat} (h : s.updateHashOnDelete g i pg fold b rec n = some s') :
    s' = s ∧ (s.enabled = false ∨ (s.block b).index = none) ∨
      s.dropPageHashIndex g b pg fold false n = some s' ∨
      s.enabled = true ∧ (s.block b).index.isSome ∧ ∃ r,
        s.part.erase g (fold (s.block b).currNFields (s.block b).currNBytes rec) rec = some r ∧
        s' = { s with part := r.1 } := by
  unfold updateHashOnDelete at h
  rcases ite_eq_iff.1 h with ⟨hen, h⟩ | ⟨hen, h⟩
  · exact .inl ⟨(Option.some_inj.1 h).symm, .inl (by simpa using hen)⟩
  split at h
  next hnone => exact .inl ⟨(Option.some_inj.1 h).symm, .inr hnone⟩
  next j hj =>
  rcases ite_eq_iff.1 h with ⟨-, h⟩ | ⟨-, h⟩
  · exact .inr (.inl h)
  rcases ite_eq_iff.1 h with ⟨-, h⟩ | ⟨-, h⟩
  · cases h
  · obtain ⟨r, hr, rfl⟩ := Option.map_eq_some'.1 h
    exact .inr (.inr ⟨by simpa using hen, by simp [hj], r, hr, rfl⟩)

theorem dropPageHashIndex_of_disabled {b : Nat} {gc : Bool} (hen : s.enabled = false)
    (h : s.dropPageHashIndex g b pg fold gc n = some s') : s' = s := by
  rcases dropPageHashIndex_eq h with ⟨rfl, -⟩ | ⟨hen', -⟩
  · rfl
  · simp [hen] at hen'

theorem updateHashOnDelete_of_disabled {i b rec : Nat} (hen : s.enabled = false)
    (h : s.updateHashOnDelete g i pg fold b rec n = some s') : s' = s := by
  rcases updateHashOnDelete_cases h with ⟨rfl, -⟩ | h | ⟨hen', -⟩
  · rfl
  · exact dropPageHashIndex_of_disabled hen h
  · simp [hen] at hen'

theorem dropPageHashWhenFreed_cases {b : Option Nat} (h : s.dropPageHashWhenFreed g b pg fold n = some s') :
    s' = s ∨ ∃ b', b = some b' ∧ s.dropPageHashIndex g b' pg fold false n = some s' := by
  unfold dropPageHashWhenFreed at h
  split at h
  · rcases ite_eq_iff.1 h with ⟨-, h⟩ | ⟨-, h⟩
    · exact .inr ⟨_, rfl, h⟩
    · exact .inl (Option.some_inj.1 h).symm
  · exact .inl (Option.some_inj.1 h).symm

theorem moveOrDeleteHashEntries_cases {newBlock block spare : Nat} {newPg : PageImage}
    (h : s.moveOrDeleteHashEntries g maxNFields newBlock block newPg pg fold spare n = some s') :
    s' = s ∨ s.dropPageHashIndex g block pg fold false n = some s' ∨
      ∃ i, (s.block block).index = some i ∧ (s.block newBlock).index = none ∧
        (s.index i).freed = false ∧
        s.buildPageHashIndex g maxNFields i newBlock newPg fold (s.block block).currNFields
          (s.block block).currNBytes (s.block block).currLeftSide spare n = some s' := by
  unfold moveOrDeleteHashEntries at h
  rcases ite_eq_iff.1 h with ⟨-, h⟩ | ⟨-, h⟩
  · exact .inl (Option.some_inj.1 h).symm
  dsimp only at h
  rcases ite_eq_iff.1 h with ⟨-, h⟩ | ⟨hnew, h⟩
  · exact .inr (.inl h)
  have hn : (s.block newBlock).index = none := by simpa using hnew
  cases hb : (s.block block).index with
  | none =>
    -- neither block is hashed: nothing to do
    simp only [hb, hn, Option.isNone_none, if_true] at h
    cases h; exact .inl rfl
  | some i =>
    simp only [hb, Option.isNone_some, Bool.false_eq_true, if_false, Option.isSome_some, if_true] at h
    split_ifs at h with hf
    · exact .inr (.inl h)
    · exact .inr (.inr ⟨i, rfl, hn, by simpa using hf, h⟩)

theorem updateHashRef_steps {i b rec : Nat} {info : RecommInfo} (hd : s.disabling = false)
    (h : s.updateHashRef g i info pg fold b rec n = some s') :
    Relation.ReflTransGen (Step g maxNFields pool) s s' := by
  rcases updateHashRef_cases h with rfl | h | ⟨hen, -, part, hp, rfl⟩
  · exact .refl
  · exact dropPageHashIndex_steps hd h
  · exact .single (.insert _ rec hd hen hp)

theorem updateHashOnDelete_steps {i b rec : Nat} (hd : s.disabling = false)
    (h : s.updateHashOnDelete g i pg fold b rec n = some s') :
    Relation.ReflTransGen (Step g maxNFields pool) s s' := by
  rcases updateHashOnDelete_cases h with ⟨rfl, -⟩ | h | ⟨hen, -, r, hr, rfl⟩
  · exact .refl
  · exact dropPageHashIndex_steps hd h
  · exact .single (.erase _ rec hd hen hr)

theorem dropPageHashWhenFreed_steps {b : Option Nat} (hd : s.disabling = false)
    (h : s.dropPageHashWhenFreed g b pg fold n = some s') :
    Relation.ReflTransGen (Step g maxNFields pool) s s' := by
  rcases dropPageHashWhenFreed_cases h with rfl | ⟨_, -, h⟩
  · exact .refl
  · exact dropPageHashIndex_steps hd h

theorem moveOrDeleteHashEntries_steps {newBlock block spare : Nat} {newPg : PageImage}
    (hp : pool.Nodup) (hr : Reachable g maxNFields pool s) (hd : s.disabling = false)
    (hnb : newBlock ∈ pool) (hsp : spare ∉ s.part.owned)
    (h : s.moveOrDeleteHashEntries g maxNFields newBlock block newPg pg fold spare n = some s') :
    Relation.ReflTransGen (Step g maxNFields pool) s s' := by
  rcases moveOrDeleteHashEntries_cases h with rfl | h | ⟨i, hb, hn, hf, h⟩
  · exact .refl
  · exact dropPageHashIndex_steps hd h
  · exact buildPageHashIndex_steps hd h hnb (.inl hn) hf ((hr.refCounts hp).hashed hd hb).1 hsp
      (hr.table hp)

/-- Every entry point, run without interference outside the window of `disable`
under the guarantees of its callers, is a run of latched sections. -/
theorem entry_points_reachable (hp : pool.Nodup) (h : Reachable g maxNFields pool s)
    (hd : s.disabling = false) :
    (∀ b pg fold gc n s', s.dropPageHashIndex g b pg fold gc n = some s' →
      Reachable g maxNFields pool s') ∧
    (∀ i b pg fold nFields nBytes leftSide spare n s', b ∈ pool →
      (s.block b).index = none ∨ (s.block b).index = some i → (s.index i).freed = false →
      i ∉ s.lazyFreed → spare ∉ s.part.owned →
      s.buildPageHashIndex g maxNFields i b pg fold nFields nBytes leftSide spare n = some s' →
      Reachable g maxNFields pool s') ∧
    (∀ i pg fold c spare n s', spare ∉ s.part.owned → s.updateHashOnInsert g i pg fold c spare n = some s' →
      Reachable g maxNFields pool s') ∧
    (∀ i pg fold c spare n s', spare ∉ s.part.owned →
      s.updateHashNodeOnInsert g i pg fold c spare n = some s' → Reachable g maxNFields pool s') ∧
    (∀ i pg fold b rec n s', s.updateHashOnDelete g i pg fold b rec n = some s' →
      Reachable g maxNFields pool s') ∧
    (∀ i info pg fold b rec n s', s.updateHashRef g i info pg fold b rec n = some s' →
      Reachable g maxNFields pool s') ∧
    (∀ newBlock block newPg pg fold spare n s', newBlock ∈ pool → spare ∉ s.part.owned →
      s.moveOrDeleteHashEntries g maxNFields newBlock block newPg pg fold spare n = some s' →
      Reachable g maxNFields pool s') ∧
    (∀ b pg fold n s', s.dropPageHashWhenFreed g b pg fold n = some s' →
      Reachable g maxNFields pool s') :=
  ⟨fun _ _ _ _ _ _ hs => h.run (dropPageHashIndex_steps hd hs),
    fun _ _ _ _ _ _ _ _ _ _ hb hidx hf hi hsp hs =>
      h.run (buildPageHashIndex_steps hd hs hb hidx hf hi hsp (h.table hp)),
    fun _ _ _ _ _ _ _ hsp hs => h.run (updateHashOnInsert_steps hd hsp hs),
    fun _ _ _ _ _ _ _ hsp hs => h.run (updateHashNodeOnInsert_steps hd hsp hs),
    fun _ _ _ _ _ _ _ hs => h.run (updateHashOnDelete_steps hd hs),
    fun _ _ _ _ _ _ _ _ hs => h.run (updateHashRef_steps hd hs),
    fun _ _ _ _ _ _ _ _ hnb hsp hs => h.run (moveOrDeleteHashEntries_steps hp h hd hnb hsp hs),
    fun _ _ _ _ _ hs => h.run (dropPageHashWhenFreed_steps hd hs)⟩

end Calls

theorem entry_points_reachable_built :
    builtAhi.disabling = false ∧
    (∀ b pg fold gc n s', builtAhi.dropPageHashIndex Partition.ahiGeom b pg fold gc n = some s' →
      Reachable Partition.ahiGeom 1023 [5] s') ∧
    (∀ i b pg fold nFields nBytes leftSide spare n s', b ∈ [5] →
      (builtAhi.block b).index = none ∨ (builtAhi.block b).index = some i →
      (builtAhi.index i).freed = false → i ∉ builtAhi.lazyFreed → spare ∉ builtAhi.part.owned →
      builtAhi.buildPageHashIndex Partition.ahiGeom 1023 i b pg fold nFields nBytes leftSide spare n =
        some s' →
      Reachable Partition.ahiGeom 1023 [5] s') ∧
    (∀ i pg fold c spare n s', spare ∉ builtAhi.part.owned →
      builtAhi.updateHashOnInsert Partition.ahiGeom i pg fold c spare n = some s' →
      Reachable Partition.ahiGeom 1023 [5] s') ∧
    (∀ i pg fold c spare n s', spare ∉ builtAhi.part.owned →
      builtAhi.updateHashNodeOnInsert Partition.ahiGeom i pg fold c spare n = some s' →
      Reachable Partition.ahiGeom 1023 [5] s') ∧
    (∀ i pg fold b rec n s', builtAhi.updateHashOnDelete Partition.ahiGeom i pg fold b rec n = some s' →
      Reachable Partition.ahiGeom 1023 [5] s') ∧
    (∀ i info pg fold b rec n s',
      builtAhi.updateHashRef Partition.ahiGeom i info pg fold b rec n = some s' →
      Reachable Partition.ahiGeom 1023 [5] s') ∧
    (∀ newBlock block newPg pg fold spare n s', newBlock ∈ [5] → spare ∉ builtAhi.part.owned →
      builtAhi.moveOrDeleteHashEntries Partition.ahiGeom 1023 newBlock block newPg pg fold spare n =
        some s' →
      Reachable Partition.ahiGeom 1023 [5] s') ∧
    (∀ b pg fold n s', builtAhi.dropPageHashWhenFreed Partition.ahiGeom b pg fold n = some s' →
      Reachable Partition.ahiGeom 1023 [5] s') :=
  ⟨by decide, entry_points_reachable (by decide) builtAhi_reachable (by decide)⟩

/-! ## Runs of entry points -/

/-- The AHI driven by its entry points, each run without interference and under
the guarantees of its callers. `disable` is two calls, and between them only
the dictionary runs. -/
inductive Call (g : Geom) (maxNFields : Nat) (pool : List Nat) : Ahi → Ahi → Prop
  | drop {s s' : Ahi} {b : Nat} {pg : PageImage} {fold : Nat → Nat → Nat → Nat} {gc : Bool} {n : Nat} :
      s.disabling = false → s.dropPageHashIndex g b pg fold gc n = some s' → Call g maxNFields pool s s'
  | build {s s' : Ahi} {i b nFields nBytes : Nat} {leftSide : Bool} {pg : PageImage}
      {fold : Nat → Nat → Nat → Nat} {spare n : Nat} : s.disabling = false →
      b ∈ pool → (s.block b).index = none ∨ (s.block b).index = some i → (s.index i).freed = false →
      i ∉ s.lazyFreed → spare ∉ s.part.owned →
      s.buildPageHashIndex g maxNFields i b pg fold nFields nBytes leftSide spare n = some s' →
      Call g maxNFields pool s s'
  | onInsert {s s' : Ahi} {i : Nat} {pg : PageImage} {fold : Nat → Nat → Nat → Nat} {c : Cursor}
      {spare n : Nat} : s.disabling = false → spare ∉ s.part.owned →
      s.updateHashOnInsert g i pg fold c spare n = some s' → Call g maxNFields pool s s'
  | nodeOnInsert {s s' : Ahi} {i : Nat} {pg : PageImage} {fold : Nat → Nat → Nat → Nat} {c : Cursor}
      {spare n : Nat} : s.disabling = false → spare ∉ s.part.owned →
      s.updateHashNodeOnInsert g i pg fold c spare n = some s' → Call g maxNFields pool s s'
  | onDelete {s s' : Ahi} {i b rec n : Nat} {pg : PageImage} {fold : Nat → Nat → Nat → Nat} :
      s.disabling = false → s.updateHashOnDelete g i pg fold b rec n = some s' → Call g maxNFields pool s s'
  | updateRef {s s' : Ahi} {i b rec n : Nat} {info : RecommInfo} {pg : PageImage}
      {fold : Nat → Nat → Nat → Nat} : s.disabling = false →
      s.updateHashRef g i info pg fold b rec n = some s' → Call g maxNFields pool s s'
  | move {s s' : Ahi} {newBlock block spare n : Nat} {newPg pg : PageImage}
      {fold : Nat → Nat → Nat → Nat} : s.disabling = false → newBlock ∈ pool → spare ∉ s.part.owned →
      s.moveOrDeleteHashEntries g maxNFields newBlock block newPg pg fold spare n = some s' →
      Call g maxNFields pool s s'
  | whenFreed {s s' : Ahi} {b : Option Nat} {pg : PageImage} {fold : Nat → Nat → Nat → Nat} {n : Nat} :
      s.disabling = false → s.dropPageHashWhenFreed g b pg fold n = some s' → Call g maxNFields pool s s'
  | disable {s : Ahi} : s.disabling = false → Call g maxNFields pool s s.disable
  | disableClear {s : Ahi} : s.disabling = true → Call g maxNFields pool s (s.disableClear pool)
  | enable {s : Ahi} (resize changed : Bool) (nCells : Nat) : s.disabling = false → 0 < nCells →
      Call g maxNFields pool s (s.enable resize changed nCells)
  | dictIndexRemove {s : Ahi} (i : Nat) : (s.index i).freed = false → i ∉ s.dictFreed →
      Call g maxNFields pool s (s.dictIndexRemove i)

section Runs

variable {g : Geom} {maxNFields : Nat} {pool : List Nat} {s s' : Ahi}

theorem Call.steps (hp : pool.Nodup) (hr : Reachable g maxNFields pool s) :
    Call g maxNFields pool s s' → Relation.ReflTransGen (Step g maxNFields pool) s s'
  | .drop hd hs => dropPageHashIndex_steps hd hs
  | .build hd hb hidx hf hi hsp hs => buildPageHashIndex_steps hd hs hb hidx hf hi hsp (hr.table hp)
  | .onInsert hd hsp hs => updateHashOnInsert_steps hd hsp hs
  | .nodeOnInsert hd hsp hs => updateHashNodeOnInsert_steps hd hsp hs
  | .onDelete hd hs => updateHashOnDelete_steps hd hs
  | .updateRef hd hs => updateHashRef_steps hd hs
  | .move hd hnb hsp hs => moveOrDeleteHashEntries_steps hp hr hd hnb hsp hs
  | .whenFreed hd hs => dropPageHashWhenFreed_steps hd hs
  | .disable hd => .single (.disable hd)
  | .disableClear hd => .single (.disableClear hd)
  | .enable resize changed nCells hd hn => .single (.enable resize changed nCells hd hn)
  | .dictIndexRemove i hf hi => .single (.dictIndexRemove i hf hi)

/-- Over every sequence of entry-point calls, the window of `disable` included,
the reference counts stay exact and the table stays one the partition reaches. -/
theorem entry_point_runs_keep_table (hp : pool.Nodup) (h₀ : Reachable g maxNFields pool s)
    (hrun : Relation.ReflTransGen (Call g maxNFields pool) s s') :
    RefCounts pool s' ∧ Reachable g maxNFields pool s' ∧
      ∃ acq' ret', TableOk g s' acq' ret' ∧ s'.part.Inv g ∧ (s'.part.owned ++ ret').Perm acq' := by
  have hr : Reachable g maxNFields pool s' := by
    induction hrun with
    | refl => exact h₀
    | tail _ hc ih => exact ih.run (Call.steps hp ih hc)
  obtain ⟨acq', ret', ht⟩ := hr.table hp
  exact ⟨hr.refCounts hp, hr, acq', ret', ht, ht.reachable.inv_ledger⟩

end Runs

def disabledRun : Ahi := (builtAhi.disable.dictIndexRemove 0).disableClear [5]

theorem entry_point_runs_keep_table_through_disable :
    Relation.ReflTransGen (Call Partition.ahiGeom 1023 [5]) freshAhi disabledRun ∧
    RefCounts [5] disabledRun ∧ Reachable Partition.ahiGeom 1023 [5] disabledRun ∧
      ∃ acq' ret', TableOk Partition.ahiGeom disabledRun acq' ret' ∧ disabledRun.part.Inv Partition.ahiGeom ∧
        (disabledRun.part.owned ++ ret').Perm acq' := by
  have hrun : Relation.ReflTransGen (Call Partition.ahiGeom 1023 [5]) freshAhi disabledRun :=
    .tail (.tail (.tail (.single (.build rfl (by decide) (.inl rfl) rfl (List.not_mem_nil _) (by decide)
      builtAhi_eq)) (.disable (by decide))) (.dictIndexRemove 0 (by decide) (by decide)))
      (.disableClear (by decide))
  exact ⟨hrun, entry_point_runs_keep_table (by decide) freshAhi_reachable hrun⟩

end Ahi

end Innobase
