import Innobase.Callbacks

/-!
# When a page is hashed

`btr_search_update_block_hash_info` counts the descents that agree with the
recommended prefix (`n_hash_helps`) and asks for a build once enough of them do.
-/

namespace Innobase

def btrSearchPageBuildLimit : Nat := 16

namespace BlockHelp

def Agrees (h : BlockHelp) (info : RecommInfo) : Prop :=
  0 < h.nHashHelps ∧ 0 < info.nHashPotential ∧ h.nFields = info.nFields ∧ h.nBytes = info.nBytes ∧
    h.leftSide = info.leftSide

instance (h : BlockHelp) (info : RecommInfo) : Decidable (h.Agrees info) :=
  inferInstanceAs (Decidable (_ ∧ _))

/-- One more descent for the same recommendation, or a restart at one for another. -/
def count (h : BlockHelp) (info : RecommInfo) : BlockHelp :=
  if h.Agrees info then { h with nHashHelps := h.nHashHelps + 1 }
  else ⟨1, info.nFields, info.nBytes, info.leftSide⟩

end BlockHelp

def updateBlockHashInfo (info : RecommInfo) (blk : BlockAhi) (h : BlockHelp) (nRecs : Nat) :
    Bool × Bool × BlockHelp :=
  let succ := decide (h.Agrees info) && blk.index.isSome && blk.currNFields == info.nFields &&
    blk.currNBytes == info.nBytes && blk.currLeftSide == info.leftSide
  let h := h.count info
  (decide (nRecs / btrSearchPageBuildLimit < h.nHashHelps) &&
      decide (btrSearchBuildLimit ≤ info.nHashPotential) &&
      (blk.index.isNone || decide (2 * nRecs < h.nHashHelps) || h.nFields != blk.currNFields ||
        h.nBytes != blk.currNBytes || h.leftSide != blk.currLeftSide),
    succ, h)

def blockHelpRun (h : BlockHelp) (ds : List (RecommInfo × BlockAhi × Nat)) : BlockHelp :=
  ds.foldl (fun h d => (updateBlockHashInfo d.1 d.2.1 h d.2.2).2.2) h

/-! ## The count -/

namespace BlockHelp

theorem count_of_agrees {h : BlockHelp} {info : RecommInfo} (ha : h.Agrees info) :
    h.count info = { h with nHashHelps := h.nHashHelps + 1 } := if_pos ha

theorem count_of_not_agrees {h : BlockHelp} {info : RecommInfo} (ha : ¬h.Agrees info) :
    h.count info = ⟨1, info.nFields, info.nBytes, info.leftSide⟩ := if_neg ha

theorem count_prefix (h : BlockHelp) (info : RecommInfo) :
    (h.count info).nFields = info.nFields ∧ (h.count info).nBytes = info.nBytes ∧
      (h.count info).leftSide = info.leftSide := by
  by_cases ha : h.Agrees info
  · rw [count_of_agrees ha]; exact ha.2.2
  · rw [count_of_not_agrees ha]; exact ⟨rfl, rfl, rfl⟩

theorem count_foldl (h₀ : BlockHelp) (l : List RecommInfo) :
    (l.foldl count h₀ = { h₀ with nHashHelps := h₀.nHashHelps + l.length } ∧
      (l ≠ [] → 0 < h₀.nHashHelps) ∧
      ∀ y ∈ l, 0 < y.nHashPotential ∧ y.nFields = h₀.nFields ∧ y.nBytes = h₀.nBytes ∧
        y.leftSide = h₀.leftSide) ∨
    ∃ pre x post, l = pre ++ x :: post ∧
      l.foldl count h₀ = ⟨post.length + 1, x.nFields, x.nBytes, x.leftSide⟩ ∧
      ∀ y ∈ post, 0 < y.nHashPotential ∧ y.nFields = x.nFields ∧ y.nBytes = x.nBytes ∧
        y.leftSide = x.leftSide := by
  induction l using List.reverseRecOn with
  | nil => exact .inl ⟨rfl, fun h => absurd rfl h, by simp⟩
  | append_singleton l y ih =>
    rw [List.foldl_append, List.foldl_cons, List.foldl_nil]
    by_cases ha : (l.foldl count h₀).Agrees y
    · obtain ⟨hpos, hpot, hf, hb, hl⟩ := ha
      rw [count_of_agrees ⟨hpos, hpot, hf, hb, hl⟩]
      -- the agreeing descent extends whichever run was counting
      have hy : ∀ z ∈ [y], 0 < z.nHashPotential ∧ (l.foldl count h₀).nFields = z.nFields ∧
          (l.foldl count h₀).nBytes = z.nBytes ∧ (l.foldl count h₀).leftSide = z.leftSide := by
        simpa using ⟨hpot, hf, hb, hl⟩
      rcases ih with ⟨e, hne, hall⟩ | ⟨pre, x, post, rfl, e, hall⟩
      · rw [e] at hpos hy ⊢
        refine .inl ⟨by simp [Nat.add_assoc], fun _ => ?_, fun z hz => ?_⟩
        · by_cases hl' : l = []
          · simpa [hl'] using hpos
          · exact hne hl'
        · rcases List.mem_append.1 hz with hz | hz
          · exact hall z hz
          · obtain ⟨h₁, h₂, h₃, h₄⟩ := hy z hz
            exact ⟨h₁, h₂.symm, h₃.symm, h₄.symm⟩
      · rw [e] at hy ⊢
        refine .inr ⟨pre, x, post ++ [y], by simp, by simp, fun z hz => ?_⟩
        rcases List.mem_append.1 hz with hz | hz
        · exact hall z hz
        · obtain ⟨h₁, h₂, h₃, h₄⟩ := hy z hz
          exact ⟨h₁, h₂.symm, h₃.symm, h₄.symm⟩
    · rw [count_of_not_agrees ha]
      exact .inr ⟨l, y, [], by simp, rfl, by simp⟩

end BlockHelp

@[simp] theorem updateBlockHashInfo_helps (info : RecommInfo) (blk : BlockAhi) (h : BlockHelp)
    (nRecs : Nat) : (updateBlockHashInfo info blk h nRecs).2.2 = h.count info := rfl

theorem updateBlockHashInfo_build_iff {info : RecommInfo} {blk : BlockAhi} {h : BlockHelp}
    {nRecs : Nat} :
    (updateBlockHashInfo info blk h nRecs).1 = true ↔
      nRecs / btrSearchPageBuildLimit < (h.count info).nHashHelps ∧
        btrSearchBuildLimit ≤ info.nHashPotential ∧
        (blk.index = none ∨ 2 * nRecs < (h.count info).nHashHelps ∨ info.nFields ≠ blk.currNFields ∨
          info.nBytes ≠ blk.currNBytes ∨ info.leftSide ≠ blk.currLeftSide) := by
  obtain ⟨hf, hb, hl⟩ := BlockHelp.count_prefix h info
  simp only [updateBlockHashInfo, hf, hb, hl, Bool.and_eq_true, Bool.or_eq_true, decide_eq_true_eq,
    Option.isNone_iff_eq_none, bne_iff_ne, ne_eq, and_assoc, or_assoc]

theorem blockHelpRun_eq (h : BlockHelp) (ds : List (RecommInfo × BlockAhi × Nat)) :
    blockHelpRun h ds = (ds.map (·.1)).foldl BlockHelp.count h := by
  rw [blockHelpRun, List.foldl_map]
  rfl

/-! ## When a build is asked for -/

/-- A build is asked for only after more than `n_recs / 16` agreeing descents since the last zeroing. -/
theorem update_block_hash_info_build_after_agreeing_descents {h₀ : BlockHelp}
    (h0 : h₀.nHashHelps = 0) (ds : List (RecommInfo × BlockAhi × Nat)) {info : RecommInfo}
    {blk : BlockAhi} {nRecs : Nat}
    (hb : (updateBlockHashInfo info blk (blockHelpRun h₀ ds) nRecs).1 = true) :
    btrSearchBuildLimit ≤ info.nHashPotential ∧
    ∃ pre x post, ds.map (·.1) ++ [info] = pre ++ x :: post ∧
      (updateBlockHashInfo info blk (blockHelpRun h₀ ds) nRecs).2.2 =
        ⟨post.length + 1, info.nFields, info.nBytes, info.leftSide⟩ ∧
      nRecs / btrSearchPageBuildLimit < post.length + 1 ∧
      (∀ y ∈ x :: post, y.nFields = info.nFields ∧ y.nBytes = info.nBytes ∧ y.leftSide = info.leftSide) ∧
      (∀ y ∈ post, 0 < y.nHashPotential) ∧
      (blk.index.isSome → blk.currNFields = info.nFields → blk.currNBytes = info.nBytes →
        blk.currLeftSide = info.leftSide → 2 * nRecs < post.length + 1) := by
  -- the count was zeroed, so some descent restarted it
  obtain ⟨pre, x, post, hl, e, hall⟩ : ∃ pre x post, ds.map (·.1) ++ [info] = pre ++ x :: post ∧
      (blockHelpRun h₀ ds).count info = ⟨post.length + 1, x.nFields, x.nBytes, x.leftSide⟩ ∧
      ∀ y ∈ post, 0 < y.nHashPotential ∧ y.nFields = x.nFields ∧ y.nBytes = x.nBytes ∧
        y.leftSide = x.leftSide := by
    have hrun : (blockHelpRun h₀ ds).count info = (ds.map (·.1) ++ [info]).foldl BlockHelp.count h₀ := by
      rw [blockHelpRun_eq, List.foldl_append, List.foldl_cons, List.foldl_nil]
    rw [hrun]
    rcases BlockHelp.count_foldl h₀ (ds.map (·.1) ++ [info]) with ⟨-, hne, -⟩ | h
    · exact absurd (hne (by simp)) (by omega)
    · exact h
  -- the block counts for the last recommendation, so `x` is of its prefix
  obtain ⟨hxf, hxb, hxl⟩ : x.nFields = info.nFields ∧ x.nBytes = info.nBytes ∧
      x.leftSide = info.leftSide := by
    simpa only [e] using BlockHelp.count_prefix (blockHelpRun h₀ ds) info
  rw [updateBlockHashInfo_build_iff, e] at hb
  obtain ⟨hn, hp, hc⟩ := hb
  refine ⟨hp, pre, x, post, hl, by rw [updateBlockHashInfo_helps, e, hxf, hxb, hxl], hn,
    fun y hy => ?_, fun y hy => (hall y hy).1, fun hi hf hb' hl' => ?_⟩
  · rcases List.mem_cons.1 hy with rfl | hy
    · exact ⟨hxf, hxb, hxl⟩
    · obtain ⟨-, h₁, h₂, h₃⟩ := hall y hy
      exact ⟨h₁.trans hxf, h₂.trans hxb, h₃.trans hxl⟩
  · rcases hc with hc | hc | hc | hc | hc
    · simp [hc] at hi
    · exact hc
    · exact absurd hf.symm hc
    · exact absurd hb'.symm hc
    · exact absurd hl'.symm hc

def agreeingDescents : List (RecommInfo × BlockAhi × Nat) :=
  [(⟨0, 100, 1, 0, true⟩, ⟨none, 0, 0, false⟩, 40), (⟨0, 100, 1, 0, true⟩, ⟨none, 0, 0, false⟩, 40)]

theorem update_block_hash_info_build_after_agreeing_descents_third :
    (updateBlockHashInfo ⟨0, 100, 1, 0, true⟩ ⟨none, 0, 0, false⟩
        (blockHelpRun ⟨0, 0, 0, false⟩ agreeingDescents) 40).2.2.nHashHelps = 3 ∧
    btrSearchBuildLimit ≤ 100 ∧
    ∃ pre x post, agreeingDescents.map (·.1) ++ [⟨0, 100, 1, 0, true⟩] = pre ++ x :: post ∧
      (updateBlockHashInfo ⟨0, 100, 1, 0, true⟩ ⟨none, 0, 0, false⟩
        (blockHelpRun ⟨0, 0, 0, false⟩ agreeingDescents) 40).2.2 = ⟨post.length + 1, 1, 0, true⟩ ∧
      40 / btrSearchPageBuildLimit < post.length + 1 ∧
      (∀ y ∈ x :: post, y.nFields = 1 ∧ y.nBytes = 0 ∧ y.leftSide = true) ∧
      (∀ y ∈ post, 0 < y.nHashPotential) ∧
      ((none : Option Nat).isSome → 0 = 1 → 0 = 0 → false = true → 2 * 40 < post.length + 1) :=
  ⟨by decide, @update_block_hash_info_build_after_agreeing_descents _ rfl agreeingDescents ⟨0, 100, 1, 0, true⟩
    ⟨none, 0, 0, false⟩ 40 (by decide)⟩

/-! ## `search_info_update` -/

namespace Ahi

section SearchInfoUpdate

variable (g : Geom) (maxNFields : Nat)

/-- `btr_cur_t::search_info_update()`; `spare`, `spare'` are the blocks
`buf_block_alloc` hands to the two `prepare_insert` calls. -/
def searchInfoUpdate (s : Ahi) (infos : Nat → RecommInfo) (isIbuf : Bool) (nUnique : UInt16)
    (c : CursorMatch) (hashFail : Bool) (i b : Nat) (pg : PageImage) (fold : Nat → Nat → Nat → Nat)
    (h : BlockHelp) (rec spare spare' n : Nat) :
    Option (Ahi × (Nat → RecommInfo) × Bool × BlockHelp) :=
  let infos := Function.update infos i (infoUpdateHash isIbuf nUnique (infos i) c)
  let r := updateBlockHashInfo (infos i) (s.block b) h pg.nRecs
  let s := if r.1 || hashFail then { s with part := (s.part.prepareInsert s.enabled spare).1 } else s
  do
  let s ← (if hashFail then s.updateHashRef g i (infos ((s.block b).index.getD i)) pg fold b rec n
    else pure s)
  let s ← (if r.1 then
      s.buildPageHashIndex g maxNFields i b pg fold r.2.2.nFields r.2.2.nBytes r.2.2.leftSide spare' n
    else pure s)
  pure (s, infos, r.2.1, r.2.2)

end SearchInfoUpdate

variable {g : Geom} {maxNFields : Nat} {pool : List Nat} {s s' : Ahi} {acq ret : List Nat}
  {infos : Nat → RecommInfo} {isIbuf : Bool} {nUnique : UInt16} {c : CursorMatch} {hashFail : Bool}
  {i b : Nat} {pg : PageImage} {fold : Nat → Nat → Nat → Nat} {h : BlockHelp} {rec spare spare' n : Nat}

theorem searchInfoUpdate_cases {r : (Nat → RecommInfo) × Bool × BlockHelp}
    (hs : s.searchInfoUpdate g maxNFields infos isIbuf nUnique c hashFail i b pg fold h rec spare spare' n =
      some (s', r)) :
    ∃ s₁ s₂, (s₁ = s ∨ s₁ = { s with part := (s.part.prepareInsert s.enabled spare).1 }) ∧
      (s₂ = s₁ ∨ ∃ info, s₁.updateHashRef g i info pg fold b rec n = some s₂) ∧
      (s' = s₂ ∨ ∃ nFields nBytes leftSide,
        s₂.buildPageHashIndex g maxNFields i b pg fold nFields nBytes leftSide spare' n = some s') := by
  unfold searchInfoUpdate at hs
  dsimp only at hs
  generalize updateBlockHashInfo (Function.update infos i (infoUpdateHash isIbuf nUnique (infos i) c) i)
    (s.block b) h pg.nRecs = u at hs
  generalize e₁ : (if (u.1 || hashFail) = true then { s with part := (s.part.prepareInsert s.enabled spare).1 }
    else s) = s₁ at hs
  obtain ⟨s₂, h₂, hs⟩ := Option.bind_eq_some.1 hs
  obtain ⟨s₃, h₃, hs⟩ := Option.bind_eq_some.1 hs
  obtain rfl : s₃ = s' := congrArg Prod.fst (Option.some_inj.1 hs)
  refine ⟨s₁, s₂, by rw [← e₁]; exact (ite_eq_or_eq _ _ _).symm, ?_, ?_⟩
  · by_cases hf : hashFail = true
    · rw [if_pos hf] at h₂; exact .inr ⟨_, h₂⟩
    · rw [if_neg hf] at h₂; exact .inl (Option.some_inj.1 h₂).symm
  · by_cases hr : u.1 = true
    · rw [if_pos hr] at h₃; exact .inr ⟨_, _, _, h₃⟩
    · rw [if_neg hr] at h₃; exact .inl (Option.some_inj.1 h₃).symm

theorem search_info_update_keeps_counts_and_table {r : (Nat → RecommInfo) × Bool × BlockHelp}
    (hp : pool.Nodup) (h₀ : Reachable g maxNFields pool s) (ht : TableOk g s acq ret) (hb : b ∈ pool)
    (hidx : (s.block b).index = none ∨ (s.block b).index = some i) (hf : (s.index i).freed = false)
    (hi : i ∉ s.lazyFreed) (hsp : spare ∉ s.part.owned) (hsp' : spare' ∉ s.part.owned)
    (hne : spare' ≠ spare)
    (hs : s.searchInfoUpdate g maxNFields infos isIbuf nUnique c hashFail i b pg fold h rec spare spare' n =
      some (s', r)) :
    RefCounts pool s' ∧ Reachable g maxNFields pool s' ∧ ∃ acq' ret', TableOk g s' acq' ret' := by
  obtain ⟨s₁, s₂, h₁, h₂, h₃⟩ := searchInfoUpdate_cases hs
  -- `prepare_insert` changes only the table, and takes at most `spare`
  obtain ⟨new, freed, ht₁, hnew, hrun₁, hs₁⟩ : ∃ new freed, TableOk g s₁ (acq ++ new) (ret ++ freed) ∧
      spare' ∉ new ∧ Relation.ReflTransGen (Step g maxNFields pool) s s₁ ∧
      s₁.block = s.block ∧ s₁.index = s.index ∧ s₁.lazyFreed = s.lazyFreed := by
    rcases h₁ with rfl | rfl
    · exact ⟨[], [], by simpa using ht, List.not_mem_nil _, .refl, rfl, rfl, rfl⟩
    · exact ⟨[spare], _, ht.prepareInsert hsp, by simpa using hne, .single (.prepare spare hsp), rfl, rfl, rfl⟩
  have hI₁ := (h₀.run hrun₁).refCounts hp
  -- the reference update on such a block inserts, on an enabled AHI, or does nothing
  obtain ⟨ht₂, hrun₂, eb, ei, el⟩ : TableOk g s₂ (acq ++ new) (ret ++ freed) ∧
      Relation.ReflTransGen (Step g maxNFields pool) s₁ s₂ ∧
      s₂.block = s.block ∧ s₂.index = s.index ∧ s₂.lazyFreed = s.lazyFreed := by
    rcases h₂ with rfl | ⟨info, h₂⟩
    · exact ⟨ht₁, .refl, hs₁⟩
    rcases updateHashRef_of_index (by rw [hs₁.1]; exact hidx) h₂ with rfl | ⟨hen, f, part, hpart, rfl⟩
    · exact ⟨ht₁, .refl, hs₁⟩
    · exact ⟨ht₁.insert_part hen hpart, .single (.insert f rec (hI₁.disabling_of_enabled hen) hen hpart), hs₁⟩
  have hr₂ := (h₀.run hrun₁).run hrun₂
  have hsp₂ : spare' ∉ s₂.part.owned := fun hm => (ht.mem_owned_of_take ht₂ hm).elim hsp' hnew
  -- build runs its sections on an enabled AHI and returns at once on a disabled one
  have hrun₃ : Relation.ReflTransGen (Step g maxNFields pool) s₂ s' := by
    rcases h₃ with rfl | ⟨_, _, _, h₃⟩
    · exact .refl
    cases hen : s₂.enabled
    · rw [buildPageHashIndex, if_pos (by simp [hen])] at h₃
      cases h₃
      exact .refl
    · exact buildPageHashIndex_steps ((hr₂.refCounts hp).disabling_of_enabled hen) h₃ hb
        (by rw [eb]; exact hidx) (by rw [ei]; exact hf) (by rw [el]; exact hi) hsp₂ ⟨_, _, ht₂⟩
  have hr := hr₂.run hrun₃
  exact ⟨hr.refCounts hp, hr, hr.table hp⟩

theorem search_info_update_keeps_counts_and_table_fresh_build :
    ∃ s' r, freshAhi.searchInfoUpdate Partition.ahiGeom 1023 (fun _ => ⟨0, 99, 1, 0, true⟩) false 1
        ⟨1, 0, 0, 0⟩ false 0 5 PageImage.threeRecordPage (fun _ _ r => r / 20) ⟨0, 0, 0, false⟩ 0 100 101 3 =
        some (s', r) ∧
      RefCounts [5] s' ∧ Reachable Partition.ahiGeom 1023 [5] s' ∧
      ∃ acq' ret', TableOk Partition.ahiGeom s' acq' ret' := by
  obtain ⟨s', r, e⟩ : ∃ s' r, freshAhi.searchInfoUpdate Partition.ahiGeom 1023 (fun _ => ⟨0, 99, 1, 0, true⟩)
      false 1 ⟨1, 0, 0, 0⟩ false 0 5 PageImage.threeRecordPage (fun _ _ r => r / 20) ⟨0, 0, 0, false⟩ 0 100 101 3 =
      some (s', r) := ⟨_, _, rfl⟩
  exact ⟨s', r, e, search_info_update_keeps_counts_and_table (by decide) freshAhi_reachable
    (⟨.alloc 4 .init rfl, fun _ => by decide⟩ : TableOk Partition.ahiGeom freshAhi [] [])
    (by decide) (.inl rfl) rfl (List.not_mem_nil _) (by decide) (by decide) (by decide) e⟩

end Ahi

end Innobase
