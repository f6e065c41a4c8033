import Innobase.SysTablespace

/-!
# The items of a tablespace specification, and the two passes

Whenever pass 1 accepts a spec, pass 2 reads the same items (`readItems`), never
fails, and appends their `Datafile`s (`parse_params_passes_agree`).
-/

namespace Innobase

namespace SysTablespace

/-! ## Items -/

structure Item where
  path : List Char
  size : Nat
  autoextend : Bool
  max : Option Nat
  new : Bool
  raw : Bool
  deriving DecidableEq, Repr

def readItem (s : List Char) : Item × List Char :=
  let str := (s.drop (pathLen s)).drop 1
  let a := readAutoextend (str.drop (parseUnits str).2)
  let r := readRaw a.rest
  (⟨s.take (pathLen s), (parseUnits str).1, a.autoextend, a.max, r.new, r.raw⟩, r.rest)

theorem readItem_parts (s : List Char) : ∃ str a r, str = (s.drop (pathLen s)).drop 1 ∧
    a = readAutoextend (str.drop (parseUnits str).2) ∧ r = readRaw a.rest ∧
    readItem s = (⟨s.take (pathLen s), (parseUnits str).1, a.autoextend, a.max, r.new, r.raw⟩,
      r.rest) :=
  ⟨_, _, _, rfl, rfl, rfl, rfl⟩

theorem readItem_max_of_not {s : List Char} (h : (readItem s).1.autoextend = false) :
    (readItem s).1.max = none := by
  obtain ⟨str, au, ra, -, hau, -, hi⟩ := readItem_parts s
  rw [hi] at h ⊢
  dsimp only at h ⊢
  rw [hau] at h ⊢
  exact readAutoextend_max h

theorem length_skipSep_readItem_lt {s : List Char} (hs : deref s ≠ nul) :
    (skipSep (readItem s).2).length < s.length := by
  obtain ⟨str, au, ra, hstr, hau, hra, hi⟩ := readItem_parts s
  have h : skipSep ra.rest <:+ str := by
    rw [hra, hau]
    exact (skipSep_suffix _).trans ((readRaw_suffix _).trans
      ((readAutoextend_suffix _).trans (List.drop_suffix _ str)))
  have hs' : 0 < s.length := List.length_pos.2 (by rintro rfl; exact hs rfl)
  have := h.length_le
  rw [hstr, List.length_drop, List.length_drop] at this
  rw [hi]
  dsimp only
  omega

/-- The checks pass 1 makes on the item at `s`. -/
structure Accepted (supportsRaw : Bool) (s : List Char) : Prop where
  delimited : deref (s.drop (pathLen s)) = ':'
  autoextendLast : (readItem s).1.autoextend →
    (readItem s).1.new = false ∧ (readItem s).1.raw = false ∧ deref (readItem s).2 = nul
  rawSupported : (readItem s).1.new || (readItem s).1.raw → supportsRaw
  sizeNonzero : (readItem s).1.max.getD (readItem s).1.size ≠ 0
  separated : deref (readItem s).2 = ';' ∨ deref (readItem s).2 = nul

def readItems : Nat → List Char → List Item
  | 0, _ => []
  | fuel + 1, s =>
    if deref s = nul then [] else (readItem s).1 :: readItems fuel (skipSep (readItem s).2)

def itemsOf (s : List Char) : List Item := readItems (s.length + 1) s

theorem readItems_of_nul {fuel : Nat} {s : List Char} (h : deref s = nul) : readItems fuel s = [] := by
  cases fuel <;> simp [readItems, h]

/-! ## What pass 2 does with an item -/

def Item.datafile (flags : Nat) (bootstrap : Bool) (order : Nat) (it : Item) : Datafile :=
  ⟨flags, it.size % 2 ^ 32, order, it.path,
    if it.new || it.raw then (if bootstrap then .newRaw else .oldRaw) else .notRaw⟩

def addItem (t : SysTablespace) (bootstrap : Bool) (order : Nat) (it : Item) : SysTablespace :=
  { t with
    mFiles := t.mFiles ++ [it.datafile t.flags bootstrap order]
    mAutoExtendLastFile := t.mAutoExtendLastFile || it.autoextend
    mLastFileSizeMax := it.max.getD t.mLastFileSizeMax }

def addItems (t : SysTablespace) (bootstrap : Bool) : Nat → List Item → SysTablespace
  | _, [] => t
  | order, it :: its => (t.addItem bootstrap order it).addItems bootstrap (order + 1) its

theorem addItems_flags (bootstrap : Bool) : ∀ (t : SysTablespace) (order : Nat) (its : List Item),
    (t.addItems bootstrap order its).flags = t.flags
  | _, _, [] => rfl
  | t, order, it :: its => addItems_flags bootstrap (t.addItem bootstrap order it) (order + 1) its

theorem addItems_mFiles (bootstrap : Bool) : ∀ (t : SysTablespace) (order : Nat) (its : List Item),
    (t.addItems bootstrap order its).mFiles =
      t.mFiles ++ its.mapIdx fun k it => it.datafile t.flags bootstrap (order + k)
  | _, _, [] => by simp [addItems]
  | t, order, it :: its => by
    rw [addItems, addItems_mFiles, List.mapIdx_cons]
    simp [addItem, Nat.add_assoc, Nat.add_comm 1]

theorem addItems_last (bootstrap : Bool) : ∀ (t : SysTablespace) (order : Nat) (its : List Item),
    (∀ it ∈ its.dropLast, it.autoextend = false ∧ it.max = none) →
    (t.addItems bootstrap order its).mAutoExtendLastFile =
        (t.mAutoExtendLastFile || its.getLast?.any (·.autoextend)) ∧
      (t.addItems bootstrap order its).mLastFileSizeMax =
        (its.getLast?.bind (·.max)).getD t.mLastFileSizeMax
  | _, _, [], _ => by simp [addItems]
  | t, order, [it], _ => by simp [addItems, addItem]
  | t, order, it :: b :: l, h => by
    obtain ⟨hae, hmax⟩ := h it (by simp)
    have := addItems_last bootstrap (t.addItem bootstrap order it) (order + 1) (b :: l)
      (fun x hx => h x (by simp [List.dropLast_cons₂, hx]))
    simpa [addItems, addItem, hae, hmax] using this

theorem addItems_eq {bootstrap : Bool} {t : SysTablespace} {its : List Item}
    (h : ∀ it ∈ its.dropLast, it.autoextend = false ∧ it.max = none) :
    t.addItems bootstrap 0 its = { t with
      mFiles := t.mFiles ++ its.mapIdx fun k it => it.datafile t.flags bootstrap k
      mAutoExtendLastFile := t.mAutoExtendLastFile || its.getLast?.any (·.autoextend)
      mLastFileSizeMax := (its.getLast?.bind (·.max)).getD t.mLastFileSizeMax } := by
  have hf := addItems_flags bootstrap t 0 its
  have hm := addItems_mFiles bootstrap t 0 its
  obtain ⟨ha, hx⟩ := addItems_last bootstrap t 0 its h
  simp only [Nat.zero_add] at hm
  generalize t.addItems bootstrap 0 its = t' at hf hm ha hx ⊢
  cases t'
  subst hf hm ha hx
  rfl

/-! ## The two passes on one item -/

section
variable {supportsRaw : Bool}

theorem pass1Item_ok {s r : List Char} (h : pass1Item supportsRaw s = .ok r) :
    Accepted supportsRaw s ∧ r = skipSep (readItem s).2 := by
  obtain ⟨str, au, ra, hstr, hau, hra, hi⟩ := readItem_parts s
  simp only [pass1Item] at h
  rw [← hstr, ← hau, ← hra] at h
  -- every check that returns an error is passed
  by_cases h1 : deref (s.drop (pathLen s)) = nul
  · rw [if_pos h1] at h; cases h
  by_cases h2 : au.autoextend ∧ deref au.rest ≠ nul
  · rw [if_neg h1, if_pos h2] at h; cases h
  by_cases h3 : (ra.new || ra.raw) ∧ supportsRaw = false
  · rw [if_neg h1, if_neg h2, if_pos h3] at h; cases h
  by_cases h4 : au.max.getD (parseUnits str).1 = 0
  · rw [if_neg h1, if_neg h2, if_neg h3, if_pos h4] at h; cases h
  rw [if_neg h1, if_neg h2, if_neg h3, if_neg h4] at h
  -- and the item ends at a `';'` or at the end
  have hsep : (deref ra.rest = ';' ∨ deref ra.rest = nul) ∧ r = skipSep ra.rest := by
    by_cases h5 : deref ra.rest = ';'
    · rw [if_pos h5, Except.ok.injEq] at h
      exact ⟨.inl h5, by rw [← h, skipSep, if_pos h5]⟩
    by_cases h6 : deref ra.rest = nul
    · rw [if_neg h5, if_neg (not_not.2 h6), Except.ok.injEq] at h
      exact ⟨.inr h6, by rw [← h, skipSep, if_neg h5]⟩
    rw [if_neg h5, if_pos h6] at h; cases h
  refine ⟨⟨(pathLen_stop s).resolve_left h1, ?_, ?_, ?_, ?_⟩, ?_⟩ <;> rw [hi] <;> dsimp only
  · intro hae
    have hn := not_not.mp (not_and.mp h2 hae)
    simp only [hra, readRaw_of_nul hn, hn, and_self]
  · simpa using h3
  · exact h4
  · exact hsep.1
  · exact hsep.2

theorem pass2Item_of_accepted {bootstrap : Bool} {order : Nat} {t : SysTablespace} {s : List Char}
    (h : Accepted supportsRaw s) :
    pass2Item supportsRaw bootstrap order t s =
      some (.ok (t.addItem bootstrap order (readItem s).1, skipSep (readItem s).2)) := by
  have hae := h.autoextendLast
  have hraw := h.rawSupported
  unfold pass2Item
  rw [terminatePath_of_delimited h.delimited]
  dsimp only
  obtain ⟨str, au, ra, hstr, hau, hra, hi⟩ := readItem_parts s
  rw [← hstr, ← hau, ← hra]
  rw [hi] at hae hraw ⊢
  dsimp only at hae hraw ⊢
  have hc₁ : ¬(au.autoextend ∧ deref au.rest ≠ nul) := fun ⟨h₁, h₂⟩ => by
    obtain ⟨hn, hr, hnul⟩ := hae h₁
    rw [hra] at hn hr hnul
    exact h₂ (readRaw_rest hn hr ▸ hnul)
  have hc₂ : ¬((ra.new || ra.raw) ∧ supportsRaw = false) := by simpa using hraw
  rw [if_neg hc₁, if_neg hc₂]
  simp only [addItem, Item.datafile]

/-! ## The two passes over a spec -/

theorem pass1Loop_isSome : ∀ {fuel nFiles : Nat} {s : List Char},
    s.length < fuel → (pass1Loop supportsRaw fuel nFiles s).isSome
  | 0, _, _, h => absurd h (Nat.not_lt_zero _)
  | fuel + 1, nFiles, s, h => by
    rw [pass1Loop]
    by_cases hs : deref s = nul
    · rw [if_pos hs]; rfl
    · rw [if_neg hs]
      rcases hr : pass1Item supportsRaw s with e | r
      · rfl
      · obtain ⟨-, hrr⟩ := pass1Item_ok hr
        dsimp only
        rw [hrr]
        exact pass1Loop_isSome (by have := length_skipSep_readItem_lt hs; omega)

theorem pass2Loop_of_pass1Loop (bootstrap : Bool) :
    ∀ (order : Nat) (t : SysTablespace) {fuel nFiles n : Nat} {s : List Char},
    pass1Loop supportsRaw fuel nFiles s = some (.ok n) →
    n = nFiles + (readItems fuel s).length ∧
    pass2Loop supportsRaw bootstrap fuel order t s =
      some (.ok (t.addItems bootstrap order (readItems fuel s))) ∧
    ∀ it ∈ (readItems fuel s).dropLast, it.autoextend = false ∧ it.max = none
  | _, _, 0, _, _, _, h => by simp [pass1Loop] at h
  | order, t, fuel + 1, nFiles, n, s, h => by
    rw [pass1Loop] at h
    by_cases hs : deref s = nul
    · rw [if_pos hs] at h
      have hn : n = nFiles := by
        split_ifs at h
        · cases h
        · cases h; rfl
      rw [readItems, if_pos hs, pass2Loop, if_pos hs]
      exact ⟨by simp [hn], rfl, by simp⟩
    · rw [if_neg hs] at h
      rcases hr : pass1Item supportsRaw s with e | r <;> rw [hr] at h <;> dsimp only at h
      · simp at h
      · obtain ⟨hacc, hrr⟩ := pass1Item_ok hr
        rw [hrr] at h
        obtain ⟨hn, h2, hlast⟩ :=
          pass2Loop_of_pass1Loop bootstrap (order + 1) (t.addItem bootstrap order (readItem s).1) h
        rw [readItems, if_neg hs, pass2Loop, if_neg hs, pass2Item_of_accepted hacc]
        refine ⟨by simp only [hn, List.length_cons]; omega, h2, fun it hit => ?_⟩
        by_cases hae : (readItem s).1.autoextend
        · have hnul := (hacc.autoextendLast hae).2.2
          rw [skipSep_of_nul hnul, readItems_of_nul hnul] at hit
          simp at hit
        · cases hl : readItems fuel (skipSep (readItem s).2) with
          | nil => simp [hl] at hit
          | cons b l =>
            rw [hl, List.dropLast_cons₂] at hit
            rcases List.mem_cons.1 hit with rfl | hit
            · have hae : (readItem s).1.autoextend = false := by simpa using hae
              exact ⟨hae, readItem_max_of_not hae⟩
            · exact hlast it (hl ▸ hit)

end

/-- Where pass 1 accepts `n` items, pass 2 reads the same `n` and appends one `Datafile` each. -/
theorem parse_params_passes_agree (t : SysTablespace) (filepathSpec : List Char)
    (supportsRaw bootstrap : Bool) :
    ∃ r, pass1 supportsRaw (memStrdup filepathSpec) = some r ∧
      match r with
      | .error e => parseParams t filepathSpec supportsRaw bootstrap = some (.error (e, t))
      | .ok n => n = (itemsOf (memStrdup filepathSpec)).length ∧
        parseParams t filepathSpec supportsRaw bootstrap = some (.ok { t with
          mFiles := t.mFiles ++ (itemsOf (memStrdup filepathSpec)).mapIdx fun k it =>
            it.datafile t.flags bootstrap k
          mAutoExtendLastFile :=
            t.mAutoExtendLastFile || (itemsOf (memStrdup filepathSpec)).getLast?.any (·.autoextend)
          mLastFileSizeMax :=
            ((itemsOf (memStrdup filepathSpec)).getLast?.bind (·.max)).getD t.mLastFileSizeMax }) := by
  have h1 : (pass1 supportsRaw (memStrdup filepathSpec)).isSome := pass1Loop_isSome (Nat.lt_succ_self _)
  obtain ⟨r, hr⟩ := Option.isSome_iff_exists.1 h1
  refine ⟨r, hr, ?_⟩
  unfold parseParams
  dsimp only
  rw [pass1] at hr ⊢
  rw [hr]
  cases r with
  | error e => rfl
  | ok n =>
    obtain ⟨hn, h2, hlast⟩ := pass2Loop_of_pass1Loop bootstrap 0 t hr
    exact ⟨by simpa using hn, by rw [itemsOf, h2, addItems_eq hlast]⟩

example : parseParams ⟨0, [], false, 0⟩ "ibdata1:12M;ibdata2:1G:autoextend".toList false false =
    some (.ok ⟨0, [⟨0, 12, 0, "ibdata1".toList, .notRaw⟩, ⟨0, 1024, 1, "ibdata2".toList, .notRaw⟩],
      true, 0⟩) := rfl

end SysTablespace

end Innobase
