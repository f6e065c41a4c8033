import Innobase.Latch

/-!
# Guessing the search position from the hash index

`btr_search_guess_on_hash` trusts nothing in the hash table: whatever record a
node points to, a lookup that succeeds brackets the tuple (`guess_on_hash_sound`).
-/

namespace Innobase

inductive RecStatus
  | ordinary
  | nodePtr
  | infimum
  | supremum
  | instant
  deriving DecidableEq, Repr

inductive SearchMode
  | l
  | le
  | g
  | ge
  deriving DecidableEq, Repr

inductive CursorFlag
  | hash
  | hashFail
  | other
  deriving DecidableEq, Repr

structure IndexPage extends PageImage where
  level : Nat
  hasPrev : Bool
  hasNext : Bool
  status : Nat → RecStatus

structure Cursor where
  recPtr : Nat
  block : Nat
  flag : CursorFlag
  fold : Nat
  nFields : Nat
  nBytes : Nat
  upMatch : Nat
  lowMatch : Nat
  deriving DecidableEq, Repr

structure SearchInfo where
  lastHashSucc : Bool
  nHashPotential : Nat
  nFields : Nat
  nBytes : Nat
  deriving DecidableEq, Repr

/-- The data tuple: its field count, `REC_INFO_MIN_REC_FLAG`, `dtuple_fold`, `cmp_dtuple_rec_with_match`. -/
structure Tuple where
  nFields : Nat
  minRec : Bool
  fold : Nat → Nat → Nat
  cmp : Nat → Int × Nat

def btrSearchBuildLimit : Nat := 100

namespace IndexPage

variable (pg : IndexPage)

def isUserRec (rec : Nat) : Prop := rec ≠ pg.infimum ∧ rec ≠ pg.supremum

instance (rec : Nat) : Decidable (pg.isUserRec rec) := inferInstanceAs (Decidable (_ ∧ _))

def statusOk (rec : Nat) : Bool := pg.status rec = .ordinary || pg.status rec = .instant

def recGetNext (rec : Nat) : Option Nat :=
  match pg.next rec with
  | some n => if n = pg.infimum then none else some n
  | none => none

def prevLoop (rec : Nat) : Nat → Nat → Option Nat
  | 0, _ => none
  | n + 1, x =>
    if x = pg.supremum then none
    else match pg.next x with
      | none => none
      | some y => if y = rec then some x else prevLoop rec n y

def recGetPrev (rec : Nat) : Option Nat := pg.prevLoop rec (pg.nRecs + 2) pg.infimum

theorem prevLoop_spec {rec : Nat} : ∀ {n x p : Nat}, pg.prevLoop rec n x = some p →
    pg.next p = some rec ∧ p ≠ pg.supremum
  | 0, _, _, h => by simp [prevLoop] at h
  | n + 1, x, p, h => by
    unfold prevLoop at h
    split_ifs at h with hx
    split at h
    · simp at h
    · rename_i y hy
      split_ifs at h with hr
      · cases h; exact ⟨hy ▸ hr ▸ rfl, hx⟩
      · exact prevLoop_spec h

theorem recGetPrev_spec {rec p : Nat} (h : pg.recGetPrev rec = some p) :
    pg.next p = some rec ∧ p ≠ pg.supremum :=
  pg.prevLoop_spec h

theorem recGetNext_spec {rec n : Nat} (h : pg.recGetNext rec = some n) :
    pg.next rec = some n ∧ n ≠ pg.infimum := by
  unfold recGetNext at h
  split at h
  · split_ifs at h with hn
    cases h
    exact ⟨‹_›, hn⟩
  · cases h

/-! ## What a confirmed guess guarantees -/

def FirstOfLevel (rec : Nat) : Prop := pg.next pg.infimum = some rec ∧ pg.hasPrev = false

def LastOfLevel (rec : Nat) : Prop := pg.next rec = some pg.supremum ∧ pg.hasNext = false

/-- Where record `r` stands relative to the tuple in each search mode, read on `r`'s page. -/
def Brackets (cmp : Nat → Int × Nat) (nUnique : Nat) : SearchMode → Nat → Prop
  | .ge, r => (cmp r).1 ≤ 0 ∧
      (nUnique ≤ (cmp r).2 ∨ pg.FirstOfLevel r ∨ ∃ p, pg.next p = some r ∧ pg.isUserRec p ∧ 0 < (cmp p).1)
  | .g, r => (cmp r).1 < 0 ∧
      (pg.FirstOfLevel r ∨ ∃ p, pg.next p = some r ∧ pg.isUserRec p ∧ 0 ≤ (cmp p).1)
  | .le, r => 0 ≤ (cmp r).1 ∧
      (pg.LastOfLevel r ∨ ∃ n, pg.next r = some n ∧ pg.isUserRec n ∧ (cmp n).1 < 0)
  | .l, r => 0 < (cmp r).1 ∧
      (pg.LastOfLevel r ∨ ∃ n, pg.next r = some n ∧ pg.isUserRec n ∧ (cmp n).1 ≤ 0)

end IndexPage

/-! ## The check -/

namespace Cursor

def checkPrev (pg : IndexPage) (comp : Bool) (cmp : Nat → Int × Nat) (ge : Bool) (rec : Nat) :
    Bool :=
  match pg.recGetPrev rec with
  | none => false
  | some p =>
    if p = pg.infimum then !pg.hasPrev
    else if comp ∧ !pg.statusOk p then false
    else if ge then 0 < (cmp p).1 else 0 ≤ (cmp p).1

def checkNext (pg : IndexPage) (comp : Bool) (cmp : Nat → Int × Nat) (le : Bool) (c : Cursor) :
    Bool × Cursor :=
  match pg.recGetNext c.recPtr with
  | none => (false, c)
  | some n =>
    if n = pg.supremum then (if pg.hasNext then (false, c) else (true, { c with upMatch := 0 }))
    else if comp ∧ !pg.statusOk n then (false, c)
    else if le then ((cmp n).1 < 0, { c with upMatch := (cmp n).2 })
    else ((cmp n).1 ≤ 0, c)

/-- `btr_search_check_guess` on the page `pg` of the cursor record. -/
def checkGuess (pg : IndexPage) (comp : Bool) (nUnique : Nat) (cmp : Nat → Int × Nat)
    (mode : SearchMode) (canOnlyCompareToCursorRec : Bool) (c : Cursor) : Bool × Cursor :=
  if ¬pg.isUserRec c.recPtr ∨ pg.level ≠ 0 then (false, c)
  else if comp ∧ !pg.statusOk c.recPtr then (false, c)
  else
    let r := cmp c.recPtr
    match mode with
    | .ge =>
      if 0 < r.1 then (false, c)
      else if nUnique ≤ r.2 then (true, { c with upMatch := r.2 })
      else if canOnlyCompareToCursorRec then (false, { c with upMatch := r.2 })
      else (checkPrev pg comp cmp true c.recPtr, { c with upMatch := r.2 })
    | .g =>
      if 0 ≤ r.1 then (false, c)
      else if canOnlyCompareToCursorRec then (false, c)
      else (checkPrev pg comp cmp false c.recPtr, c)
    | .le =>
      if r.1 < 0 then (false, c)
      else if canOnlyCompareToCursorRec then (false, { c with lowMatch := r.2 })
      else checkNext pg comp cmp true { c with lowMatch := r.2 }
    | .l =>
      if r.1 ≤ 0 then (false, c)
      else if canOnlyCompareToCursorRec then (false, c)
      else checkNext pg comp cmp false c

/-! ## A confirmed guess brackets the tuple -/

variable {pg : IndexPage} {comp : Bool} {cmp : Nat → Int × Nat}

theorem checkPrev_true {ge : Bool} {rec : Nat} (h : checkPrev pg comp cmp ge rec = true) :
    pg.FirstOfLevel rec ∨
      ∃ p, pg.next p = some rec ∧ pg.isUserRec p ∧ (if ge then 0 < (cmp p).1 else 0 ≤ (cmp p).1) := by
  unfold checkPrev at h
  split at h
  · cases h
  · rename_i p hp
    obtain ⟨hn, hs⟩ := pg.recGetPrev_spec hp
    split_ifs at h with hi hc hg
    · exact .inl ⟨hi ▸ hn, by simpa using h⟩
    · exact .inr ⟨p, hn, ⟨hi, hs⟩, by simpa [hg] using h⟩
    · exact .inr ⟨p, hn, ⟨hi, hs⟩, by simpa [hg] using h⟩

theorem checkNext_true {le : Bool} {c : Cursor} (h : (checkNext pg comp cmp le c).1 = true) :
    pg.LastOfLevel c.recPtr ∨
      ∃ n, pg.next c.recPtr = some n ∧ pg.isUserRec n ∧ (if le then (cmp n).1 < 0 else (cmp n).1 ≤ 0) := by
  unfold checkNext at h
  split at h
  · cases h
  · rename_i n hn
    obtain ⟨hn, hi⟩ := pg.recGetNext_spec hn
    split_ifs at h with hs hh hc hl
    · exact .inl ⟨hs ▸ hn, by simpa using hh⟩
    · exact .inr ⟨n, hn, ⟨hi, hs⟩, by simpa [hl] using h⟩
    · exact .inr ⟨n, hn, ⟨hi, hs⟩, by simpa [hl] using h⟩

theorem checkNext_pos {le b : Bool} {c c' : Cursor} (h : checkNext pg comp cmp le c = (b, c')) :
    c'.recPtr = c.recPtr ∧ c'.block = c.block := by
  unfold checkNext at h
  split at h
  · cases h; exact ⟨rfl, rfl⟩
  · split_ifs at h <;> cases h <;> exact ⟨rfl, rfl⟩

variable {nUnique : Nat} {mode : SearchMode} {canOnly : Bool}

theorem checkGuess_pos {b : Bool} {c c' : Cursor}
    (h : checkGuess pg comp nUnique cmp mode canOnly c = (b, c')) :
    c'.recPtr = c.recPtr ∧ c'.block = c.block := by
  unfold checkGuess at h
  cases mode <;> dsimp only at h <;>
    repeat' (first | (cases h; exact ⟨rfl, rfl⟩) | exact (checkNext_pos h :) |
      rcases ite_eq_iff.1 h with ⟨-, h⟩ | ⟨-, h⟩)

theorem checkGuess_true {c : Cursor} (h : (checkGuess pg comp nUnique cmp mode canOnly c).1 = true) :
    pg.isUserRec c.recPtr ∧ pg.level = 0 ∧ pg.Brackets cmp nUnique mode c.recPtr := by
  unfold checkGuess at h
  by_cases h1 : ¬pg.isUserRec c.recPtr ∨ pg.level ≠ 0
  · rw [if_pos h1] at h; cases h
  rw [if_neg h1] at h
  by_cases h2 : comp ∧ !pg.statusOk c.recPtr
  · rw [if_pos h2] at h; cases h
  rw [if_neg h2] at h
  push_neg at h1
  refine ⟨h1.1, h1.2, ?_⟩
  cases mode with
  | ge =>
    by_cases h3 : 0 < (cmp c.recPtr).1
    · simp [h3] at h
    by_cases h4 : nUnique ≤ (cmp c.recPtr).2
    · exact ⟨not_lt.1 h3, .inl h4⟩
    by_cases h5 : canOnly
    · simp [h3, h4, h5] at h
    simp only [h3, h4, h5, if_false, Bool.false_eq_true] at h
    exact ⟨not_lt.1 h3, .inr (by simpa using checkPrev_true h)⟩
  | g =>
    by_cases h3 : 0 ≤ (cmp c.recPtr).1
    · simp [h3] at h
    by_cases h5 : canOnly
    · simp [h3, h5] at h
    simp only [h3, h5, if_false, Bool.false_eq_true] at h
    exact ⟨not_le.1 h3, by simpa using checkPrev_true h⟩
  | le =>
    by_cases h3 : (cmp c.recPtr).1 < 0
    · simp [h3] at h
    by_cases h5 : canOnly
    · simp [h3, h5] at h
    simp only [h3, h5, if_false, Bool.false_eq_true] at h
    exact ⟨not_lt.1 h3, by simpa using checkNext_true h⟩
  | l =>
    by_cases h3 : (cmp c.recPtr).1 ≤ 0
    · simp [h3] at h
    by_cases h5 : canOnly
    · simp [h3, h5] at h
    simp only [h3, h5, if_false, Bool.false_eq_true] at h
    exact ⟨not_le.1 h3, by simpa using checkNext_true h⟩

end Cursor

namespace Ahi

variable (g : Geom)

/-- `btr_search_guess_on_hash`; `none` is a failed `ut_a`, a null `block->index`, a
chain walk that does not end, or a latch the thread already holds. -/
def guessOnHash (s : Ahi) (i : Nat) (info : SearchInfo) (comp : Bool) (t : Tuple)
    (mode : SearchMode) (latchMode : Nat) (c : Cursor) (blockOf : Nat → Nat)
    (pages : Nat → IndexPage) (removeHash : Nat → Bool) (gotLatch : Bool) (h : Held) :
    Option (Bool × Cursor × SearchInfo × Held) :=
  if btrModifyLeaf < latchMode ∨ !info.lastHashSucc ∨ info.nHashPotential = 0 ∨ t.minRec then
    some (false, c, info, h)
  else
  let c := { c with nFields := info.nFields, nBytes := info.nBytes }
  -- `btr_search_get_n_fields(cursor)`
  if t.nFields < c.nFields + (if c.nBytes = 0 then 0 else 1) then some (false, c, info, h) else
  let fold := t.fold c.nFields c.nBytes
  let c := { c with fold, flag := .hash }
  let fail (c : Cursor) (h : Held) :=
    some (false, { c with flag := .hashFail }, { info with lastHashSucc := false }, h)
  h.rdLock.bind fun h =>
  let ahiReleaseAndFail := h.rdUnlock.bind (fail c)
  if !s.enabled then ahiReleaseAndFail else
  match s.part.seek (fun a => (s.part.mem a).fold == fold) (s.part.fuel g) (.cell (s.part.calcHash fold)) with
  | none => none
  | some none => ahiReleaseAndFail
  | some (some (_, a)) =>
    let r := (s.part.mem a).recPtr
    let b := blockOf r
    if !gotLatch then ahiReleaseAndFail else
    let h := h.lockPage b (latchOf latchMode)
    let blockAndAhiReleaseAndFail :=
      (h.unlockPage b (latchOf latchMode)).bind fun h => h.rdUnlock.bind (fail c)
    if removeHash b then blockAndAhiReleaseAndFail
    else match (s.block b).index with
      | none => none
      | some j =>
        if i ≠ j ∧ (s.index i).id = (s.index j).id then
          if (s.index j).freed then blockAndAhiReleaseAndFail else none
        else
          (h.fix b).rdUnlock.bind fun h =>
          let h := h.memoPush b latchMode
          let c := { c with recPtr := r, block := b }
          if (s.index i).id ≠ (pages b).indexId then h.releaseLastPage.bind (fail c)
          else match c.checkGuess (pages b) comp (s.index i).nUnique t.cmp mode false with
            | (false, c) => h.releaseLastPage.bind (fail c)
            | (true, c) => some (true, c, { info with
                nHashPotential := if info.nHashPotential < btrSearchBuildLimit + 5
                  then info.nHashPotential + 1 else info.nHashPotential
                lastHashSucc := true }, h)

variable {s : Ahi} {i : Nat} {info : SearchInfo} {comp : Bool} {t : Tuple} {mode : SearchMode}
  {latchMode : Nat} {c : Cursor} {blockOf : Nat → Nat} {pages : Nat → IndexPage}
  {removeHash : Nat → Bool} {gotLatch : Bool} {h : Held}

theorem guessOnHash_eq_some {ok : Bool} {c' : Cursor} {info' : SearchInfo} {h' : Held}
    (e : s.guessOnHash g i info comp t mode latchMode c blockOf pages removeHash gotLatch h =
      some (ok, c', info', h')) :
    ok = false ∧ h' = h ∨
    ok = true ∧ ∃ c₀ : Cursor, c₀.block = blockOf c₀.recPtr ∧
      (s.index i).id = (pages c₀.block).indexId ∧
      c₀.checkGuess (pages c₀.block) comp (s.index i).nUnique t.cmp mode false = (true, c') ∧
      h' = { h with
        pages := h.pages ++ [(c₀.block, latchOf latchMode)], fixes := h.fixes ++ [c₀.block],
        memo := h.memo ++ [(c₀.block, latchMode)] } := by
  obtain ⟨a, p, f, m⟩ := h
  unfold guessOnHash at e
  dsimp only at e
  generalize (if info.nBytes = 0 then 0 else 1) = k at e
  rw [ite_eq_iff] at e
  rcases e with ⟨-, e⟩ | ⟨-, e⟩
  · cases e; exact .inl ⟨rfl, rfl⟩
  rw [ite_eq_iff] at e
  rcases e with ⟨-, e⟩ | ⟨-, e⟩
  · cases e; exact .inl ⟨rfl, rfl⟩
  cases a with
  | some _ => simp at e
  | none =>
  simp only [Held.rdLock_mk, Held.rdUnlock_mk, Held.lockPage_mk, Held.unlockPage_mk, Held.fix_mk,
    Held.memoPush_mk, Held.releaseLastPage_mk, Option.some_bind] at e
  rw [ite_eq_iff] at e
  rcases e with ⟨-, e⟩ | ⟨-, e⟩
  · cases e; exact .inl ⟨rfl, rfl⟩
  split at e
  · cases e
  · cases e; exact .inl ⟨rfl, rfl⟩
  rw [ite_eq_iff] at e
  rcases e with ⟨-, e⟩ | ⟨-, e⟩
  · cases e; exact .inl ⟨rfl, rfl⟩
  rw [ite_eq_iff] at e
  rcases e with ⟨-, e⟩ | ⟨-, e⟩
  · cases e; exact .inl ⟨rfl, rfl⟩
  split at e; · cases e
  rw [ite_eq_iff] at e
  rcases e with ⟨-, e⟩ | ⟨-, e⟩
  · rw [ite_eq_iff] at e
    rcases e with ⟨-, e⟩ | ⟨-, e⟩ <;> cases e
    exact .inl ⟨rfl, rfl⟩
  rw [ite_eq_iff] at e
  rcases e with ⟨-, e⟩ | ⟨hid, e⟩
  · cases e; exact .inl ⟨rfl, rfl⟩
  split at e
  · cases e; exact .inl ⟨rfl, rfl⟩
  rename_i hcg
  cases e
  exact .inr ⟨rfl, _, rfl, not_not.1 hid, hcg, rfl⟩

/-- Whatever the hash table holds, a lookup that succeeds brackets the tuple. -/
theorem guess_on_hash_sound {c' : Cursor} {info' : SearchInfo} {h' : Held}
    (e : s.guessOnHash g i info comp t mode latchMode c blockOf pages removeHash gotLatch h =
      some (true, c', info', h')) :
    c'.block = blockOf c'.recPtr ∧ (pages c'.block).level = 0 ∧
      (pages c'.block).indexId = (s.index i).id ∧ (pages c'.block).isUserRec c'.recPtr ∧
      (pages c'.block).Brackets t.cmp (s.index i).nUnique mode c'.recPtr := by
  rcases guessOnHash_eq_some g e with ⟨hf, -⟩ | ⟨-, c₀, hb, hid, hcg, -⟩
  · cases hf
  obtain ⟨hr, hk⟩ := Cursor.checkGuess_pos hcg
  obtain ⟨hu, hl, hB⟩ := Cursor.checkGuess_true (congrArg Prod.fst hcg)
  rw [hk, hr]
  exact ⟨hb, hl, hid.symm, hu, hB⟩

theorem guess_on_hash_latches {ok : Bool} {c' : Cursor} {info' : SearchInfo} {h' : Held}
    (e : s.guessOnHash g i info comp t mode latchMode c blockOf pages removeHash gotLatch h =
      some (ok, c', info', h')) :
    h' = if ok then { h with
        pages := h.pages ++ [(c'.block, latchOf latchMode)], fixes := h.fixes ++ [c'.block],
        memo := h.memo ++ [(c'.block, latchMode)] }
      else h := by
  rcases guessOnHash_eq_some g e with ⟨rfl, rfl⟩ | ⟨rfl, c₀, -, -, hcg, rfl⟩
  · rfl
  · rw [(Cursor.checkGuess_pos hcg).2]; rfl

def hashedLeaf : IndexPage :=
  ⟨⟨0, 3, 1, 2, fun r => [(1, 10), (10, 20), (20, 30), (30, 2)].lookup r, fun _ => false, 7⟩,
    0, false, false, fun _ => .ordinary⟩

def hashedAhi : Ahi :=
  ⟨(((Partition.init.alloc 4).prepareInsert true 100).1.insert Partition.ahiGeom 5 20).getD
      Partition.init, true, fun _ => ⟨some 0, 1, 0, true⟩, fun _ => ⟨7, 2, 0, false⟩, [],
    fun _ => ⟨0, 0, 0, false⟩, [], false⟩

theorem guess_on_hash_sound_ge :
    hashedAhi.guessOnHash Partition.ahiGeom 0 ⟨true, 1, 1, 0⟩ true
        ⟨1, false, fun _ _ => 5, fun r => if r < 20 then (1, 0) else (-1, 0)⟩ .ge btrSearchLeaf
        ⟨0, 0, .other, 0, 0, 0, 0, 0⟩ (fun _ => 5) (fun _ => hashedLeaf) (fun _ => false) true
        Held.empty =
      some (true, ⟨20, 5, .hash, 5, 1, 0, 0, 0⟩, ⟨true, 2, 1, 0⟩, ⟨none, [(5, .s)], [5], [(5, 1)]⟩) ∧
    5 = 5 ∧ hashedLeaf.level = 0 ∧ hashedLeaf.indexId = 7 ∧ hashedLeaf.isUserRec 20 ∧
      hashedLeaf.Brackets (fun r => if r < 20 then (1, 0) else (-1, 0)) 2 .ge 20 := by
  refine ⟨?h, guess_on_hash_sound _ ?h⟩
  decide

theorem guess_on_hash_latches_ge :
    hashedAhi.guessOnHash Partition.ahiGeom 0 ⟨true, 1, 1, 0⟩ true
        ⟨1, false, fun _ _ => 5, fun r => if r < 20 then (1, 0) else (-1, 0)⟩ .ge btrSearchLeaf
        ⟨0, 0, .other, 0, 0, 0, 0, 0⟩ (fun _ => 5) (fun _ => hashedLeaf) (fun _ => false) true
        Held.empty =
      some (true, ⟨20, 5, .hash, 5, 1, 0, 0, 0⟩, ⟨true, 2, 1, 0⟩, ⟨none, [(5, .s)], [5], [(5, 1)]⟩) ∧
    (⟨none, [(5, .s)], [5], [(5, 1)]⟩ : Held) =
      { Held.empty with pages := [(5, latchOf btrSearchLeaf)], fixes := [5], memo := [(5, 1)] } := by
  refine ⟨?h, guess_on_hash_latches _ ?h⟩
  decide

example : (hashedAhi.guessOnHash Partition.ahiGeom 0 ⟨true, 1, 1, 0⟩ true
    ⟨1, false, fun _ _ => 5, fun _ => (1, 0)⟩ .ge btrSearchLeaf ⟨0, 0, .other, 0, 0, 0, 0, 0⟩
    (fun _ => 5) (fun _ => hashedLeaf) (fun _ => false) true Held.empty).map (·.2.2.2) =
      some Held.empty := by
  decide

end Ahi

end Innobase
