import Innobase.PartitionRun
import Innobase.PageWalk

/-!
# The adaptive hash index and the page operations

The AHI state beyond the partition, and `btr_search_build_page_hash_index` and
`btr_search_drop_page_hash_index` as they run when nothing interferes.
Blocks and index objects are named by numbers that stand for their addresses.
-/

namespace Innobase

/-- The AHI fields of a buffer block: `index` and the signature it was hashed with. -/
structure BlockAhi where
  index : Option Nat
  currNFields : Nat
  currNBytes : Nat
  currLeftSide : Bool
  deriving DecidableEq, Repr

structure IndexAhi where
  id : Nat
  nUnique : Nat
  refCount : Nat
  freed : Bool
  deriving DecidableEq, Repr

/-- `n_hash_helps` and the prefix it counts descents for, kept without a latch. -/
structure BlockHelp where
  nHashHelps : Nat
  nFields : Nat
  nBytes : Nat
  leftSide : Bool
  deriving DecidableEq, Repr

/-- The AHI, with the indexes freed lazily and at once. `disabling` spans
`btr_sea::disable()` from `dict_sys.unfreeze()` to the release of its latches. -/
structure Ahi where
  part : Partition
  enabled : Bool
  block : Nat → BlockAhi
  index : Nat → IndexAhi
  lazyFreed : List Nat
  help : Nat → BlockHelp
  dictFreed : List Nat
  disabling : Bool

namespace Ahi

variable (g : Geom) (maxNFields : Nat)

def insertAll : Partition → List (Nat × Nat) → Option Partition
  | p, [] => some p
  | p, (f, r) :: l => do insertAll (← p.insert g f r) l

def removeAllFolds (page : Nat) : Partition → List Nat → Option (Partition × List Nat)
  | p, [] => some (p, [])
  | p, f :: fs => do
    let (q, freed) ← p.haRemoveAllNodesToPage g f page
    let (q, freed') ← removeAllFolds page q fs
    pure (q, freed ++ freed')

/-- The last latched section of `btr_search_drop_page_hash_index`, from `all_deleted:` on. -/
def dropSection (s : Ahi) (b i nFields nBytes : Nat) (folds : List Nat) (frame : Nat) :
    Option Ahi :=
  match (s.block b).index with
  | none => some s
  | some j =>
    if j ≠ i then none
    else if (s.block b).currNFields ≠ nFields ∨ (s.block b).currNBytes ≠ nBytes then some s
    else do
      let (part, _) ← removeAllFolds g frame s.part folds
      match (s.index i).refCount with
      | 0 => none
      | k + 1 =>
        pure { s with
          part
          block := Function.update s.block b { s.block b with index := none }
          index := Function.update s.index i { s.index i with refCount := k }
          lazyFreed := if k = 0 ∧ (s.index i).freed then s.lazyFreed ++ [i] else s.lazyFreed }

/-- `btr_search_drop_page_hash_index(block, garbage_collect)` without interference,
where `fold nf nb` is `rec_fold`; `none` is a failed `ut_a` or a walk out of fuel. -/
def dropPageHashIndex (s : Ahi) (b : Nat) (pg : PageImage) (fold : Nat → Nat → Nat → Nat)
    (garbageCollect : Bool) (n : Nat) : Option Ahi :=
  match (s.block b).index with
  | none => some s
  | some i =>
    if !(s.index i).freed && garbageCollect then some s
    else if !s.enabled then some s
    else if pg.indexId ≠ (s.index i).id then none
    else if (s.block b).currNFields = 0 ∧ (s.block b).currNBytes = 0 then none
    else if pg.nRecs = 0 then some s
    else do
      let folds ← pg.dropFolds (fold (s.block b).currNFields (s.block b).currNBytes) n
      s.dropSection g b i (s.block b).currNFields (s.block b).currNBytes folds pg.frame

def buildSection (s : Ahi) (i b nFields nBytes : Nat) (leftSide : Bool)
    (pairs : List (Nat × Nat)) : Option Ahi :=
  if !s.enabled then pure s
  else if (s.block b).index.isSome && ((s.block b).currNFields != nFields ||
      (s.block b).currNBytes != nBytes || (s.block b).currLeftSide != leftSide) then pure s
  else do
    let part ← insertAll g s.part pairs
    pure { s with
      part
      block := Function.update s.block b
        ⟨some i, nFields &&& maxNFields, nBytes &&& (2 ^ 15 - 1), leftSide⟩
      index := if (s.block b).index.isNone then
          Function.update s.index i { s.index i with refCount := (s.index i).refCount + 1 }
        else s.index
      help := Function.update s.help b { s.help b with nHashHelps := 0 } }

/-- `btr_search_build_page_hash_index` without interference; `spare` is the block
`buf_block_alloc` hands to `prepare_insert`. -/
def buildPageHashIndex (s : Ahi) (i b : Nat) (pg : PageImage) (fold : Nat → Nat → Nat → Nat)
    (nFields nBytes : Nat) (leftSide : Bool) (spare n : Nat) : Option Ahi :=
  if !s.enabled then some s else do
  let rebuild := (s.block b).index.isSome &&
    ((s.block b).currNFields != nFields || (s.block b).currNBytes != nBytes ||
      (s.block b).currLeftSide != leftSide)
  let s ← if rebuild then dropPageHashIndex g s b pg fold false n else pure s
  if nFields = 0 ∧ nBytes = 0 then pure s
  else if (s.index i).nUnique < nFields + (if nBytes = 0 then 0 else 1) then pure s
  else
    match ← pg.buildCache (fold nFields nBytes) (s.index i).id leftSide n with
    | .skip => pure s
    | .cache pairs =>
      buildSection g maxNFields { s with part := (s.part.prepareInsert s.enabled spare).1 } i b
        nFields nBytes leftSide pairs

end Ahi

end Innobase
