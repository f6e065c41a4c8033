import Mathlib.Logic.Function.Basic
import Mathlib.Algebra.Group.Nat.Basic

/-!
# The hash partition of the adaptive hash index

`btr_sea::partition`: a chained hash table whose nodes live in slab blocks
borrowed from the buffer pool. Chain walks take fuel (`Partition.fuel`); a walk
that uses it up, or dereferences null, ends the operation with `none`.
-/

namespace Innobase

/-- `srv_page_size_shift` and `sizeof(ahi_node)`. -/
structure Geom where
  pageShift : Nat
  nodeSize : Nat
  nodeSize_pos : 0 < nodeSize
  nodeSize_lt : nodeSize < 2 ^ pageShift

def Geom.pageSize (g : Geom) : Nat := 2 ^ g.pageShift

structure Slot where
  blk : Nat
  off : Nat
deriving DecidableEq, Repr

structure AhiNode where
  fold : Nat
  next : Option Slot
  /-- `rec` -/
  recPtr : Nat
deriving DecidableEq, Repr, Inhabited

structure SlabBlock where
  blk : Nat
  freeOffset : Nat
deriving DecidableEq, Repr

structure Partition where
  /-- `table.n_cells`; `0` while `table.array` is null. -/
  nCells : Nat
  cell : Nat → Option Slot
  mem : Slot → AhiNode
  /-- `blocks`, last block first. -/
  blocks : List SlabBlock
  spare : Option Nat

inductive Link where
  | cell (i : Nat)
  | next (a : Slot)
deriving DecidableEq, Repr

def Partition.calcHash (p : Partition) (fold : Nat) : Nat := fold % p.nCells

def Partition.read (p : Partition) : Link → Option Slot
  | .cell i => p.cell i
  | .next a => (p.mem a).next

def Partition.write (p : Partition) : Link → Option Slot → Partition
  | .cell i, v => { p with cell := Function.update p.cell i v }
  | .next a, v => { p with mem := Function.update p.mem a { p.mem a with next := v } }

def Partition.setRec (p : Partition) (a : Slot) (rec : Nat) : Partition :=
  { p with mem := Function.update p.mem a { p.mem a with recPtr := rec } }

def Partition.unlink (p : Partition) (l : Link) (a : Slot) : Partition :=
  (p.write l (p.mem a).next).write (.next a) none

def Partition.seek (p : Partition) (P : Slot → Bool) : Nat → Link → Option (Option (Link × Slot))
  | 0, _ => none
  | n + 1, l =>
    match p.read l with
    | none => some none
    | some a => if P a then some (some (l, a)) else p.seek P n (.next a)

def Partition.seekEnd (p : Partition) : Nat → Link → Option Link
  | 0, _ => none
  | n + 1, l =>
    match p.read l with
    | none => some l
    | some a => p.seekEnd n (.next a)

def SlabBlock.slots (ns : Nat) (b : SlabBlock) : List Slot :=
  (List.range (b.freeOffset / ns)).map fun k => ⟨b.blk, k * ns⟩

def Partition.slots (g : Geom) (p : Partition) : List Slot :=
  p.blocks.flatMap (SlabBlock.slots g.nodeSize)

def Partition.fuel (g : Geom) (p : Partition) : Nat := (p.slots g).length + 1

def Partition.owned (p : Partition) : List Nat :=
  p.spare.toList ++ p.blocks.map (·.blk)

/-! ## The operations -/

def Partition.allocSpare (g : Geom) (p : Partition) : Option (Partition × Slot) :=
  p.spare.map fun s => ({ p with spare := none, blocks := ⟨s, g.nodeSize⟩ :: p.blocks }, ⟨s, 0⟩)

def Partition.allocNode (g : Geom) (p : Partition) : Option (Partition × Slot) :=
  match p.blocks with
  | b :: bs =>
    if b.freeOffset < g.pageSize - g.nodeSize then
      some ({ p with blocks := { b with freeOffset := b.freeOffset + g.nodeSize } :: bs },
        ⟨b.blk, b.freeOffset⟩)
    else p.allocSpare g
  | [] => p.allocSpare g

def Partition.appendNode (g : Geom) (p : Partition) (i : Nat) (a : Slot) (fold rec : Nat) :
    Option Partition := do
  let p := { p with mem := Function.update p.mem a ⟨fold, none, rec⟩ }
  let l ← p.seekEnd (p.fuel g) (.cell i)
  pure (p.write l (some a))

def Partition.insert (g : Geom) (p : Partition) (fold rec : Nat) : Option Partition := do
  let i := p.calcHash fold
  match ← p.seek (fun a => (p.mem a).fold == fold) (p.fuel g) (.cell i) with
  | some (_, a) => pure (p.setRec a rec)
  | none =>
    match p.allocNode g with
    | none => pure p
    | some (q, a) => q.appendNode g i a fold rec

def Partition.moveTop (g : Geom) (p : Partition) (erase top : Slot) : Option Partition := do
  let q := { p with mem := Function.update p.mem erase (p.mem top) }
  let some (l, _) ← q.seek (· == top) (q.fuel g) (.cell (q.calcHash (q.mem top).fold)) | none
  pure (q.write l (some erase))

/-- The end of `cleanup_after_erase`: the emptied last block becomes the spare or goes back. -/
def Partition.shrinkLast (g : Geom) (p : Partition) (b : SlabBlock) (bs : List SlabBlock) :
    Partition × Option Nat :=
  let fo := b.freeOffset - g.nodeSize
  if fo = 0 then
    match p.spare with
    | some _ => ({ p with blocks := bs }, some b.blk)
    | none => ({ p with blocks := bs, spare := some b.blk }, none)
  else ({ p with blocks := { b with freeOffset := fo } :: bs }, none)

def Partition.cleanupAfterErase (g : Geom) (p : Partition) (erase : Slot) :
    Option (Partition × Option Nat) := do
  let b :: bs := p.blocks | none
  let top : Slot := ⟨b.blk, b.freeOffset - g.nodeSize⟩
  let p ← if erase = top then pure p else p.moveTop g erase top
  pure (p.shrinkLast g b bs)

/-- `btr_sea::partition::erase`, with the block to free and whether a node was removed. -/
def Partition.erase (g : Geom) (p : Partition) (fold rec : Nat) :
    Option (Partition × Option Nat × Bool) := do
  match ← p.seek (fun a => (p.mem a).recPtr == rec) (p.fuel g) (.cell (p.calcHash fold)) with
  | none => pure (p, none, false)
  | some (l, a) =>
    let (q, freed) ← (p.unlink l a).cleanupAfterErase g a
    pure (q, freed, true)

def Partition.haRemoveAllNodesToPage (g : Geom) (p : Partition) (fold page : Nat) :
    Option (Partition × List Nat) :=
  go (p.fuel g) p []
where
  go : Nat → Partition → List Nat → Option (Partition × List Nat)
    | 0, _, _ => none
    | n + 1, p, freed => do
      match ← p.seek (fun a => (p.mem a).recPtr ^^^ page < g.pageSize) (p.fuel g)
          (.cell (p.calcHash fold)) with
      | none => pure (p, freed)
      | some (l, a) =>
        let (q, b) ← (p.unlink l a).cleanupAfterErase g a
        go n q (freed ++ b.toList)

def Partition.haSearchAndUpdateIfFound (g : Geom) (p : Partition) (enabled : Bool)
    (fold data newData : Nat) : Option (Partition × Bool) :=
  if enabled then do
    match ← p.seek (fun a => (p.mem a).recPtr == data) (p.fuel g) (.cell (p.calcHash fold)) with
    | none => pure (p, false)
    | some (_, a) => pure (p.setRec a newData, true)
  else some (p, false)

def Partition.prepareInsert (p : Partition) (enabled : Bool) (b : Nat) : Partition × Option Nat :=
  if p.spare.isNone && enabled then ({ p with spare := some b }, none) else (p, some b)

def Partition.clear (p : Partition) : Partition × List Nat :=
  ({ p with nCells := 0, cell := fun _ => none, blocks := [], spare := none },
    p.spare.toList ++ (p.blocks.map (·.blk)).reverse)

def Partition.alloc (p : Partition) (nCells : Nat) : Partition :=
  { p with nCells := nCells, cell := fun _ => none }

def Partition.init : Partition := ⟨0, fun _ => none, fun _ => default, [], none⟩

/-! ## The list view -/

def Partition.walk (p : Partition) : Nat → Option Slot → List Slot
  | 0, _ => []
  | _ + 1, none => []
  | n + 1, some a => a :: p.walk n (p.mem a).next

def Partition.chainOf (g : Geom) (p : Partition) (i : Nat) : List Slot :=
  p.walk (p.fuel g) (p.cell i)

def Partition.pairs (p : Partition) (l : List Slot) : List (Nat × Nat) :=
  l.map fun a => ((p.mem a).fold, (p.mem a).recPtr)

def Partition.view (g : Geom) (p : Partition) (i : Nat) : List (Nat × Nat) :=
  p.pairs (p.chainOf g i)

end Innobase
