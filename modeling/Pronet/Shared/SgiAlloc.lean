import Pronet.Library.Ranges
import Pronet.Shared.SizeClass

/-! One instance of `__default_alloc_template`. Free lists are lists of addresses;
the links are also stored in the blocks, as the code does, because a store may
only hit memory that nobody holds. `none` marks undefined behaviour: a pointer
handed to `free` or `realloc` that `malloc` did not return. -/
namespace Pronet.Shared

open Library.Ranges SizeClass

/-- What the allocators of a process share: the bytes, the regions obtained for
carving, and the blocks obtained from `malloc` directly and not freed yet. -/
structure Process where
  mem : Nat → UInt8
  chunks : List Range
  direct : List Range

/-- The results of the calls of `malloc` and `realloc` that one operation may
make: for a chunk, for half a chunk, and for a block of its own. -/
structure MallocAnswers where
  chunk : Option Nat
  halfChunk : Option Nat
  block : Option Nat
  deriving DecidableEq, Repr

namespace Process

/-- The little-endian bytes of a word. -/
def wordBytes (width value : Nat) : List UInt8 :=
  (List.range width).map fun k => UInt8.ofNat (value / 256 ^ k)

def store (m : Process) (p : Nat) (bytes : List UInt8) : Process :=
  { m with mem := fun x => if p ≤ x ∧ x < p + bytes.length then bytes.getD (x - p) 0 else m.mem x }

/-- `*(PRO_UINT32*)p = value`. -/
def store32 (m : Process) (p : Nat) (value : Nat) : Process :=
  m.store p (wordBytes 4 value)

/-- `((_Obj*)p)->_M_free_list_link = link`. -/
def storeLink (m : Process) (p link : Nat) : Process :=
  m.store p (wordBytes 8 link)

/-- `*(PRO_UINT32*)p`. -/
def load32 (m : Process) (p : Nat) : Nat :=
  ((m.mem (p + 3)).toNat * 256 + (m.mem (p + 2)).toNat) * 256 ^ 2 +
    (m.mem (p + 1)).toNat * 256 + (m.mem p).toNat

/-- `memcpy(dst, src, size)`. -/
def copy (m : Process) (dst src : Nat) (size : Nat) : Process :=
  { m with mem := fun x => if dst ≤ x ∧ x < dst + size then m.mem (src + (x - dst)) else m.mem x }

def free (m : Process) (p : Nat) : Option Process :=
  (m.direct.find? fun r => r.start = p).map fun r => { m with direct := m.direct.erase r }

/-- The old block may overlap the new one; its bytes are taken first. -/
def realloc (m : Process) (p : Nat) (size : Nat) (answers : MallocAnswers) :
    Option (Option Nat × Process) :=
  (m.direct.find? fun r => r.start = p).map fun r =>
    match answers.block with
    | none => (none, m)
    | some q => (some q, { m.copy q p (min r.size size) with
        direct := ⟨q, size⟩ :: m.direct.erase r })

end Process

structure Alloc where
  freeList : Nat → List Nat
  startFree : Nat
  endFree : Nat
  heapSize : Nat

/-- What `_S_chunk_alloc` returns: the chunk and the number of objects in it. -/
structure Chunk where
  result : Option Nat
  nobjs : Nat
  alloc : Alloc
  process : Process

namespace Alloc

def init : Alloc := ⟨fun _ => [], 0, 0, 0⟩

def bytesLeft (a : Alloc) : Nat := a.endFree - a.startFree

/-- Put the object at `p` on list `i`. -/
def push (a : Alloc) (m : Process) (i : Nat) (p : Nat) : Alloc × Process :=
  ({ a with freeList := Function.update a.freeList i (p :: a.freeList i) },
    m.storeLink p ((a.freeList i).headD 0))

/-- The `while` loop that puts the unused tail on list `i`, object by object. An
object has at least one byte, so `bytesLeft` turns are enough. -/
def threadTail (i : Nat) : Nat → Alloc → Process → Alloc × Process
  | 0, a, m => (a, m)
  | fuel + 1, a, m =>
      if objSize i ≤ a.bytesLeft then
        let r := a.push m i a.startFree
        threadTail i fuel { r.1 with startFree := a.startFree + objSize i } r.2
      else (a, m)

/-- The `for` loop over the lists below `i`, from the largest objects down. -/
def threadTails : Nat → Alloc → Process → Alloc × Process
  | 0, a, m => (a, m)
  | i + 1, a, m =>
      if a.bytesLeft = 0 then (a, m)
      else
        let r := threadTail i a.bytesLeft a m
        threadTails i r.1 r.2

/-- Start carving a region. -/
def carveFrom (a : Alloc) (p : Nat) (size : Nat) : Alloc :=
  { a with startFree := p, endFree := p + size }

/-- The number of objects to carve at once: a page of them at most. -/
def objCount (size nobjs : Nat) : Nat :=
  if 4096 ≤ size then 1 else if 4096 ≤ size * nobjs then 4096 / size else nobjs

/-- `_S_chunk_alloc`. It calls itself at most once, after it has found a region
that is large enough. -/
def chunkAlloc (size : Nat) (answers : MallocAnswers) :
    Nat → Nat → Alloc → Process → Option Chunk
  | 0, _, _, _ => none
  | fuel + 1, nobjs, a, m =>
      let nobjs := objCount size nobjs
      if size * nobjs ≤ a.bytesLeft then
        some ⟨some a.startFree, nobjs, { a with startFree := a.startFree + size * nobjs }, m⟩
      else if size ≤ a.bytesLeft then
        let nobjs := a.bytesLeft / size
        some ⟨some a.startFree, nobjs, { a with startFree := a.startFree + size * nobjs }, m⟩
      else
        let (a, m) := threadTails (freelistIndex a.bytesLeft + 1) a m
        match answers.chunk, answers.halfChunk with
        | some p, _ =>
            chunkAlloc size answers fuel nobjs
              { a.carveFrom p chunkSize with heapSize := a.heapSize + chunkSize }
              { m with chunks := ⟨p, chunkSize⟩ :: m.chunks }
        | none, some p =>
            chunkAlloc size answers fuel nobjs
              { a.carveFrom p (chunkSize / 2) with heapSize := a.heapSize + chunkSize / 2 }
              { m with chunks := ⟨p, chunkSize / 2⟩ :: m.chunks }
        | none, none =>
            let a := a.carveFrom 0 0
            let larger := (List.range nFreeLists).filter fun j =>
              freelistIndex size ≤ j && !(a.freeList j).isEmpty
            match larger with
            | [] => some ⟨none, nobjs, a, m⟩
            | j :: _ =>
                match a.freeList j with
                | [] => some ⟨none, nobjs, a, m⟩
                | p :: rest =>
                    chunkAlloc size answers fuel nobjs
                      ({ a with freeList := Function.update a.freeList j rest }.carveFrom p
                        (objSize j)) m

/-- Store the links of a list that has been cut out of a chunk. -/
def storeLinks (m : Process) : List Nat → Process
  | [] => m
  | p :: rest => storeLinks (m.storeLink p (rest.headD 0)) rest

/-- The `n` objects behind the first one of a chunk. -/
def laterObjs (p : Nat) (size n : Nat) : List Nat :=
  (List.range n).map fun k => p + size * (k + 1)

/-- `_S_refill`. -/
def refill (a : Alloc) (m : Process) (size : Nat) (answers : MallocAnswers) :
    Option (Option Nat × Alloc × Process) := do
  let chunk ← chunkAlloc size answers 2 20 a m
  match chunk.result with
  | none => return (none, chunk.alloc, chunk.process)
  | some result =>
    if chunk.nobjs = 1 then
      return (some result, chunk.alloc, chunk.process)
    let objs := laterObjs result size (chunk.nobjs - 1)
    return (some result, { chunk.alloc with
        freeList := Function.update chunk.alloc.freeList (freelistIndex size) objs },
      storeLinks chunk.process objs)

def allocate (a : Alloc) (m : Process) (n : Nat) (answers : MallocAnswers) :
    Option (Option Nat × Alloc × Process) :=
  if n = 0 then
    some (none, a, m)
  else if maxBytes < n then
    match answers.block with
    | none => some (none, a, m)
    | some p => some (some p, a, { m with direct := ⟨p, n⟩ :: m.direct })
  else
    match a.freeList (freelistIndex n) with
    | [] => a.refill m (roundUp n) answers
    | p :: rest =>
        some (some p, { a with freeList := Function.update a.freeList (freelistIndex n) rest }, m)

def deallocate (a : Alloc) (m : Process) (p : Nat) (n : Nat) : Option (Alloc × Process) :=
  if p = 0 || n = 0 then
    some (a, m)
  else if maxBytes < n then
    (m.free p).map fun m => (a, m)
  else
    some (a.push m (freelistIndex n) p)

def reallocate (a : Alloc) (m : Process) (p : Nat) (oldSize newSize : Nat)
    (answers : MallocAnswers) : Option (Option Nat × Alloc × Process) :=
  if p = 0 || oldSize = 0 then
    a.allocate m newSize answers
  else if newSize = 0 then
    (a.deallocate m p oldSize).map fun r => (none, r.1, r.2)
  else if maxBytes < oldSize && maxBytes < newSize then
    (m.realloc p newSize answers).map fun r => (r.1, a, r.2)
  else if roundUp oldSize = roundUp newSize then
    some (some p, a, m)
  else do
    let (result, a, m) ← a.allocate m newSize answers
    match result with
    | none => return (none, a, m)
    | some q =>
      let (a, m) ← a.deallocate (m.copy q p (min oldSize newSize)) p oldSize
      return (some q, a, m)

end Alloc

end Pronet.Shared
