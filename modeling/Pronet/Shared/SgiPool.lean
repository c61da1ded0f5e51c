import Pronet.Library.Runs
import Pronet.Shared.SgiAllocSpec

/-! One of the ten pools behind `ProAllocateSgiPoolBuffer`. Each block starts with
a header of eight bytes whose first word is the size of the block, header
included; the header decides which of the two allocators of the pool takes the
block back. The blocks that the callers hold are part of the state. -/
namespace Pronet.Shared

open Library Library.Ranges SizeClass

/-- A block a caller holds: the pointer it got and the size it asked for. -/
structure Block where
  buf : Nat
  size : Nat
  deriving DecidableEq, Repr

structure Pool where
  small : Alloc
  big : Alloc
  process : Process
  live : List Block

/-- `SMALL_OBJ_SIZE` and the size of the header. -/
def smallObjSize : Nat := 4096
def headerSize : Nat := 8

/-- The size of a block with its header; an empty block gets one byte. -/
def totalSize (size : Nat) : Nat :=
  if size = 0 then headerSize + 1 else headerSize + size

namespace Pool

def init (mem : Nat → UInt8) : Pool := ⟨.init, .init, ⟨mem, [], []⟩, []⟩

/-- The allocator for blocks of `bytes` bytes. -/
def alloc (s : Pool) (bytes : Nat) : Alloc :=
  if bytes ≤ smallObjSize then s.small else s.big

def setAlloc (s : Pool) (bytes : Nat) (a : Alloc) (m : Process) : Pool :=
  if bytes ≤ smallObjSize then { s with small := a, process := m }
  else { s with big := a, process := m }

/-- The caller holds a block at `p`, of `size` bytes behind a header with `bytes`. -/
def hand (s : Pool) (p : Nat) (bytes size : Nat) : Pool :=
  { s with
    process := s.process.store32 p bytes
    live := ⟨p + headerSize, size⟩ :: s.live }

/-- The caller no longer holds the block at `buf`. -/
def release (s : Pool) (buf : Nat) : Pool :=
  { s with live := s.live.eraseP fun b => b.buf = buf }

def proAllocateSgiPoolBuffer (s : Pool) (size : Nat) (answers : MallocAnswers) :
    Option (Option Nat × Pool) := do
  let bytes := totalSize size
  let (result, a, m) ← (s.alloc bytes).allocate s.process bytes answers
  match result with
  | none => return (none, s.setAlloc bytes a m)
  | some p => return (some (p + headerSize), (s.setAlloc bytes a m).hand p bytes size)

def proDeallocateSgiPoolBuffer (s : Pool) (buf : Nat) : Option Pool := do
  if buf = 0 then
    return s
  let p := buf - headerSize
  let bytes := s.process.load32 p
  if bytes < headerSize + 1 then
    return s
  let (a, m) ← (s.alloc bytes).deallocate s.process p bytes
  return (s.setAlloc bytes a m).release buf

def proReallocateSgiPoolBuffer (s : Pool) (buf : Nat) (newSize : Nat)
    (answers : MallocAnswers) : Option (Option Nat × Pool) := do
  if buf = 0 then
    return ← s.proAllocateSgiPoolBuffer newSize answers
  if newSize = 0 then
    let s ← s.proDeallocateSgiPoolBuffer buf
    return (none, s)
  let p := buf - headerSize
  let bytes := s.process.load32 p
  if bytes < headerSize + 1 then
    return (none, s)
  let newBytes := headerSize + newSize
  let (result, a, m) ← (s.alloc bytes).reallocate s.process p bytes newBytes answers
  match result with
  | none => return (none, s.setAlloc bytes a m)
  | some q =>
    return (some (q + headerSize), ((s.setAlloc bytes a m).release buf).hand q newBytes newSize)

end Pool

inductive PoolEvent
  | allocate (size : Nat) (answers : MallocAnswers)
  | reallocate (buf : Nat) (newSize : Nat) (answers : MallocAnswers)
  | deallocate (buf : Nat)
  | write (buf : Nat) (offset : Nat) (value : UInt8)
  deriving DecidableEq, Repr

namespace Pool

/-- The event with the pointer it returns, if any. -/
def perform (s : Pool) : PoolEvent → Option (Option Nat × Pool)
  | .allocate size answers => s.proAllocateSgiPoolBuffer size answers
  | .reallocate buf newSize answers => s.proReallocateSgiPoolBuffer buf newSize answers
  | .deallocate buf => (s.proDeallocateSgiPoolBuffer buf).map fun s => (none, s)
  | .write buf offset value =>
      some (none, { s with process := s.process.store (buf + offset) [value] })

def step (s : Pool) (event : PoolEvent) : Option Pool :=
  (s.perform event).map Prod.snd

def Holds (s : Pool) (buf : Nat) : Prop := ∃ b ∈ s.live, b.buf = buf

instance (s : Pool) (buf : Nat) : Decidable (s.Holds buf) :=
  inferInstanceAs (Decidable (∃ b ∈ s.live, b.buf = buf))

/-- The memory that must not be returned for a block of `newBytes` bytes. What
`realloc` returns may overlap the block it replaces. -/
def inUse (s : Pool) (buf : Nat) (newBytes : Nat) : Process :=
  if buf ≠ 0 ∧ maxBytes < s.process.load32 (buf - headerSize) ∧ maxBytes < newBytes then
    { s.process with direct := s.process.direct.filter fun r => r.start ≠ buf - headerSize }
  else s.process

/-- The regions `malloc` and `realloc` return are fresh. -/
def FreshAnswers (s : Pool) (buf : Nat) (newBytes : Nat) (answers : MallocAnswers) : Prop :=
  answers.FreshChunks s.process ∧ ∀ q ∈ answers.block, (s.inUse buf newBytes).Fresh ⟨q, newBytes⟩

instance (s : Pool) (buf : Nat) (newBytes : Nat) (answers : MallocAnswers) :
    Decidable (s.FreshAnswers buf newBytes answers) :=
  inferInstanceAs (Decidable (answers.FreshChunks s.process ∧
    ∀ q ∈ answers.block, (s.inUse buf newBytes).Fresh ⟨q, newBytes⟩))

/-- What the pool relies on: a pointer is freed or reallocated only while the
caller holds it, sizes fit into the header, a caller writes only into its own
block, and `malloc` returns fresh memory. -/
def Allowed (s : Pool) : PoolEvent → Prop
  | .allocate size answers =>
      totalSize size < 2 ^ 32 ∧ s.FreshAnswers 0 (totalSize size) answers
  | .reallocate buf newSize answers => (buf = 0 ∨ s.Holds buf) ∧
      totalSize newSize < 2 ^ 32 ∧ s.FreshAnswers buf (totalSize newSize) answers
  | .deallocate buf => buf = 0 ∨ s.Holds buf
  | .write buf offset _ => ∃ b ∈ s.live, b.buf = buf ∧ offset < b.size

instance (s : Pool) (event : PoolEvent) : Decidable (s.Allowed event) :=
  match event with
  | .allocate size answers => inferInstanceAs (Decidable (totalSize size < 2 ^ 32 ∧
      s.FreshAnswers 0 (totalSize size) answers))
  | .reallocate buf newSize answers => inferInstanceAs (Decidable ((buf = 0 ∨ s.Holds buf) ∧
      totalSize newSize < 2 ^ 32 ∧ s.FreshAnswers buf (totalSize newSize) answers))
  | .deallocate buf => inferInstanceAs (Decidable (buf = 0 ∨ s.Holds buf))
  | .write buf offset _ =>
      inferInstanceAs (Decidable (∃ b ∈ s.live, b.buf = buf ∧ offset < b.size))

/-- A size that is rounded up to the last class. -/
def topClass (bytes : Nat) : Bool :=
  objSize (nFreeLists - 2) < bytes && bytes ≤ maxBytes

/-- No reallocation goes from the last size class to a size above it, or back. -/
def withinClasses (s : Pool) : PoolEvent → Bool
  | .reallocate buf newSize _ =>
      let bytes := s.process.load32 (buf - headerSize)
      let newBytes := headerSize + newSize
      buf = 0 || newSize = 0 ||
        !(topClass bytes && maxBytes < newBytes || maxBytes < bytes && topClass newBytes)
  | _ => true

end Pool

end Pronet.Shared
