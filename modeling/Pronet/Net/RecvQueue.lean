import Pronet.Library.Runs
import Pronet.Net.RecvPool

/-! Every sequence of calls of a `CProRecvPool`. The pool runs beside a list of bytes
with a capacity, the queue that it stands for. -/
namespace Pronet.Net

open Library Runs

variable {β : Type*}

/-- The calls: bytes written into `ContinuousIdleBuf` and then `Fill`, and `Flush`.
`PeekData` changes nothing. -/
inductive PoolOp (β : Type*)
  | fill (written : List β) (count : Nat)
  | flush (count : Nat)
  deriving DecidableEq, Repr

namespace RecvPool

def writeIdle (p : RecvPool β) (written : List β) : RecvPool β :=
  match p.idle with
  | none => p
  | some idle => p.store idle written

/-- What stands at the start of the idle space. -/
def idleBytes (p : RecvPool β) (count : Nat) : List β :=
  match p.idle with
  | none => []
  | some idle => p.read idle count

end RecvPool

/-- The pool and the queue it stands for. -/
structure PoolRun (β : Type*) where
  pool : RecvPool β
  queue : List β

namespace PoolRun

def start (capacity : Nat) (buf : Nat → β) : PoolRun β := ⟨RecvPool.resize capacity buf, []⟩

/-- A caller writes no more than `ContinuousIdleSize` bytes, and calls with any size. -/
def step (w : PoolRun β) : PoolOp β → Option (PoolRun β)
  | .fill written count =>
      if written.length ≤ w.pool.continuousIdleSize then
        let pool := w.pool.writeIdle written
        some ⟨pool.fill count, if count = 0 || w.pool.continuousIdleSize < count then w.queue
          else w.queue ++ pool.idleBytes count⟩
      else none
  | .flush count =>
      some ⟨w.pool.flush count, if w.queue.length < count then w.queue else w.queue.drop count⟩

structure Inv (capacity : Nat) (w : PoolRun β) : Prop where
  wellFormed : w.pool.WellFormed
  queue : w.pool.bytes = w.queue
  capacity : w.pool.size = capacity

theorem Inv.length_queue {capacity : Nat} {w : PoolRun β} (h : w.Inv capacity) :
    w.queue.length = w.pool.dataSize := by
  rw [← h.queue, RecvPool.length_bytes h.wellFormed]

theorem inv_start {capacity : Nat} (hpos : 0 < capacity) (buf : Nat → β) :
    (start capacity buf).Inv capacity :=
  ⟨RecvPool.wellFormed_resize hpos buf, rfl, rfl⟩

theorem writeIdle_spec {p : RecvPool β} (h : p.WellFormed) {written : List β}
    (hfits : written.length ≤ p.continuousIdleSize) :
    (p.writeIdle written).WellFormed ∧ (p.writeIdle written).bytes = p.bytes ∧
      (p.writeIdle written).idle = p.idle ∧ (p.writeIdle written).size = p.size ∧
      (p.writeIdle written).continuousIdleSize = p.continuousIdleSize ∧
      ∀ count ≤ written.length, (p.writeIdle written).idleBytes count = written.take count := by
  unfold RecvPool.writeIdle RecvPool.idleBytes
  cases hidle : p.idle with
  | none =>
    refine ⟨h, rfl, hidle, rfl, rfl, ?_⟩
    intro count hcount
    have hzero := h.idle_none.mp hidle
    simp only [RecvPool.continuousIdleSize, hidle] at hfits
    have hnil : written = [] := List.eq_nil_of_length_eq_zero (by omega)
    simp [hidle, hnil]
  | some idle =>
    obtain ⟨hstored, hbytes, hread⟩ := RecvPool.store_spec h hidle hfits
    have hsame : (p.store idle written).idle = some idle := hidle
    refine ⟨hstored, hbytes, hidle, rfl, rfl, ?_⟩
    intro count hcount
    rw [hsame]
    exact hread count hcount

theorem fill_refused (p : RecvPool β) {count : Nat} (h : count = 0 ∨ p.continuousIdleSize < count) :
    p.fill count = p := by
  unfold RecvPool.fill
  rw [if_pos]
  simpa using h

theorem flush_refused {p : RecvPool β} {count : Nat} (h : count = 0 ∨ p.dataSize < count) :
    p.flush count = p := by
  unfold RecvPool.flush
  split
  · rfl
  · rw [if_pos]
    simpa using h

/-- An idle space that is not continuous from the null pointer is empty. -/
theorem idle_of_continuousIdleSize_pos {p : RecvPool β} (h : p.WellFormed)
    (hpos : 0 < p.continuousIdleSize) : ∃ idle, p.idle = some idle := by
  cases hidle : p.idle with
  | some idle => exact ⟨idle, rfl⟩
  | none =>
    have hzero := h.idle_none.mp hidle
    simp only [RecvPool.continuousIdleSize, hidle] at hpos
    omega

theorem Inv.fill {capacity : Nat} {w : PoolRun β} (h : w.Inv capacity) {written : List β} {count : Nat}
    {next : PoolRun β} (hstep : w.step (.fill written count) = some next) : next.Inv capacity := by
  simp only [step] at hstep
  split at hstep
  · rename_i hfits
    cases hstep
    obtain ⟨hwf, hbytes, hidle, hsize, hcont, _⟩ := writeIdle_spec h.wellFormed hfits
    by_cases hrefused : count = 0 ∨ w.pool.continuousIdleSize < count
    · have hrefused' : count = 0 ∨ (w.pool.writeIdle written).continuousIdleSize < count := by
        rw [hcont]
        exact hrefused
      rw [fill_refused _ hrefused']
      refine ⟨hwf, ?_, hsize.trans h.capacity⟩
      dsimp only
      rw [hbytes, h.queue, if_pos (by simpa using hrefused)]
    · have hboth : 0 < count ∧ count ≤ w.pool.continuousIdleSize := by omega
      rw [← hcont] at hboth
      obtain ⟨idle, hsome⟩ := idle_of_continuousIdleSize_pos hwf (by omega)
      obtain ⟨hfilled, hqueue, hsize'⟩ := RecvPool.fill_spec hwf hsome hboth.1 hboth.2
      refine ⟨hfilled, ?_, (hsize'.trans hsize).trans h.capacity⟩
      dsimp only
      rw [hqueue, hbytes, h.queue, if_neg (by simpa using hrefused)]
      simp only [RecvPool.idleBytes, hsome]
  · cases hstep

theorem Inv.flush {capacity : Nat} {w : PoolRun β} (h : w.Inv capacity) (count : Nat)
    {next : PoolRun β} (hstep : w.step (.flush count) = some next) : next.Inv capacity := by
  simp only [step, Option.some.injEq] at hstep
  subst hstep
  have hlength := h.length_queue
  by_cases hrefused : count = 0 ∨ w.pool.dataSize < count
  · rw [flush_refused hrefused]
    refine ⟨h.wellFormed, ?_, h.capacity⟩
    dsimp only
    rw [h.queue]
    split
    · rfl
    · have hzero : count = 0 := by omega
      rw [hzero, List.drop_zero]
  · have hboth : 0 < count ∧ count ≤ w.pool.dataSize := by omega
    obtain ⟨hflushed, hbytes, hsize⟩ := RecvPool.flush_spec h.wellFormed hboth.1 hboth.2
    refine ⟨hflushed, ?_, hsize.trans h.capacity⟩
    dsimp only
    rw [hbytes, h.queue, if_neg (by omega)]

theorem Inv.step {capacity : Nat} {w next : PoolRun β} (h : w.Inv capacity) (op : PoolOp β)
    (hstep : w.step op = some next) : next.Inv capacity := by
  cases op with
  | fill written count => exact h.fill hstep
  | flush count => exact h.flush count hstep

/-- The pool is a queue of the capacity. -/
structure IsQueue (capacity : Nat) (w : PoolRun β) : Prop where
  bytes : w.pool.bytes = w.queue
  peekDataSize : w.pool.peekDataSize = w.queue.length
  peekData : ∀ count, w.pool.peekData count =
    if w.queue.length < count then [] else w.queue.take count
  flush : ∀ count, (w.pool.flush count).bytes =
    if w.queue.length < count then w.queue else w.queue.drop count
  fill : ∀ written : List β, written ≠ [] → written.length ≤ w.pool.continuousIdleSize →
    ((w.pool.writeIdle written).fill written.length).bytes = w.queue ++ written
  fill_refused : ∀ count, count = 0 ∨ w.pool.continuousIdleSize < count → w.pool.fill count = w.pool
  flush_refused : ∀ count, count = 0 ∨ w.queue.length < count → w.pool.flush count = w.pool
  sum : w.pool.dataSize + w.pool.idleSize = capacity
  inside : ∀ idle ∈ w.pool.idle, idle + w.pool.continuousIdleSize ≤ capacity
  disjoint : ∀ data ∈ w.pool.data, ∀ idle ∈ w.pool.idle, ∀ k < w.pool.dataSize,
    ∀ j < w.pool.continuousIdleSize, w.pool.ringPos data k ≠ idle + j
  full : w.pool.continuousIdleSize = 0 → w.queue.length = capacity

theorem Inv.isQueue {capacity : Nat} {w : PoolRun β} (h : w.Inv capacity) : w.IsQueue capacity := by
  have hwf := h.wellFormed
  have hlength := h.length_queue
  refine ⟨h.queue, hlength.symm, ?_, ?_, ?_, ?_, ?_, ?_, ?_, ?_, ?_⟩
  · intro count
    split
    · unfold RecvPool.peekData
      split
      · rfl
      · rw [if_pos]
        simp only [Bool.or_eq_true, decide_eq_true_eq]
        omega
    · rw [← h.queue]
      exact RecvPool.peekData_spec hwf (by omega)
  · intro count
    have hnext := h.flush count rfl
    exact hnext.queue
  · intro written hne hfits
    obtain ⟨hstored, hbytes, _, _, hcont, hread⟩ := writeIdle_spec hwf hfits
    have hpos := List.length_pos_iff.mpr hne
    obtain ⟨idle, hsome⟩ := idle_of_continuousIdleSize_pos hstored (by omega)
    obtain ⟨_, hqueue, _⟩ := RecvPool.fill_spec hstored hsome hpos (by omega)
    have hwritten := hread written.length (Nat.le_refl _)
    simp only [RecvPool.idleBytes, hsome] at hwritten
    rw [hqueue, hbytes, h.queue, hwritten, List.take_length]
  · intro count hrefused
    exact PoolRun.fill_refused w.pool hrefused
  · intro count hrefused
    exact PoolRun.flush_refused (by omega)
  · rw [hwf.sum, h.capacity]
  · intro idle hidle
    rw [← h.capacity]
    exact (RecvPool.idle_add_continuousIdleSize_le hwf hidle).1
  · intro data hdata idle hidle k hk j hj heq
    have houtside := RecvPool.ringPos_outside hwf hdata hidle hk
    omega
  · intro hzero
    by_contra hne
    have hsum := hwf.sum
    rw [h.capacity] at hsum
    have hpos := RecvPool.continuousIdleSize_pos hwf (by rw [h.capacity]; omega)
    omega

/-- Every sequence of calls leaves a queue. -/
theorem isQueue_of_run {capacity : Nat} (hpos : 0 < capacity) (buf : Nat → β) {ops : List (PoolOp β)}
    {w : PoolRun β} (hrun : run step (start capacity buf) ops = some w) : w.IsQueue capacity := by
  have hinv : w.Inv capacity := run_preserves (fun w op next h _ hstep => h.step op hstep)
    (inv_start hpos buf) (guarded_true _ ops) hrun
  exact hinv.isQueue

/-- Four bytes go round a ring of three, with two refused calls. -/
def roundTheRing : List (PoolOp Nat) :=
  [.fill [1, 2] 2, .flush 1, .fill [3] 1, .flush 5, .fill [4] 1, .fill [] 2, .flush 2]

theorem isQueue_of_run_roundTheRing :
    ∃ w, run step (start 3 fun _ => 0) roundTheRing = some w ∧ w.queue = [4] ∧ w.IsQueue 3 := by
  have hany : ((run step (start 3 fun _ => 0) roundTheRing).any
      fun w => decide (w.queue = [4])) = true := by decide
  obtain ⟨w, hw, hqueue⟩ := (Option.any_eq_true _ _).mp hany
  exact ⟨w, hw, of_decide_eq_true hqueue, isQueue_of_run (by decide) _ hw⟩

end PoolRun

end Pronet.Net
