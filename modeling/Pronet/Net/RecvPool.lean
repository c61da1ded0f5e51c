import Mathlib

/-! `CProRecvPool`, the ring buffer of a transport. Pointers into the buffer are
offsets from its start, and `none` is the null pointer. The pool refines a queue
of bytes: filling appends, peeking reads the front, and flushing drops it. -/
namespace Pronet.Net

variable {β : Type*}

structure RecvPool (β : Type*) where
  size : Nat
  buf : Nat → β
  data : Option Nat
  dataSize : Nat
  idle : Option Nat
  idleSize : Nat

namespace RecvPool

/-- A pool after `Resize(size)`; `buf` is what the memory happens to hold. -/
def resize (size : Nat) (buf : Nat → β) : RecvPool β := ⟨size, buf, none, 0, some 0, size⟩

/-- The number of bytes from `offset` on that do not wrap around. -/
def continuousSize (p : RecvPool β) (offset count : Nat) : Nat :=
  if p.size < offset + count then p.size - offset else count

def continuousIdleSize (p : RecvPool β) : Nat :=
  match p.idle with
  | none => p.idleSize
  | some idle => p.continuousSize idle p.idleSize

def fill (p : RecvPool β) (count : Nat) : RecvPool β :=
  if count = 0 || p.continuousIdleSize < count then p
  else
    { p with
      data := if p.data = none then p.idle else p.data
      dataSize := p.dataSize + count
      idle := if p.idleSize - count = 0 then none
        else p.idle.map fun idle => if idle + count = p.size then 0 else idle + count
      idleSize := p.idleSize - count }

def store (p : RecvPool β) (offset : Nat) (bytes : List β) : RecvPool β :=
  { p with buf := fun x => if offset ≤ x then (bytes[x - offset]?).getD (p.buf x) else p.buf x }

/-- `recv` into the continuous idle space, then `Fill`. -/
def receive (p : RecvPool β) (bytes : List β) : RecvPool β :=
  match p.idle with
  | none => p
  | some idle => (p.store idle bytes).fill bytes.length

def peekDataSize (p : RecvPool β) : Nat := p.dataSize

def read (p : RecvPool β) (offset count : Nat) : List β :=
  (List.range count).map fun k => p.buf (offset + k)

/-- The bytes `PeekData` copies; nothing if there are fewer. -/
def peekData (p : RecvPool β) (count : Nat) : List β :=
  match p.data with
  | none => []
  | some data =>
      if count = 0 || p.dataSize < count then []
      else
        let continuous := p.continuousSize data p.dataSize
        if continuous < count then p.read data continuous ++ p.read 0 (count - continuous)
        else p.read data count

def flush (p : RecvPool β) (count : Nat) : RecvPool β :=
  match p.data with
  | none => p
  | some data =>
      if count = 0 || p.dataSize < count then p
      else if p.dataSize - count = 0 then
        { p with data := none, dataSize := 0, idle := some 0, idleSize := p.size }
      else
        let continuous := p.continuousSize data p.dataSize
        { p with
          data := some (if continuous < count then count - continuous
            else if data + count = p.size then 0 else data + count)
          dataSize := p.dataSize - count
          idle := if p.idle = none then some data else p.idle
          idleSize := p.idleSize + count }

/-- The byte `k` places after `offset` around the ring. -/
def ringAt (p : RecvPool β) (offset k : Nat) : β :=
  p.buf (if offset + k < p.size then offset + k else offset + k - p.size)

/-- The queue that the pool holds. -/
def bytes (p : RecvPool β) : List β :=
  match p.data with
  | none => []
  | some data => (List.range p.dataSize).map (p.ringAt data)

structure WellFormed (p : RecvPool β) : Prop where
  sum : p.dataSize + p.idleSize = p.size
  data_none : p.data = none ↔ p.dataSize = 0
  data_lt : ∀ data ∈ p.data, data < p.size
  idle_none : p.idle = none ↔ p.idleSize = 0
  idle_lt : ∀ idle ∈ p.idle, idle < p.size
  adjacent : ∀ data ∈ p.data, ∀ idle ∈ p.idle,
    data + p.dataSize = idle ∨ data + p.dataSize = idle + p.size

theorem wellFormed_resize {size : Nat} (hsize : 0 < size) (buf : Nat → β) :
    (resize size buf).WellFormed := by
  refine ⟨Nat.zero_add size, ?_, ?_, ?_, ?_, ?_⟩
  · simp [resize]
  · simp [resize]
  · simp only [resize, reduceCtorEq, false_iff]
    omega
  · simpa [resize] using hsize
  · simp [resize]

@[simp] theorem bytes_resize (size : Nat) (buf : Nat → β) : (resize size buf).bytes = [] := rfl

theorem length_bytes {p : RecvPool β} (h : p.WellFormed) : p.bytes.length = p.dataSize := by
  unfold bytes
  split
  · rename_i hdata
    exact (h.data_none.mp hdata).symm
  · simp

/-- Reception can go on as long as the pool is not full. -/
theorem continuousIdleSize_pos {p : RecvPool β} (h : p.WellFormed) (hfree : p.dataSize < p.size) :
    0 < p.continuousIdleSize := by
  have hsum := h.sum
  unfold continuousIdleSize
  split
  · rename_i hidle
    have := h.idle_none.mp hidle
    omega
  · rename_i idle hidle
    have hlt := h.idle_lt idle hidle
    unfold continuousSize
    split <;> omega

theorem ringAt_of_fits {p : RecvPool β} {offset k : Nat} (h : offset + k < p.size) :
    p.ringAt offset k = p.buf (offset + k) := by
  unfold ringAt
  rw [if_pos h]

theorem ringAt_of_wraps {p : RecvPool β} {offset k : Nat} (h : p.size ≤ offset + k) :
    p.ringAt offset k = p.buf (offset + k - p.size) := by
  unfold ringAt
  rw [if_neg (by omega)]

theorem length_read (p : RecvPool β) (offset count : Nat) : (p.read offset count).length = count := by
  simp [read]

/-- A continuous read stays in front of the end of the buffer. -/
theorem read_eq_ringAt {p : RecvPool β} {offset count : Nat} (h : offset + count ≤ p.size) :
    p.read offset count = (List.range count).map (p.ringAt offset) := by
  unfold read
  apply List.map_congr_left
  intro k hk
  have := List.mem_range.mp hk
  rw [ringAt_of_fits (by omega)]

theorem peekData_spec {p : RecvPool β} (h : p.WellFormed) {count : Nat}
    (hcount : count ≤ p.dataSize) : p.peekData count = p.bytes.take count := by
  have hsum := h.sum
  unfold peekData bytes
  split
  · simp
  · rename_i data hdata
    have hlt := h.data_lt data hdata
    by_cases hzero : count = 0
    · simp [hzero]
    · have htake : ((List.range p.dataSize).map (p.ringAt data)).take count =
          (List.range count).map (p.ringAt data) := by
        rw [← List.map_take, List.take_range, Nat.min_eq_left hcount]
      simp only [hzero, decide_false, Bool.false_or, decide_eq_true_eq]
      rw [if_neg (by omega), htake]
      unfold continuousSize
      by_cases hwrap : p.size < data + p.dataSize
      · rw [if_pos hwrap]
        split
        · apply List.ext_getElem
          · simp only [List.length_append, length_read, List.length_map, List.length_range]
            omega
          · intro k hk hk'
            simp only [List.length_map, List.length_range] at hk'
            rw [List.getElem_append]
            split
            · rename_i hfront
              rw [length_read] at hfront
              simp only [read, List.getElem_map, List.getElem_range]
              rw [ringAt_of_fits (by omega)]
            · rename_i hback
              rw [length_read] at hback
              simp only [read, List.length_map, List.length_range, List.getElem_map, List.getElem_range]
              rw [ringAt_of_wraps (by omega)]
              congr 1
              omega
        · exact read_eq_ringAt (by omega)
      · rw [if_neg hwrap, if_neg (by omega)]
        exact read_eq_ringAt (by omega)

theorem bytes_of_data {p : RecvPool β} {data : Nat} (h : p.data = some data) :
    p.bytes = (List.range p.dataSize).map (p.ringAt data) := by
  unfold bytes
  rw [h]

theorem flush_spec {p : RecvPool β} (h : p.WellFormed) {count : Nat} (hpos : 0 < count)
    (hcount : count ≤ p.dataSize) :
    (p.flush count).WellFormed ∧ (p.flush count).bytes = p.bytes.drop count ∧
      (p.flush count).size = p.size := by
  have hsum := h.sum
  unfold flush
  split
  · rename_i hdata
    have := h.data_none.mp hdata
    omega
  · rename_i data hdata
    have hlt := h.data_lt data hdata
    have hguard : (decide (count = 0) || decide (p.dataSize < count)) = false := by
      simp only [Bool.or_eq_false_iff, decide_eq_false_iff_not]
      omega
    rw [if_neg (by simp [hguard])]
    rw [bytes_of_data hdata]
    split
    · rename_i hall
      refine ⟨⟨?_, ?_, ?_, ?_, ?_, ?_⟩, ?_, rfl⟩
      · simp
      · simp
      · simp
      · simp only [reduceCtorEq, false_iff]
        omega
      · intro idle hidle
        simp only [Option.mem_def, Option.some.injEq] at hidle
        subst hidle
        dsimp only
        omega
      · simp
      · simp only [bytes]
        rw [List.drop_eq_nil_of_le]
        simp only [List.length_map, List.length_range]
        omega
    · rename_i hsome
      dsimp only
      have hnext : ∃ next, (if p.continuousSize data p.dataSize < count
          then count - p.continuousSize data p.dataSize
          else if data + count = p.size then 0 else data + count) = next ∧ next < p.size ∧
          (next = data + count ∨ next + p.size = data + count) := by
        unfold continuousSize
        refine ⟨_, rfl, ?_, ?_⟩ <;> split_ifs <;> omega
      obtain ⟨next, hnext, hnextLt, hnextEq⟩ := hnext
      rw [hnext]
      refine ⟨⟨?_, ?_, ?_, ?_, ?_, ?_⟩, ?_, rfl⟩
      · dsimp only
        omega
      · simpa using hsome
      · simpa using hnextLt
      · dsimp only
        split
        · simp only [reduceCtorEq, false_iff]
          omega
        · rename_i hidle
          simp only [hidle, false_iff]
          omega
      · dsimp only
        split
        · intro idle hidle
          simp only [Option.mem_def, Option.some.injEq] at hidle
          omega
        · exact h.idle_lt
      · intro d hd idle hidle
        simp only [Option.mem_def, Option.some.injEq] at hd
        subst hd
        dsimp only at hidle ⊢
        split at hidle
        · rename_i hnone
          have := h.idle_none.mp hnone
          simp only [Option.mem_def, Option.some.injEq] at hidle
          omega
        · have := h.adjacent data hdata idle hidle
          have := h.idle_lt idle hidle
          omega
      · apply List.ext_getElem
        · simp [bytes]
        · intro k hk hk'
          simp only [bytes, List.length_map, List.length_range] at hk
          simp only [bytes, List.getElem_map, List.getElem_range, List.getElem_drop, ringAt]
          congr 1
          split_ifs <;> omega

theorem fill_eq {p : RecvPool β} {count : Nat} (hpos : 0 < count)
    (hfits : count ≤ p.continuousIdleSize) :
    p.fill count = { p with
      data := if p.data = none then p.idle else p.data
      dataSize := p.dataSize + count
      idle := if p.idleSize - count = 0 then none
        else p.idle.map fun idle => if idle + count = p.size then 0 else idle + count
      idleSize := p.idleSize - count } := by
  unfold fill
  apply if_neg
  simp only [Bool.or_eq_true, decide_eq_true_eq]
  omega

/-- The byte `k` places after `offset`, counted around the ring. -/
def ringPos (p : RecvPool β) (offset k : Nat) : Nat :=
  if offset + k < p.size then offset + k else offset + k - p.size

/-- The continuous idle space lies inside the buffer. -/
theorem idle_add_continuousIdleSize_le {p : RecvPool β} (h : p.WellFormed) {idle : Nat}
    (hidle : p.idle = some idle) :
    idle + p.continuousIdleSize ≤ p.size ∧ p.continuousIdleSize ≤ p.idleSize := by
  have hlt := h.idle_lt idle hidle
  unfold continuousIdleSize
  rw [hidle]
  dsimp only
  unfold continuousSize
  split <;> omega

/-- No stored byte lies in the continuous idle space. -/
theorem ringPos_outside {p : RecvPool β} (h : p.WellFormed) {data idle k : Nat}
    (hdata : p.data = some data) (hidle : p.idle = some idle) (hk : k < p.dataSize) :
    p.ringPos data k < idle ∨ idle + p.continuousIdleSize ≤ p.ringPos data k := by
  have hsum := h.sum
  have hadjacent := h.adjacent data hdata idle hidle
  have hlt := h.data_lt data hdata
  obtain ⟨hinside, hidleSize⟩ := idle_add_continuousIdleSize_le h hidle
  unfold ringPos
  split <;> omega

/-- Writing into the idle space leaves the queue as it is. -/
theorem store_spec {p : RecvPool β} (h : p.WellFormed) {idle : Nat} (hidle : p.idle = some idle)
    {more : List β} (hfits : more.length ≤ p.continuousIdleSize) :
    (p.store idle more).WellFormed ∧ (p.store idle more).bytes = p.bytes ∧
      ∀ count ≤ more.length, (p.store idle more).read idle count = more.take count := by
  refine ⟨⟨h.sum, h.data_none, h.data_lt, h.idle_none, h.idle_lt, h.adjacent⟩, ?_, ?_⟩
  · cases hdata : p.data with
    | none => simp only [bytes, store, hdata]
    | some data =>
      have hstored : (p.store idle more).data = some data := hdata
      rw [bytes_of_data hdata, bytes_of_data hstored]
      apply List.map_congr_left
      intro k hk
      have houtside := ringPos_outside h hdata hidle (List.mem_range.mp hk)
      change (if idle ≤ p.ringPos data k then (more[p.ringPos data k - idle]?).getD
        (p.buf (p.ringPos data k)) else p.buf (p.ringPos data k)) = p.buf (p.ringPos data k)
      split
      · rw [List.getElem?_eq_none (by omega)]
        rfl
      · rfl
  · intro count hcount
    apply List.ext_getElem
    · rw [length_read, List.length_take, Nat.min_eq_left hcount]
    · intro k hk hk'
      rw [length_read] at hk
      simp only [read, store, List.getElem_map, List.getElem_range, List.getElem_take]
      rw [if_pos (by omega), Nat.add_sub_cancel_left, List.getElem?_eq_getElem (by omega)]
      rfl

/-- `Fill` takes over what stands at the start of the idle space. -/
theorem fill_spec {p : RecvPool β} (h : p.WellFormed) {idle count : Nat} (hidle : p.idle = some idle)
    (hpos : 0 < count) (hfits : count ≤ p.continuousIdleSize) :
    (p.fill count).WellFormed ∧ (p.fill count).bytes = p.bytes ++ p.read idle count ∧
      (p.fill count).size = p.size := by
  have hsum := h.sum
  have hlt := h.idle_lt idle hidle
  obtain ⟨hinside, hidleSize⟩ := idle_add_continuousIdleSize_le h hidle
  have hstart : ∃ start, (if p.data = none then p.idle else p.data) = some start ∧
      start < p.size ∧ (start + p.dataSize = idle ∨ start + p.dataSize = idle + p.size) ∧
      p.bytes = (List.range p.dataSize).map (p.ringAt start) := by
    cases hdata : p.data with
    | none =>
      have hnil := h.data_none.mp hdata
      exact ⟨idle, by simp [hidle], hlt, by omega, by simp [bytes, hdata, hnil]⟩
    | some data =>
      exact ⟨data, by simp, h.data_lt data hdata, h.adjacent data hdata idle hidle,
        bytes_of_data hdata⟩
  obtain ⟨start, hstart, hstartLt, hadjacent, hbytes⟩ := hstart
  rw [fill_eq hpos hfits, hstart, hbytes, hidle]
  refine ⟨⟨?_, ?_, ?_, ?_, ?_, ?_⟩, ?_, rfl⟩
  · dsimp only
    omega
  · simp only [reduceCtorEq, false_iff]
    omega
  · simpa using hstartLt
  · dsimp only
    split
    · simpa
    · simpa
  · dsimp only
    split
    · simp
    · simp only [Option.map_some, Option.mem_def, Option.some.injEq, forall_eq']
      split <;> omega
  · intro data hdata next hnext
    simp only [Option.mem_def, Option.some.injEq] at hdata
    subst hdata
    dsimp only at hnext ⊢
    split at hnext
    · simp at hnext
    · simp only [Option.map_some, Option.mem_def, Option.some.injEq] at hnext
      split at hnext <;> omega
  · apply List.ext_getElem
    · simp [bytes, length_read]
    · intro k hk hk'
      simp only [List.length_append, List.length_map, List.length_range, length_read] at hk'
      simp only [bytes, List.getElem_append, List.length_map, List.length_range,
        List.getElem_map, List.getElem_range, ringAt]
      by_cases hold : k < p.dataSize
      · rw [dif_pos hold]
      · have hindex : (if start + k < p.size then start + k else start + k - p.size) =
            idle + (k - p.dataSize) := by
          split <;> omega
        rw [dif_neg hold, hindex]
        simp only [read, List.getElem_map, List.getElem_range]

theorem receive_spec {p : RecvPool β} (h : p.WellFormed) {more : List β} (hpos : more ≠ [])
    (hfits : more.length ≤ p.continuousIdleSize) :
    (p.receive more).WellFormed ∧ (p.receive more).bytes = p.bytes ++ more ∧
      (p.receive more).size = p.size := by
  have hlength := List.length_pos_iff.mpr hpos
  unfold receive
  cases hidle : p.idle with
  | none =>
    have := h.idle_none.mp hidle
    simp only [continuousIdleSize, hidle] at hfits
    omega
  | some idle =>
    obtain ⟨hstored, hbytes, hread⟩ := store_spec h hidle hfits
    have hfits' : more.length ≤ (p.store idle more).continuousIdleSize := hfits
    obtain ⟨hfilled, hqueue, hsize⟩ := fill_spec hstored hidle hlength hfits'
    refine ⟨hfilled, ?_, hsize⟩
    rw [hqueue, hbytes, hread more.length (Nat.le_refl _), List.take_length]

end RecvPool

end Pronet.Net
