import Pronet.Library.Runs

/-! `CProStatLossRate`. The ticks that `PushData` and `Update` read from the clock are
arguments; the counters, doubles in the source, are exact here. -/
namespace Pronet.Util

open Library Runs

structure LossRate where
  timeSpan : Int
  maxBrokenDuration : Int
  startTick : Int
  lastValidTick : Int
  nextSeq : UInt16
  count : ℚ
  lossCount : ℚ
  lossCountAll : Nat
  lossRate : ℚ

namespace LossRate

def maxLossDistance : UInt16 := 15000

/-- `m_timeSpan * 1000 * OVERLAP_PERCENT / 100`. -/
def overlap (s : LossRate) : Int := (s.timeSpan * 1000 * 50).tdiv 100

/-- A `PRO_UINT32` cast. -/
def uint32 (value : Int) : ℚ := (value % 2 ^ 32 : Int)

def update (s : LossRate) (tick : Int) : LossRate :=
  if s.startTick = 0 then s
  else
    let tickSpan := if 1000 > s.timeSpan * 1000 then s.timeSpan * 1000 else 1000
    let s := if tick - s.startTick ≥ tickSpan ∧ s.count ≥ 1 then
      { s with lossRate := s.lossCount / s.count } else s
    if tick - s.startTick ≥ s.timeSpan * 1000 then
      let countRate := s.count * 1000 / uint32 (tick - s.startTick)
      let startTick := tick - s.overlap
      let count := countRate * uint32 (tick - startTick) / 1000
      { s with startTick := startTick, count := count, lossCount := count * s.lossRate }
    else s

/-- The first push sets the window and the number that is expected. -/
def begun (s : LossRate) (dataSeq : UInt16) (tick : Int) : LossRate :=
  if s.startTick = 0 then
    { s with startTick := tick - s.overlap, lastValidTick := tick, nextSeq := dataSeq }
  else s

/-- The branches that count one loss and go on from the packet. -/
def restart (s : LossRate) (dataSeq : UInt16) (tick : Int) : LossRate :=
  { s with
    nextSeq := dataSeq + 1
    count := s.count + 1
    lossCount := s.lossCount + 1
    lossCountAll := s.lossCountAll + 1
    lastValidTick := tick }

/-- Forward and backward distance from the expected number. -/
def distances (nextSeq dataSeq : UInt16) : UInt16 × UInt16 :=
  if dataSeq < nextSeq then (65535 - nextSeq + dataSeq + 1, nextSeq - dataSeq)
  else (dataSeq - nextSeq, 65535 - dataSeq + nextSeq + 1)

def pushData (s : LossRate) (dataSeq : UInt16) (tick updateTick : Int) : LossRate :=
  let s := s.begun dataSeq tick
  if tick - s.lastValidTick > s.maxBrokenDuration * 1000 then
    (s.restart dataSeq tick).update updateTick
  else if dataSeq = s.nextSeq then
    { s with nextSeq := s.nextSeq + 1, count := s.count + 1, lastValidTick := tick }.update updateTick
  else
    let (dist1, dist2) := distances s.nextSeq dataSeq
    if dist1 < dist2 ∧ dist1 < maxLossDistance then
      { s with
        nextSeq := dataSeq + 1
        count := s.count + (dist1.toNat + 1)
        lossCount := s.lossCount + dist1.toNat
        lossCountAll := s.lossCountAll + dist1.toNat
        lastValidTick := tick }.update updateTick
    else if dist2 < dist1 ∧ dist2 < maxLossDistance then s.update updateTick
    else (s.restart dataSeq tick).update updateTick

/-- The statistic under construction, after its setters. -/
def init (timeSpan maxBrokenDuration : Int) : LossRate :=
  ⟨timeSpan, maxBrokenDuration, 0, 0, 0, 0, 0, 0, 0⟩

/-- The broken-duration branch is taken. -/
def Broken (s : LossRate) (dataSeq : UInt16) (tick : Int) : Prop :=
  tick - (s.begun dataSeq tick).lastValidTick > s.maxBrokenDuration * 1000

/-- A number is too far from the expected one for either direction. -/
def Far (nextSeq dataSeq : UInt16) : Prop :=
  15000 ≤ (dataSeq - nextSeq).toNat ∧ 15000 ≤ (nextSeq - dataSeq).toNat

theorem distances_eq (nextSeq dataSeq : UInt16) :
    distances nextSeq dataSeq = (dataSeq - nextSeq, nextSeq - dataSeq) := by
  have h1 : 65535 - nextSeq + dataSeq + 1 = dataSeq - nextSeq := by
    apply UInt16.toNat_inj.mp
    have hn := nextSeq.toNat_lt
    have hd := dataSeq.toNat_lt
    simp [UInt16.toNat_add, UInt16.toNat_sub]
    omega
  have h2 : 65535 - dataSeq + nextSeq + 1 = nextSeq - dataSeq := by
    apply UInt16.toNat_inj.mp
    have hn := nextSeq.toNat_lt
    have hd := dataSeq.toNat_lt
    simp [UInt16.toNat_add, UInt16.toNat_sub]
    omega
  unfold distances
  split
  · rw [h1]
  · rw [h2]

@[simp] theorem update_nextSeq (s : LossRate) (tick : Int) : (s.update tick).nextSeq = s.nextSeq := by
  unfold update
  dsimp only
  split_ifs <;> rfl

@[simp] theorem update_lossCountAll (s : LossRate) (tick : Int) :
    (s.update tick).lossCountAll = s.lossCountAll := by
  unfold update
  dsimp only
  split_ifs <;> rfl

/-- The two distances close the circle. -/
theorem ahead_add_behind {nextSeq dataSeq : UInt16} (hne : dataSeq ≠ nextSeq) :
    (dataSeq - nextSeq).toNat + (nextSeq - dataSeq).toNat = 65536 := by
  have hn := nextSeq.toNat_lt
  have hd := dataSeq.toNat_lt
  have hne : dataSeq.toNat ≠ nextSeq.toNat := fun h => hne (UInt16.toNat_inj.mp h)
  rw [UInt16.toNat_sub, UInt16.toNat_sub]
  omega

/-- Within the broken duration: a packet that is ahead moves the expected number behind
itself and counts the gap, and a late one changes neither. -/
theorem pushData_spec {s : LossRate} {dataSeq : UInt16} {tick : Int} (updateTick : Int)
    (hopen : ¬s.Broken dataSeq tick) :
    let start := (s.begun dataSeq tick).nextSeq
    let next := s.pushData dataSeq tick updateTick
    ((dataSeq - start).toNat < 15000 → next.nextSeq = dataSeq + 1 ∧
        next.lossCountAll = s.lossCountAll + (dataSeq - start).toNat) ∧
      (0 < (start - dataSeq).toNat → (start - dataSeq).toNat < 15000 →
        next.nextSeq = start ∧ next.lossCountAll = s.lossCountAll) := by
  have hall : (s.begun dataSeq tick).lossCountAll = s.lossCountAll := by
    unfold begun
    split <;> rfl
  have hsame : (s.begun dataSeq tick).maxBrokenDuration = s.maxBrokenDuration := by
    unfold begun
    split <;> rfl
  unfold Broken at hopen
  rw [← hsame] at hopen
  unfold pushData
  generalize s.begun dataSeq tick = b at *
  simp only [hopen, if_false, distances_eq, UInt16.lt_iff_toNat_lt]
  have hmax : maxLossDistance.toNat = 15000 := rfl
  split
  · rename_i hequal
    simp only [← hequal, UInt16.sub_self]
    refine ⟨fun _ => ⟨?_, ?_⟩, fun hlate => absurd hlate (Nat.lt_irrefl 0)⟩
    · exact update_nextSeq _ _
    · rw [update_lossCountAll]
      exact hall
  · rename_i hne
    have hcircle := ahead_add_behind hne
    rw [hmax]
    split
    · rename_i hforward
      refine ⟨fun _ => ⟨?_, ?_⟩, fun _ hlate => by omega⟩
      · exact update_nextSeq _ _
      · rw [update_lossCountAll]
        exact congrArg (· + _) hall
    · split
      · refine ⟨fun hahead => by omega, fun _ _ => ⟨?_, ?_⟩⟩
        · exact update_nextSeq _ _
        · rw [update_lossCountAll]
          exact hall
      · exact ⟨fun hahead => by omega, fun _ hlate => by omega⟩

/-- A call of `PushData`, and the ticks it reads. -/
structure Arrival where
  dataSeq : UInt16
  tick : Int
  updateTick : Int
  deriving DecidableEq, Repr

/-- The way the expected number has gone since the first packet. -/
structure Travel where
  pushes : Nat
  first : UInt16
  accepted : Nat
  travelled : Nat
  deriving DecidableEq, Repr

def Travel.record (t : Travel) (s : LossRate) (a : Arrival) : Travel :=
  let start := if t.pushes = 0 then a.dataSeq else s.nextSeq
  let next := (s.pushData a.dataSeq a.tick a.updateTick).nextSeq
  { pushes := t.pushes + 1
    first := if t.pushes = 0 then a.dataSeq else t.first
    accepted := t.accepted + if next = start then 0 else 1
    travelled := t.travelled + (next - start).toNat }

def push (w : LossRate × Travel) (a : Arrival) : LossRate × Travel :=
  (w.1.pushData a.dataSeq a.tick a.updateTick, w.2.record w.1 a)

def step (w : LossRate × Travel) (a : Arrival) : Option (LossRate × Travel) := some (push w a)

def start (timeSpan maxBrokenDuration : Int) : LossRate × Travel :=
  (init timeSpan maxBrokenDuration, ⟨0, 0, 0, 0⟩)

/-- Neither the broken-duration branch nor the reset branch is taken. -/
def InScope (w : LossRate × Travel) (a : Arrival) : Prop :=
  ¬w.1.Broken a.dataSeq a.tick ∧ ¬Far (w.1.begun a.dataSeq a.tick).nextSeq a.dataSeq

/-- A push that is not the first one finds a start tick, or has the last or the
expected number. -/
def Running (w : LossRate × Travel) (a : Arrival) : Prop :=
  w.2.pushes = 0 ∨ w.1.startTick ≠ 0 ∨ a.dataSeq = w.1.nextSeq ∨ a.dataSeq + 1 = w.1.nextSeq

instance (w : LossRate × Travel) (a : Arrival) : Decidable (InScope w a) := by
  unfold InScope Broken Far
  infer_instance

instance (w : LossRate × Travel) (a : Arrival) : Decidable (Running w a) := by
  unfold Running
  infer_instance

/-- What is missing and what came is the way that was travelled. -/
def Counted (w : LossRate × Travel) : Prop :=
  w.1.lossCountAll + w.2.accepted = w.2.travelled ∧
    (0 < w.2.pushes → w.1.nextSeq = w.2.first + UInt16.ofNat w.2.travelled)

/-- A push keeps the count, loses no loss, and does nothing with a late packet. -/
structure Exact (w : LossRate × Travel) (a : Arrival) : Prop where
  counted : Counted (push w a)
  grows : w.1.lossCountAll ≤ (push w a).1.lossCountAll
  late : 0 < w.2.pushes → 0 < (w.1.nextSeq - a.dataSeq).toNat →
    (w.1.nextSeq - a.dataSeq).toNat < 15000 →
    (push w a).1.nextSeq = w.1.nextSeq ∧ (push w a).1.lossCountAll = w.1.lossCountAll

/-- Nothing has been counted before the first packet. -/
def Fresh (w : LossRate × Travel) : Prop :=
  w.2.pushes = 0 → w.1.startTick = 0 ∧ w.1.lossCountAll = 0 ∧ w.2.accepted = 0 ∧ w.2.travelled = 0

theorem succ_sub (n dataSeq : UInt16) :
    (dataSeq + 1 - n).toNat = ((dataSeq - n).toNat + 1) % 65536 := by
  have hn := n.toNat_lt
  have hd := dataSeq.toNat_lt
  rw [UInt16.toNat_sub, UInt16.toNat_sub, UInt16.toNat_add]
  have hone : (1 : UInt16).toNat = 1 := rfl
  omega

theorem sub_toNat_eq_zero {n dataSeq : UInt16} : (dataSeq - n).toNat = 0 ↔ dataSeq = n := by
  have hn := n.toNat_lt
  have hd := dataSeq.toNat_lt
  rw [← UInt16.toNat_inj, UInt16.toNat_sub]
  omega

theorem begun_of_zero {s : LossRate} (h : s.startTick = 0) (dataSeq : UInt16) (tick : Int) :
    (s.begun dataSeq tick).nextSeq = dataSeq := by
  unfold begun
  rw [if_pos h]

theorem begun_of_ne {s : LossRate} (h : s.startTick ≠ 0) (dataSeq : UInt16) (tick : Int) :
    s.begun dataSeq tick = s := if_neg h

theorem add_sub_self (a b : UInt16) : a + (b - a) = b := by
  rw [UInt16.add_comm, UInt16.sub_add_cancel]

/-- The expected number stays where the way travelled leads. -/
theorem position {w : LossRate × Travel} (hfresh : Fresh w) (h : Counted w) (a : Arrival) :
    (push w a).1.nextSeq = (push w a).2.first + UInt16.ofNat (push w a).2.travelled := by
  unfold push Travel.record
  dsimp only
  rw [UInt16.ofNat_add, UInt16.ofNat_toNat]
  split
  · rename_i hzero
    have hzeroSeq : UInt16.ofNat 0 = 0 := rfl
    rw [(hfresh hzero).2.2.2, hzeroSeq, UInt16.zero_add, add_sub_self]
  · rename_i hpos
    have hnext := h.2 (Nat.pos_of_ne_zero hpos)
    rw [← UInt16.add_assoc, ← hnext, add_sub_self]

/-- The count after a push, when the expected number moves or stays. -/
theorem counted_push {w : LossRate × Travel} (hfresh : Fresh w) (h : Counted w) (a : Arrival) :
    Counted (push w a) ↔
      (push w a).1.lossCountAll + (push w a).2.accepted = (push w a).2.travelled :=
  ⟨fun hcounted => hcounted.1, fun hsum => ⟨hsum, fun _ => position hfresh h a⟩⟩

theorem exact_of_first {w : LossRate × Travel} {a : Arrival} (hfresh : Fresh w) (h : Counted w)
    (hscope : InScope w a) (hzero : w.2.pushes = 0) : Exact w a := by
  obtain ⟨hstart, hloss, haccepted, htravelled⟩ := hfresh hzero
  obtain ⟨hforward, -⟩ := pushData_spec a.updateTick hscope.1
  rw [begun_of_zero hstart, UInt16.sub_self] at hforward
  obtain ⟨hnext, hall⟩ := hforward (by decide)
  have hzeroNat : (0 : UInt16).toNat = 0 := rfl
  refine ⟨?_, ?_, fun hpos => by omega⟩
  · rw [counted_push hfresh h]
    have hne : a.dataSeq + 1 ≠ a.dataSeq := by
      intro heq
      have hmoved := sub_toNat_eq_zero.mpr heq
      rw [succ_sub, UInt16.sub_self] at hmoved
      revert hmoved
      decide
    have hmoved := succ_sub a.dataSeq a.dataSeq
    rw [UInt16.sub_self] at hmoved
    simp only [push, Travel.record, hzero, if_true, hnext, hall, hloss, haccepted, htravelled, if_neg hne,
      hmoved, hzeroNat]
  · simp only [push, hall, hzeroNat]
    omega

theorem exact_of_started {w : LossRate × Travel} {a : Arrival} (hfresh : Fresh w) (h : Counted w)
    (hscope : InScope w a) (hpos : w.2.pushes ≠ 0) (hstart : w.1.startTick ≠ 0) : Exact w a := by
  obtain ⟨hopen, hnear⟩ := hscope
  obtain ⟨hforward, hback⟩ := pushData_spec a.updateTick hopen
  rw [begun_of_ne hstart] at hnear hforward hback
  unfold Far at hnear
  have hsum := h.1
  by_cases hahead : (a.dataSeq - w.1.nextSeq).toNat < 15000
  · obtain ⟨hnext, hall⟩ := hforward hahead
    refine ⟨?_, ?_, ?_⟩
    · rw [counted_push hfresh h]
      have hmoved := succ_sub w.1.nextSeq a.dataSeq
      have hne : a.dataSeq + 1 ≠ w.1.nextSeq := by
        intro heq
        rw [sub_toNat_eq_zero.mpr heq] at hmoved
        omega
      simp only [push, Travel.record, if_neg hpos, hnext, hall, if_neg hne, hmoved]
      omega
    · simp only [push, hall]
      omega
    · intro _ hlate hclose
      have hne : a.dataSeq ≠ w.1.nextSeq := by
        intro heq
        rw [heq, UInt16.sub_self] at hlate
        exact absurd hlate (Nat.lt_irrefl 0)
      have hcircle := ahead_add_behind hne
      omega
  · have hne : a.dataSeq ≠ w.1.nextSeq := by
      intro heq
      rw [heq, UInt16.sub_self] at hahead
      exact hahead (by decide)
    have hcircle := ahead_add_behind hne
    have hlt := (a.dataSeq - w.1.nextSeq).toNat_lt
    obtain ⟨hnext, hall⟩ := hback (by omega) (by omega)
    refine ⟨?_, ?_, fun _ _ _ => ⟨hnext, hall⟩⟩
    · rw [counted_push hfresh h]
      simp only [push, Travel.record, if_neg hpos, hnext, hall, if_true, UInt16.sub_self]
      exact hsum
    · simp only [push, hall]
      omega

/-- Without a start tick the push begins anew at its packet and counts no gap. -/
theorem exact_restarted_iff {w : LossRate × Travel} {a : Arrival} (hfresh : Fresh w) (h : Counted w)
    (hscope : InScope w a) (hpos : w.2.pushes ≠ 0) (hstart : w.1.startTick = 0) :
    Exact w a ↔ a.dataSeq = w.1.nextSeq ∨ a.dataSeq + 1 = w.1.nextSeq := by
  obtain ⟨hforward, -⟩ := pushData_spec a.updateTick hscope.1
  rw [begun_of_zero hstart, UInt16.sub_self] at hforward
  obtain ⟨hnext, hall⟩ := hforward (by decide)
  have hzeroNat : (0 : UInt16).toNat = 0 := rfl
  have hmoved := succ_sub w.1.nextSeq a.dataSeq
  have hsum := h.1
  have hcount : Counted (push w a) ↔ a.dataSeq = w.1.nextSeq ∨ a.dataSeq + 1 = w.1.nextSeq := by
    rw [counted_push hfresh h]
    simp only [push, Travel.record, if_neg hpos, hnext, hall, hzeroNat]
    by_cases hlast : a.dataSeq + 1 = w.1.nextSeq
    · simp only [hlast, if_true, UInt16.sub_self, or_true, iff_true, hzeroNat]
      omega
    · simp only [hlast, if_false, or_false]
      have hlt := (a.dataSeq - w.1.nextSeq).toNat_lt
      have hne : (a.dataSeq + 1 - w.1.nextSeq).toNat ≠ 0 := fun h => hlast (sub_toNat_eq_zero.mp h)
      rw [← sub_toNat_eq_zero]
      omega
  constructor
  · intro hexact
    exact hcount.mp hexact.counted
  · intro hgood
    refine ⟨hcount.mpr hgood, ?_, ?_⟩
    · simp only [push, hall]
      omega
    · intro _ hlate _
      refine ⟨?_, ?_⟩
      · simp only [push, hnext]
        refine hgood.resolve_left (fun heq => ?_)
        rw [heq, UInt16.sub_self] at hlate
        exact absurd hlate (Nat.lt_irrefl 0)
      · simp only [push, hall, hzeroNat]
        omega

theorem exact_iff {w : LossRate × Travel} {a : Arrival} (hfresh : Fresh w) (h : Counted w)
    (hscope : InScope w a) : Exact w a ↔ Running w a := by
  unfold Running
  by_cases hzero : w.2.pushes = 0
  · simp only [hzero, true_or, iff_true]
    exact exact_of_first hfresh h hscope hzero
  · by_cases hstart : w.1.startTick = 0
    · rw [exact_restarted_iff hfresh h hscope hzero hstart]
      simp only [hzero, hstart, ne_eq, not_true_eq_false, false_or]
    · simp only [ne_eq, hstart, not_false_eq_true, true_or, or_true, iff_true]
      exact exact_of_started hfresh h hscope hzero hstart

theorem update_startTick {s : LossRate} {tick : Int} (hstart : s.startTick ≠ 0)
    (htick : tick ≠ s.overlap) : (s.update tick).startTick ≠ 0 := by
  have hmoved : tick - s.overlap ≠ 0 := by omega
  unfold update
  dsimp only
  split_ifs <;> first | exact hstart | exact hmoved

/-- After the first push there is a start tick. -/
def Started (w : LossRate × Travel) : Prop := w.2.pushes = 0 ∨ w.1.startTick ≠ 0

/-- The start tick is 0 again only if a push reads the tick that the window overlaps by. -/
theorem startTick_of_ticks {timeSpan maxBrokenDuration : Int} {arrivals : List Arrival}
    {w : LossRate × Travel}
    (hguard : Guarded step (fun w a => a.tick ≠ w.1.overlap ∧ a.updateTick ≠ w.1.overlap)
      (start timeSpan maxBrokenDuration) arrivals)
    (hrun : run step (start timeSpan maxBrokenDuration) arrivals = some w) :
    w.2.pushes = 0 ∨ w.1.startTick ≠ 0 := by
  have hinit : Started (start timeSpan maxBrokenDuration) := Or.inl rfl
  change Started w
  refine run_preserves (fun w a next _ hticks hstep => ?_) hinit hguard hrun
  cases hstep
  right
  have hbegun : (w.1.begun a.dataSeq a.tick).startTick ≠ 0 := by
    unfold begun
    split
    · have hmoved : a.tick - w.1.overlap ≠ 0 := by omega
      exact hmoved
    · assumption
  have hoverlap : (w.1.begun a.dataSeq a.tick).overlap = w.1.overlap := by
    unfold begun
    split <;> rfl
  have htick : a.updateTick ≠ (w.1.begun a.dataSeq a.tick).overlap := hoverlap ▸ hticks.2
  unfold push pushData
  dsimp only
  split_ifs <;> exact update_startTick hbegun htick

/-- Losses and accepted packets make up the way travelled in every run of pushes of which
none but the first finds no start tick. In a state that such a run reaches, a push is
counted exactly if it finds one too, or has the last or the expected number. -/
theorem loss_counts_of_run {timeSpan maxBrokenDuration : Int} {arrivals : List Arrival}
    {w : LossRate × Travel}
    (hguard : Guarded step (fun w a => InScope w a ∧ Running w a) (start timeSpan maxBrokenDuration)
      arrivals)
    (hrun : run step (start timeSpan maxBrokenDuration) arrivals = some w) :
    Counted w ∧ ∀ a, InScope w a → (Exact w a ↔ Running w a) := by
  have hinv : Fresh w ∧ Counted w := by
    apply run_preserves ?_ ?_ hguard hrun
    · intro w a next hinv hguard hstep
      cases hstep
      refine ⟨fun hzero => absurd hzero (Nat.succ_ne_zero _), ?_⟩
      exact ((exact_iff hinv.1 hinv.2 hguard.1).mpr hguard.2).counted
    · exact ⟨fun _ => ⟨rfl, rfl, rfl, rfl⟩, rfl, fun hpos => absurd hpos (Nat.lt_irrefl 0)⟩
  exact ⟨hinv.2, fun a hscope => exact_iff hinv.1 hinv.2 hscope⟩

/-- Numbers over the edge with a gap of two and a late packet. -/
def gapAtEdge : List Arrival :=
  [⟨65534, 10000, 10000⟩, ⟨65535, 10020, 10020⟩, ⟨2, 10040, 10041⟩, ⟨0, 10050, 10050⟩]

theorem loss_counts_of_run_gapAtEdge :
    ∃ w, run step (start 5 10) gapAtEdge = some w ∧ w.1.lossCountAll = 2 ∧ Counted w := by
  have hrun : run step (start 5 10) gapAtEdge = some _ := rfl
  refine ⟨_, hrun, by decide +kernel, ?_⟩
  exact (loss_counts_of_run (by decide +kernel) hrun).1

/-- The first packet comes 2500 ms after the clock started, and three packets are lost. -/
def atOverlap : List Arrival := [⟨0, 2500, 2500⟩, ⟨4, 2600, 2600⟩]

/-- The gap is not counted, as the start tick is 0 again. -/
theorem loss_not_counted :
    ¬ ∀ (timeSpan maxBrokenDuration : Int) (arrivals : List Arrival) (w : LossRate × Travel),
      Guarded step InScope (start timeSpan maxBrokenDuration) arrivals →
      run step (start timeSpan maxBrokenDuration) arrivals = some w → Counted w := by
  intro hclaim
  have hcounted := (hclaim 5 10 atOverlap _ (by decide +kernel) rfl).1
  revert hcounted
  decide +kernel

end LossRate

end Pronet.Util
