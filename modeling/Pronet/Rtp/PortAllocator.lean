import Pronet.Library.Runs

/-! `CRtpPortAllocator`. What `ProRand_0_1() * m_portSpan` gives, cut to sixteen bits, is an
argument. The lock makes one step of every call. -/
namespace Pronet.Rtp

open Library Runs

structure PortAllocator where
  portBase : UInt16
  portSpan : UInt16
  portItr : UInt16
deriving DecidableEq, Repr

namespace PortAllocator

def defaultMinPort : UInt16 := 3000

def defaultMaxPort : UInt16 := 5999

def init (draw : UInt16) : PortAllocator :=
  { portBase := defaultMinPort
    portSpan := defaultMaxPort - defaultMinPort
    portItr := draw / 2 * 2 }

/-- An odd `minPort` goes up by one. -/
def evenMin (minPort : UInt16) : UInt16 := if minPort % 2 ≠ 0 then minPort + 1 else minPort

/-- An even `maxPort` goes down by one. -/
def oddMax (maxPort : UInt16) : UInt16 := if maxPort % 2 = 0 then maxPort - 1 else maxPort

def setPortRange (s : PortAllocator) (minPort maxPort draw : UInt16) : Bool × PortAllocator :=
  if minPort = 0 ∨ minPort ≥ maxPort then (false, s)
  else
    let minPort := evenMin minPort
    let maxPort := oddMax maxPort
    if minPort ≥ maxPort then (false, s)
    else (true, { portBase := minPort, portSpan := maxPort - minPort, portItr := draw / 2 * 2 })

def getPortRange (s : PortAllocator) : UInt16 × UInt16 :=
  (s.portBase, s.portBase + s.portSpan)

def allocPort (s : PortAllocator) : UInt16 × PortAllocator :=
  let port := s.portBase + s.portItr % s.portSpan
  (if port % 2 ≠ 0 then port - 1 else port, { s with portItr := s.portItr + 2 })

/-- The ports of `n` calls, and the allocator after them. -/
def allocPorts : Nat → PortAllocator → List UInt16 × PortAllocator
  | 0, s => ([], s)
  | n + 1, s =>
      let (port, next) := s.allocPort
      let (ports, last) := next.allocPorts n
      (port :: ports, last)

end PortAllocator

/-- The even ports that leave room for the odd one after them. -/
def PairPort (minPort maxPort port : UInt16) : Prop :=
  port.toNat % 2 = 0 ∧ minPort.toNat ≤ port.toNat ∧ port.toNat + 1 ≤ maxPort.toNat

instance (minPort maxPort port : UInt16) : Decidable (PairPort minPort maxPort port) :=
  inferInstanceAs (Decidable (_ ∧ _))

namespace PortAllocator

/-- The range begins with an even port and ends with an odd one. -/
structure Ranged (s : PortAllocator) : Prop where
  base_even : s.portBase.toNat % 2 = 0
  span_odd : s.portSpan.toNat % 2 = 1
  itr_even : s.portItr.toNat % 2 = 0
  fits : s.portBase.toNat + s.portSpan.toNat < 2 ^ 16

theorem even_draw (draw : UInt16) : (draw / 2 * 2).toNat % 2 = 0 := by
  simp [UInt16.toNat_mul, UInt16.toNat_div]

theorem toNat_evenMin {minPort : UInt16} (h : minPort.toNat + 1 < 2 ^ 16) :
    (evenMin minPort).toNat = (minPort.toNat + 1) / 2 * 2 := by
  unfold evenMin
  split
  · rename_i hodd
    have hodd : minPort.toNat % 2 ≠ 0 := fun h0 => hodd (UInt16.toNat_inj.mp (by simpa using h0))
    simp only [UInt16.toNat_add, UInt16.toNat_ofNat]
    omega
  · rename_i heven
    have heven : minPort.toNat % 2 = 0 := by simpa using congrArg UInt16.toNat (not_not.mp heven)
    omega

theorem toNat_oddMax {maxPort : UInt16} (h : 0 < maxPort.toNat) :
    (oddMax maxPort).toNat = (maxPort.toNat - 1) / 2 * 2 + 1 := by
  unfold oddMax
  split
  · rename_i heven
    have heven : maxPort.toNat % 2 = 0 := by simpa using congrArg UInt16.toNat heven
    rw [UInt16.toNat_sub_of_le maxPort 1 (UInt16.le_iff_toNat_le.mpr h), UInt16.toNat_one]
    omega
  · rename_i hodd
    have hodd : maxPort.toNat % 2 ≠ 0 := fun h0 => hodd (UInt16.toNat_inj.mp (by simpa using h0))
    omega

theorem Ranged.init (draw : UInt16) : Ranged (init draw) where
  base_even := show defaultMinPort.toNat % 2 = 0 by decide
  span_odd := show (defaultMaxPort - defaultMinPort).toNat % 2 = 1 by decide
  itr_even := even_draw draw
  fits := show defaultMinPort.toNat + (defaultMaxPort - defaultMinPort).toNat < 2 ^ 16 by decide

/-- What an accepted range sets. The two ends move inwards, and no pair is lost. -/
theorem setPortRange_spec {s next : PortAllocator} {minPort maxPort draw : UInt16}
    (h : s.setPortRange minPort maxPort draw = (true, next)) :
    Ranged next ∧ minPort.toNat < maxPort.toNat ∧
      next.portBase.toNat = (minPort.toNat + 1) / 2 * 2 ∧
      next.portBase.toNat + next.portSpan.toNat = (maxPort.toNat - 1) / 2 * 2 + 1 := by
  have hmax := maxPort.toNat_lt
  unfold setPortRange at h
  split at h
  · simp at h
  · rename_i hbad
    have hlt : minPort.toNat < maxPort.toNat :=
      UInt16.lt_iff_toNat_lt.mp (UInt16.not_le.mp (not_or.mp hbad).2)
    have hlow := @toNat_evenMin minPort (by omega)
    have hhigh := @toNat_oddMax maxPort (by omega)
    dsimp only at h
    split at h
    · simp at h
    · rename_i hle
      have hle := UInt16.lt_iff_toNat_lt.mp (UInt16.not_le.mp hle)
      have hspan := UInt16.toNat_sub_of_le _ _ (UInt16.le_iff_toNat_le.mpr hle.le)
      obtain rfl := (Prod.mk.inj h).2
      refine ⟨⟨?_, ?_, even_draw draw, ?_⟩, hlt, hlow, ?_⟩
      all_goals
        dsimp only
        omega

/-- A range is accepted if and only if it does not begin at zero and a pair fits it. -/
theorem setPortRange_accepts (s : PortAllocator) (minPort maxPort draw : UInt16) :
    (s.setPortRange minPort maxPort draw).1 = true ↔
      minPort ≠ 0 ∧ ∃ port, PairPort minPort maxPort port := by
  have hmax := maxPort.toNat_lt
  unfold setPortRange
  split
  · rename_i hbad
    simp only [Bool.false_eq_true, false_iff]
    rintro ⟨hzero, port, -, hlow, hhigh⟩
    have hle := UInt16.le_iff_toNat_le.mp (hbad.resolve_left hzero)
    omega
  · rename_i hbad
    have hgood := not_or.mp hbad
    have hlt : minPort.toNat < maxPort.toNat := UInt16.lt_iff_toNat_lt.mp (UInt16.not_le.mp hgood.2)
    have hlow := @toNat_evenMin minPort (by omega)
    have hhigh := @toNat_oddMax maxPort (by omega)
    dsimp only
    split
    · rename_i hle
      have hle := UInt16.le_iff_toNat_le.mp hle
      simp only [Bool.false_eq_true, false_iff]
      rintro ⟨-, port, heven, hge, hfit⟩
      omega
    · rename_i hle
      have hle := UInt16.lt_iff_toNat_lt.mp (UInt16.not_le.mp hle)
      simp only [true_iff]
      refine ⟨hgood.1, evenMin minPort, ?_, ?_, ?_⟩
      all_goals omega

/-- A refused range leaves the allocator as it was. -/
theorem setPortRange_refused {s : PortAllocator} {minPort maxPort draw : UInt16}
    (h : (s.setPortRange minPort maxPort draw).1 = false) :
    (s.setPortRange minPort maxPort draw).2 = s := by
  unfold setPortRange at h ⊢
  dsimp only at h ⊢
  split_ifs at h ⊢ <;> rfl

/-! The port is the iterator reduced by the odd span and rounded down, counted from the even
base. -/

theorem toNat_allocPort {s : PortAllocator} (hs : Ranged s) :
    s.allocPort.1.toNat = s.portBase.toNat + s.portItr.toNat % s.portSpan.toNat / 2 * 2 := by
  obtain ⟨hbase, hspan, -, hfits⟩ := hs
  have hmod := Nat.mod_lt s.portItr.toNat (show 0 < s.portSpan.toNat by omega)
  have hport : (s.portBase + s.portItr % s.portSpan).toNat =
      s.portBase.toNat + s.portItr.toNat % s.portSpan.toNat := by
    rw [UInt16.toNat_add, UInt16.toNat_mod, Nat.mod_eq_of_lt (by omega)]
  unfold allocPort
  dsimp only
  split
  · rename_i hodd
    have hodd : (s.portBase + s.portItr % s.portSpan).toNat % 2 ≠ 0 :=
      fun h0 => hodd (UInt16.toNat_inj.mp (by simpa using h0))
    have hpos : (1 : UInt16) ≤ s.portBase + s.portItr % s.portSpan :=
      UInt16.le_iff_toNat_le.mpr (by rw [UInt16.toNat_one]; omega)
    rw [UInt16.toNat_sub_of_le _ _ hpos, hport, UInt16.toNat_one]
    omega
  · rename_i heven
    have heven : (s.portBase + s.portItr % s.portSpan).toNat % 2 = 0 := by
      simpa using congrArg UInt16.toNat (not_not.mp heven)
    omega

theorem Ranged.allocPort {s : PortAllocator} (hs : Ranged s) : Ranged s.allocPort.2 where
  base_even := hs.base_even
  span_odd := hs.span_odd
  itr_even := by
    have hitr := hs.itr_even
    have hwrap : (s.portItr + 2).toNat = (s.portItr.toNat + 2) % 2 ^ 16 := by
      rw [UInt16.toNat_add]; rfl
    show (s.portItr + 2).toNat % 2 = 0
    omega
  fits := hs.fits

theorem allocPort_pairPort {s : PortAllocator} (hs : Ranged s) :
    PairPort s.portBase (s.portBase + s.portSpan) s.allocPort.1 := by
  have hport := toNat_allocPort hs
  obtain ⟨hbase, hspan, -, hfits⟩ := hs
  have hmod := Nat.mod_lt s.portItr.toNat (show 0 < s.portSpan.toNat by omega)
  unfold PairPort
  rw [UInt16.toNat_add, hport]
  omega

/-! Calls of both functions in any order. -/

inductive Call where
  | setPortRange (minPort maxPort draw : UInt16)
  | allocPort

/-- One call, with the port it gives and the range in force. -/
def perform (s : PortAllocator) : Call → Option (PortAllocator × List ((UInt16 × UInt16) × UInt16))
  | .setPortRange minPort maxPort draw => some ((s.setPortRange minPort maxPort draw).2, [])
  | .allocPort => some (s.allocPort.2, [(s.getPortRange, s.allocPort.1)])

theorem Ranged.setPortRange {s : PortAllocator} (hs : Ranged s) (minPort maxPort draw : UInt16) :
    Ranged (s.setPortRange minPort maxPort draw).2 := by
  cases hres : (s.setPortRange minPort maxPort draw).1 with
  | false => rwa [setPortRange_refused hres]
  | true => exact (setPortRange_spec (Prod.ext hres rfl)).1

/-- The range is fit for pairs, and so was every port that was given. -/
def Served (s : PortAllocator × List ((UInt16 × UInt16) × UInt16)) : Prop :=
  Ranged s.1 ∧ ∀ given ∈ s.2, PairPort given.1.1 given.1.2 given.2

theorem Served.perform {s next : PortAllocator × List ((UInt16 × UInt16) × UInt16)} {call : Call}
    (hs : Served s) (hstep : logged perform s call = some next) : Served next := by
  obtain ⟨hranged, hgiven⟩ := hs
  cases call with
  | setPortRange minPort maxPort draw =>
    obtain rfl := Option.some.inj hstep
    refine ⟨hranged.setPortRange minPort maxPort draw, ?_⟩
    intro given hmem
    simp only [List.append_nil] at hmem
    exact hgiven given hmem
  | allocPort =>
    obtain rfl := Option.some.inj hstep
    refine ⟨hranged.allocPort, ?_⟩
    intro given hmem
    rcases List.mem_append.mp hmem with hold | hnew
    · exact hgiven given hold
    · rw [List.mem_singleton.mp hnew]
      exact allocPort_pairPort hranged

/-- From the constructor on, every port belongs to a pair inside the range that was in force. -/
theorem served_of_run {draw : UInt16} {calls : List Call}
    {final : PortAllocator × List ((UInt16 × UInt16) × UInt16)}
    (hrun : run (logged perform) (init draw, []) calls = some final) : Served final := by
  apply run_preserves (fun _ _ _ hs _ => hs.perform) _ (guarded_true _ calls) hrun
  exact ⟨.init draw, by simp⟩

/-! A run of calls moves the iterator on by two each time, modulo 2 ^ 16. -/

/-- The allocator after `k` calls. -/
def advanced (s : PortAllocator) (k : Nat) : PortAllocator :=
  { s with portItr := s.portItr + 2 * UInt16.ofNat k }

theorem advanced_zero (s : PortAllocator) : s.advanced 0 = s := by
  simp [advanced]

theorem allocPort_advanced (s : PortAllocator) (k : Nat) :
    s.allocPort.2.advanced k = s.advanced (k + 1) := by
  unfold allocPort advanced
  simp only [mk.injEq, true_and]
  rw [UInt16.ofNat_add, UInt16.mul_add, UInt16.add_assoc, UInt16.add_comm 2]
  rfl

theorem allocPorts_snd (n : Nat) (s : PortAllocator) : (s.allocPorts n).2 = s.advanced n := by
  induction n generalizing s with
  | zero => exact (advanced_zero s).symm
  | succ n ih => rw [← allocPort_advanced, ← ih, allocPorts]

theorem mem_allocPorts {n : Nat} {s : PortAllocator} {port : UInt16} :
    port ∈ (s.allocPorts n).1 ↔ ∃ k < n, (s.advanced k).allocPort.1 = port := by
  induction n generalizing s with
  | zero => simp [allocPorts]
  | succ n ih =>
    simp only [allocPorts, List.mem_cons, ih, allocPort_advanced]
    constructor
    · rintro (rfl | ⟨k, hk, hport⟩)
      · exact ⟨0, Nat.succ_pos n, by rw [advanced_zero]⟩
      · exact ⟨k + 1, Nat.succ_lt_succ hk, hport⟩
    · rintro ⟨k, hk, hport⟩
      cases k with
      | zero => exact Or.inl (by rw [← hport, advanced_zero])
      | succ k => exact Or.inr ⟨k, Nat.lt_of_succ_lt_succ hk, hport⟩

theorem Ranged.advanced {s : PortAllocator} (hs : Ranged s) (k : Nat) : Ranged (s.advanced k) := by
  induction k generalizing s with
  | zero => rwa [advanced_zero]
  | succ k ih =>
    rw [← allocPort_advanced]
    exact ih hs.allocPort

/-- Steps of two reach every even number within half of 2 ^ 16 steps, from any even number. -/
theorem exists_steps {start target : UInt16} (hstart : start.toNat % 2 = 0)
    (htarget : target.toNat % 2 = 0) : ∃ k < 32768, start + 2 * UInt16.ofNat k = target := by
  refine ⟨(target - start).toNat / 2, ?_, ?_⟩
  · have hdist := (target - start).toNat_lt
    omega
  · have hs := start.toNat_lt
    have ht := target.toNat_lt
    apply UInt16.toNat_inj.mp
    simp only [UInt16.toNat_add, UInt16.toNat_mul, UInt16.toNat_sub, UInt16.toNat_ofNat']
    simp only [UInt16.toNat_ofNat]
    omega

/-- An iterator inside the span is not reduced: it gives the port at its own distance. -/
theorem exists_call {s : PortAllocator} (hs : Ranged s) {port : UInt16}
    (hport : PairPort s.portBase (s.portBase + s.portSpan) port) :
    ∃ k < 32768, (s.advanced k).allocPort.1 = port := by
  obtain ⟨heven, hlow, hhigh⟩ := hport
  have hbase := hs.base_even
  have hfits := hs.fits
  rw [UInt16.toNat_add, Nat.mod_eq_of_lt hfits] at hhigh
  have hdist : (port - s.portBase).toNat = port.toNat - s.portBase.toNat :=
    UInt16.toNat_sub_of_le _ _ (UInt16.le_iff_toNat_le.mpr hlow)
  obtain ⟨k, hk, hitr⟩ := @exists_steps _ (port - s.portBase) hs.itr_even (by omega)
  refine ⟨k, hk, UInt16.toNat_inj.mp ?_⟩
  rw [toNat_allocPort (hs.advanced k)]
  have hreached : (s.advanced k).portItr = port - s.portBase := hitr
  have hinside : (port.toNat - s.portBase.toNat) % s.portSpan.toNat =
      port.toNat - s.portBase.toNat := Nat.mod_eq_of_lt (by omega)
  show s.portBase.toNat + (s.advanced k).portItr.toNat % s.portSpan.toNat / 2 * 2 = port.toNat
  rw [hreached, hdist, hinside]
  omega

theorem pairPort_of_setPortRange {s next : PortAllocator} {minPort maxPort draw : UInt16}
    (h : s.setPortRange minPort maxPort draw = (true, next)) (port : UInt16) :
    PairPort next.portBase (next.portBase + next.portSpan) port ↔ PairPort minPort maxPort port := by
  obtain ⟨hnext, hlt, hlow, hhigh⟩ := setPortRange_spec h
  have hfits := hnext.fits
  unfold PairPort
  rw [UInt16.toNat_add, Nat.mod_eq_of_lt hfits, hhigh, hlow]
  constructor
  · rintro ⟨heven, hge, hle⟩
    omega
  · rintro ⟨heven, hge, hle⟩
    omega

/-- However many calls went before, the ports that follow belong to pairs inside the range, and
32768 calls in a row give every such port. -/
theorem allocPorts_of_setPortRange {s next : PortAllocator} {minPort maxPort draw : UInt16}
    (h : s.setPortRange minPort maxPort draw = (true, next)) (before : Nat) :
    (∀ n, ∀ port ∈ ((next.allocPorts before).2.allocPorts n).1, PairPort minPort maxPort port) ∧
      ∀ port, PairPort minPort maxPort port →
        port ∈ ((next.allocPorts before).2.allocPorts 32768).1 := by
  have hranged := (setPortRange_spec h).1.advanced before
  rw [allocPorts_snd]
  constructor
  · intro n port hport
    obtain ⟨k, -, rfl⟩ := mem_allocPorts.mp hport
    exact (pairPort_of_setPortRange h _).mp (allocPort_pairPort (hranged.advanced k))
  · intro port hport
    exact mem_allocPorts.mpr (exists_call hranged ((pairPort_of_setPortRange h port).mpr hport))

/-- A wide range, begun behind its middle: its last pair is given after the iterator has come
round. -/
theorem allocPorts_of_setPortRange_wide :
    ((init 0).setPortRange 3001 65535 64001).1 = true ∧
      65534 ∈ ((((init 0).setPortRange 3001 65535 64001).2.allocPorts 100000).2.allocPorts 32768).1 :=
  ⟨by decide, (@allocPorts_of_setPortRange (init 0) _ 3001 65535 64001 (by decide) 100000).2 65534 (by decide)⟩

end PortAllocator

end Pronet.Rtp
