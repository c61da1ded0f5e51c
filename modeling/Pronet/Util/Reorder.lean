import Pronet.Library.Runs
import Pronet.Library.Tables

/-! `CProReorder`. A tick read from the clock is an argument of the operation that
reads it. Sequence numbers that count on past 65536 stay far below `2 ^ 63`. -/
namespace Pronet.Util

open Std Library

/-- A packet object and the number it carries. -/
structure SeqPacket where
  packetId : Nat
  seq : UInt16
  deriving DecidableEq, Repr

/-- The buffer, with the tick and the reference count of every packet object. -/
structure Reorder where
  maxPacketCount : Nat
  maxWaitingDuration : Int
  maxBrokenDuration : Int
  minSeq64 : Int
  lastValidTick : Int
  seq64ToPacket : ExtTreeMap Int SeqPacket
  tick_i : Nat → Int
  refs : Nat → Nat

def maxLossCount : Int := 15000

/-- `seq64 <<= 16; seq64 |= seq16`. -/
def joinSeq (high : Int) (seq16 : UInt16) : Int := high * 65536 + seq16.toNat

/-- On 64 bits the join is the shift and the or of the source. -/
theorem joinSeq_bits (high : Int) (seq16 : UInt16) :
    BitVec.ofInt 64 (joinSeq high seq16) =
      BitVec.ofInt 64 high <<< 16 ||| seq16.toBitVec.setWidth 64 := by
  have hdisjoint : BitVec.ofInt 64 high <<< 16 &&& seq16.toBitVec.setWidth 64 = 0#64 := by
    ext i hi
    by_cases hlow : i < 16
    · simp [hlow]
    · have hhigh : seq16.toBitVec.getLsbD i = false := BitVec.getLsbD_of_ge _ _ (by omega)
      simp [hhigh]
  have hseq : BitVec.ofInt 64 seq16.toNat = seq16.toBitVec.setWidth 64 := by
    rw [BitVec.ofInt_natCast]
    exact BitVec.eq_of_toNat_eq (by simp)
  rw [← BitVec.add_eq_or_of_and_eq_zero _ _ hdisjoint]
  unfold joinSeq
  rw [BitVec.ofInt_add, BitVec.shiftLeft_eq_mul_twoPow, BitVec.ofInt_mul, hseq]
  rfl

namespace Reorder

/-- The number of a packet, seen from the base. -/
def seq64Of (minSeq64 : Int) (seq16 : UInt16) : Int :=
  let seq : Int := seq16.toNat
  let min16 := minSeq64 % 65536
  if seq = min16 then minSeq64
  else if seq < min16 then
    let dist1 := (65535 - min16 + seq + 1) % 65536
    let dist2 := (min16 - seq) % 65536
    if dist1 < dist2 ∧ dist1 < maxLossCount then
      joinSeq (minSeq64 / 65536 + 1) seq16
    else if dist2 < dist1 ∧ dist2 < maxLossCount then
      joinSeq (minSeq64 / 65536) seq16
    else -1
  else
    let dist1 := (seq - min16) % 65536
    let dist2 := (65535 - seq + min16 + 1) % 65536
    if dist1 < dist2 ∧ dist1 < maxLossCount then
      joinSeq (minSeq64 / 65536) seq16
    else if dist2 < dist1 ∧ dist2 < maxLossCount then
      joinSeq (minSeq64 / 65536 - 1) seq16
    else -1

/-- How far a number lies ahead of the base, around the circle. -/
def ahead (minSeq64 : Int) (seq16 : UInt16) : Int := (seq16.toNat - minSeq64) % 65536

theorem seq64Of_eq (minSeq64 : Int) (seq16 : UInt16) :
    seq64Of minSeq64 seq16 =
      if ahead minSeq64 seq16 < maxLossCount then minSeq64 + ahead minSeq64 seq16
      else if 65536 - ahead minSeq64 seq16 < maxLossCount then
        minSeq64 + ahead minSeq64 seq16 - 65536
      else -1 := by
  have hseq := UInt16.toNat_lt seq16
  unfold seq64Of ahead joinSeq maxLossCount
  simp only
  split_ifs <;> omega

def addRef (r : Reorder) (packetId : Nat) : Reorder :=
  { r with refs := Function.update r.refs packetId (r.refs packetId + 1) }

def release (r : Reorder) (packetId : Nat) : Reorder :=
  { r with refs := Function.update r.refs packetId (r.refs packetId - 1) }

/-- Release every stored packet and forget it. -/
def clear (r : Reorder) : Reorder :=
  { r.seq64ToPacket.toList.foldl (fun r entry => r.release entry.2.packetId) r with
    seq64ToPacket := ∅ }

/-- `SetTick_i`, `AddRef` and the new entry. -/
def store (r : Reorder) (seq64 : Int) (packet : SeqPacket) (tick : Int) : Reorder :=
  let r := { r with tick_i := Function.update r.tick_i packet.packetId tick }.addRef packet.packetId
  { r with seq64ToPacket := r.seq64ToPacket.insert seq64 packet, lastValidTick := tick }

/-- The two clearing branches: start again at this packet. -/
def restart (r : Reorder) (packet : SeqPacket) (tick : Int) : Reorder :=
  let r := r.clear.store packet.seq.toNat packet tick
  { r with minSeq64 := packet.seq.toNat }

/-- The first packet sets the base. -/
def based (r : Reorder) (packet : SeqPacket) (tick : Int) : Reorder :=
  if r.minSeq64 = -1 then { r with minSeq64 := packet.seq.toNat, lastValidTick := tick } else r

def pushBack (r : Reorder) (packet : SeqPacket) (tick : Int) : Reorder :=
  let r := r.based packet tick
  if tick - r.lastValidTick > r.maxBrokenDuration * 1000 then r.restart packet tick
  else
    let seq64 := seq64Of r.minSeq64 packet.seq
    if seq64 = -1 then r.restart packet tick
    else if seq64 ≥ r.minSeq64 then
      if seq64 ∈ r.seq64ToPacket then r else r.store seq64 packet tick
    else r

def popFront (r : Reorder) (tick : Int) : Reorder × Option SeqPacket :=
  match r.seq64ToPacket.toList with
  | [] => (r, none)
  | (seq64, packet) :: _ =>
      if seq64 = r.minSeq64 ∨ r.seq64ToPacket.size ≥ r.maxPacketCount ∨
          tick - r.tick_i packet.packetId ≥ r.maxWaitingDuration * 1000 then
        ({ r with seq64ToPacket := r.seq64ToPacket.erase seq64, minSeq64 := seq64 + 1 }, some packet)
      else (r, none)

def reset (r : Reorder) : Reorder :=
  { r with minSeq64 := -1, lastValidTick := 0 }.clear

def setMaxPacketCount (r : Reorder) (maxPacketCount : UInt8) : Reorder :=
  if maxPacketCount = 0 then r else { r with maxPacketCount := maxPacketCount.toNat }

def setMaxWaitingDuration (r : Reorder) (seconds : UInt8) : Reorder :=
  if seconds = 0 then r else { r with maxWaitingDuration := seconds.toNat }

def setMaxBrokenDuration (r : Reorder) (seconds : UInt8) : Reorder :=
  if seconds = 0 then r else { r with maxBrokenDuration := seconds.toNat }

/-- The loop of `OnRecvSession`: pop until nothing comes, at most `fuel` times.
`ticks` are the ticks of the calls, the last one first. -/
def drain (ticks : Nat → Int) : Nat → Reorder → Reorder × List SeqPacket
  | 0, r => (r, [])
  | fuel + 1, r =>
      match r.popFront (ticks fuel) with
      | (r, none) => (r, [])
      | (r, some packet) =>
          let (r, packets) := drain ticks fuel r
          (r, packet :: packets)

/-- A buffer under construction, among packets that others may hold. -/
def init (refs : Nat → Nat) : Reorder := ⟨5, 1, 10, -1, 0, ∅, fun _ => 0, refs⟩

end Reorder

end Pronet.Util
