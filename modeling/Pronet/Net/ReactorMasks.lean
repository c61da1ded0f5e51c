import Pronet.Net.Reactors

/-! What masks mean. A registry maps a socket to its handler and to the set of what the
handler is interested in; the masks of the reactors compute these sets bit by bit. -/
namespace Pronet.Net

inductive Interest
  | write
  | read
  | exception
  deriving DecidableEq, Repr

def wants (mask : UInt64) : Interest → Bool
  | .write => bitEnabled mask maskWrite || bitEnabled mask maskConnect
  | .read => bitEnabled mask maskRead || bitEnabled mask maskAccept || bitEnabled mask maskConnect
  | .exception => bitEnabled mask maskException || bitEnabled mask maskConnect

def interests (mask : UInt64) : Finset Interest :=
  ({.write, .read, .exception} : Finset Interest).filter fun i => wants mask i

/-- The masks in the tables. -/
def tableMasks : List UInt64 := [0, 4, 8, 12, 16, 20, 24, 28]

theorem knownMask_mem (mask : UInt64) : knownMask mask ∈ (List.range 32).map UInt64.ofNat := by
  have hall : maskAccept ||| maskConnect ||| maskWrite ||| maskRead ||| maskException = 31 := by decide
  have hle : (mask &&& 31).toNat ≤ 31 := by
    rw [UInt64.toNat_and]
    exact Nat.and_le_right
  rw [knownMask, hall, List.mem_map]
  exact ⟨(mask &&& 31).toNat, List.mem_range.mpr (Nat.lt_succ_of_le hle), UInt64.ofNat_toNat⟩

/-- A fact about the masks of a list is checked for each of them. -/
theorem forall_mem_of_all {masks : List UInt64} {p : UInt64 → Prop} [DecidablePred p]
    (hall : masks.all (fun m => decide (p m)) = true) {mask : UInt64} (hmem : mask ∈ masks) : p mask :=
  of_decide_eq_true (List.all_eq_true.mp hall mask hmem)

theorem forall_mem_of_all₂ {masks : List UInt64} {p : UInt64 → UInt64 → Prop}
    [∀ a b, Decidable (p a b)]
    (hall : masks.all (fun a => masks.all fun b => decide (p a b)) = true) {a b : UInt64}
    (ha : a ∈ masks) (hb : b ∈ masks) : p a b :=
  of_decide_eq_true (List.all_eq_true.mp (List.all_eq_true.mp hall a ha) b hb)

theorem widenMask_known_mem (mask : UInt64) : widenMask (knownMask mask) ∈ tableMasks := by
  refine forall_mem_of_all (p := fun m => widenMask m ∈ tableMasks) ?_ (knownMask_mem mask)
  decide

theorem bitEnabled_knownMask (mask bit : UInt64) (hbit : 31 &&& bit = bit) :
    bitEnabled (knownMask mask) bit = bitEnabled mask bit := by
  have hall : maskAccept ||| maskConnect ||| maskWrite ||| maskRead ||| maskException = 31 := by decide
  rw [bitEnabled, bitEnabled, knownMask, hall, UInt64.and_assoc, hbit]

theorem wants_knownMask (mask : UInt64) (i : Interest) : wants (knownMask mask) i = wants mask i := by
  have haccept := bitEnabled_knownMask mask maskAccept (by decide)
  have hconnect := bitEnabled_knownMask mask maskConnect (by decide)
  have hwrite := bitEnabled_knownMask mask maskWrite (by decide)
  have hread := bitEnabled_knownMask mask maskRead (by decide)
  have hexception := bitEnabled_knownMask mask maskException (by decide)
  cases i with
  | write => rw [wants, wants, hwrite, hconnect]
  | read => rw [wants, wants, hread, haccept, hconnect]
  | exception => rw [wants, wants, hexception, hconnect]

theorem interests_known (mask : UInt64) : interests (knownMask mask) = interests mask := by
  simp only [interests, wants_knownMask]

theorem interests_widen (mask : UInt64) : interests (widenMask (knownMask mask)) = interests mask := by
  have hwiden : interests (widenMask (knownMask mask)) = interests (knownMask mask) := by
    refine forall_mem_of_all (p := fun m => interests (widenMask m) = interests m) ?_
      (knownMask_mem mask)
    decide
  rw [hwiden, interests_known]

theorem interests_known_eq_empty (mask : UInt64) : interests mask = ∅ ↔ knownMask mask = 0 := by
  rw [← interests_known]
  refine forall_mem_of_all (p := fun m => interests m = ∅ ↔ m = 0) ?_ (knownMask_mem mask)
  decide

section TableMasks

variable {a b : UInt64} (ha : a ∈ tableMasks)
include ha

theorem mask_eq_zero : (interests a = ∅ ↔ a = 0) ∧ (addEvents 0 a = 0 ↔ a = 0) := by
  refine forall_mem_of_all
    (p := fun a => (interests a = ∅ ↔ a = 0) ∧ (addEvents 0 a = 0 ↔ a = 0)) ?_ ha
  decide +kernel

theorem bitEnabled_iff :
    (bitEnabled a maskWrite = true ↔ Interest.write ∈ interests a) ∧
      (bitEnabled a maskRead = true ↔ Interest.read ∈ interests a) ∧
      (bitEnabled a maskException = true ↔ Interest.exception ∈ interests a) := by
  refine forall_mem_of_all (p := fun a =>
    (bitEnabled a maskWrite = true ↔ Interest.write ∈ interests a) ∧
      (bitEnabled a maskRead = true ↔ Interest.read ∈ interests a) ∧
      (bitEnabled a maskException = true ↔ Interest.exception ∈ interests a)) ?_ ha
  decide +kernel

variable (hb : b ∈ tableMasks)
include hb

theorem tableMasks_closed :
    a ||| b ∈ tableMasks ∧ a &&& b ∈ tableMasks ∧ a &&& ~~~b ∈ tableMasks := by
  refine forall_mem_of_all₂ (p := fun a b =>
    a ||| b ∈ tableMasks ∧ a &&& b ∈ tableMasks ∧ a &&& ~~~b ∈ tableMasks) ?_ ha hb
  decide +kernel

theorem interests_inj : interests a = interests b ↔ a = b := by
  refine forall_mem_of_all₂ (p := fun a b => interests a = interests b ↔ a = b) ?_ ha hb
  decide +kernel

theorem interests_ops :
    interests (a ||| b) = interests a ∪ interests b ∧
      interests (a &&& b) = interests a ∩ interests b ∧
      interests (a &&& ~~~b) = interests a \ interests b := by
  refine forall_mem_of_all₂ (p := fun a b =>
    interests (a ||| b) = interests a ∪ interests b ∧
      interests (a &&& b) = interests a ∩ interests b ∧
      interests (a &&& ~~~b) = interests a \ interests b) ?_ ha hb
  decide +kernel

theorem events_ops :
    addEvents (addEvents 0 a) b = addEvents 0 (a ||| b) ∧
      clearEvents (addEvents 0 a) b = addEvents 0 (a &&& ~~~b) := by
  refine forall_mem_of_all₂ (p := fun a b =>
    addEvents (addEvents 0 a) b = addEvents 0 (a ||| b) ∧
      clearEvents (addEvents 0 a) b = addEvents 0 (a &&& ~~~b)) ?_ ha hb
  decide +kernel

end TableMasks

/-- What a reactor is for: who is told what about a socket. -/
abbrev Registry : Type := Int → Option (Nat × Finset Interest)

namespace Registry

def empty : Registry := fun _ => none

/-- A handler adds its interests to a socket that is its own, or nobody's. -/
def addEntry (old : Option (Nat × Finset Interest)) (handler : Nat) (more : Finset Interest) :
    Option (Nat × Finset Interest) × Bool :=
  match old with
  | none => (some (handler, more), true)
  | some (owner, held) => if handler = owner then (some (owner, held ∪ more), true) else (old, false)

def removeEntry (old : Option (Nat × Finset Interest)) (less : Finset Interest) :
    Option (Nat × Finset Interest) :=
  old.bind fun (owner, held) => if held \ less = ∅ then none else some (owner, held \ less)

def add (t : Registry) (sockId : Int) (handler : Option Nat) (more : Finset Interest) :
    Registry × Bool :=
  match handler with
  | none => (t, false)
  | some handler =>
      if sockId = -1 ∨ more = ∅ then (t, false)
      else
        (Function.update t sockId (addEntry (t sockId) handler more).1,
          (addEntry (t sockId) handler more).2)

def remove (t : Registry) (sockId : Int) (less : Finset Interest) : Registry :=
  if sockId = -1 then t else Function.update t sockId (removeEntry (t sockId) less)

end Registry

end Pronet.Net
