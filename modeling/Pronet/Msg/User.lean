import Mathlib

/-! Message users. A user id is `classId-userId-instId`; the 40-bit user id is
kept as the five bytes of the wire struct, most significant first. -/
namespace Pronet.Msg

open Std

structure MsgUser where
  classId : UInt8
  userId1 : UInt8
  userId2 : UInt8
  userId3 : UInt8
  userId4 : UInt8
  userId5 : UInt8
  instId : UInt16
  deriving DecidableEq, Repr

namespace MsgUser

/-- `UserId()`: the 40-bit value of the five bytes. -/
def userId (user : MsgUser) : Nat :=
  (((user.userId1.toNat * 256 + user.userId2.toNat) * 256 + user.userId3.toNat) * 256 +
    user.userId4.toNat) * 256 + user.userId5.toNat

/-- `UserId(userId)`: store the low 40 bits. -/
def setUserId (user : MsgUser) (userId : Nat) : MsgUser :=
  { user with
    userId1 := UInt8.ofNat (userId / 256 ^ 4)
    userId2 := UInt8.ofNat (userId / 256 ^ 3)
    userId3 := UInt8.ofNat (userId / 256 ^ 2)
    userId4 := UInt8.ofNat (userId / 256)
    userId5 := UInt8.ofNat userId }

def ofIds (classId : UInt8) (userId : Nat) (instId : UInt16) : MsgUser :=
  setUserId ⟨classId, 0, 0, 0, 0, 0, instId⟩ userId

def isRoot (user : MsgUser) : Bool :=
  user.classId == 1 && user.userId == 1

/-- The test the message nodes make before they use a user: neither part is zero. -/
def valid (user : MsgUser) : Bool :=
  user.classId != 0 && user.userId != 0

/-- `operator<` compares the fields in declaration order. -/
instance : Ord MsgUser where
  compare := compareLex (compareOn classId) <| compareLex (compareOn userId1) <|
    compareLex (compareOn userId2) <| compareLex (compareOn userId3) <|
    compareLex (compareOn userId4) <| compareLex (compareOn userId5) (compareOn instId)

instance : TransOrd MsgUser :=
  inferInstanceAs (TransCmp (compareLex _ (compareLex _ (compareLex _
    (compareLex _ (compareLex _ (compareLex _ _)))))))

instance : LawfulEqOrd MsgUser where
  eq_of_compare {left right} h := by
    have h : compareLex (compareOn classId) (compareLex (compareOn userId1)
      (compareLex (compareOn userId2) (compareLex (compareOn userId3)
      (compareLex (compareOn userId4) (compareLex (compareOn userId5) (compareOn instId))))))
        left right = .eq := h
    simp only [compareLex, compareOn, Ordering.then_eq_eq, Std.compare_eq_iff_eq] at h
    cases left
    cases right
    simp_all

theorem setUserId_classId (user : MsgUser) (userId : Nat) :
    (user.setUserId userId).classId = user.classId := rfl

theorem userId_setUserId (user : MsgUser) {userId : Nat} (h : userId < 2 ^ 40) :
    (user.setUserId userId).userId = userId := by
  simp only [MsgUser.userId, setUserId, UInt8.toNat_ofNat']
  omega

/-- The user as one 64-bit number. -/
def toNat (user : MsgUser) : Nat :=
  (user.classId.toNat * 2 ^ 40 + user.userId) * 2 ^ 16 + user.instId.toNat

theorem toNat_lt (user : MsgUser) : user.toNat < 2 ^ 64 := by
  simp only [toNat, userId]
  have := user.classId.toNat_lt
  have := user.userId1.toNat_lt
  have := user.userId2.toNat_lt
  have := user.userId3.toNat_lt
  have := user.userId4.toNat_lt
  have := user.userId5.toNat_lt
  have := user.instId.toNat_lt
  omega

theorem toNat_injective : Function.Injective toNat := by
  rintro ⟨c, a, b, d, e, f, i⟩ ⟨c', a', b', d', e', f', i'⟩ h
  simp only [toNat, userId] at h
  simp only [mk.injEq, ← UInt8.toNat_inj, ← UInt16.toNat_inj]
  have := a.toNat_lt
  have := a'.toNat_lt
  have := b.toNat_lt
  have := b'.toNat_lt
  have := d.toNat_lt
  have := d'.toNat_lt
  have := e.toNat_lt
  have := e'.toNat_lt
  have := f.toNat_lt
  have := f'.toNat_lt
  have := i.toNat_lt
  have := i'.toNat_lt
  omega

theorem userId_lt (user : MsgUser) : user.userId < 2 ^ 40 := by
  simp only [userId]
  have := user.userId1.toNat_lt
  have := user.userId2.toNat_lt
  have := user.userId3.toNat_lt
  have := user.userId4.toNat_lt
  have := user.userId5.toNat_lt
  omega

/-- A user is its class, its user id and its instance. -/
theorem eq_of_ids {user other : MsgUser} (hclass : user.classId = other.classId)
    (huser : user.userId = other.userId) (hinst : user.instId = other.instId) : user = other := by
  apply toNat_injective
  simp only [toNat, hclass, huser, hinst]

theorem ofIds_eq (user : MsgUser) : ofIds user.classId user.userId user.instId = user :=
  eq_of_ids rfl (userId_setUserId _ user.userId_lt) rfl

/-- There are only `2 ^ 64` users. -/
theorem length_le_of_nodup {users : List MsgUser} (h : users.Nodup) : users.length ≤ 2 ^ 64 := by
  have hmap : (users.map toNat).Nodup := h.map toNat_injective
  have hsub : users.map toNat ⊆ List.range (2 ^ 64) := by
    intro n hn
    obtain ⟨user, -, rfl⟩ := List.mem_map.mp hn
    exact List.mem_range.mpr user.toNat_lt
  simpa using (hmap.subperm hsub).length_le

end MsgUser

def rootId : MsgUser := .ofIds 1 1 0
def rootIdC2s : MsgUser := .ofIds 1 1 65535
def serverCid : UInt8 := 1
def nodeUidMin : Nat := 1
def nodeUidMax : Nat := 0xEFFFFFFFFF
def nodeUidMaxx : Nat := 0xFFFFFFFFFF
def maxPendingCount : Nat := 5000

end Pronet.Msg
