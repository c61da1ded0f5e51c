import Pronet.Msg.User
import Pronet.Util.Scanf

/-! `RtpMsgUser2String` and `RtpMsgString2User`. -/
namespace Pronet.Msg

open Library Numerals Util

def dash : UInt8 := 45

def MsgUser.zero : MsgUser := ⟨0, 0, 0, 0, 0, 0, 0⟩

def user2String (user : MsgUser) : List UInt8 :=
  sprintfU user.classId.toNat ++ dash :: (sprintfU user.userId ++ dash :: sprintfU user.instId.toNat)

/-- The strings in front of, between and behind the first two dashes; all are empty without a
dash, and `0` is the third one without a second dash. -/
def splitIds (idString : List UInt8) : List UInt8 × List UInt8 × List UInt8 :=
  match idString.dropWhile (· != dash) with
  | [] => ([], [], [])
  | _ :: rest =>
      match rest.dropWhile (· != dash) with
      | [] => (idString.takeWhile (· != dash), rest, [48])
      | _ :: iid => (idString.takeWhile (· != dash), rest.takeWhile (· != dash), iid)

/-- The bytes in front of the second dash, or of the end, that the two loops count in an `int`. -/
def scanned (idString : List UInt8) : Nat :=
  match idString.dropWhile (· != dash) with
  | [] => idString.length
  | _ :: rest => (idString.takeWhile (· != dash)).length + 1 + (rest.takeWhile (· != dash)).length

def maxCid : Nat := 0xFF

def maxUid : Nat := 0xFF * 2 ^ 32 + 0xFFFFFFFF

def maxIid : Nat := 0xFFFF

/-- `none` is an `int` that overflows. -/
def string2User (idString : List UInt8) : Option MsgUser :=
  if 2 ^ 31 ≤ scanned idString then none
  else
    let (cidString, uidString, iidString) := splitIds idString
    if cidString = [] ∨ uidString = [] ∨ iidString = [] then some .zero
    else if ¬ cidString.all (isDigit 10) ∨ ¬ uidString.all (isDigit 10) ∨
        ¬ iidString.all (isDigit 10) then some .zero
    else
      let cid := (sscanfU cidString).getD 0
      let uid := (sscanfLlu uidString).getD 0
      let iid := (sscanfU iidString).getD 0
      if cid ≤ maxCid ∧ uid ≤ maxUid ∧ iid ≤ maxIid then
        some (.ofIds (UInt8.ofNat cid) uid (UInt16.ofNat iid))
      else some .zero

/-! What the text of a user is. -/

/-- A number that may have leading zeros. -/
def IsNumber (text : List UInt8) : Prop := text ≠ [] ∧ ∀ b ∈ text, isDigit 10 b = true

inductive Joined : List UInt8 → List UInt8 → List UInt8 → List UInt8 → Prop
  | full (cid uid iid : List UInt8) : Joined (cid ++ dash :: (uid ++ dash :: iid)) cid uid iid
  | short (cid uid : List UInt8) : Joined (cid ++ dash :: uid) cid uid [48]

/-- The text consists of three numbers, or of two and the third one is zero. -/
structure IdText (text cid uid iid : List UInt8) : Prop where
  joined : Joined text cid uid iid
  cid_number : IsNumber cid
  uid_number : IsNumber uid
  iid_number : IsNumber iid

def InRange (cid uid iid : List UInt8) : Prop :=
  value 10 cid ≤ maxCid ∧ value 10 uid ≤ maxUid ∧ value 10 iid ≤ maxIid

/-- The user with these numbers if they are in range, and the zero user for any other text. -/
structure ReadsUser (text : List UInt8) : Prop where
  named : ∀ cid uid iid, IdText text cid uid iid → InRange cid uid iid →
    string2User text = some
      (.ofIds (UInt8.ofNat (value 10 cid)) (value 10 uid) (UInt16.ofNat (value 10 iid)))
  other : (∀ cid uid iid, IdText text cid uid iid → ¬ InRange cid uid iid) →
    string2User text = some .zero

/-- The class or the instance is out of range, and the conversion to 32 bits brings both back
into range. -/
def Narrowed (text : List UInt8) : Prop :=
  ∃ cid uid iid, IdText text cid uid iid ∧ (maxCid < value 10 cid ∨ maxIid < value 10 iid) ∧
    value 10 cid < 2 ^ 64 ∧ value 10 cid % 2 ^ 32 ≤ maxCid ∧
    value 10 iid < 2 ^ 64 ∧ value 10 iid % 2 ^ 32 ≤ maxIid ∧ value 10 uid ≤ maxUid ∧
    ¬ (value 10 cid % 2 ^ 32 = 0 ∧ value 10 uid = 0 ∧ value 10 iid % 2 ^ 32 = 0)

theorem ne_dash_of_isDigit {b : UInt8} (h : isDigit 10 b = true) : (b != dash) = true := by
  have := (not_sign_of_isDigit (by decide) h).2.1
  simpa [dash] using this

theorem takeWhile_number {text : List UInt8} (h : IsNumber text) (rest : List UInt8) :
    (text ++ dash :: rest).takeWhile (· != dash) = text ∧
      (text ++ dash :: rest).dropWhile (· != dash) = dash :: rest := by
  have hall : ∀ b ∈ text, (b != dash) = true := fun b hb => ne_dash_of_isDigit (h.2 b hb)
  rw [List.takeWhile_append_of_pos hall, List.dropWhile_append_of_pos hall]
  simp [dash]

theorem dropWhile_number {text : List UInt8} (h : IsNumber text) :
    text.takeWhile (· != dash) = text ∧ text.dropWhile (· != dash) = [] := by
  have hall : ∀ b ∈ text, (b != dash) = true := fun b hb => ne_dash_of_isDigit (h.2 b hb)
  exact ⟨List.takeWhile_eq_self_iff.mpr hall, List.dropWhile_eq_nil_iff.mpr hall⟩

theorem splitIds_of_idText {text cid uid iid : List UInt8} (h : IdText text cid uid iid) :
    splitIds text = (cid, uid, iid) := by
  obtain ⟨hjoined, hcid, huid, hiid⟩ := h
  unfold splitIds
  cases hjoined with
  | full =>
    rw [(takeWhile_number hcid _).1, (takeWhile_number hcid _).2]
    dsimp only
    rw [(takeWhile_number huid _).1, (takeWhile_number huid _).2]
  | short =>
    rw [(takeWhile_number hcid _).1, (takeWhile_number hcid _).2]
    dsimp only
    rw [(dropWhile_number huid).2]

/-- The first byte that `dropWhile` leaves is a dash. -/
theorem dropWhile_dash {text rest : List UInt8} {b : UInt8}
    (h : text.dropWhile (· != dash) = b :: rest) :
    text = text.takeWhile (· != dash) ++ dash :: rest := by
  have hb : b = dash := by
    have hhead := List.head_dropWhile_not (l := text) (· != dash)
      (by rw [h]; exact List.cons_ne_nil _ _)
    simp only [h, List.head_cons] at hhead
    simpa using hhead
  rw [hb] at h
  rw [← h, List.takeWhile_append_dropWhile]

theorem idText_of_splitIds {text cid uid iid : List UInt8} (h : splitIds text = (cid, uid, iid))
    (hcid : IsNumber cid) (huid : IsNumber uid) (hiid : IsNumber iid) : IdText text cid uid iid := by
  refine ⟨?_, hcid, huid, hiid⟩
  unfold splitIds at h
  split at h
  · obtain rfl := (Prod.mk.inj h).1
    exact absurd rfl hcid.1
  · rename_i b rest hfirst
    have htext := dropWhile_dash hfirst
    split at h
    · obtain ⟨hc, hu, hi⟩ : _ ∧ rest = uid ∧ [48] = iid := by simpa using h
      rw [htext, hc, hu, ← hi]
      exact .short cid uid
    · rename_i b' rest' hsecond
      have hrest := dropWhile_dash hsecond
      obtain ⟨hc, hu, hi⟩ : _ ∧ _ ∧ rest' = iid := by simpa using h
      rw [htext, hrest, hc, hu, hi]
      exact .full cid uid iid

/-- `%u` and the comparison behind it. -/
theorem narrow_le_iff {v limit : Nat} (hlimit : limit < 2 ^ 32 - 1) :
    min v (2 ^ 64 - 1) % 2 ^ 32 ≤ limit ↔ v < 2 ^ 64 ∧ v % 2 ^ 32 ≤ limit := by
  by_cases hv : v < 2 ^ 64
  · rw [Nat.min_eq_left (by omega), and_iff_right hv]
  · rw [Nat.min_eq_right (by omega)]
    simp only [hv, false_and, iff_false]
    omega

/-- What a text of three numbers gives. -/
theorem string2User_of_idText {text cid uid iid : List UInt8} (h : IdText text cid uid iid)
    (hshort : scanned text < 2 ^ 31) : string2User text = some
      (if (value 10 cid < 2 ^ 64 ∧ value 10 cid % 2 ^ 32 ≤ maxCid) ∧ value 10 uid ≤ maxUid ∧
          value 10 iid < 2 ^ 64 ∧ value 10 iid % 2 ^ 32 ≤ maxIid then
        .ofIds (UInt8.ofNat (value 10 cid % 2 ^ 32)) (value 10 uid)
          (UInt16.ofNat (value 10 iid % 2 ^ 32))
      else .zero) := by
  have hall : ∀ {number : List UInt8}, IsNumber number → number.all (isDigit 10) = true :=
    fun hnumber => List.all_eq_true.mpr hnumber.2
  unfold string2User
  rw [if_neg (by omega), splitIds_of_idText h]
  dsimp only
  rw [if_neg (by simp [h.cid_number.1, h.uid_number.1, h.iid_number.1]),
    if_neg (by simp only [hall h.cid_number, hall h.uid_number, hall h.iid_number]; decide),
    sscanfU_digits h.cid_number.2 h.cid_number.1, sscanfLlu_digits h.uid_number.2 h.uid_number.1,
    sscanfU_digits h.iid_number.2 h.iid_number.1]
  simp only [Option.getD_some]
  have hcid := @narrow_le_iff (value 10 cid) maxCid (by decide)
  have hiid := @narrow_le_iff (value 10 iid) maxIid (by decide)
  have huid : min (value 10 uid) (2 ^ 64 - 1) ≤ maxUid ↔ value 10 uid ≤ maxUid := by
    unfold maxUid
    omega
  simp only [hcid, hiid, huid]
  split
  · rename_i hin
    obtain ⟨⟨hcid', -⟩, huid', hiid', -⟩ := hin
    have hsmall : value 10 uid < 2 ^ 64 := by
      unfold maxUid at huid'
      omega
    rw [Nat.min_eq_left (by omega), Nat.min_eq_left (by omega), Nat.min_eq_left (by omega)]
  · rfl

/-- Any other text is refused. -/
theorem string2User_of_not_idText {text : List UInt8} (h : ∀ cid uid iid, ¬ IdText text cid uid iid)
    (hshort : scanned text < 2 ^ 31) : string2User text = some .zero := by
  unfold string2User
  rw [if_neg (by omega)]
  cases hsplit : splitIds text with
  | mk cid rest =>
    obtain ⟨uid, iid⟩ := rest
    dsimp only
    split
    · rfl
    · rename_i hne
      push Not at hne
      split
      · rfl
      · rename_i hdigits
        push Not at hdigits
        have hnumber : ∀ {number : List UInt8}, number ≠ [] → number.all (isDigit 10) = true →
            IsNumber number := fun hne hall => ⟨hne, List.all_eq_true.mp hall⟩
        exact absurd (idText_of_splitIds hsplit (hnumber hne.1 hdigits.1)
          (hnumber hne.2.1 hdigits.2.1) (hnumber hne.2.2 hdigits.2.2)) (h cid uid iid)

theorem ofIds_eq_zero_iff {cid uid iid : Nat} (hcid : cid ≤ maxCid) (huid : uid ≤ maxUid)
    (hiid : iid ≤ maxIid) :
    MsgUser.ofIds (UInt8.ofNat cid) uid (UInt16.ofNat iid) = .zero ↔ cid = 0 ∧ uid = 0 ∧ iid = 0 := by
  unfold maxCid at hcid
  unfold maxUid at huid
  unfold maxIid at hiid
  constructor
  · intro hzero
    have hclass := congrArg (fun user : MsgUser => user.classId.toNat) hzero
    have huser := congrArg MsgUser.userId hzero
    have hinst := congrArg (fun user : MsgUser => user.instId.toNat) hzero
    simp only [MsgUser.ofIds] at hclass huser hinst
    rw [MsgUser.userId_setUserId _ (by omega)] at huser
    rw [MsgUser.setUserId_classId, UInt8.toNat_ofNat'] at hclass
    have hinst' : iid % 2 ^ 16 = 0 := hinst
    have hclass' : cid % 2 ^ 8 = 0 := hclass
    have huser' : uid = 0 := huser
    omega
  · rintro ⟨rfl, rfl, rfl⟩
    rfl

/-- The conversion reads the user of the text, except where it narrows a number into range or
the text is too long for the index of its loops. -/
theorem readsUser_iff (text : List UInt8) :
    ReadsUser text ↔ scanned text < 2 ^ 31 ∧ ¬ Narrowed text := by
  constructor
  · intro h
    have hshort : scanned text < 2 ^ 31 := by
      by_contra hlong
      have hnone : string2User text = none := if_pos (by omega)
      by_cases hnamed : ∃ cid uid iid, IdText text cid uid iid ∧ InRange cid uid iid
      · obtain ⟨cid, uid, iid, hid, hin⟩ := hnamed
        have := h.named cid uid iid hid hin
        rw [hnone] at this
        cases this
      · push Not at hnamed
        have := h.other hnamed
        rw [hnone] at this
        cases this
    refine ⟨hshort, ?_⟩
    rintro ⟨cid, uid, iid, hid, hout, hcid, hcid', hiid, hiid', huid, hnonzero⟩
    have hother : ∀ cid' uid' iid', IdText text cid' uid' iid' → ¬ InRange cid' uid' iid' := by
      intro cid' uid' iid' hid' hin
      have hsame := (splitIds_of_idText hid').symm.trans (splitIds_of_idText hid)
      obtain ⟨rfl, rfl, rfl⟩ : cid' = cid ∧ uid' = uid ∧ iid' = iid := by simpa using hsame
      unfold InRange at hin
      omega
    have hzero := h.other hother
    rw [string2User_of_idText hid hshort, if_pos ⟨⟨hcid, hcid'⟩, huid, hiid, hiid'⟩] at hzero
    exact hnonzero ((ofIds_eq_zero_iff hcid' huid hiid').mp (Option.some.inj hzero))
  · rintro ⟨hshort, hnot⟩
    constructor
    · intro cid uid iid hid hin
      obtain ⟨hcid, huid, hiid⟩ := hin
      have hcid64 : value 10 cid < 2 ^ 32 := by unfold maxCid at hcid; omega
      have hiid64 : value 10 iid < 2 ^ 32 := by unfold maxIid at hiid; omega
      rw [string2User_of_idText hid hshort, Nat.mod_eq_of_lt hcid64, Nat.mod_eq_of_lt hiid64,
        if_pos ⟨⟨by omega, hcid⟩, huid, by omega, hiid⟩]
    · intro hother
      by_cases hid : ∃ cid uid iid, IdText text cid uid iid
      · obtain ⟨cid, uid, iid, hid⟩ := hid
        have hout := hother cid uid iid hid
        rw [string2User_of_idText hid hshort]
        split
        · rename_i hin
          obtain ⟨⟨hcid, hcid'⟩, huid, hiid, hiid'⟩ := hin
          rw [Option.some.injEq, ofIds_eq_zero_iff hcid' huid hiid']
          by_contra hnonzero
          refine hnot ⟨cid, uid, iid, hid, ?_, hcid, hcid', hiid, hiid', huid, hnonzero⟩
          unfold InRange at hout
          omega
        · rfl
      · push Not at hid
        exact string2User_of_not_idText hid hshort

/-! The text of a user. -/

theorem isNumber_sprintfU (n : Nat) : IsNumber (sprintfU n) :=
  ⟨sprintfU_ne_nil n, fun _ hb => isDigit_of_mem_sprintfU hb⟩

theorem idText_user2String (user : MsgUser) : IdText (user2String user) (sprintfU user.classId.toNat)
    (sprintfU user.userId) (sprintfU user.instId.toNat) :=
  ⟨.full _ _ _, isNumber_sprintfU _, isNumber_sprintfU _, isNumber_sprintfU _⟩

theorem length_ids (user : MsgUser) : (sprintfU user.classId.toNat).length ≤ 3 ∧
    (sprintfU user.userId).length ≤ 13 ∧ (sprintfU user.instId.toNat).length ≤ 5 := by
  refine ⟨length_sprintfU_le (by decide) ?_, length_sprintfU_le (by decide) ?_,
    length_sprintfU_le (by decide) ?_⟩
  · exact user.classId.toNat_lt.trans (by decide)
  · exact user.userId_lt.trans (by decide)
  · exact user.instId.toNat_lt.trans (by decide)

theorem scanned_user2String (user : MsgUser) : scanned (user2String user) < 2 ^ 31 := by
  obtain ⟨hcid, huid, -⟩ := length_ids user
  unfold scanned user2String
  rw [(takeWhile_number (isNumber_sprintfU _) _).1, (takeWhile_number (isNumber_sprintfU _) _).2]
  dsimp only
  rw [(takeWhile_number (isNumber_sprintfU _) _).1]
  omega

theorem ofIds_self (user : MsgUser) :
    .ofIds (UInt8.ofNat user.classId.toNat) user.userId (UInt16.ofNat user.instId.toNat) = user := by
  rw [UInt8.ofNat_toNat, UInt16.ofNat_toNat]
  exact user.ofIds_eq

theorem string2User_user2String (user : MsgUser) : string2User (user2String user) = some user := by
  have hclass := user.classId.toNat_lt
  have hinst := user.instId.toNat_lt
  have huser := user.userId_lt
  rw [string2User_of_idText (idText_user2String user) (scanned_user2String user), value_sprintfU,
    value_sprintfU, value_sprintfU, Nat.mod_eq_of_lt (by omega), Nat.mod_eq_of_lt (by omega),
    if_pos (by unfold maxCid maxUid maxIid; omega), ofIds_self]

/-- The text of every user is read back, and a text is read as the user it names exactly where no
number is narrowed into range. -/
theorem userText_iff (user : MsgUser) (text : List UInt8) :
    string2User (user2String user) = some user ∧
      (ReadsUser text ↔ scanned text < 2 ^ 31 ∧ ¬ Narrowed text) :=
  ⟨string2User_user2String user, readsUser_iff text⟩

/-- `4294967297-1-0`. -/
def narrowedText : List UInt8 := [52, 50, 57, 52, 57, 54, 55, 50, 57, 55, 45, 49, 45, 48]

/-- The class is out of range, and the text names the root. -/
theorem not_readsUser_narrowedText :
    ¬ ReadsUser narrowedText ∧ string2User narrowedText = some (.ofIds 1 1 0) := by
  have hread : string2User narrowedText = some (.ofIds 1 1 0) := by decide +kernel
  refine ⟨fun h => ?_, hread⟩
  have hid : IdText narrowedText [52, 50, 57, 52, 57, 54, 55, 50, 57, 55] [49] [48] :=
    idText_of_splitIds (by decide +kernel) ⟨by simp, by decide +kernel⟩ ⟨by simp, by decide +kernel⟩
      ⟨by simp, by decide +kernel⟩
  have hother : ∀ cid uid iid, IdText narrowedText cid uid iid → ¬ InRange cid uid iid := by
    intro cid uid iid hid' hin
    have hsame := (splitIds_of_idText hid').symm.trans (splitIds_of_idText hid)
    obtain ⟨rfl, -, -⟩ : cid = _ ∧ uid = _ ∧ iid = _ := by simpa using hsame
    exact absurd hin.1 (by decide)
  have hzero := h.other hother
  rw [hread] at hzero
  exact absurd hzero (by decide)

end Pronet.Msg
