import Pronet.Msg.Receive
import Pronet.Rtp.Packet

/-! The encoders of message packets: `SendMsgToDownlink` of the server and of the c2s
node, and `PushMsg` of the client. What they build is read back by the decoders of
`OnRecvSession`. -/
namespace Pronet.Msg

open Rtp (be16 be32 maxPayloadSize)

/-- A destination entry behind `memset`. -/
def zeroUser : MsgUser := ⟨0, 0, 0, 0, 0, 0, 0⟩

/-- `RTP_MSG_USER` with `instId` in network byte order. -/
def userBytes (user : MsgUser) : List UInt8 :=
  [user.classId, user.userId1, user.userId2, user.userId3, user.userId4, user.userId5] ++
    be16 user.instId

/-- The first 16 bytes of `RTP_MSG_HEADER`. -/
def fixedHeader (charset : UInt32) (srcUser : MsgUser) (dstUserCount : UInt8) : List UInt8 :=
  be32 charset ++ userBytes srcUser ++ [0, 0, 0] ++ [dstUserCount]

def msgBytes (charset : UInt32) (srcUser : MsgUser) (dstUserCount : UInt8) (dstUsers : List MsgUser)
    (body : List UInt8) : List UInt8 :=
  fixedHeader charset srcUser dstUserCount ++ (dstUsers.flatMap userBytes ++ body)

def Payload.ofBytes (bytes : List UInt8) : Payload :=
  ⟨fun i => bytes.getD i 0, UInt16.ofNat bytes.length⟩

/-- The bytes of a slice. -/
def Payload.slice (p : Payload) (s : Slice) : List UInt8 :=
  (List.range s.size).map fun k => p.byte (s.offset + k)

/-- `CreateRtpPacketSpace` for the bytes of a message. -/
def createMsgPacket (bytes : List UInt8) : Option Payload :=
  if bytes.length = 0 || maxPayloadSize < bytes.length then none else some (.ofBytes bytes)

/-- `SendMsgToDownlink`; the first word is `publicIp` if there is one. -/
def sendMsgToDownlink (body : List UInt8) (charset : UInt32) (srcUser : MsgUser)
    (dstUsers : List MsgUser) (publicIp : Option UInt32) : Option Payload :=
  if body.isEmpty || !srcUser.valid then none
  else if dstUsers.isEmpty then
    createMsgPacket (msgBytes (publicIp.getD charset) srcUser 0 [zeroUser] body)
  else
    createMsgPacket
      (msgBytes (publicIp.getD charset) srcUser (UInt8.ofNat dstUsers.length) dstUsers body)

/-- `PushMsg`, with `SendData` for a user that has logged in. -/
def pushMsg (body : List UInt8) (charset : UInt32) (dstUsers : List MsgUser)
    (srcUser : Option MsgUser) (user : MsgUser) : Option Payload :=
  if !dstUsers.all MsgUser.valid then none
  else createMsgPacket
    (msgBytes charset (srcUser.getD user) (UInt8.ofNat dstUsers.length) dstUsers body)

theorem length_userBytes (user : MsgUser) : (userBytes user).length = sizeofMsgUser := rfl

theorem length_flatMap_userBytes (users : List MsgUser) :
    (users.flatMap userBytes).length = 8 * users.length := by
  induction users with
  | nil => rfl
  | cons user users ih =>
    rw [List.flatMap_cons, List.length_append, ih, length_userBytes, List.length_cons, sizeofMsgUser]
    omega

theorem length_msgBytes (charset : UInt32) (srcUser : MsgUser) (dstUserCount : UInt8)
    (dstUsers : List MsgUser) (body : List UInt8) :
    (msgBytes charset srcUser dstUserCount dstUsers body).length =
      16 + 8 * dstUsers.length + body.length := by
  unfold msgBytes
  rw [List.length_append, List.length_append, length_flatMap_userBytes]
  have hfixed : (fixedHeader charset srcUser dstUserCount).length = 16 := rfl
  rw [hfixed]
  omega

theorem getD_fixedHeader (charset : UInt32) (srcUser : MsgUser) (dstUserCount : UInt8)
    (tail : List UInt8) (j : Nat) :
    (fixedHeader charset srcUser dstUserCount ++ tail).getD (16 + j) 0 = tail.getD j 0 := by
  have hfixed : (fixedHeader charset srcUser dstUserCount).length = 16 := rfl
  rw [List.getD_append_right]
  · rw [hfixed, Nat.add_sub_cancel_left]
  · omega

/-- Entry `i` of the destination list stands at `8 * i`. -/
theorem getD_flatMap_userBytes {users : List MsgUser} {user : MsgUser} {i k : Nat}
    (h : users[i]? = some user) (hk : k < 8) (rest : List UInt8) :
    (users.flatMap userBytes ++ rest).getD (8 * i + k) 0 = (userBytes user).getD k 0 := by
  induction users generalizing i with
  | nil => simp at h
  | cons first users ih =>
    rw [List.flatMap_cons, List.append_assoc]
    cases i with
    | zero =>
      rw [List.getElem?_cons_zero, Option.some.injEq] at h
      subst h
      rw [Nat.mul_zero, Nat.zero_add, List.getD_append]
      rw [length_userBytes]
      exact hk
    | succ i =>
      rw [List.getElem?_cons_succ] at h
      have hindex : 8 * (i + 1) + k = 8 + (8 * i + k) := by omega
      rw [hindex, List.getD_append_right]
      · rw [length_userBytes, sizeofMsgUser, Nat.add_sub_cancel_left]
        exact ih h
      · rw [length_userBytes, sizeofMsgUser]
        omega

theorem instId_roundtrip (instId : UInt16) :
    UInt16.ofNat ((UInt8.ofNat (instId.toNat / 256)).toNat * 256 + (UInt8.ofNat instId.toNat).toNat) =
      instId := by
  apply UInt16.toNat_inj.mp
  have hlt := instId.toNat_lt
  simp only [UInt8.toNat_ofNat', UInt16.toNat_ofNat']
  omega

/-- Eight bytes in a row that are those of a user are read as the user. -/
theorem userAt_eq {p : Payload} {offset : Nat} {user : MsgUser}
    (h : ∀ k < 8, p.byte (offset + k) = (userBytes user).getD k 0) : p.userAt offset = user := by
  have h0 := h 0 (by omega)
  have h1 := h 1 (by omega)
  have h2 := h 2 (by omega)
  have h3 := h 3 (by omega)
  have h4 := h 4 (by omega)
  have h5 := h 5 (by omega)
  have h6 := h 6 (by omega)
  have h7 := h 7 (by omega)
  rw [Nat.add_zero] at h0
  unfold Payload.userAt
  rw [h0, h1, h2, h3, h4, h5, h6, h7]
  simp only [userBytes, be16, List.cons_append, List.nil_append, List.getD_cons_zero,
    List.getD_cons_succ]
  rw [instId_roundtrip]

/-- A payload that an encoder has built. -/
structure Encodes (p : Payload) (charset : UInt32) (srcUser : MsgUser) (dstUsers : List MsgUser)
    (body : List UInt8) : Prop where
  size : p.size.toNat = 16 + 8 * dstUsers.length + body.length
  headerOk : p.headerOk = srcUser.valid
  dstUserCount : p.dstUserCount = dstUsers.length
  charset : p.charset = charset.toNat
  srcUser : p.srcUser = srcUser
  dstUsers : p.dstUsers = dstUsers
  body : p.slice p.body = body

theorem encodes_ofBytes {charset : UInt32} {srcUser : MsgUser} {dstUserCount : UInt8}
    {dstUsers : List MsgUser} {body : List UInt8}
    (hcount : (if dstUserCount = 0 then 1 else dstUserCount.toNat) = dstUsers.length)
    (hbody : body ≠ []) (hsize : 16 + 8 * dstUsers.length + body.length < 2 ^ 16) :
    Encodes (.ofBytes (msgBytes charset srcUser dstUserCount dstUsers body)) charset srcUser dstUsers
      body := by
  have hbyte : ∀ i, (Payload.ofBytes (msgBytes charset srcUser dstUserCount dstUsers body)).byte i =
      (fixedHeader charset srcUser dstUserCount ++ (dstUsers.flatMap userBytes ++ body)).getD i 0 :=
    fun _ => rfl
  have hlength := length_msgBytes charset srcUser dstUserCount dstUsers body
  have hsizeEq : (Payload.ofBytes (msgBytes charset srcUser dstUserCount dstUsers body)).size.toNat =
      16 + 8 * dstUsers.length + body.length := by
    simp only [Payload.ofBytes, UInt16.toNat_ofNat', hlength]
    omega
  have hposBody : 0 < body.length := List.length_pos_iff.mpr hbody
  have hcountEq : (Payload.ofBytes (msgBytes charset srcUser dstUserCount dstUsers body)).dstUserCount =
      dstUsers.length := hcount
  have hsrc : (Payload.ofBytes (msgBytes charset srcUser dstUserCount dstUsers body)).srcUser =
      srcUser := by
    apply userAt_eq
    intro k hk
    rw [hbyte]
    interval_cases k <;> rfl
  have hheader : (Payload.ofBytes (msgBytes charset srcUser dstUserCount dstUsers body)).msgHeaderSize =
      16 + 8 * dstUsers.length := by
    rw [Payload.msgHeaderSize_eq, hcountEq]
  have hbodySize : (Payload.ofBytes (msgBytes charset srcUser dstUserCount dstUsers body)).msgBodySize =
      body.length := by
    rw [Payload.msgBodySize_of_le (by omega), hsizeEq, hheader]
    omega
  refine ⟨hsizeEq, ?_, hcountEq, ?_, hsrc, ?_, ?_⟩
  · unfold Payload.headerOk
    rw [hsrc, hbodySize, hsizeEq]
    have hfirst : decide (sizeofMsgHeader < 16 + 8 * dstUsers.length + body.length) = true := by
      have hpos : 0 < dstUsers.length := by
        rw [← hcount]
        split
        · omega
        · rename_i hne
          exact UInt8.pos_iff_ne_zero.mpr hne
      rw [decide_eq_true_eq, sizeofMsgHeader]
      omega
    have hsecond : (body.length != 0) = true := by
      rw [bne_iff_ne]
      omega
    rw [hfirst, hsecond, Bool.true_and, Bool.true_and]
  · have hlt := charset.toNat_lt
    unfold Payload.charset
    simp only [hbyte, fixedHeader, be32, List.cons_append, List.getD_cons_zero,
      List.getD_cons_succ, UInt8.toNat_ofNat']
    omega
  · unfold Payload.dstUsers Payload.dstEntries
    rw [hcountEq]
    apply List.ext_getElem
    · simp
    · intro i hi hi'
      simp only [List.getElem_map, List.getElem_range, Payload.dstEntry, sizeofMsgUser]
      apply userAt_eq
      intro k hk
      have hindex : 16 + 8 * i + k = 16 + (8 * i + k) := by omega
      rw [hbyte, hindex, getD_fixedHeader]
      exact getD_flatMap_userBytes (List.getElem?_eq_getElem hi') hk body
  · unfold Payload.slice Payload.body
    rw [hheader, hbodySize]
    have hmod : body.length % 2 ^ 16 = body.length := Nat.mod_eq_of_lt (by omega)
    rw [hmod]
    apply List.ext_getElem
    · simp
    · intro k hk hk'
      simp only [List.getElem_map, List.getElem_range]
      have hindex : 16 + 8 * dstUsers.length + k = 16 + (8 * dstUsers.length + k) := by omega
      have hflat := length_flatMap_userBytes dstUsers
      rw [hbyte, hindex, getD_fixedHeader, List.getD_append_right _ _ _ _ (by omega), hflat,
        Nat.add_sub_cancel_left, List.getD_eq_getElem?_getD, List.getElem?_eq_getElem hk',
        Option.getD_some]

theorem createMsgPacket_eq {charset : UInt32} {srcUser : MsgUser} {dstUserCount : UInt8}
    {dstUsers : List MsgUser} {body : List UInt8}
    (hsize : 16 + 8 * dstUsers.length + body.length ≤ maxPayloadSize) :
    createMsgPacket (msgBytes charset srcUser dstUserCount dstUsers body) =
      some (.ofBytes (msgBytes charset srcUser dstUserCount dstUsers body)) := by
  have hlength := length_msgBytes charset srcUser dstUserCount dstUsers body
  unfold createMsgPacket
  rw [hlength, if_neg]
  simp only [Bool.or_eq_true, decide_eq_true_eq]
  omega

/-- A count that fits in its byte is read back. -/
theorem count_roundtrip {count : Nat} (hpos : 0 < count) (hcount : count ≤ 255) :
    (if UInt8.ofNat count = 0 then 1 else (UInt8.ofNat count).toNat) = count := by
  have hmod : (UInt8.ofNat count).toNat = count := by
    rw [UInt8.toNat_ofNat']
    exact Nat.mod_eq_of_lt (by omega)
  have hne : UInt8.ofNat count ≠ 0 := by
    intro hzero
    rw [hzero, UInt8.toNat_zero] at hmod
    omega
  rw [if_neg hne, hmod]

/-- Without destinations the packet names one user of zeros. -/
theorem encodes_sendMsgToDownlink {body : List UInt8} (charset : UInt32) {srcUser : MsgUser}
    {dstUsers : List MsgUser} (hbody : body ≠ []) (hsrc : srcUser.valid = true)
    (hcount : dstUsers.length ≤ 255)
    (hsize : 16 + 8 * max 1 dstUsers.length + body.length ≤ maxPayloadSize) :
    ∃ p, sendMsgToDownlink body charset srcUser dstUsers none = some p ∧
      Encodes p charset srcUser (if dstUsers.isEmpty then [zeroUser] else dstUsers) body := by
  have hmax : maxPayloadSize < 2 ^ 16 := by decide
  unfold sendMsgToDownlink
  rw [if_neg (by simp [hbody, hsrc])]
  cases dstUsers with
  | nil =>
    have hone : 16 + 8 * [zeroUser].length + body.length ≤ maxPayloadSize := hsize
    exact ⟨_, createMsgPacket_eq hone, encodes_ofBytes rfl hbody (by omega)⟩
  | cons first rest =>
    have hsame : max 1 (first :: rest).length = (first :: rest).length :=
      Nat.max_eq_right (Nat.succ_le_succ (Nat.zero_le _))
    rw [hsame] at hsize
    exact ⟨_, createMsgPacket_eq hsize,
      encodes_ofBytes (count_roundtrip (Nat.succ_pos _) hcount) hbody (by omega)⟩

theorem encodes_withoutUsers {body : List UInt8} (charset : UInt32) {srcUser : MsgUser}
    (hbody : body ≠ []) (hsrc : srcUser.valid = true) (hsize : 24 + body.length ≤ maxPayloadSize) :
    ∃ p, sendMsgToDownlink body charset srcUser [] none = some p ∧
      Encodes p charset srcUser [zeroUser] body :=
  encodes_sendMsgToDownlink charset hbody hsrc (Nat.zero_le 255) hsize

end Pronet.Msg
