import Pronet.Msg.LinkFrames

/-! The decoders of message packets: `OnRecvSession` of the server, of the c2s
node and of the client. A payload is the memory from its first byte on together
with its size, so that a decoder may look past the end. Each decoder returns what
it reads and forwards, in order. -/
namespace Pronet.Msg

open Std Library

/-- `byte i` is the byte `i` bytes after the start of the payload buffer; bytes
from `size` on belong to whatever lies behind the payload. -/
structure Payload where
  byte : Nat → UInt8
  size : UInt16

/-- A range of bytes counted from the start of the payload. -/
structure Slice where
  offset : Nat
  size : Nat
  deriving DecidableEq, Repr

/-- What a decoder does with the payload. -/
inductive MsgAccess
  | readDstUser (entry : Slice)
  | sendMsgToDownlink (sessions : List Session) (body : Slice) (charset : Nat)
      (srcUser : MsgUser) (dstUsers : List MsgUser)
  | transferMsg (body : Slice) (charset : Nat) (dstUsers : List MsgUser) (srcUser : MsgUser)
  | stringToConfigs (body : Slice)
  | onOkMsg (srcUser : MsgUser) (publicIp : Nat)
  | onRecvMsg (body : Slice) (charset : Nat) (srcUser : MsgUser)
  | onTransferMsg (body : Slice) (charset : Nat) (srcUser : MsgUser) (dstUsers : List MsgUser)
  deriving DecidableEq, Repr

/-- `sizeof(RTP_MSG_HEADER)` with its one destination, and `sizeof(RTP_MSG_USER)`. -/
def sizeofMsgHeader : Nat := 24
def sizeofMsgUser : Nat := 8

namespace Payload

/-- The first word of the header, in network byte order: `charset` or `publicIp`. -/
def charset (p : Payload) : Nat :=
  (((p.byte 0).toNat * 256 + (p.byte 1).toNat) * 256 + (p.byte 2).toNat) * 256 + (p.byte 3).toNat

def userAt (p : Payload) (offset : Nat) : MsgUser :=
  ⟨p.byte offset, p.byte (offset + 1), p.byte (offset + 2), p.byte (offset + 3),
    p.byte (offset + 4), p.byte (offset + 5),
    UInt16.ofNat ((p.byte (offset + 6)).toNat * 256 + (p.byte (offset + 7)).toNat)⟩

def srcUser (p : Payload) : MsgUser := p.userAt 4

/-- The count byte; zero stands for one. -/
def dstUserCount (p : Payload) : Nat :=
  if p.byte 15 = 0 then 1 else (p.byte 15).toNat

def dstEntry (i : Nat) : Slice := ⟨16 + sizeofMsgUser * i, sizeofMsgUser⟩

def dstEntries (p : Payload) : List Slice := (List.range p.dstUserCount).map dstEntry

def dstUsers (p : Payload) : List MsgUser := p.dstEntries.map fun entry => p.userAt entry.offset

def msgHeaderSize (p : Payload) : Nat :=
  sizeofMsgHeader + sizeofMsgUser * (p.dstUserCount - 1)

/-- An `unsigned long` difference. -/
def msgBodySize (p : Payload) : Nat :=
  (p.size.toNat + 2 ^ 64 - p.msgHeaderSize) % 2 ^ 64

/-- The body as it is handed on, with the `(PRO_UINT16)` cast of its size. -/
def body (p : Payload) : Slice := ⟨p.msgHeaderSize, p.msgBodySize % 2 ^ 16⟩

/-- The checks all three decoders make on the header. -/
def headerOk (p : Payload) : Bool :=
  sizeofMsgHeader < p.size.toNat && p.msgBodySize != 0 && p.srcUser.valid

end Payload

/-- Where the server routes a message. -/
structure Routing where
  toRoot : Bool
  toC2sPort : Bool
  sessions : List Session
  session2Users : ExtTreeMap Session (List MsgUser)

namespace Server

/-- One turn of the destination loop. -/
def routeUser (s : Server) (routing : Routing) (dstUser : MsgUser) : Option Routing := do
  if !dstUser.valid then
    return routing
  if dstUser.isRoot then
    return if dstUser.instId = rootIdC2s.instId then { routing with toC2sPort := true }
      else { routing with toRoot := true }
  let some ptr := s.user2Ctx[dstUser]? | return routing
  let dstCtx ← s.heap[ptr]?
  if dstUser = dstCtx.baseUser then
    return { routing with sessions := routing.sessions ++ [dstCtx.session] }
  else
    return { routing with
      session2Users := routing.session2Users.insert dstCtx.session
        ((routing.session2Users[dstCtx.session]?).getD [] ++ [dstUser]) }

/-- What the server does with a routed message, in order. -/
def forward (p : Payload) (fromC2s : Bool) (routing : Routing) : List MsgAccess :=
  (if routing.sessions.isEmpty then []
    else [.sendMsgToDownlink routing.sessions p.body p.charset p.srcUser []]) ++
  (routing.session2Users.toList.map fun (session, users) =>
    .sendMsgToDownlink [session] p.body p.charset p.srcUser users) ++
  (if routing.toC2sPort && fromC2s then
    [.stringToConfigs ⟨p.msgHeaderSize, p.msgBodySize⟩] else []) ++
  (if routing.toRoot then [.onRecvMsg p.body p.charset p.srcUser] else [])

/-- `OnRecvSession`. What becomes of a parsed control message is `admitsC2sMsg`. -/
def onRecvSession (s : Server) (session : Session) (p : Payload) : Option (List MsgAccess) := do
  if !p.headerOk then
    return []
  let some ptr := s.session2Ctx[session]? | return []
  let srcCtx ← s.heap[ptr]?
  if p.srcUser ≠ srcCtx.baseUser && p.srcUser ∉ srcCtx.subUsers then
    return []
  let routing ← p.dstUsers.foldlM s.routeUser ⟨false, false, [], ∅⟩
  let fromC2s := srcCtx.isC2s && p.srcUser.classId = serverCid && p.srcUser = srcCtx.baseUser
  return p.dstEntries.map .readDstUser ++ forward p fromC2s routing

end Server

/-- `OnRecvSession` of the c2s node. -/
def C2s.onRecvSession (s : C2s) (session : Session) (p : Payload) : List MsgAccess :=
  if !p.headerOk || s.session2User[session]? ≠ some p.srcUser then
    []
  else
    let dstUsers := p.dstUsers.filter MsgUser.valid
    let sessions := dstUsers.filterMap fun dstUser => s.user2Session[dstUser]?
    let uplinkUsers := dstUsers.filter fun dstUser => dstUser ∉ s.user2Session
    p.dstEntries.map .readDstUser ++
    (if sessions.isEmpty then []
      else [.sendMsgToDownlink sessions p.body p.charset p.srcUser []]) ++
    (if uplinkUsers.isEmpty || !s.msgClient then []
      else [.transferMsg p.body p.charset uplinkUsers p.srcUser])

/-- The receiving side of `CRtpMsgClient` between `Init` and `Fini`. -/
structure Client where
  session : Session
  user : MsgUser
  enableTransfer : Bool
  onOkCalled : Bool
  canUpcall : Bool
  deriving DecidableEq, Repr

namespace Client

/-- The destinations that are passed on to the c2s node. -/
def transferUsers (s : Client) (p : Payload) : List MsgUser :=
  p.dstUsers.filter fun dstUser => dstUser.valid && dstUser != s.user

def badUserCount (p : Payload) : Nat :=
  p.dstUsers.countP fun dstUser => dstUser.classId != 0 && dstUser.userId == 0

/-- `OnRecvSession` of the client. The first message on the session is the answer
to the login; afterwards a plain client takes every message for itself, and the
client inside a c2s node looks at the destinations. -/
def onRecvSession (s : Client) (session : Session) (p : Payload) : Client × List MsgAccess :=
  if !p.headerOk || session ≠ s.session then
    (s, [])
  else if !s.onOkCalled then
    ({ s with user := p.srcUser, onOkCalled := s.canUpcall },
      if s.canUpcall then [.onOkMsg p.srcUser p.charset] else [])
  else if !s.enableTransfer then
    (s, if s.canUpcall then [.onRecvMsg p.body p.charset p.srcUser] else [])
  else
    let dstUsers := s.transferUsers p
    (s, p.dstEntries.map .readDstUser ++
      if s.canUpcall then
        (if dstUsers.length ≠ p.dstUserCount - badUserCount p then
          [.onRecvMsg p.body p.charset p.srcUser] else []) ++
        (if dstUsers.isEmpty then []
          else [.onTransferMsg p.body p.charset p.srcUser dstUsers])
      else [])

end Client

/-- The body of the message is exactly what follows the header. -/
def Slice.IsBodyOf (body : Slice) (p : Payload) : Prop :=
  body.offset = p.msgHeaderSize ∧ p.msgHeaderSize + body.size = p.size.toNat ∧ 0 < body.size

/-- The access stays inside the payload. -/
def MsgAccess.InBounds (p : Payload) : MsgAccess → Prop
  | .readDstUser entry => entry.offset + entry.size ≤ p.size.toNat
  | .sendMsgToDownlink _ body _ _ _ => body.IsBodyOf p
  | .transferMsg body _ _ _ => body.IsBodyOf p
  | .stringToConfigs body => body.IsBodyOf p
  | .onOkMsg _ _ => True
  | .onRecvMsg body _ _ => body.IsBodyOf p
  | .onTransferMsg body _ _ _ => body.IsBodyOf p

/-- Nothing outside the payload is read, routed or delivered. -/
def Payload.Bounded (p : Payload) (accesses : List MsgAccess) : Prop :=
  ∀ access ∈ accesses, access.InBounds p

namespace Payload

theorem dstUserCount_pos (p : Payload) : 0 < p.dstUserCount := by
  unfold dstUserCount
  split
  · decide
  · rename_i h
    exact UInt8.pos_iff_ne_zero.mpr h

theorem dstUserCount_lt (p : Payload) : p.dstUserCount < 256 := by
  unfold dstUserCount
  split
  · decide
  · exact (p.byte 15).toNat_lt

/-- The header ends where the last destination entry ends. -/
theorem msgHeaderSize_eq (p : Payload) : p.msgHeaderSize = 16 + 8 * p.dstUserCount := by
  have := p.dstUserCount_pos
  unfold msgHeaderSize sizeofMsgHeader sizeofMsgUser
  omega

theorem msgBodySize_of_le {p : Payload} (h : p.msgHeaderSize ≤ p.size.toNat) :
    p.msgBodySize = p.size.toNat - p.msgHeaderSize := by
  have := p.size.toNat_lt
  unfold msgBodySize
  omega

/-- A header longer than the payload passes the test for an empty body. -/
theorem msgBodySize_ne_zero_of_lt {p : Payload} (h : p.size.toNat < p.msgHeaderSize) :
    p.msgBodySize ≠ 0 := by
  have := p.dstUserCount_lt
  have := p.msgHeaderSize_eq
  unfold msgBodySize
  omega

theorem headerOk_of_lt {p : Payload} (hsize : sizeofMsgHeader < p.size.toNat)
    (h : p.size.toNat < p.msgHeaderSize) : p.headerOk = p.srcUser.valid := by
  simp [headerOk, hsize, msgBodySize_ne_zero_of_lt h]

theorem size_body {p : Payload} (h : p.msgHeaderSize ≤ p.size.toNat) (hbody : p.msgBodySize ≠ 0) :
    p.msgHeaderSize + p.msgBodySize = p.size.toNat ∧ 0 < p.msgBodySize := by
  rw [msgBodySize_of_le h] at hbody ⊢
  omega

theorem isBodyOf_body {p : Payload} (h : p.msgHeaderSize ≤ p.size.toNat)
    (hbody : p.msgBodySize ≠ 0) : p.body.IsBodyOf p := by
  obtain ⟨hsum, hpos⟩ := size_body h hbody
  have := p.size.toNat_lt
  have hcast : p.msgBodySize % 2 ^ 16 = p.msgBodySize := Nat.mod_eq_of_lt (by omega)
  exact ⟨rfl, by rw [body, hcast]; exact hsum, by rw [body, hcast]; exact hpos⟩

theorem not_isBodyOf_body {p : Payload} (h : p.size.toNat < p.msgHeaderSize) :
    ¬ p.body.IsBodyOf p := by
  intro hbody
  have := hbody.2.1
  omega

theorem bounded_append {p : Payload} {left right : List MsgAccess} :
    p.Bounded (left ++ right) ↔ p.Bounded left ∧ p.Bounded right := by
  simp only [Bounded, List.mem_append, or_imp, forall_and]

/-- The destination entries lie inside the payload if and only if the header does. -/
theorem bounded_dstEntries (p : Payload) :
    p.Bounded (p.dstEntries.map .readDstUser) ↔ p.msgHeaderSize ≤ p.size.toNat := by
  have hpos := p.dstUserCount_pos
  rw [msgHeaderSize_eq]
  constructor
  · intro h
    have hlast := h (.readDstUser (dstEntry (p.dstUserCount - 1))) (by
      simp only [dstEntries, List.map_map, List.mem_map, List.mem_range]
      exact ⟨p.dstUserCount - 1, by omega, rfl⟩)
    simp only [MsgAccess.InBounds, dstEntry, sizeofMsgUser] at hlast
    omega
  · intro h access haccess
    simp only [dstEntries, List.map_map, List.mem_map, List.mem_range] at haccess
    obtain ⟨i, hi, rfl⟩ := haccess
    simp only [Function.comp_apply, MsgAccess.InBounds, dstEntry, sizeofMsgUser]
    omega

end Payload

namespace Server

theorem bounded_forward {p : Payload} (h : p.msgHeaderSize ≤ p.size.toNat)
    (hbody : p.msgBodySize ≠ 0) (fromC2s : Bool) (routing : Routing) :
    p.Bounded (forward p fromC2s routing) := by
  have hcast := p.isBodyOf_body h hbody
  have hwhole : Slice.IsBodyOf ⟨p.msgHeaderSize, p.msgBodySize⟩ p := ⟨rfl, p.size_body h hbody⟩
  simp only [forward, Payload.bounded_append]
  refine ⟨⟨⟨?_, ?_⟩, ?_⟩, ?_⟩
  · split <;> simp [Payload.Bounded, MsgAccess.InBounds, hcast]
  · intro access haccess
    obtain ⟨entry, -, rfl⟩ := List.mem_map.mp haccess
    exact hcast
  · split <;> simp [Payload.Bounded, MsgAccess.InBounds, hwhole]
  · split <;> simp [Payload.Bounded, MsgAccess.InBounds, hcast]

theorem TableInv.routeUser {s : Server} (h : s.TableInv) (routing : Routing)
    (dstUser : MsgUser) : ∃ next, s.routeUser routing dstUser = some next := by
  unfold Server.routeUser
  split
  · exact ⟨_, rfl⟩
  · split
    · exact ⟨_, rfl⟩
    · split
      · rename_i ptr hptr
        obtain ⟨ctx, hctx, -⟩ := h.user_ctx dstUser ptr hptr
        simp only [hctx, Option.bind_eq_bind, Option.bind_some]
        split <;> exact ⟨_, rfl⟩
      · exact ⟨_, rfl⟩

theorem TableInv.route {s : Server} (h : s.TableInv) (dstUsers : List MsgUser)
    (routing : Routing) : ∃ final, dstUsers.foldlM s.routeUser routing = some final := by
  induction dstUsers generalizing routing with
  | nil => exact ⟨routing, rfl⟩
  | cons dstUser dstUsers ih =>
    obtain ⟨next, hnext⟩ := h.routeUser routing dstUser
    obtain ⟨final, hfinal⟩ := ih next
    exact ⟨final, by rw [List.foldlM_cons, hnext]; exact hfinal⟩

/-- The link of `session` speaks for `srcUser`. -/
def SpeaksFor (s : Server) (session : Session) (srcUser : MsgUser) : Prop :=
  ∃ ctx, LoginSystem.linkCtx? session s = some ctx ∧ srcUser ∈ ctx.users

end Server

/-- The server stays inside a payload if and only if its header fits, unless it
drops the message because of the sender. -/
theorem Server.bounded_onRecvSession {s : Server} (h : s.TableInv) (session : Session)
    {p : Payload} (hsize : sizeofMsgHeader < p.size.toNat) :
    ∃ accesses, s.onRecvSession session p = some accesses ∧
      (p.Bounded accesses ↔ p.msgHeaderSize ≤ p.size.toNat ∨ p.srcUser.valid = false ∨
        ¬ s.SpeaksFor session p.srcUser) := by
  have hempty : ∀ q : Prop, q → (p.Bounded [] ↔ q) := fun q hq => by simp [Payload.Bounded, hq]
  unfold onRecvSession
  split
  · rename_i hheader
    refine ⟨[], rfl, hempty _ ?_⟩
    by_contra hnot
    push Not at hnot
    rw [Payload.headerOk_of_lt hsize hnot.1] at hheader
    simp [hnot.2.1] at hheader
  · rename_i hheader
    split
    · rename_i ptr hptr
      obtain ⟨ctx, hctx, hsession⟩ := h.session_ctx session ptr hptr
      have hlink : LoginSystem.linkCtx? session s = some ctx :=
        LoginSystem.linkCtx?_eq_some.mpr ⟨ptr, hptr, hctx⟩
      simp only [hctx, Option.bind_eq_bind, Option.bind_some]
      split
      · rename_i hsrc
        refine ⟨[], rfl, hempty _ (.inr (.inr ?_))⟩
        rintro ⟨dtx, hdtx, hin⟩
        cases Option.some.inj (hlink.symm.trans hdtx)
        simp only [ne_eq, Bool.and_eq_true, decide_eq_true_eq] at hsrc
        exact (LinkCtx.mem_users.mp hin).elim hsrc.1 hsrc.2
      · rename_i hsrc
        obtain ⟨routing, hrouting⟩ := h.route p.dstUsers ⟨false, false, [], ∅⟩
        rw [hrouting]
        refine ⟨_, rfl, ?_⟩
        rw [Payload.bounded_append, Payload.bounded_dstEntries]
        have hspeaks : s.SpeaksFor session p.srcUser := by
          refine ⟨ctx, hlink, LinkCtx.mem_users.mpr ?_⟩
          simp only [ne_eq, Bool.and_eq_true, decide_eq_true_eq] at hsrc
          tauto
        simp only [Payload.headerOk, Bool.not_eq_true, Bool.not_eq_false', Bool.and_eq_true,
          bne_iff_ne] at hheader
        constructor
        · exact fun hbounded => .inl hbounded.1
        · rintro (hle | hvalid | hnot)
          · exact ⟨hle, bounded_forward hle hheader.1.2 _ _⟩
          · simp [hheader.2] at hvalid
          · exact absurd hspeaks hnot
    · rename_i hnone
      refine ⟨[], rfl, hempty _ (.inr (.inr ?_))⟩
      rintro ⟨ctx, hctx, -⟩
      obtain ⟨ptr, hptr, -⟩ := LoginSystem.linkCtx?_eq_some.mp hctx
      exact hnone ptr hptr

theorem C2s.bounded_onRecvSession (s : C2s) (session : Session) {p : Payload}
    (hsize : sizeofMsgHeader < p.size.toNat) :
    p.Bounded (s.onRecvSession session p) ↔ p.msgHeaderSize ≤ p.size.toNat ∨
      p.srcUser.valid = false ∨ s.session2User[session]? ≠ some p.srcUser := by
  unfold onRecvSession
  split
  · rename_i hdrop
    simp only [Payload.Bounded, List.not_mem_nil, false_implies, implies_true, true_iff]
    by_contra hnot
    push Not at hnot
    rw [Payload.headerOk_of_lt hsize hnot.1] at hdrop
    simp [hnot.2.1, hnot.2.2] at hdrop
  · rename_i hkeep
    simp only [Payload.headerOk, Bool.or_eq_true, Bool.not_eq_true', Bool.and_eq_false_iff,
      decide_eq_true_eq, not_or, bne_eq_false_iff_eq, decide_eq_false_iff_not,
      Decidable.not_not, Bool.not_eq_false] at hkeep
    simp only [Payload.bounded_append, Payload.bounded_dstEntries]
    constructor
    · exact fun hbounded => .inl hbounded.1.1
    · rintro (hle | hvalid | hnot)
      · have hbody := p.isBodyOf_body hle hkeep.1.1.2
        refine ⟨⟨hle, ?_⟩, ?_⟩
        · split <;> simp [Payload.Bounded, MsgAccess.InBounds, hbody]
        · split <;> simp [Payload.Bounded, MsgAccess.InBounds, hbody]
      · simp [hkeep.1.2] at hvalid
      · exact absurd hkeep.2 hnot

theorem Client.bounded_onRecvSession (s : Client) (session : Session) {p : Payload}
    (hsize : sizeofMsgHeader < p.size.toNat) :
    p.Bounded (s.onRecvSession session p).2 ↔ p.msgHeaderSize ≤ p.size.toNat ∨
      p.srcUser.valid = false ∨ session ≠ s.session ∨ s.onOkCalled = false ∨
      s.enableTransfer = false ∧ s.canUpcall = false := by
  unfold onRecvSession
  split
  · rename_i hdrop
    simp only [Payload.Bounded, List.not_mem_nil, false_implies, implies_true, true_iff]
    by_contra hnot
    push Not at hnot
    rw [Payload.headerOk_of_lt hsize hnot.1] at hdrop
    simp [hnot.2.1, hnot.2.2.1] at hdrop
  · rename_i hkeep
    simp only [Payload.headerOk, Bool.or_eq_true, Bool.not_eq_true', Bool.and_eq_false_iff,
      decide_eq_true_eq, not_or, bne_eq_false_iff_eq, decide_eq_false_iff_not,
      Decidable.not_not, Bool.not_eq_false] at hkeep
    obtain ⟨⟨⟨-, hne⟩, hvalid⟩, hsession⟩ := hkeep
    split
    · rename_i hok
      have hbounded : p.Bounded (if s.canUpcall then [.onOkMsg p.srcUser p.charset] else []) := by
        split <;> simp [Payload.Bounded, MsgAccess.InBounds]
      simp_all
    · rename_i hok
      split
      · rename_i htransfer
        cases hup : s.canUpcall with
        | false => simp_all [Payload.Bounded]
        | true =>
          have hiff : p.Bounded [.onRecvMsg p.body p.charset p.srcUser] ↔
              p.msgHeaderSize ≤ p.size.toNat := by
            simp only [Payload.Bounded, List.mem_singleton, forall_eq, MsgAccess.InBounds]
            exact ⟨fun hbody => by_contra fun hlt => p.not_isBodyOf_body (Nat.lt_of_not_le hlt) hbody,
              fun hle => p.isBodyOf_body hle hne⟩
          simp_all
      · rename_i htransfer
        simp only [Payload.bounded_append, Payload.bounded_dstEntries]
        have hforward : p.msgHeaderSize ≤ p.size.toNat → p.Bounded
            (if s.canUpcall then
              (if (s.transferUsers p).length ≠ p.dstUserCount - badUserCount p then
                [.onRecvMsg p.body p.charset p.srcUser] else []) ++
              (if (s.transferUsers p).isEmpty then []
                else [.onTransferMsg p.body p.charset p.srcUser (s.transferUsers p)])
              else []) := by
          intro hle
          have hbody := p.isBodyOf_body hle hne
          split
          · rw [Payload.bounded_append]
            constructor
            · split <;> simp [Payload.Bounded, MsgAccess.InBounds, hbody]
            · split <;> simp [Payload.Bounded, MsgAccess.InBounds, hbody]
          · simp [Payload.Bounded]
        simp_all

/-- For every payload longer than a header, each decoder stays inside the payload
exactly when the header its count byte announces fits, or when the message is
dropped, or read no further than the header, for another reason. -/
theorem bounded_iff_header_fits (p : Payload) (hsize : sizeofMsgHeader < p.size.toNat) :
    (∀ (s : Server) (session : Session), s.TableInv →
      ∃ accesses, s.onRecvSession session p = some accesses ∧
        (p.Bounded accesses ↔ p.msgHeaderSize ≤ p.size.toNat ∨ p.srcUser.valid = false ∨
          ¬ s.SpeaksFor session p.srcUser)) ∧
    (∀ (s : C2s) (session : Session),
      p.Bounded (s.onRecvSession session p) ↔ p.msgHeaderSize ≤ p.size.toNat ∨
        p.srcUser.valid = false ∨ s.session2User[session]? ≠ some p.srcUser) ∧
    (∀ (s : Client) (session : Session),
      p.Bounded (s.onRecvSession session p).2 ↔ p.msgHeaderSize ≤ p.size.toNat ∨
        p.srcUser.valid = false ∨ session ≠ s.session ∨ s.onOkCalled = false ∨
        s.enableTransfer = false ∧ s.canUpcall = false) :=
  ⟨fun _ session h => Server.bounded_onRecvSession h session hsize,
    fun s session => s.bounded_onRecvSession session hsize,
    fun s session => s.bounded_onRecvSession session hsize⟩

/-- A payload from the user 2-7 with the given count byte and size; every other
byte is zero. -/
def payloadFrom27 (dstUserCount : UInt8) (size : UInt16) : Payload where
  byte i := if i = 4 then 2 else if i = 9 then 7 else if i = 15 then dstUserCount else 0
  size := size

/-- A server, a c2s node and a plain client that have the user 2-7 on session 10. -/
def serverOf27 : Server := (Server.init false false).insertLink 10 100 (.ofIds 2 7 0) false

def c2sOf27 : C2s where
  msgClient := true
  c2sUser := .ofIds 1 2 1
  timerId2Info := ∅
  session2User := (∅ : ExtTreeMap Session MsgUser).insert 10 (.ofIds 2 7 0)
  user2Session := (∅ : ExtTreeMap MsgUser Session).insert (.ofIds 2 7 0) 10
  localSslConfig := false
  localSslForced := false

def clientOf27 : Client := ⟨10, .ofIds 2 8 0, false, true, true⟩

theorem tableInv_serverOf27 : serverOf27.TableInv := by
  apply (Server.tableInv_init false false).insertLink
  · decide
  · rfl
  · rfl
  · rfl

/-- Two destinations and eight bytes of body. -/
theorem bounded_iff_header_fits_two :
    sizeofMsgHeader < (payloadFrom27 2 40).size.toNat ∧
    (∃ accesses, serverOf27.onRecvSession 10 (payloadFrom27 2 40) = some accesses ∧
      (payloadFrom27 2 40).Bounded accesses) ∧
    (payloadFrom27 2 40).Bounded (c2sOf27.onRecvSession 10 (payloadFrom27 2 40)) ∧
    (payloadFrom27 2 40).Bounded (clientOf27.onRecvSession 10 (payloadFrom27 2 40)).2 := by
  have hfits : (payloadFrom27 2 40).msgHeaderSize ≤ (payloadFrom27 2 40).size.toNat := by decide
  obtain ⟨hserver, hc2s, hclient⟩ := bounded_iff_header_fits (payloadFrom27 2 40) (by decide)
  obtain ⟨accesses, haccesses, hiff⟩ := hserver serverOf27 10 tableInv_serverOf27
  exact ⟨by decide, ⟨accesses, haccesses, hiff.mpr (.inl hfits)⟩,
    (hc2s c2sOf27 10).mpr (.inl hfits), (hclient clientOf27 10).mpr (.inl hfits)⟩

/-- A payload of 25 bytes that announces 255 destinations leads all three decoders
outside the payload. -/
theorem not_bounded_overlong_header :
    sizeofMsgHeader < (payloadFrom27 255 25).size.toNat ∧
    (∃ accesses, serverOf27.onRecvSession 10 (payloadFrom27 255 25) = some accesses ∧
      ¬ (payloadFrom27 255 25).Bounded accesses) ∧
    ¬ (payloadFrom27 255 25).Bounded (c2sOf27.onRecvSession 10 (payloadFrom27 255 25)) ∧
    ¬ (payloadFrom27 255 25).Bounded (clientOf27.onRecvSession 10 (payloadFrom27 255 25)).2 := by
  have hsize : sizeofMsgHeader < (payloadFrom27 255 25).size.toNat := by decide
  have hlong : ¬ (payloadFrom27 255 25).msgHeaderSize ≤ (payloadFrom27 255 25).size.toNat := by
    decide
  have hsrc : (payloadFrom27 255 25).srcUser = .ofIds 2 7 0 := by decide
  obtain ⟨accesses, haccesses, hiff⟩ :=
    Server.bounded_onRecvSession tableInv_serverOf27 10 hsize
  refine ⟨hsize, ⟨accesses, haccesses, ?_⟩, ?_, ?_⟩
  · rw [hiff, hsrc]
    rintro (hle | hvalid | hnot)
    · exact hlong hle
    · revert hvalid
      decide
    · exact hnot ⟨⟨10, .ofIds 2 7 0, ∅, false⟩, rfl, LinkCtx.mem_users.mpr (.inl rfl)⟩
  · rw [C2s.bounded_onRecvSession _ _ hsize, hsrc]
    rintro (hle | hvalid | hnot)
    · exact hlong hle
    · revert hvalid
      decide
    · exact hnot (by decide)
  · rw [Client.bounded_onRecvSession _ _ hsize, hsrc]
    rintro (hle | hvalid | hnot | hnot | hnot)
    · exact hlong hle
    · revert hvalid
      decide
    · exact hnot rfl
    · cases hnot
    · cases hnot.2

end Pronet.Msg
