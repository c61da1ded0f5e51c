import Pronet.Library.Deferred
import Pronet.Library.Runs
import Pronet.Library.Tables
import Pronet.Rtp.Packet

/-! `CRtpService` from `Init` on, with the handshakers that it creates. A socket comes from the
service host and goes to a handshaker; one that gives it back with the first packet of its client
is deleted, and the session goes to the observer. -/
namespace Pronet.Rtp

open Library Runs Std

/-- `RTP_SESSION_INFO`, in the order of the machine. -/
structure RtpSessionInfo where
  localVersion : UInt16
  remoteVersion : UInt16
  sessionType : UInt8
  mmType : UInt8
  passwordHash : Vector UInt8 32
  reserved : Vector UInt8 34
  someId : UInt32
  mmId : UInt32
  inSrcMmId : UInt32
  outSrcMmId : UInt32
  userData : Vector UInt8 64
  deriving DecidableEq, Repr

def sizeofSessionInfo : Nat := 152

def vectorAt (bytes : List UInt8) (offset n : Nat) : Vector UInt8 n :=
  Vector.ofFn fun i => byteAt bytes (offset + i)

/-- The info in `bytes`, which are in the order of the network. -/
def RtpSessionInfo.ofBytes (bytes : List UInt8) : RtpSessionInfo where
  localVersion := be16At bytes 0
  remoteVersion := be16At bytes 2
  sessionType := byteAt bytes 4
  mmType := byteAt bytes 5
  passwordHash := vectorAt bytes 6 32
  reserved := vectorAt bytes 38 34
  someId := be32At bytes 72
  mmId := be32At bytes 76
  inSrcMmId := be32At bytes 80
  outSrcMmId := be32At bytes 84
  userData := vectorAt bytes 88 64

/-- What `OnServiceAccept` is called with. -/
structure ServiceOffer where
  serviceHost : Nat
  sockId : Nat
  unixSocket : Bool
  serviceId : UInt8
  serviceOpt : UInt8
  nonce : UInt64
  deriving DecidableEq, Repr

/-- What a handshaker is given; an SSL handshaker has a context. -/
structure HandshakeSock where
  ctx : Option Nat
  sockId : Nat
  unixSocket : Bool
  deriving DecidableEq, Repr

structure AcceptedSession where
  handshaker : Nat
  sock : HandshakeSock
  info : RtpSessionInfo
  nonce : UInt64
  deriving DecidableEq, Repr

/-- `arrive` and `handBack` mark a socket that comes into the hands of the service, `dispose` the
end of a handshaker that has not given its socket back. -/
inductive ServiceEffect
  | init (serviceHost : Nat)
  | arrive (offer : ServiceOffer)
  | createCtx (ctx : Nat)
  | createHandshaker (handshaker : Nat) (sock : HandshakeSock) (nonce : UInt64)
  | handBack (handshaker : Nat) (sock : HandshakeSock)
  | dispose (handshaker : Nat) (sock : HandshakeSock)
  | closeSock (sockId : Nat)
  | deleteCtx (ctx : Nat)
  | deleteHandshaker (handshaker : Nat)
  | deleteServiceHost (serviceHost : Nat)
  | onAcceptSession (session : AcceptedSession)
  | fini
  deriving DecidableEq, Repr

abbrev HandshakerTable := ExtTreeMap Nat UInt64

/-- The observer, the reactor and the service host are set and cleared together. -/
structure RtpService where
  serviceHost : Option Nat
  mmType : UInt8
  hasSslConfig : Bool
  tcpHandshaker2Nonce : HandshakerTable
  sslHandshaker2Nonce : HandshakerTable
  deriving DecidableEq

namespace RtpService

def maxPendingCount : Nat := 5000

def recvDataSize : Nat := sizeofExt + sizeofHeader + sizeofSessionInfo

def init (serviceHost : Nat) (mmType : UInt8) (hasSslConfig : Bool) : RtpService :=
  ⟨some serviceHost, mmType, hasSslConfig, ∅, ∅⟩

def pendingCount (s : RtpService) : Nat := s.tcpHandshaker2Nonce.size + s.sslHandshaker2Nonce.size

/-- The service, the effects of a section and those behind it. -/
abbrev Section := RtpService × List ServiceEffect × List ServiceEffect

/-- `sslCtx` and `handshaker` are what `ProSslCtx_Creates` and `ProCreate*Handshaker` return. -/
def onServiceAccept (s : RtpService) (offer : ServiceOffer) (sslCtx handshaker : Option Nat) : Section :=
  let sockId := offer.sockId
  if offer.serviceId = 0 then (s, [], [])
  else if s.serviceHost.isNone then (s, [.arrive offer, .closeSock sockId], [])
  else if s.serviceHost ≠ some offer.serviceHost || offer.serviceId ≠ s.mmType then
    (s, [.arrive offer, .closeSock sockId], [])
  else if s.pendingCount ≥ maxPendingCount then (s, [.arrive offer, .closeSock sockId], [])
  else if offer.serviceOpt = 0 then
    match handshaker with
    | none => (s, [.arrive offer, .closeSock sockId], [])
    | some handshaker =>
        ({ s with tcpHandshaker2Nonce := s.tcpHandshaker2Nonce.insert handshaker offer.nonce },
          [.arrive offer, .createHandshaker handshaker ⟨none, sockId, offer.unixSocket⟩ offer.nonce], [])
  else if !s.hasSslConfig then (s, [.arrive offer, .closeSock sockId], [])
  else
    match sslCtx, handshaker with
    | none, _ => (s, [.arrive offer, .closeSock sockId], [])
    | some sslCtx, none => (s, [.arrive offer, .createCtx sslCtx, .deleteCtx sslCtx, .closeSock sockId], [])
    | some sslCtx, some handshaker =>
        ({ s with sslHandshaker2Nonce := s.sslHandshaker2Nonce.insert handshaker offer.nonce },
          [.arrive offer, .createCtx sslCtx,
            .createHandshaker handshaker ⟨some sslCtx, sockId, offer.unixSocket⟩ offer.nonce], [])

/-- Both `OnHandshakeOk`, with the table of the handshaker. `hasPeer` says that `pbsd_getpeername`
succeeds. A socket that is closed becomes -1, and is not closed again. -/
def handshakeOk (s : RtpService) (table : HandshakerTable) (store : HandshakerTable → RtpService)
    (handshaker : Nat) (sock : HandshakeSock) (buf : List UInt8) (hasPeer : Bool) : Section :=
  let deleteCtx := sock.ctx.toList.map ServiceEffect.deleteCtx
  let closed := [.handBack handshaker sock] ++ deleteCtx ++ [.closeSock sock.sockId]
  if s.serviceHost.isNone then (s, closed, [])
  else
    match table[handshaker]? with
    | none => (s, closed, [])
    | some nonce =>
        let lost := !sock.unixSocket && !hasPeer
        let wrongSize := buf.length ≠ recvDataSize
        let inside := [.handBack handshaker sock] ++ (if lost then [.closeSock sock.sockId] else []) ++
          (if wrongSize then deleteCtx ++ (if lost then [] else [.closeSock sock.sockId]) else [])
        let rest :=
          if wrongSize then []
          else if lost then deleteCtx
          else if !parseExtBuffer buf (UInt16.ofNat buf.length) then deleteCtx ++ [.closeSock sock.sockId]
          else [.onAcceptSession ⟨handshaker, sock, .ofBytes (buf.drop (sizeofExt + sizeofHeader)), nonce⟩]
        (store (table.erase handshaker), inside, .deleteHandshaker handshaker :: rest)

def onTcpHandshakeOk (s : RtpService) (handshaker : Nat) (sock : HandshakeSock) (buf : List UInt8)
    (hasPeer : Bool) : Section :=
  s.handshakeOk s.tcpHandshaker2Nonce (fun table => { s with tcpHandshaker2Nonce := table }) handshaker sock buf
    hasPeer

def onSslHandshakeOk (s : RtpService) (handshaker : Nat) (sock : HandshakeSock) (buf : List UInt8)
    (hasPeer : Bool) : Section :=
  s.handshakeOk s.sslHandshaker2Nonce (fun table => { s with sslHandshaker2Nonce := table }) handshaker sock buf
    hasPeer

/-- Both `OnHandshakeError`. -/
def handshakeError (s : RtpService) (table : HandshakerTable) (store : HandshakerTable → RtpService)
    (handshaker : Nat) : Section :=
  if s.serviceHost.isNone then (s, [], [])
  else
    match table[handshaker]? with
    | none => (s, [], [])
    | some _ => (store (table.erase handshaker), [], [.deleteHandshaker handshaker])

def onTcpHandshakeError (s : RtpService) (handshaker : Nat) : Section :=
  s.handshakeError s.tcpHandshaker2Nonce (fun table => { s with tcpHandshaker2Nonce := table }) handshaker

def onSslHandshakeError (s : RtpService) (handshaker : Nat) : Section :=
  s.handshakeError s.sslHandshaker2Nonce (fun table => { s with sslHandshaker2Nonce := table }) handshaker

def fini (s : RtpService) : Section :=
  match s.serviceHost with
  | none => (s, [], [])
  | some serviceHost =>
      ({ s with serviceHost := none, tcpHandshaker2Nonce := ∅, sslHandshaker2Nonce := ∅ }, [.fini],
        s.sslHandshaker2Nonce.keys.map .deleteHandshaker ++ s.tcpHandshaker2Nonce.keys.map .deleteHandshaker ++
          [.deleteServiceHost serviceHost])

end RtpService

/-- A handshaker and the nonce of its socket. `result` is what it has decided to report, with the
bytes that it has received, and `called` says that it has reported it. -/
structure Shaker where
  sock : HandshakeSock
  nonce : UInt64
  result : Option (Option (List UInt8))
  called : Bool
  deleted : Bool
  destroyed : Bool
  deriving DecidableEq, Repr

namespace Shaker

def init (sock : HandshakeSock) (nonce : UInt64) : Shaker := ⟨sock, nonce, none, false, false, false⟩

/-- The socket goes with the call of `OnHandshakeOk`, or with the handshaker. -/
def holds (s : Shaker) : Bool :=
  match s.result with
  | some (some _) => !s.called
  | _ => !s.destroyed

def held (s : Shaker) : Option HandshakeSock := if s.holds then some s.sock else none

/-- Nobody uses the handshaker any more. -/
def unused (s : Shaker) : Bool := s.deleted && (s.result.isNone || s.called)

structure WellFormed (s : Shaker) : Prop where
  called : s.called = true → s.result ≠ none
  destroyed : s.destroyed = true → s.unused = true

end Shaker

inductive ServiceEvent
  | onServiceAccept (offer : ServiceOffer) (sslCtx : Option Nat) (created : Bool)
  | decide (handshaker : Nat) (result : Option (List UInt8))
  | report (handshaker : Nat) (hasPeer : Bool)
  | destroy (handshaker : Nat)
  | fini
  | proceed (handler : Nat)
  deriving DecidableEq, Repr

/-- Handshakers are numbered as they are created. -/
structure ServiceRun where
  service : RtpService
  shakers : List Shaker
  effects : Deferred ServiceEffect
  deriving DecidableEq

namespace ServiceEffect

def newShaker : ServiceEffect → Option Shaker
  | .createHandshaker _ sock nonce => some (Shaker.init sock nonce)
  | _ => none

/-- What an effect does to the handshakers. -/
def reach (shakers : List Shaker) : ServiceEffect → List Shaker
  | .deleteHandshaker handshaker => shakers.modify handshaker fun s => { s with deleted := true }
  | _ => shakers

end ServiceEffect

namespace ServiceRun

open RtpService

def start (serviceHost : Nat) (mmType : UInt8) (hasSslConfig : Bool) : ServiceRun :=
  ⟨RtpService.init serviceHost mmType hasSslConfig, [], ⟨[.init serviceHost], []⟩⟩

def enter (w : ServiceRun) (r : Section) : ServiceRun :=
  ⟨r.1, w.shakers ++ r.2.1.filterMap ServiceEffect.newShaker, w.effects.enter r.2.1 r.2.2⟩

def put (w : ServiceRun) (handshaker : Nat) (s : Shaker) : ServiceRun :=
  { w with shakers := w.shakers.set handshaker s }

/-- What the handshaker reports to the service. -/
def reportSection (w : ServiceRun) (handshaker : Nat) (s : Shaker) (result : Option (List UInt8))
    (hasPeer : Bool) : Section :=
  match s.sock.ctx, result with
  | none, some buf => w.service.onTcpHandshakeOk handshaker s.sock buf hasPeer
  | none, none => w.service.onTcpHandshakeError handshaker
  | some _, some buf => w.service.onSslHandshakeOk handshaker s.sock buf hasPeer
  | some _, none => w.service.onSslHandshakeError handshaker

def step (w : ServiceRun) : ServiceEvent → Option ServiceRun
  | .onServiceAccept offer sslCtx created =>
      some (w.enter (w.service.onServiceAccept offer sslCtx (if created then some w.shakers.length else none)))
  | .decide handshaker result => do
      let s ← w.shakers[handshaker]?
      if s.result.isSome || s.deleted then none else some (w.put handshaker { s with result := some result })
  | .report handshaker hasPeer => do
      let s ← w.shakers[handshaker]?
      let result ← s.result
      if s.called then none
      else some ((w.put handshaker { s with called := true }).enter (w.reportSection handshaker s result hasPeer))
  | .destroy handshaker => do
      let s ← w.shakers[handshaker]?
      if !s.unused || s.destroyed then none
      else
        let gone := if s.holds then [ServiceEffect.dispose handshaker s.sock] else []
        some ((w.put handshaker { s with destroyed := true }).enter (w.service, gone, []))
  | .fini => some (w.enter w.service.fini)
  | .proceed handler => do
      let thread ← w.effects.pending[handler]?
      let e ← thread.head?
      let effects ← w.effects.proceed handler
      some { w with shakers := e.reach w.shakers, effects := effects }

end ServiceRun

/-! What the effects say of sockets, contexts, handshakers and the service host. -/
namespace ServiceEffect

def arrived : ServiceEffect → Option Nat
  | .arrive offer => some offer.sockId
  | _ => none

def sockTaken : ServiceEffect → Option Nat
  | .arrive offer => some offer.sockId
  | .handBack _ sock => some sock.sockId
  | _ => none

def sockLeft : ServiceEffect → Option Nat
  | .createHandshaker _ sock _ => some sock.sockId
  | .closeSock sockId => some sockId
  | .onAcceptSession session => some session.sock.sockId
  | _ => none

/-- A socket is closed by the service, closed with its handshaker, or goes to the observer. -/
def sockGone : ServiceEffect → Option Nat
  | .closeSock sockId => some sockId
  | .dispose _ sock => some sock.sockId
  | .onAcceptSession session => some session.sock.sockId
  | _ => none

def ctxCreated : ServiceEffect → Option Nat
  | .createCtx ctx => some ctx
  | _ => none

def ctxTaken : ServiceEffect → Option Nat
  | .createCtx ctx => some ctx
  | .handBack _ sock => sock.ctx
  | _ => none

def ctxLeft : ServiceEffect → Option Nat
  | .createHandshaker _ sock _ => sock.ctx
  | .deleteCtx ctx => some ctx
  | .onAcceptSession session => session.sock.ctx
  | _ => none

def ctxGone : ServiceEffect → Option Nat
  | .deleteCtx ctx => some ctx
  | .dispose _ sock => sock.ctx
  | .onAcceptSession session => session.sock.ctx
  | _ => none

def given : ServiceEffect → Option HandshakeSock
  | .createHandshaker _ sock _ => some sock
  | _ => none

def returned : ServiceEffect → Option HandshakeSock
  | .handBack _ sock => some sock
  | .dispose _ sock => some sock
  | _ => none

def created : ServiceEffect → Option Nat
  | .createHandshaker handshaker _ _ => some handshaker
  | _ => none

def deleted : ServiceEffect → Option Nat
  | .deleteHandshaker handshaker => some handshaker
  | _ => none

def hosted : ServiceEffect → Option Nat
  | .init serviceHost => some serviceHost
  | _ => none

def hostDeleted : ServiceEffect → Option Nat
  | .deleteServiceHost serviceHost => some serviceHost
  | _ => none

/-- What goes between the service and its handshakers, where `p` is the socket or its context. -/
def lent (p : HandshakeSock → Option Nat) : ServiceEffect → Option Nat
  | .createHandshaker _ sock _ => p sock
  | _ => none

def handedBack (p : HandshakeSock → Option Nat) : ServiceEffect → Option Nat
  | .handBack _ sock => p sock
  | _ => none

def disposed (p : HandshakeSock → Option Nat) : ServiceEffect → Option Nat
  | .dispose _ sock => p sock
  | _ => none

def sockClosed : ServiceEffect → Option Nat
  | .closeSock sockId => some sockId
  | .onAcceptSession session => some session.sock.sockId
  | _ => none

def ctxClosed : ServiceEffect → Option Nat
  | .deleteCtx ctx => some ctx
  | .onAcceptSession session => session.sock.ctx
  | _ => none

/-- The observer is called behind the deletion of the handshaker. -/
def needs : ServiceEffect → Option ServiceEffect
  | .onAcceptSession session => some (.deleteHandshaker session.handshaker)
  | _ => none

/-- What stands behind a section. -/
def behind : ServiceEffect → Bool
  | .closeSock _ | .deleteCtx _ | .deleteHandshaker _ | .deleteServiceHost _ | .onAcceptSession _ => true
  | _ => false

/-- What stands in a section. -/
def inside : ServiceEffect → Bool
  | .deleteHandshaker _ | .deleteServiceHost _ | .onAcceptSession _ => false
  | _ => true

end ServiceEffect

namespace RtpService

open ServiceEffect Deferred

def handshakers (s : RtpService) : List Nat := s.tcpHandshaker2Nonce.keys ++ s.sslHandshaker2Nonce.keys

def table (s : RtpService) (ssl : Bool) : HandshakerTable :=
  if ssl then s.sslHandshaker2Nonce else s.tcpHandshaker2Nonce

/-- The socket of an offer, for a handshaker of the kind that it asks for. -/
def ServiceOffer.Asks (offer : ServiceOffer) (sock : HandshakeSock) (nonce : UInt64) : Prop :=
  offer.sockId = sock.sockId ∧ offer.unixSocket = sock.unixSocket ∧ offer.nonce = nonce ∧
    (offer.serviceOpt ≠ 0 ↔ sock.ctx.isSome = true)

/-- The session of a socket whose client has sent `buf`. -/
structure Genuine (handshaker : Nat) (sock : HandshakeSock) (buf : List UInt8) (a : AcceptedSession) : Prop where
  handshaker : a.handshaker = handshaker
  sock : a.sock = sock
  size : buf.length = recvDataSize
  parsed : parseExtBuffer buf (UInt16.ofNat recvDataSize) = true
  info : a.info = .ofBytes (buf.drop (sizeofExt + sizeofHeader))

/-- What a section can do, where `back` are the sockets that come back from handshakers. -/
structure Allowed (fresh : Nat) (s : RtpService) (back : List HandshakeSock) (r : Section) : Prop where
  mmType : r.1.mmType = s.mmType
  socks : ((r.2.1 ++ r.2.2).filterMap sockTaken).Perm ((r.2.1 ++ r.2.2).filterMap sockLeft)
  ctxs : ((r.2.1 ++ r.2.2).filterMap ctxTaken).Perm ((r.2.1 ++ r.2.2).filterMap ctxLeft)
  handshakers : ((r.2.1 ++ r.2.2).filterMap created ++ s.handshakers).Perm
    ((r.2.1 ++ r.2.2).filterMap deleted ++ r.1.handshakers)
  hosts : ((r.2.1 ++ r.2.2).filterMap hosted ++ s.serviceHost.toList).Perm
    ((r.2.1 ++ r.2.2).filterMap hostDeleted ++ r.1.serviceHost.toList)
  back : (r.2.1 ++ r.2.2).filterMap returned = back
  entries : ∀ ssl i nonce, (r.1.table ssl)[i]? = some nonce → (s.table ssl)[i]? = some nonce ∨
    ∃ sock, .createHandshaker i sock nonce ∈ r.2.1 ∧ sock.ctx.isSome = ssl
  created : (∀ e ∈ r.2.1, created e = none) ∨ ∃ offer sock pre, pre.filterMap created = [] ∧
    r.2.1 = pre ++ [.createHandshaker fresh sock offer.nonce] ∧ .arrive offer ∈ pre ∧
    ServiceOffer.Asks offer sock offer.nonce ∧ offer.serviceId = s.mmType ∧ s.serviceHost ≠ none
  inside : ∀ e ∈ r.2.1, e.inside = true
  behind : ∀ e ∈ r.2.2, e.behind = true
  order : ∀ before, Follows needs before r.2.2
  pending : s.pendingCount ≤ maxPendingCount → r.1.pendingCount ≤ maxPendingCount
  quiet : s.serviceHost = none → r.1 = s
  stops : s.serviceHost ≠ none → r.1.serviceHost = none →
    r.1.tcpHandshaker2Nonce = ∅ ∧ r.1.sslHandshaker2Nonce = ∅ ∧ r.2.1 = [.fini]

variable {fresh : Nat} {s : RtpService}

/-- A section that leaves the service as it is, and gets rid of what comes to it. -/
theorem allowed_still {back : List HandshakeSock} {inside : List ServiceEffect}
    (hsocks : (inside.filterMap sockTaken).Perm (inside.filterMap sockLeft))
    (hctxs : (inside.filterMap ctxTaken).Perm (inside.filterMap ctxLeft))
    (hback : inside.filterMap returned = back)
    (hkinds : ∀ e ∈ inside, created e = none ∧ hosted e = none ∧ e.inside = true) :
    Allowed fresh s back (s, inside, []) := by
  have hgone : ∀ e ∈ inside, deleted e = none ∧ hostDeleted e = none := by
    intro e he
    have hin := (hkinds e he).2.2
    cases e <;> first | exact ⟨rfl, rfl⟩ | cases hin
  have hnone : ∀ f : ServiceEffect → Option Nat, (∀ e ∈ inside, f e = none) → inside.filterMap f = [] :=
    fun f hf => List.filterMap_eq_nil_iff.mpr hf
  refine ⟨rfl, ?_, ?_, ?_, ?_, ?_, fun _ _ _ h => .inl h, .inl fun e he => (hkinds e he).1,
    fun e he => (hkinds e he).2.2, fun e he => absurd he List.not_mem_nil, fun before => Follows.nil before,
    fun h => h, fun _ => rfl, fun hopen hclosed => absurd hclosed hopen⟩
  · rw [List.append_nil]
    exact hsocks
  · rw [List.append_nil]
    exact hctxs
  · rw [List.append_nil, hnone _ fun e he => (hkinds e he).1, hnone _ fun e he => (hgone e he).1]
  · rw [List.append_nil, hnone _ fun e he => (hkinds e he).2.1, hnone _ fun e he => (hgone e he).2]
  · rw [List.append_nil]
    exact hback

theorem allowed_nothing : Allowed fresh s [] (s, [], []) :=
  allowed_still (List.Perm.refl _) (List.Perm.refl _) rfl fun _ he => absurd he List.not_mem_nil

theorem allowed_close (offer : ServiceOffer) :
    Allowed fresh s [] (s, [.arrive offer, .closeSock offer.sockId], []) := by
  refine allowed_still (List.Perm.refl _) (List.Perm.refl _) rfl ?_
  intro e he
  simp only [List.mem_cons, List.not_mem_nil, or_false] at he
  rcases he with rfl | rfl <;> exact ⟨rfl, rfl, rfl⟩

theorem pendingCount_eq (s : RtpService) : s.pendingCount = s.handshakers.length := by
  unfold pendingCount handshakers
  rw [List.length_append, ExtTreeMap.length_keys, ExtTreeMap.length_keys]

theorem mem_of_entry {table : HandshakerTable} {i : Nat} {nonce : UInt64} (h : table[i]? = some nonce) :
    i ∈ table := by
  rw [ExtTreeMap.mem_iff_isSome_getElem?, h]
  rfl

/-- A socket that goes to a new handshaker. -/
theorem allowed_create (s' : RtpService) {offer : ServiceOffer} (ctx : Option Nat) (hmmType : s'.mmType = s.mmType)
    (hhost : s'.serviceHost = s.serviceHost) (hopen : s.serviceHost ≠ none) (hservice : offer.serviceId = s.mmType)
    (hroom : s.pendingCount < maxPendingCount) (hkeys : s'.handshakers.Perm (fresh :: s.handshakers))
    (hentries : ∀ ssl i nonce, (s'.table ssl)[i]? = some nonce →
      (s.table ssl)[i]? = some nonce ∨ (i = fresh ∧ nonce = offer.nonce) ∧ ctx.isSome = ssl)
    (hkind : offer.serviceOpt ≠ 0 ↔ ctx.isSome = true) :
    Allowed fresh s [] (s', .arrive offer :: ctx.toList.map ServiceEffect.createCtx ++
      [.createHandshaker fresh ⟨ctx, offer.sockId, offer.unixSocket⟩ offer.nonce], []) := by
  refine ⟨hmmType, ?_, ?_, ?_, ?_, ?_, ?_, ?_, ?_, fun e he => absurd he List.not_mem_nil,
    fun before => Follows.nil _, ?_, fun h => absurd h hopen, fun _ h => absurd (hhost.symm.trans h) hopen⟩
  · cases ctx <;> exact List.Perm.refl _
  · cases ctx <;> exact List.Perm.refl _
  · cases ctx <;> exact hkeys.symm
  · rw [hhost]
    cases ctx <;> exact List.Perm.refl _
  · cases ctx <;> rfl
  · intro ssl i nonce hi
    rcases hentries ssl i nonce hi with hold | ⟨⟨rfl, rfl⟩, hssl⟩
    · exact .inl hold
    · exact .inr ⟨⟨ctx, offer.sockId, offer.unixSocket⟩, by simp, hssl⟩
  · refine .inr ⟨offer, _, .arrive offer :: ctx.toList.map ServiceEffect.createCtx, ?_, rfl, by simp,
      ⟨rfl, rfl, rfl, hkind⟩, hservice, hopen⟩
    cases ctx <;> rfl
  · intro e he
    cases ctx with
    | none =>
      simp only [Option.toList_none, List.map_nil, List.cons_append, List.nil_append, List.mem_cons,
        List.not_mem_nil, or_false] at he
      rcases he with rfl | rfl <;> rfl
    | some ctx =>
      simp only [Option.toList_some, List.map_cons, List.map_nil, List.cons_append, List.nil_append,
        List.mem_cons, List.not_mem_nil, or_false] at he
      rcases he with rfl | rfl | rfl <;> rfl
  · intro _
    rw [pendingCount_eq] at hroom ⊢
    rw [hkeys.length_eq, List.length_cons]
    exact hroom

/-- The service takes a socket and gives it to a new handshaker, or closes it. -/
theorem allowed_onServiceAccept (hfresh : ∀ ssl, fresh ∉ s.table ssl) (offer : ServiceOffer)
    (sslCtx : Option Nat) (made : Bool) :
    Allowed fresh s [] (s.onServiceAccept offer sslCtx (if made then some fresh else none)) := by
  have htcp : fresh ∉ s.tcpHandshaker2Nonce := hfresh false
  have hssl : fresh ∉ s.sslHandshaker2Nonce := hfresh true
  unfold onServiceAccept
  dsimp only
  split
  · exact allowed_nothing
  · split
    · exact allowed_close offer
    · rename_i hclosed
      have hopen : s.serviceHost ≠ none := by
        intro hnone
        rw [hnone] at hclosed
        exact hclosed rfl
      split
      · exact allowed_close offer
      · rename_i hown
        have hservice : offer.serviceId = s.mmType := by
          simp only [Bool.or_eq_true, decide_eq_true_eq, not_or, not_not] at hown
          exact hown.2
        split
        · exact allowed_close offer
        · rename_i hfull
          have hroom : s.pendingCount < maxPendingCount := Nat.lt_of_not_ge hfull
          split
          · rename_i hplain
            cases made with
            | false => exact allowed_close offer
            | true =>
              refine allowed_create { s with tcpHandshaker2Nonce := s.tcpHandshaker2Nonce.insert fresh offer.nonce } none
                rfl rfl hopen hservice hroom ?_ ?_ ?_
              · exact (Tables.keys_insert_perm offer.nonce htcp).append_right _
              · intro ssl i nonce hi
                cases ssl with
                | true => exact .inl hi
                | false => exact (Tables.getElem?_of_insert hi).imp_right fun h => ⟨h, rfl⟩
              · simp [hplain]
          · rename_i hsecure
            split
            · exact allowed_close offer
            · cases sslCtx with
              | none => exact allowed_close offer
              | some sslCtx =>
                cases made with
                | false =>
                  refine allowed_still (List.Perm.refl _) (List.Perm.refl _) rfl ?_
                  intro e he
                  simp only [List.mem_cons, List.not_mem_nil, or_false] at he
                  rcases he with rfl | rfl | rfl | rfl <;> exact ⟨rfl, rfl, rfl⟩
                | true =>
                  refine allowed_create { s with sslHandshaker2Nonce := s.sslHandshaker2Nonce.insert fresh offer.nonce }
                    (some sslCtx) rfl rfl hopen hservice hroom ?_ ?_ ?_
                  · exact ((Tables.keys_insert_perm offer.nonce hssl).append_left _).trans List.perm_middle
                  · intro ssl i nonce hi
                    cases ssl with
                    | false => exact .inl hi
                    | true => exact (Tables.getElem?_of_insert hi).imp_right fun h => ⟨h, rfl⟩
                  · simp [hsecure]

/-- What it is to erase a handshaker from its table. -/
structure Erases (s : RtpService) (table : HandshakerTable) (store : HandshakerTable → RtpService)
    (handshaker : Nat) : Prop where
  mmType : (store (table.erase handshaker)).mmType = s.mmType
  serviceHost : (store (table.erase handshaker)).serviceHost = s.serviceHost
  handshakers : handshaker ∈ table →
    s.handshakers.Perm (handshaker :: (store (table.erase handshaker)).handshakers)
  entries : ∀ (ssl : Bool) (i : Nat) (nonce : UInt64),
    ((store (table.erase handshaker)).table ssl)[i]? = some nonce → (s.table ssl)[i]? = some nonce

theorem erases_tcp (s : RtpService) (handshaker : Nat) :
    Erases s s.tcpHandshaker2Nonce (fun table => { s with tcpHandshaker2Nonce := table }) handshaker := by
  refine ⟨rfl, rfl, ?_, ?_⟩
  · intro hmem
    exact (Tables.keys_perm_erase (ExtTreeMap.getElem?_eq_some_getElem hmem)).append_right _
  · intro ssl i nonce hi
    cases ssl with
    | true => exact hi
    | false => exact (Tables.getElem?_of_erase hi).2

theorem erases_ssl (s : RtpService) (handshaker : Nat) :
    Erases s s.sslHandshaker2Nonce (fun table => { s with sslHandshaker2Nonce := table }) handshaker := by
  refine ⟨rfl, rfl, ?_, ?_⟩
  · intro hmem
    exact ((Tables.keys_perm_erase (ExtTreeMap.getElem?_eq_some_getElem hmem)).append_left _).trans List.perm_middle
  · intro ssl i nonce hi
    cases ssl with
    | false => exact hi
    | true => exact (Tables.getElem?_of_erase hi).2

/-- A section that deletes a handshaker of a table, which may have given back its socket. -/
theorem allowed_erase {table : HandshakerTable} {store : HandshakerTable → RtpService} {handshaker : Nat}
    (herases : Erases s table store handshaker) (hopen : s.serviceHost ≠ none) (hmem : handshaker ∈ table)
    {back : List HandshakeSock} {inside rest : List ServiceEffect}
    (hsocks : ((inside ++ rest).filterMap sockTaken).Perm ((inside ++ rest).filterMap sockLeft))
    (hctxs : ((inside ++ rest).filterMap ctxTaken).Perm ((inside ++ rest).filterMap ctxLeft))
    (hback : inside.filterMap returned = back)
    (hinside : ∀ e ∈ inside, created e = none ∧ hosted e = none ∧ e.inside = true)
    (hrest : ∀ e ∈ rest, e.behind = true ∧ deleted e = none ∧ hostDeleted e = none ∧
      ∀ first ∈ needs e, first = .deleteHandshaker handshaker) :
    Allowed fresh s back (store (table.erase handshaker), inside, .deleteHandshaker handshaker :: rest) := by
  have hnone : ∀ {ι : Type} (l : List ServiceEffect) (f : ServiceEffect → Option ι), (∀ e ∈ l, f e = none) →
      l.filterMap f = [] := fun l f hf => List.filterMap_eq_nil_iff.mpr hf
  have hbehind : ∀ e ∈ rest, created e = none ∧ hosted e = none ∧ returned e = none := by
    intro e he
    have := (hrest e he).1
    cases e <;> first | exact ⟨rfl, rfl, rfl⟩ | cases this
  have hgone : ∀ e ∈ inside, deleted e = none ∧ hostDeleted e = none := by
    intro e he
    have hin := (hinside e he).2.2
    cases e <;> first | exact ⟨rfl, rfl⟩ | cases hin
  refine ⟨herases.mmType, ?_, ?_, ?_, ?_, ?_, fun ssl i nonce hi => .inl (herases.entries ssl i nonce hi),
    .inl fun e he => (hinside e he).1, fun e he => (hinside e he).2.2, ?_, ?_, ?_, fun h => absurd h hopen,
    fun _ h => absurd (herases.serviceHost.symm.trans h) hopen⟩
  · rw [List.filterMap_append, List.filterMap_append, List.filterMap_cons_none rfl, List.filterMap_cons_none rfl,
      ← List.filterMap_append, ← List.filterMap_append]
    exact hsocks
  · rw [List.filterMap_append, List.filterMap_append, List.filterMap_cons_none rfl, List.filterMap_cons_none rfl,
      ← List.filterMap_append, ← List.filterMap_append]
    exact hctxs
  · dsimp only
    rw [List.filterMap_append, List.filterMap_append, List.filterMap_cons_none rfl,
      List.filterMap_cons_some (f := deleted) rfl, hnone _ _ fun e he => (hinside e he).1,
      hnone _ _ fun e he => (hbehind e he).1,
      hnone _ _ fun e he => (hgone e he).1, hnone _ _ fun e he => (hrest e he).2.1]
    exact herases.handshakers hmem
  · rw [List.filterMap_append, List.filterMap_append, List.filterMap_cons_none rfl, List.filterMap_cons_none rfl,
      hnone _ _ fun e he => (hinside e he).2.1, hnone _ _ fun e he => (hbehind e he).2.1,
      hnone _ _ fun e he => (hgone e he).2, hnone _ _ fun e he => (hrest e he).2.2.1, herases.serviceHost]
  · rw [List.filterMap_append, List.filterMap_cons_none rfl, hnone _ _ fun e he => (hbehind e he).2.2,
      List.append_nil]
    exact hback
  · intro e he
    rcases List.mem_cons.mp he with rfl | he
    · rfl
    · exact (hrest e he).1
  · intro before pre e post heq first hfirst
    cases pre with
    | nil =>
      obtain ⟨rfl, -⟩ := List.cons.inj heq
      cases hfirst
    | cons first' pre =>
      obtain ⟨rfl, hrest'⟩ := List.cons.inj heq
      rw [(hrest e (by rw [hrest']; simp)).2.2.2 first hfirst]
      simp
  · intro hpending
    have hcount := (herases.handshakers hmem).length_eq
    rw [List.length_cons, ← pendingCount_eq, ← pendingCount_eq] at hcount
    dsimp only
    omega

theorem allowed_handshakeOk {table : HandshakerTable} {store : HandshakerTable → RtpService} {handshaker : Nat}
    (herases : Erases s table store handshaker) (sock : HandshakeSock) (buf : List UInt8) (hasPeer : Bool) :
    Allowed fresh s [sock] (s.handshakeOk table store handshaker sock buf hasPeer) := by
  obtain ⟨ctx, sockId, unixSocket⟩ := sock
  have hclosed : Allowed fresh s [⟨ctx, sockId, unixSocket⟩] (s, [.handBack handshaker ⟨ctx, sockId, unixSocket⟩] ++
      ctx.toList.map ServiceEffect.deleteCtx ++ [.closeSock sockId], []) := by
    refine allowed_still ?_ ?_ ?_ ?_
    · cases ctx <;> exact List.Perm.refl _
    · cases ctx <;> exact List.Perm.refl _
    · cases ctx <;> rfl
    · intro e he
      cases ctx <;> simp at he <;> rcases he with rfl | rfl | rfl <;> exact ⟨rfl, rfl, rfl⟩
  unfold handshakeOk
  dsimp only
  split
  · exact hclosed
  · rename_i hhost
    have hopen : s.serviceHost ≠ none := by
      intro hnone
      rw [hnone] at hhost
      exact hhost rfl
    split
    · exact hclosed
    · rename_i nonce hentry
      have hmem : handshaker ∈ table := mem_of_entry hentry
      generalize (!unixSocket && !hasPeer) = lost
      generalize (!parseExtBuffer buf (UInt16.ofNat buf.length)) = malformed
      -- in each case the socket and its context are closed once, or go to the observer
      refine allowed_erase herases hopen hmem ?_ ?_ ?_ ?_ ?_ <;>
        by_cases hsize : buf.length = recvDataSize <;>
        simp only [ne_eq, hsize, not_true_eq_false, not_false_eq_true, if_true, if_false] <;>
        cases lost <;> cases malformed <;> cases ctx
      all_goals first
        | exact List.Perm.refl _
        | rfl
        | (simp [created, hosted, ServiceEffect.inside]; done)
        | simp [ServiceEffect.behind, deleted, hostDeleted, needs]

theorem allowed_handshakeError {table : HandshakerTable} {store : HandshakerTable → RtpService} {handshaker : Nat}
    (herases : Erases s table store handshaker) : Allowed fresh s [] (s.handshakeError table store handshaker) := by
  unfold handshakeError
  split
  · exact allowed_nothing
  · rename_i hhost
    have hopen : s.serviceHost ≠ none := by
      intro hnone
      rw [hnone] at hhost
      exact hhost rfl
    split
    · exact allowed_nothing
    · rename_i hentry
      have hmem : handshaker ∈ table := mem_of_entry hentry
      exact allowed_erase herases hopen hmem (List.Perm.refl _) (List.Perm.refl _) rfl
        (fun e he => absurd he List.not_mem_nil) (fun e he => absurd he List.not_mem_nil)

theorem allowed_fini : Allowed fresh s [] s.fini := by
  unfold fini
  split
  · exact allowed_nothing
  · rename_i serviceHost hhost
    have hopen : s.serviceHost ≠ none := by
      rw [hhost]
      exact Option.some_ne_none _
    have hnone : ∀ {ι : Type} (f : ServiceEffect → Option ι) (keys : List Nat),
        (∀ i, f (.deleteHandshaker i) = none) → (keys.map ServiceEffect.deleteHandshaker).filterMap f = [] := by
      intro ι f keys hf
      rw [List.filterMap_map]
      exact List.filterMap_eq_nil_iff.mpr fun i _ => hf i
    have hdeleted : ∀ keys : List Nat, (keys.map ServiceEffect.deleteHandshaker).filterMap deleted = keys := by
      intro keys
      rw [List.filterMap_map]
      exact List.filterMap_some
    have hkinds : ∀ e ∈ s.sslHandshaker2Nonce.keys.map ServiceEffect.deleteHandshaker ++
        s.tcpHandshaker2Nonce.keys.map ServiceEffect.deleteHandshaker ++ [.deleteServiceHost serviceHost],
        e.behind = true ∧ needs e = none := by
      intro e he
      rcases List.mem_append.mp he with he | he
      · rcases List.mem_append.mp he with he | he <;> obtain ⟨i, -, rfl⟩ := List.mem_map.mp he <;> exact ⟨rfl, rfl⟩
      · rw [List.mem_singleton.mp he]
        exact ⟨rfl, rfl⟩
    refine ⟨rfl, ?_, ?_, ?_, ?_, ?_, ?_, .inl ?_, ?_, fun e he => (hkinds e he).1,
      fun before => Follows.of_forall fun e he => (hkinds e he).2, ?_, fun h => absurd h hopen,
      fun _ _ => ⟨rfl, rfl, rfl⟩⟩
    · simp only [List.filterMap_append, hnone sockTaken _ fun _ => rfl, hnone sockLeft _ fun _ => rfl]
      exact List.Perm.refl _
    · simp only [List.filterMap_append, hnone ctxTaken _ fun _ => rfl, hnone ctxLeft _ fun _ => rfl]
      exact List.Perm.refl _
    · simp only [List.filterMap_append, hnone created _ fun _ => rfl, hdeleted]
      unfold handshakers
      have hkeys : (∅ : HandshakerTable).keys = [] := Tables.keys_empty
      simp only [List.filterMap_cons, List.filterMap_nil, created, deleted, hkeys, List.append_nil, List.nil_append]
      exact List.perm_append_comm
    · simp only [List.filterMap_append, hnone hosted _ fun _ => rfl, hnone hostDeleted _ fun _ => rfl, hhost]
      exact List.Perm.refl _
    · simp only [List.filterMap_append, hnone returned _ fun _ => rfl]
      rfl
    · intro ssl i nonce hi
      cases ssl <;> simp [table] at hi
    · intro e he
      rw [List.mem_singleton.mp he]
      rfl
    · intro e he
      rw [List.mem_singleton.mp he]
      rfl
    · intro _
      exact Nat.zero_le _

/-- What the observer is given has come on the socket, with the nonce of the table. -/
theorem accepts_handshakeOk {table : HandshakerTable} {store : HandshakerTable → RtpService} {handshaker : Nat}
    {sock : HandshakeSock} {buf : List UInt8} {hasPeer : Bool} {a : AcceptedSession}
    (ha : .onAcceptSession a ∈ (s.handshakeOk table store handshaker sock buf hasPeer).2.2) :
    Genuine handshaker sock buf a ∧ table[handshaker]? = some a.nonce := by
  have hnot : ∀ ctx : Option Nat, ServiceEffect.onAcceptSession a ∉ ctx.toList.map ServiceEffect.deleteCtx := by
    intro ctx hmem
    obtain ⟨_, -, heq⟩ := List.mem_map.mp hmem
    cases heq
  unfold handshakeOk at ha
  dsimp only at ha
  split at ha
  · exact absurd ha List.not_mem_nil
  · split at ha
    · exact absurd ha List.not_mem_nil
    · rename_i nonce hentry
      have ha := (List.mem_cons.mp ha).resolve_left (by simp)
      split at ha
      · exact absurd ha List.not_mem_nil
      · rename_i hsize
        have hsize : buf.length = recvDataSize := not_not.mp hsize
        split at ha
        · exact absurd ha (hnot _)
        · split at ha
          · rcases List.mem_append.mp ha with ha | ha
            · exact absurd ha (hnot _)
            · simp at ha
          · rename_i hparse
            cases List.mem_singleton.mp ha
            rw [hsize, Bool.not_eq_true', Bool.not_eq_false] at hparse
            exact ⟨⟨rfl, rfl, hsize, hparse, rfl⟩, hentry⟩

theorem not_mem_of_handshakeOk {table : HandshakerTable} {store : HandshakerTable → RtpService} {handshaker : Nat}
    {sock : HandshakeSock} {buf : List UInt8} {hasPeer : Bool} {ssl : Bool} (htable : table = s.table ssl)
    (hstore : (store (table.erase handshaker)).table ssl = table.erase handshaker)
    (hempty : s.serviceHost = none → table = ∅) :
    handshaker ∉ (s.handshakeOk table store handshaker sock buf hasPeer).1.table ssl := by
  unfold handshakeOk
  dsimp only
  split
  · rename_i hhost
    rw [← htable, hempty (Option.isNone_iff_eq_none.mp hhost)]
    exact ExtTreeMap.not_mem_empty
  · split
    · rename_i hentry
      rw [← htable, ExtTreeMap.mem_iff_isSome_getElem?, hentry]
      exact Bool.false_ne_true
    · dsimp only
      rw [hstore]
      simp

theorem not_mem_of_handshakeError {table : HandshakerTable} {store : HandshakerTable → RtpService}
    {handshaker : Nat} {ssl : Bool} (htable : table = s.table ssl)
    (hstore : (store (table.erase handshaker)).table ssl = table.erase handshaker)
    (hempty : s.serviceHost = none → table = ∅) :
    handshaker ∉ (s.handshakeError table store handshaker).1.table ssl := by
  unfold handshakeError
  split
  · rename_i hhost
    rw [← htable, hempty (Option.isNone_iff_eq_none.mp hhost)]
    exact ExtTreeMap.not_mem_empty
  · split
    · rename_i hentry
      rw [← htable, ExtTreeMap.mem_iff_isSome_getElem?, hentry]
      exact Bool.false_ne_true
    · dsimp only
      rw [hstore]
      simp

end RtpService

end Pronet.Rtp
