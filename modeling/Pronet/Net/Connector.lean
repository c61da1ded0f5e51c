import Pronet.Net.TcpHandshaker
import Std.Data.ExtTreeMap

/-! `CProConnector` and `CProAcceptor` in service mode, and the nonce that goes from one
to the other. Every section under `m_lock` returns the callback that it has chosen, the
sockets that it closes, and whether a handshaker is to be deleted. -/
namespace Pronet.Net

open Std

/-- `pbsd_hton32` on a machine with the low byte first. -/
def hton32 (host32 : UInt32) : UInt32 :=
  ((host32 >>> 24) &&& (0x000000FF : UInt32)) ||| ((host32 >>> 8) &&& (0x0000FF00 : UInt32)) |||
    ((host32 <<< 8) &&& (0x00FF0000 : UInt32)) ||| ((host32 <<< 24) &&& (0xFF000000 : UInt32))

def hton64 (host64 : UInt64) : UInt64 :=
  let high := hton32 (host64 >>> 32).toUInt32
  let low := hton32 host64.toUInt32
  (low.toUInt64 <<< 32) ||| high.toUInt64

def ntoh64 (net64 : UInt64) : UInt64 := hton64 net64

/-- The bytes of a `PRO_UINT64` in memory, and back. -/
def memory64 (n : UInt64) : List UInt8 := (List.range 8).map fun k => .ofNat (n.toNat / 256 ^ k)

def ofMemory64 (bytes : List UInt8) : UInt64 :=
  .ofNat (bytes.foldr (fun byte rest => byte.toNat + 256 * rest) 0)

theorem hton32_hton32 (x : UInt32) : hton32 (hton32 x) = x := by
  rw [← UInt32.toBitVec_inj]
  apply BitVec.eq_of_getLsbD_eq
  intro i hi
  unfold hton32
  interval_cases i <;> simp

theorem high_join (high low : UInt32) :
    ((high.toUInt64 <<< 32) ||| low.toUInt64) >>> 32 = high.toUInt64 := by
  rw [← UInt64.toBitVec_inj]
  apply BitVec.eq_of_getLsbD_eq
  intro i hi
  simp only [UInt64.toBitVec_shiftRight, UInt64.toBitVec_or, UInt64.toBitVec_shiftLeft,
    UInt32.toBitVec_toUInt64]
  simp
  intro _ hbit
  have := BitVec.lt_of_getLsbD hbit
  omega

theorem low_join (high low : UInt32) : ((high.toUInt64 <<< 32) ||| low.toUInt64).toUInt32 = low := by
  rw [← UInt32.toBitVec_inj]
  apply BitVec.eq_of_getLsbD_eq
  intro i hi
  simp

theorem join_split (x : UInt64) :
    ((x >>> 32).toUInt32.toUInt64 <<< 32) ||| x.toUInt32.toUInt64 = x := by
  have hlt := x.toNat_lt
  have hshift : (32 : UInt64).toNat % 64 = 32 := rfl
  rw [← UInt64.toNat_inj]
  simp only [UInt64.toNat_or, UInt64.toNat_shiftLeft, UInt32.toNat_toUInt64, UInt64.toNat_toUInt32,
    UInt64.toNat_shiftRight]
  rw [hshift, Nat.shiftRight_eq_div_pow, Nat.mod_eq_of_lt (b := 2 ^ 32) (by omega),
    Nat.shiftLeft_eq, Nat.mod_eq_of_lt (by omega), ← Nat.shiftLeft_eq,
    ← Nat.shiftLeft_add_eq_or_of_lt (Nat.mod_lt _ (by decide)), Nat.shiftLeft_eq]
  omega

theorem ntoh64_hton64 (x : UInt64) : ntoh64 (hton64 x) = x := by
  have hhigh : (hton64 x >>> 32).toUInt32 = hton32 x.toUInt32 := by
    unfold hton64
    dsimp only
    rw [high_join, UInt32.toUInt32_toUInt64]
  have hlow : (hton64 x).toUInt32 = hton32 (x >>> 32).toUInt32 := low_join _ _
  unfold ntoh64
  rw [hton64, hhigh, hlow, hton32_hton32, hton32_hton32]
  exact join_split x

theorem ofMemory64_memory64 (n : UInt64) : ofMemory64 (memory64 n) = n := by
  have hlt := n.toNat_lt
  rw [← UInt64.toNat_inj]
  simp only [memory64, ofMemory64, List.range, List.range.loop, List.map_cons, List.map_nil,
    List.foldr_cons, List.foldr_nil, UInt8.toNat_ofNat', UInt64.toNat_ofNat']
  omega

@[simp] theorem length_memory64 (n : UInt64) : (memory64 n).length = 8 := rfl

/-- What the observer of the connector is called with. -/
inductive ConnectCall
  | onConnectOk (sockId : Nat) (serviceId serviceOpt : UInt8) (nonce : UInt64)
  | onConnectError (serviceId serviceOpt : UInt8) (timeout : Bool)
  deriving DecidableEq, Repr

/-- `handshaker` says that `m_handshaker` is not null. -/
structure Connector where
  serviceId : UInt8
  serviceOpt : UInt8
  hasObserver : Bool
  handshaker : Bool
  sockId : Option Nat
  timerId0 : Nat
  timerId1 : Nat
  deriving DecidableEq, Repr

/-- What a section has done. -/
structure ConnectorStep where
  connector : Connector
  call : Option ConnectCall
  closed : List Nat
  deletes : Bool

namespace Connector

/-- A connector after `Init`. -/
def init (serviceId serviceOpt : UInt8) (timerId0 timerId1 : Nat) : Connector :=
  ⟨serviceId, serviceOpt, true, false, none, timerId0, timerId1⟩

def nothing (c : Connector) : ConnectorStep := ⟨c, none, [], false⟩

/-- The connector has chosen its callback. -/
def leave (c : Connector) : Connector :=
  { c with hasObserver := false, timerId0 := 0, timerId1 := 0 }

def error (c : Connector) (timeout : Bool) : Option ConnectCall :=
  some (.onConnectError c.serviceId c.serviceOpt timeout)

def fini (c : Connector) : ConnectorStep :=
  if !c.hasObserver then c.nothing
  else ⟨{ c.leave with handshaker := false }, none, [], c.handshaker⟩

/-- `opened` is the new socket, and `connected` says that it could be bound, connected and
added to the reactor. -/
def onTimer (c : Connector) (timerId : Nat) (opened : Option Nat) (connected : Bool) :
    ConnectorStep :=
  if timerId = 0 || !c.hasObserver then c.nothing
  else if timerId ≠ c.timerId0 && timerId ≠ c.timerId1 then c.nothing
  else if timerId = c.timerId0 && opened.isSome && connected then ({ c with sockId := opened }).nothing
  else
    let error := timerId = c.timerId0
    let c := if error then { c with sockId := opened } else c
    ⟨{ c.leave with handshaker := false, sockId := if error then none else c.sockId },
      c.error !error, if error then c.sockId.toList else [], c.handshaker⟩

/-- The service id and the service options, a random byte `r` and `r + 1`. -/
def serviceData (c : Connector) (r : UInt8) : List UInt8 := [c.serviceId, c.serviceOpt, r, r + 1]

def handshakeData (c : Connector) (sockId : Nat) (r : UInt8) : HandshakeData UInt8 :=
  ⟨sockId, c.serviceData r, 8, true⟩

/-- The socket is connected. The handshaker that is created is returned, too. -/
def onOutput (c : Connector) (sockId : Nat) (r : UInt8) (env : HandshakeEnv UInt8) :
    ConnectorStep × Option (TcpHandshaker UInt8) :=
  if !c.hasObserver || c.sockId ≠ some sockId then (c.nothing, none)
  else
    match TcpHandshaker.init (c.handshakeData sockId r) env with
    | none => (⟨c.leave, c.error false, [], false⟩, none)
    | some handshaker => (({ c with handshaker := true, sockId := none }).nothing, some handshaker)

/-- `OnInput` and `OnException` end here, too. -/
def onError (c : Connector) (sockId : Nat) : ConnectorStep :=
  if !c.hasObserver || c.sockId ≠ some sockId then c.nothing
  else ⟨c.leave, c.error false, [], false⟩

def onHandshakeOk (c : Connector) (sockId : Nat) (buf : List UInt8) : ConnectorStep :=
  if !c.hasObserver || !c.handshaker then ⟨c, none, [sockId], false⟩
  else
    let c' := { c.leave with handshaker := false }
    if buf.length ≠ 8 then ⟨c', c.error false, [sockId], true⟩
    else
      ⟨c', some (.onConnectOk sockId c.serviceId c.serviceOpt (ntoh64 (ofMemory64 buf))), [], true⟩

def onHandshakeError (c : Connector) (errorCode : Int) : ConnectorStep :=
  if !c.hasObserver || !c.handshaker then c.nothing
  else
    ⟨{ c.leave with handshaker := false }, c.error (errorCode = TcpHandshaker.etimedout), [], true⟩

end Connector

/-- What the observer of the acceptor is called with. -/
structure AcceptCall where
  sockId : Nat
  serviceId : UInt8
  serviceOpt : UInt8
  nonce : UInt64
  deriving DecidableEq, Repr

structure Acceptor where
  hasObserver : Bool
  handshaker2Nonce : ExtTreeMap Nat UInt64

structure AcceptorStep where
  acceptor : Acceptor
  call : Option AcceptCall
  closed : List Nat
  deletes : Bool

namespace Acceptor

/-- `PRO_ACCEPTOR_LENGTH`. -/
def acceptorLength : Nat := 5000

def init : Acceptor := ⟨true, ∅⟩

def handshakeData (newSockId : Nat) (nonce : UInt64) : HandshakeData UInt8 :=
  ⟨newSockId, memory64 (hton64 nonce), 4, false⟩

/-- `newSockId` has been accepted, `handshaker` is the pointer that `new` returns, and
`nonce` has been made by `MakeNonce_i`. The handshaker is returned, and whether the
socket is closed. -/
def onInput (a : Acceptor) (newSockId handshaker : Nat) (nonce : UInt64) (env : HandshakeEnv UInt8) :
    Acceptor × Option (TcpHandshaker UInt8) :=
  if acceptorLength ≤ a.handshaker2Nonce.size then (a, none)
  else
    match TcpHandshaker.init (handshakeData newSockId nonce) env with
    | none => (a, none)
    | some h =>
        ({ a with handshaker2Nonce := a.handshaker2Nonce.insert handshaker (ntoh64 (hton64 nonce)) },
          some h)

/-- `named` says that the peer is known. -/
def onHandshakeOk (a : Acceptor) (handshaker sockId : Nat) (buf : List UInt8) (named : Bool) :
    AcceptorStep :=
  if !a.hasObserver then ⟨a, none, [sockId], false⟩
  else
    match a.handshaker2Nonce[handshaker]? with
    | none => ⟨a, none, [sockId], false⟩
    | some nonce =>
        let a' := { a with handshaker2Nonce := a.handshaker2Nonce.erase handshaker }
        match named, buf with
        | true, [serviceId, serviceOpt, r, r'] =>
            if r' ≠ r + 1 then ⟨a', none, [sockId], true⟩
            else ⟨a', some ⟨sockId, serviceId, serviceOpt, nonce⟩, [], true⟩
        | _, _ => ⟨a', none, [sockId], true⟩

def onHandshakeError (a : Acceptor) (handshaker : Nat) : AcceptorStep :=
  if !a.hasObserver || handshaker ∉ a.handshaker2Nonce then ⟨a, none, [], false⟩
  else ⟨{ a with handshaker2Nonce := a.handshaker2Nonce.erase handshaker }, none, [], true⟩

/-- All handshakers in the table are deleted. -/
def fini (a : Acceptor) : Acceptor × List Nat :=
  if !a.hasObserver then (a, [])
  else (⟨false, ∅⟩, a.handshaker2Nonce.keys)

end Acceptor

end Pronet.Net
