import Pronet.Net.Connector
import Pronet.Net.HandshakeRun

/-! One connector and one acceptor in service mode, joined by a byte stream in each
direction. Each end has its handshaker once it has a connection. Callbacks run behind the
sections that choose them, and what an application sends after its callback follows the
bytes of the handshaker. The acceptor has other connections, too. -/
namespace Pronet.Net

open Std Library Runs

/-- The connector with its handshaker. `opened` is the socket it has created; `doomed`
says that `ProDeleteTcpHandshaker` is called. -/
structure ConnectorEnd where
  connector : Connector
  timer0Due : Bool
  opened : Option Nat
  run : Option (HandshakeRun UInt8)
  doomed : Bool
  chosen : Option ConnectCall
  made : List ConnectCall
  closed : List Nat
  said : List UInt8
  destroyed : Bool

/-- The acceptor with the handshaker of the connection. `key` is its pointer; `filled`
says that its send pool has the nonce. -/
structure AcceptorEnd where
  acceptor : Acceptor
  key : Nat
  nonce : UInt64
  filled : Bool
  accepted : Option Nat
  run : Option (HandshakeRun UInt8)
  doomed : Bool
  chosen : Option AcceptCall
  made : List AcceptCall
  closed : List Nat
  said : List UInt8

structure ServiceSystem where
  conn : ConnectorEnd
  acc : AcceptorEnd

inductive ServiceEvent
  | connTimer (timerId : Nat) (opened : Option Nat) (connected : Bool)
  | connOutput (sockId : Nat) (r : UInt8) (env : HandshakeEnv UInt8)
  | connError (sockId : Nat)
  | connHandshaker (e : HandshakeEvent UInt8)
  | connFini
  | connUpcall
  | connDestroy
  | connSays (bytes : List UInt8)
  | accept (newSockId handshaker : Nat) (nonce : UInt64) (env : HandshakeEnv UInt8)
  | acceptOther (handshaker : Nat) (nonce : UInt64)
  | dropOther (handshaker : Nat)
  | accHandshaker (e : HandshakeEvent UInt8) (named : Bool)
  | accFini
  | accUpcall
  | accSays (bytes : List UInt8)

namespace HandshakeRun

/-- What the handshaker may do: receive what the other end has sent, and be deleted by
its owner only. -/
def permits (stream : List UInt8) (doomed : Bool) (w : HandshakeRun UInt8) :
    HandshakeEvent UInt8 → Bool
  | .onInput sockId result _ =>
      (w.received ++ w.handshaker.inputBytes sockId result).isPrefixOf stream
  | .fini => doomed
  | .destroy => doomed && w.finished
  | _ => true

/-- The callback that an event makes. -/
def delivers (w : HandshakeRun UInt8) : HandshakeEvent UInt8 → Option (HandshakeCall UInt8)
  | .upcall => w.chosen.map Prod.fst
  | _ => none

end HandshakeRun

namespace ConnectorEnd

def init (serviceId serviceOpt : UInt8) (timerId0 timerId1 : Nat) : ConnectorEnd :=
  ⟨.init serviceId serviceOpt timerId0 timerId1, true, none, none, false, none, [], [], [], false⟩

def enter (c : ConnectorEnd) (r : ConnectorStep) : ConnectorEnd :=
  { c with
    connector := r.connector
    chosen := r.call.or c.chosen
    closed := c.closed ++ r.closed
    doomed := c.doomed || r.deletes }

/-- What has gone out on the socket. -/
def sent (c : ConnectorEnd) : List UInt8 := c.run.elim [] HandshakeRun.written ++ c.said

def onCall (c : Connector) : HandshakeCall UInt8 → ConnectorStep
  | .onHandshakeOk sockId buf => c.onHandshakeOk sockId buf
  | .onHandshakeError errorCode => c.onHandshakeError errorCode

def onHandshaker (c : ConnectorEnd) (stream : List UInt8) (e : HandshakeEvent UInt8) :
    Option ConnectorEnd := do
  let run ← c.run
  if !run.permits stream c.doomed e then none
  else
    let next ← run.step e
    let c' := { c with run := some next }
    return match run.delivers e with
    | none => c'
    | some call => c'.enter (onCall c.connector call)

def hasOk (c : ConnectorEnd) : Bool :=
  c.made.any fun
    | .onConnectOk .. => true
    | _ => false

end ConnectorEnd

namespace AcceptorEnd

def init : AcceptorEnd := ⟨.init, 0, 0, false, none, none, false, none, [], [], []⟩

def enter (a : AcceptorEnd) (r : AcceptorStep) : AcceptorEnd :=
  { a with
    acceptor := r.acceptor
    chosen := r.call.or a.chosen
    closed := a.closed ++ r.closed
    doomed := a.doomed || r.deletes }

def sent (a : AcceptorEnd) : List UInt8 := a.run.elim [] HandshakeRun.written ++ a.said

def onCall (a : AcceptorEnd) (named : Bool) : HandshakeCall UInt8 → AcceptorStep
  | .onHandshakeOk sockId buf => a.acceptor.onHandshakeOk a.key sockId buf named
  | .onHandshakeError _ => a.acceptor.onHandshakeError a.key

def onHandshaker (a : AcceptorEnd) (stream : List UInt8) (e : HandshakeEvent UInt8) (named : Bool) :
    Option AcceptorEnd := do
  let run ← a.run
  if !run.permits stream a.doomed e then none
  else
    let next ← run.step e
    let a' := { a with run := some next }
    return match run.delivers e with
    | none => a'
    | some call => a'.enter (a.onCall named call)

/-- A socket is accepted: it gets a handshaker, or it is closed. -/
def accept (a : AcceptorEnd) (newSockId handshaker : Nat) (nonce : UInt64) (env : HandshakeEnv UInt8) :
    AcceptorEnd :=
  match a.acceptor.onInput newSockId handshaker nonce env with
  | (acceptor, none) =>
      { a with acceptor := acceptor, accepted := some newSockId, closed := a.closed ++ [newSockId] }
  | (acceptor, some h) =>
      { a with
        acceptor := acceptor
        key := handshaker
        nonce := nonce
        filled := env.sendAlloc
        accepted := some newSockId
        run := some (.start h) }

end AcceptorEnd

namespace ServiceSystem

def init (serviceId serviceOpt : UInt8) (timerId0 timerId1 : Nat) : ServiceSystem :=
  ⟨.init serviceId serviceOpt timerId0 timerId1, .init⟩

/-- The connector acts. A timer that does not recur fires once, and a handshaker keeps
the connector alive. -/
def stepConn (c : ConnectorEnd) (stream : List UInt8) : ServiceEvent → Option ConnectorEnd
  | .connTimer timerId opened connected =>
      if timerId = 0 || timerId ≠ c.connector.timerId0 then
        some (c.enter (c.connector.onTimer timerId none false))
      else if !c.timer0Due then none
      else
        -- Without an observer the handler returns before it creates the socket.
        let created := if c.connector.hasObserver then opened else none
        some ({ c with timer0Due := false, opened := created }.enter
          (c.connector.onTimer timerId opened connected))
  | .connOutput sockId r env =>
      let (s, handshaker) := c.connector.onOutput sockId r env
      some { c.enter s with run := (handshaker.map HandshakeRun.start).or c.run }
  | .connError sockId => some (c.enter (c.connector.onError sockId))
  | .connHandshaker e => c.onHandshaker stream e
  | .connFini => some (c.enter c.connector.fini)
  | .connUpcall => c.chosen.map fun call => { c with chosen := none, made := c.made ++ [call] }
  | .connDestroy =>
      if c.destroyed || c.connector.hasObserver || c.chosen.isSome ||
          c.run.any (fun run => run.handshaker.hasObserver || run.chosen.isSome) then none
      else
        some {
          c with
          connector := { c.connector with sockId := none }
          closed := c.closed ++ c.connector.sockId.toList
          destroyed := true }
  | .connSays bytes => if c.hasOk then some { c with said := c.said ++ bytes } else none
  | _ => none

/-- The acceptor acts. Other connections come and go in its table. -/
def stepAcc (a : AcceptorEnd) (stream : List UInt8) : ServiceEvent → Option AcceptorEnd
  | .accept newSockId handshaker nonce env =>
      if !a.acceptor.hasObserver || a.accepted.isSome ||
          handshaker ∈ a.acceptor.handshaker2Nonce then none
      else some (a.accept newSockId handshaker nonce env)
  | .acceptOther handshaker nonce =>
      if handshaker = a.key || !a.acceptor.hasObserver then none
      else
        some { a with acceptor := { a.acceptor with
          handshaker2Nonce := a.acceptor.handshaker2Nonce.insert handshaker nonce } }
  | .dropOther handshaker =>
      if handshaker = a.key then none
      else
        some { a with acceptor := { a.acceptor with
          handshaker2Nonce := a.acceptor.handshaker2Nonce.erase handshaker } }
  | .accHandshaker e named => a.onHandshaker stream e named
  | .accFini =>
      let (acceptor, deleted) := a.acceptor.fini
      some { a with acceptor := acceptor, doomed := a.doomed || deleted.contains a.key }
  | .accUpcall => a.chosen.map fun call => { a with chosen := none, made := a.made ++ [call] }
  | .accSays bytes => if a.made.isEmpty then none else some { a with said := a.said ++ bytes }
  | _ => none

def step (w : ServiceSystem) (e : ServiceEvent) : Option ServiceSystem :=
  ((stepConn w.conn w.acc.sent e).map fun conn => { w with conn := conn }).or
    ((stepAcc w.acc w.conn.sent e).map fun acc => { w with acc := acc })

end ServiceSystem

end Pronet.Net
