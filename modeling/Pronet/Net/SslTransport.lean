import Pronet.Net.RecvPool
import Pronet.Net.SendOwed

/-! `CProSslTransport`. Reading may want to write and writing may want to read, so that
`OnOutput` is `DoSend` and then `DoRecv`. `DoRecv` goes on until the record that it has
begun to read is all in the pool. -/
namespace Pronet.Net

open TcpTransport

variable {β : Type*}

/-- What `mbedtls_ssl_read` finds: the data of a record, or a code. -/
inductive ReadResult (β : Type*)
  | record (bytes : List β)
  | wantRead
  | wantWrite
  | closed
  | failed (sslCode : Int)
  deriving DecidableEq, Repr

/-- `mbedtls_ssl_read` with room for `size` bytes, and the rest of the record, which the
next call returns whatever else there is to read. -/
def sslRead (record : List β) (size : Nat) (found : ReadResult β) : ReadResult β × List β :=
  if record.isEmpty then
    match found with
    | .record bytes => (.record (bytes.take size), bytes.drop size)
    | found => (found, [])
  else (.record (record.take size), record.drop size)

/-- The locals of `DoRecv` behind its section; `received` are the `recvSize` bytes. -/
structure RecvLocals (β : Type*) where
  error : Bool
  received : List β
  msgSize : Nat
  deriving DecidableEq, Repr

/-- Where `DoRecv` stands. -/
inductive RecvPhase (β : Type*)
  | idle
  | locked (msgSize : Nat)
  | upcall (locals : RecvLocals β)
  | leave (msgSize : Nat)
  deriving DecidableEq, Repr

/-- `record` is what the TLS context holds back of the record that it has decrypted. -/
structure SslTransport (β : Type*) where
  tcp : TcpTransport β
  recvPool : RecvPool β
  record : List β
  recv : RecvPhase β

namespace SslTransport

def init (recvPool : RecvPool β) : SslTransport β := ⟨initSsl, recvPool, [], .idle⟩

/-- The section of `DoRecv`; `able` is the result of `AddHandler`. -/
def doRecvLocked (t : SslTransport β) (msgSize : Nat) (found : ReadResult β) (able : Bool) :
    SslTransport β :=
  if !t.tcp.hasObserver then { t with recv := .idle }
  else
    let idleSize := t.recvPool.continuousIdleSize
    let minSize := if msgSize = 0 || idleSize < msgSize then idleSize else msgSize
    if idleSize = 0 then { t with recv := .upcall ⟨true, [], msgSize⟩ }
    else
      let (found, record) := sslRead t.record minSize found
      let t := { t with record := record }
      let (t, locals, regWr) : SslTransport β × RecvLocals β × Bool :=
        match found with
        | .record bytes =>
            if bytes.isEmpty then (t, ⟨true, [], msgSize⟩, false)
            else
              ({ t with recvPool := t.recvPool.receive bytes }, ⟨false, bytes, record.length⟩, false)
        | .wantRead => (t, ⟨false, [], 0⟩, false)
        | .wantWrite => (t, ⟨false, [], 0⟩, true)
        | .closed => (t, ⟨true, [], msgSize⟩, false)
        | .failed _ => (t, ⟨true, [], msgSize⟩, false)
      if !locals.error && !t.tcp.onWr && (regWr || t.tcp.pendingWr || t.tcp.requestOnSend) then
        if able then { t with tcp := t.tcp.addWr, recv := .upcall locals }
        else { t with recv := .upcall { locals with error := true } }
      else { t with recv := .upcall locals }

/-- Either `OnClose`, or `OnRecv` if something was received. -/
def doRecvUpcall (t : SslTransport β) (locals : RecvLocals β) : SslTransport β :=
  { t with
    tcp := if t.tcp.canUpcall && locals.error then { t.tcp with canUpcall := false } else t.tcp
    recv := .leave locals.msgSize }

/-- The bytes that `OnRecv` is called for. -/
def recvUpcall (t : SslTransport β) (locals : RecvLocals β) : List β :=
  if t.tcp.canUpcall && !locals.error then locals.received else []

/-- The end of a turn of the loop. -/
def doRecvLeave (t : SslTransport β) (msgSize : Nat) : SslTransport β :=
  if !t.tcp.canUpcall then { t with tcp := t.tcp.fini, recv := .idle }
  else { t with recv := if msgSize > 0 then .locked msgSize else .idle }

end SslTransport

/-- A call of `mbedtls_ssl_write`. The buffer is named by the number of buffers that have
left the pool before it, so that a pointer is that number and a position. -/
structure WriteCall (β : Type*) where
  popped : Nat
  pendingPos : Option Nat
  buf : List β
  result : SslResult
  deriving DecidableEq, Repr

def SslResult.wants : SslResult → Bool
  | .wantRead => true
  | .wantWrite => true
  | _ => false

/-- The transport, and what has happened to it so far: `written` is what was accepted as
application data, `records` the records that were begun to read, `delivered` what `OnRecv`
was called for, and `consumed` what the observer has taken out of the pool. -/
structure SslWire (β : Type*) where
  trans : SslTransport β
  written : List β
  accepted : List (List β × UInt64)
  reported : List UInt64
  popped : Nat
  writes : List (WriteCall β)
  records : List (List β)
  delivered : List β
  consumed : List β

/-- `close` is any other handler that gives up the connection. -/
inductive SslEvent (β : Type*)
  | sendData (buf : List β) (actionId : UInt64) (able : Bool)
  | requestOnSend (able : Bool)
  | onInput
  | onOutput (result : SslResult)
  | upcall
  | deregister
  | leave
  | recv (found : ReadResult β) (able : Bool)
  | recvUpcall
  | recvLeave
  | flush (count : Nat)
  | close
  | fini
  deriving DecidableEq, Repr

namespace SslWire

def init (size : Nat) (buf : Nat → β) : SslWire β :=
  ⟨.init (RecvPool.resize size buf), [], [], [], 0, [], [], [], []⟩

/-- The writing half. -/
def wire (w : SslWire β) : Wire β := ⟨w.trans.tcp, w.written, w.accepted, w.reported⟩

def withWire (w : SslWire β) (wire : Wire β) : SslWire β :=
  { w with
    trans := { w.trans with tcp := wire.trans }
    written := wire.written
    accepted := wire.accepted
    reported := wire.reported }

/-- No callback of the reactor is running. -/
def between (w : SslWire β) : Bool :=
  match w.trans.tcp.phase, w.trans.recv with
  | .idle, .idle => true
  | _, _ => false

/-- `DoSend` calls `mbedtls_ssl_write`. -/
def callsWrite (w : SslWire β) : Bool :=
  w.trans.tcp.hasObserver && !w.trans.tcp.sendPool.preSend.isEmpty

def sentBytes (w : SslWire β) : SslResult → List β
  | .sent size => if w.callsWrite then w.trans.tcp.sentBytes (.sent size) else []
  | _ => []

def writeCall (w : SslWire β) (result : SslResult) : WriteCall β :=
  ⟨w.popped, w.trans.tcp.sendPool.pendingPos, w.trans.tcp.sendPool.preSend, result⟩

/-- The record that a section of `DoRecv` begins to read. -/
def begins (w : SslWire β) (found : ReadResult β) : List (List β) :=
  if w.trans.tcp.hasObserver && w.trans.recvPool.continuousIdleSize ≠ 0 && w.trans.record.isEmpty then
    match found with
    | .record bytes => [bytes]
    | _ => []
  else []

/-- `SendData` and `RequestOnSend` add the handler unless it is there. -/
def adds (w : SslWire β) (able : Bool) : Bool := able || w.trans.tcp.onWr

def step (w : SslWire β) : SslEvent β → Option (SslWire β)
  | .sendData buf actionId able =>
      if w.adds able then (w.wire.step (.sendData buf actionId)).map w.withWire else some w
  | .requestOnSend able =>
      if w.adds able then (w.wire.step .requestOnSend).map w.withWire else some w
  | .onInput =>
      if w.between then some { w with trans := { w.trans with recv := .locked 0 } } else none
  | .onOutput result =>
      if w.between then
        some { w with
          trans := { w.trans with tcp := w.trans.tcp.doSendLocked result, recv := .locked 0 }
          written := w.written ++ w.sentBytes result
          popped := if w.callsWrite && (w.trans.tcp.sslOutputData result).2.2 then w.popped + 1
            else w.popped
          writes := if w.callsWrite then w.writes ++ [w.writeCall result] else w.writes }
      else none
  | .upcall => (w.wire.step .upcall).map w.withWire
  | .deregister => (w.wire.step .deregister).map w.withWire
  | .leave => (w.wire.step .leave).map w.withWire
  | .recv found able =>
      match w.trans.tcp.phase, w.trans.recv with
      | .idle, .locked msgSize =>
          some { w with
            trans := w.trans.doRecvLocked msgSize found able
            records := w.records ++ w.begins found }
      | _, _ => none
  | .recvUpcall =>
      match w.trans.recv with
      | .upcall locals =>
          some { w with
            trans := w.trans.doRecvUpcall locals
            delivered := w.delivered ++ w.trans.recvUpcall locals }
      | _ => none
  | .recvLeave =>
      match w.trans.recv with
      | .leave msgSize => some { w with trans := w.trans.doRecvLeave msgSize }
      | _ => none
  | .flush count =>
      some { w with
        trans := { w.trans with recvPool := w.trans.recvPool.flush count }
        consumed := w.consumed ++
          if count ≤ w.trans.recvPool.dataSize then w.trans.recvPool.bytes.take count else [] }
  | .close => if w.between then (w.wire.step .close).map w.withWire else none
  | .fini => (w.wire.step .fini).map w.withWire

end SslWire

end Pronet.Net
