import Mathlib.Data.List.Basic

/-! Creation of a server-side session over an accepted socket: the transport,
the session over it and the wrapper around both. Every function returns what it
releases, in order; a destructor runs when its object is given up. -/
namespace Pronet.Rtp

inductive Release
  | sslCtx (ctx : Nat)
  | sockId (sockId : Int)
  deriving DecidableEq, Repr

def proSslCtxDelete (ctx : Option Nat) : List Release :=
  ctx.toList.map .sslCtx

def proCloseSockId (sockId : Int) : List Release :=
  if sockId = -1 then [] else [.sockId sockId]

/-- `m_ctx` and `m_sockId`; a plain transport has no context. -/
structure Transport where
  ctx : Option Nat
  sockId : Int
  deriving DecidableEq, Repr

/-- Results of the calls in `Init` of a transport, in the order they are made. -/
structure TransportCalls where
  handshakeOver : Bool
  sockNames : Bool
  resize : Bool
  addHandler : Bool
  deriving DecidableEq, Repr

namespace Transport

def new : Transport := ⟨none, -1⟩

/-- `CProTcpTransport::Init`, and what it leaves in the members. -/
def initTcp (trans : Transport) (sockId : Int) (calls : TransportCalls) : Bool × Transport :=
  if sockId = -1 then (false, trans)
  else if !calls.sockNames then (false, trans)
  else if !calls.resize then (false, trans)
  else if !calls.addHandler then (false, trans)
  else (true, { trans with sockId := sockId })

def initSsl (trans : Transport) (ctx : Option Nat) (sockId : Int) (calls : TransportCalls) :
    Bool × Transport :=
  if ctx = none || sockId = -1 then (false, trans)
  else if !calls.handshakeOver then (false, trans)
  else if trans.ctx.isSome then (false, trans)
  else if !calls.sockNames then (false, trans)
  else if !calls.resize then (false, trans)
  else if !calls.addHandler then (false, trans)
  else (true, { trans with ctx := ctx, sockId := sockId })

/-- The destructor. -/
def destroy (trans : Transport) : List Release :=
  proSslCtxDelete trans.ctx ++ proCloseSockId trans.sockId

end Transport

def proCreateTcpTransport (sockId : Int) (calls : TransportCalls) :
    Option Transport × List Release :=
  match Transport.new.initTcp sockId calls with
  | (true, made) => (some made, [])
  | (false, failed) => (none, failed.destroy)

def proCreateSslTransport (ctx : Option Nat) (sockId : Int) (calls : TransportCalls) :
    Option Transport × List Release :=
  match Transport.new.initSsl ctx sockId calls with
  | (true, made) => (some made, [])
  | (false, failed) => (none, failed.destroy)

/-- Results of the calls on the way from the wrapper to the first packet. -/
structure CreateCalls where
  bucket : Bool
  trans : TransportCalls
  packet : Bool
  sendData : Bool
  deriving DecidableEq, Repr

/-- `CRtpSessionTcpserverEx`, with `m_observer != NULL` as a flag. -/
structure TcpserverEx where
  sslCtx : Option Nat
  trans : Option Transport
  observer : Bool
  deriving DecidableEq, Repr

namespace TcpserverEx

/-- The constructor, for `CRtpSessionSslserverEx` with its context. -/
def new (sslCtx : Option Nat) : TcpserverEx := ⟨sslCtx, none, false⟩

def doHandshake (s : TcpserverEx) (calls : CreateCalls) : Bool :=
  s.trans.isSome && calls.packet && calls.sendData

/-- `ProDeleteTransport` gives up the only pointer the session has. -/
def fini (s : TcpserverEx) : TcpserverEx × List Release :=
  if !s.observer then (s, [])
  else ({ s with trans := none, observer := false }, s.trans.elim [] Transport.destroy)

def destroy (s : TcpserverEx) : List Release :=
  s.fini.2 ++ proSslCtxDelete s.fini.1.sslCtx

/-- A session that already has an observer or a transport refuses. -/
def init (s : TcpserverEx) (sockId : Int) (calls : CreateCalls) :
    Bool × TcpserverEx × List Release :=
  if sockId = -1 then (false, s, [])
  else if s.observer || s.trans.isSome then (false, s, [])
  else
    let made :=
      match s.sslCtx with
      | some ctx => proCreateSslTransport (some ctx) sockId calls.trans
      | none => proCreateTcpTransport sockId calls.trans
    match made.1 with
    | none => (false, s, made.2)
    | some trans =>
      -- The transport owns the context from here on.
      let started : TcpserverEx := ⟨none, some trans, true⟩
      if started.doHandshake calls then (true, started, made.2)
      else (false, started.fini.1, made.2 ++ started.fini.2)

end TcpserverEx

/-- `Init` on a new session; a failed one is released. -/
def initOrRelease (session : TcpserverEx) (sockId : Int) (calls : CreateCalls) :
    Option TcpserverEx × List Release :=
  match session.init sockId calls with
  | (true, session, released) => (some session, released)
  | (false, session, released) => (none, released ++ session.destroy)

def createRtpSessionTcpserverEx (mmType : Nat) (sockId : Int) (calls : CreateCalls) :
    Option TcpserverEx × List Release :=
  if mmType = 0 then (none, [])
  else initOrRelease (.new none) sockId calls

def createRtpSessionSslserverEx (mmType : Nat) (sslCtx : Option Nat) (sockId : Int)
    (calls : CreateCalls) : Option TcpserverEx × List Release :=
  if mmType = 0 || sslCtx = none then (none, [])
  else initOrRelease (.new sslCtx) sockId calls

/-- `RTP_INIT_ARGS` of the two session types a message node accepts. -/
inductive InitArgs
  | tcpserverEx (sockId : Int)
  | sslserverEx (sslCtx : Option Nat) (sockId : Int)

/-- `CRtpSessionWrapper`, once `Init` has set `m_session`. -/
structure Wrapper where
  session : TcpserverEx
  deriving DecidableEq, Repr

/-- The `switch` of `CRtpSessionWrapper::Init`. -/
def createRtpSession (mmType : Nat) (args : InitArgs) (calls : CreateCalls) :
    Option TcpserverEx × List Release :=
  match args with
  | .tcpserverEx sockId => createRtpSessionTcpserverEx mmType sockId calls
  | .sslserverEx sslCtx sockId => createRtpSessionSslserverEx mmType sslCtx sockId calls

/-- A wrapper whose `Init` failed has no session, and its destructor does nothing. -/
def createRtpSessionWrapper (mmType : Nat) (args : InitArgs) (calls : CreateCalls) :
    Option Wrapper × List Release :=
  if mmType = 0 then (none, [])
  else if !calls.bucket then (none, [])
  else
    let made := createRtpSession mmType args calls
    (made.1.map fun session => ⟨session⟩, made.2)

/-- `DeleteRtpSessionWrapper` and the last release of it. -/
def deleteRtpSessionWrapper (wrapper : Wrapper) : List Release :=
  wrapper.session.fini.2 ++ wrapper.session.fini.1.destroy

/-- Whether `Init` of the transport succeeds. -/
def TransportCalls.ok (calls : TransportCalls) (ssl : Bool) : Bool :=
  (!ssl || calls.handshakeOver) && calls.sockNames && calls.resize && calls.addHandler

/-- What the layers below answer when the session object exists: all of them
succeed, or the transport of a plain session fails. -/
def CreateCalls.clean (calls : CreateCalls) (ssl : Bool) : Bool :=
  if calls.trans.ok ssl then calls.packet && calls.sendData else !ssl

theorem createTcpTransport_eq {sockId : Int} (hsock : sockId ≠ -1) (calls : TransportCalls) :
    proCreateTcpTransport sockId calls =
      (if calls.ok false then some ⟨none, sockId⟩ else none, []) := by
  unfold proCreateTcpTransport Transport.initTcp TransportCalls.ok Transport.new
  rcases calls with ⟨setsOver, names, resize, add⟩
  cases names <;> cases resize <;> cases add <;>
    simp [hsock, Transport.destroy, proSslCtxDelete, proCloseSockId]

theorem createSslTransport_eq (ctx : Nat) {sockId : Int} (hsock : sockId ≠ -1)
    (calls : TransportCalls) :
    proCreateSslTransport (some ctx) sockId calls =
      (if calls.ok true then some ⟨some ctx, sockId⟩ else none, []) := by
  unfold proCreateSslTransport Transport.initSsl TransportCalls.ok Transport.new
  rcases calls with ⟨setsOver, names, resize, add⟩
  cases setsOver <;> cases names <;> cases resize <;> cases add <;>
    simp [hsock, Transport.destroy, proSslCtxDelete, proCloseSockId]

/-- The session over a fresh socket: a transport that is not made leaves the
context with the session, whose destructor deletes it; a handshake that is not
sent has the transport release both. -/
theorem initOrRelease_eq (sslCtx : Option Nat) {sockId : Int} (hsock : sockId ≠ -1)
    (calls : CreateCalls) :
    initOrRelease (.new sslCtx) sockId calls =
      if !calls.trans.ok sslCtx.isSome then (none, proSslCtxDelete sslCtx)
      else if calls.packet && calls.sendData then
        (some ⟨none, some ⟨sslCtx, sockId⟩, true⟩, [])
      else (none, proSslCtxDelete sslCtx ++ [.sockId sockId]) := by
  have hmade : (match sslCtx with
      | some ctx => proCreateSslTransport (some ctx) sockId calls.trans
      | none => proCreateTcpTransport sockId calls.trans) =
      (if calls.trans.ok sslCtx.isSome then some ⟨sslCtx, sockId⟩ else none, []) := by
    cases sslCtx with
    | none => exact createTcpTransport_eq hsock calls.trans
    | some ctx => exact createSslTransport_eq ctx hsock calls.trans
  unfold initOrRelease TcpserverEx.init TcpserverEx.new
  simp only [hsock, if_false, Bool.false_or, Option.isSome_none, Bool.false_eq_true, hmade]
  by_cases htrans : calls.trans.ok sslCtx.isSome
  · simp only [htrans, if_true, Bool.not_true, Bool.false_eq_true, if_false,
      TcpserverEx.doHandshake, Option.isSome_some, Bool.true_and]
    by_cases hsend : (calls.packet && calls.sendData) = true
    · simp [hsend]
    · simp [hsend, TcpserverEx.fini, TcpserverEx.destroy, Transport.destroy, proSslCtxDelete,
        proCloseSockId, hsock]
  · simp [htrans, TcpserverEx.fini, TcpserverEx.destroy]

end Pronet.Rtp
