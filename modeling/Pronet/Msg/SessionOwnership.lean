import Pronet.Msg.C2s
import Pronet.Rtp.SessionCreate

/-! Who releases an accepted socket and its TLS context. `AsyncOnAcceptSession`
and `ProcessMsg_client_login_ok` both hand them to a new session and release
them when there is none, whatever the layers below have already released. -/
namespace Pronet.Msg

open Rtp

/-- What `OnAcceptSession` lets through: a socket, and a context exactly with a
TLS session. -/
structure Accepted extends AcceptInfo where
  sockId_ne : sockId ≠ -1
  sslCtx_iff : sslCtx.isSome = true ↔ sessionType = .sslClientEx

def AcceptInfo.initArgs (info : AcceptInfo) : InitArgs :=
  match info.sessionType with
  | .sslClientEx => .sslserverEx info.sslCtx info.sockId
  | .tcpClientEx => .tcpserverEx info.sockId

def AcceptInfo.release (info : AcceptInfo) : List Release :=
  proSslCtxDelete info.sslCtx ++ proCloseSockId info.sockId

/-- The members of the server that `AsyncOnAcceptSession` reads; the two flags
say whether the server is up when it asks its observer and in `AddBaseUser`. -/
structure AcceptState where
  sslConfig : Bool
  sslForced : Bool
  mmType : Nat
  upToCheck : Bool
  upToAdd : Bool
  deriving DecidableEq, Repr

/-- `AddBaseUser` as far as the socket is concerned. -/
def AcceptState.addBaseUser (s : AcceptState) (args : InitArgs) (baseUser : MsgUser)
    (calls : CreateCalls) : Option Wrapper × List Release :=
  if !baseUser.valid then (none, [])
  else if !s.upToAdd then (none, [])
  else createRtpSessionWrapper s.mmType args calls

/-- `AsyncOnAcceptSession` before its exit label. -/
def AcceptState.admit (s : AcceptState) (info : AcceptInfo) (check : Option CheckResult)
    (calls : CreateCalls) : Option Wrapper × List Release :=
  if !sslAdmits s.sslConfig s.sslForced info.sessionType then (none, [])
  else if !nodeUserOk info.user then (none, [])
  else if !s.upToCheck then (none, [])
  else
    match check with
    | none => (none, [])
    | some result =>
      if result.userId < nodeUidMin || result.userId > nodeUidMaxx then (none, [])
      else s.addBaseUser info.initArgs (result.apply info.user) calls

def AcceptState.asyncOnAcceptSession (s : AcceptState) (info : AcceptInfo)
    (check : Option CheckResult) (calls : CreateCalls) : Option Wrapper × List Release :=
  let (made, released) := s.admit info check calls
  (made, released ++ if made.isSome then [] else info.release)

/-- `ProcessMsg_client_login_ok` for the pending entry of its index, with the
result of `SendMsgToDownlink`; the tables are those of `C2s`. -/
def loginOkSession (mmType : Nat) (info : AcceptInfo) (calls : CreateCalls) (sent : Bool) :
    Option Wrapper × List Release :=
  match createRtpSessionWrapper mmType info.initArgs calls with
  | (none, released) => (none, released ++ info.release)
  | (some wrapper, released) =>
    if sent then (some wrapper, released)
    else (none, released ++ deleteRtpSessionWrapper wrapper)

/-- The two ways to a server-side session. -/
inductive Creation
  | onServer (s : AcceptState) (check : Option CheckResult)
  | onC2s (mmType : Nat) (sent : Bool)
  deriving DecidableEq, Repr

/-- The session that is left, and all that has been released. -/
def Creation.create (path : Creation) (info : AcceptInfo) (calls : CreateCalls) :
    Option Wrapper × List Release :=
  match path with
  | .onServer s check => s.asyncOnAcceptSession info check calls
  | .onC2s mmType sent => loginOkSession mmType info calls sent

/-- Released once each when there is no session; with a session nothing has been
released, and the transport under it is the only owner. -/
structure OwnedOnce (info : AcceptInfo) (result : Option Wrapper × List Release) : Prop where
  sockIdAtMostOnce : result.2.count (.sockId info.sockId) ≤ 1
  sslCtxAtMostOnce : ∀ ctx, info.sslCtx = some ctx → result.2.count (.sslCtx ctx) ≤ 1
  failed : result.1 = none → result.2.count (.sockId info.sockId) = 1 ∧
    ∀ ctx, info.sslCtx = some ctx → result.2.count (.sslCtx ctx) = 1
  created : ∀ wrapper, result.1 = some wrapper → result.2 = [] ∧ wrapper.session.sslCtx = none ∧
    wrapper.session.trans = some ⟨info.sslCtx, info.sockId⟩

/-- The checks before `Init` of the session object let the socket through. -/
def Creation.reachesSession (path : Creation) (info : AcceptInfo) (calls : CreateCalls) : Bool :=
  calls.bucket &&
    match path with
    | .onServer s check => s.mmType != 0 && sslAdmits s.sslConfig s.sslForced info.sessionType &&
        nodeUserOk info.user && s.upToCheck && s.upToAdd && check.any fun result =>
          nodeUidMin ≤ result.userId && result.userId ≤ nodeUidMaxx &&
            (result.apply info.user).valid
    | .onC2s mmType _ => mmType != 0

/-- A c2s node deletes a session on which the response could not be sent. -/
def Creation.keeps : Creation → Bool
  | .onServer _ _ => true
  | .onC2s _ sent => sent

namespace Accepted

variable (info : Accepted) (calls : CreateCalls)

theorem wrapper_eq (mmType : Nat) :
    createRtpSessionWrapper mmType info.initArgs calls =
      if mmType = 0 || !calls.bucket then (none, [])
      else if !calls.trans.ok info.sslCtx.isSome then (none, proSslCtxDelete info.sslCtx)
      else if calls.packet && calls.sendData then
        (some ⟨⟨none, some ⟨info.sslCtx, info.sockId⟩, true⟩⟩, [])
      else (none, proSslCtxDelete info.sslCtx ++ [.sockId info.sockId]) := by
  have hinit := initOrRelease_eq info.sslCtx info.sockId_ne calls
  have hmade : createRtpSession mmType info.initArgs calls =
      if mmType = 0 then (none, []) else initOrRelease (.new info.sslCtx) info.sockId calls := by
    unfold createRtpSession AcceptInfo.initArgs
    cases htype : info.sessionType with
    | tcpClientEx =>
      have hctx : info.sslCtx = none := by
        have := info.sslCtx_iff
        simp only [htype, reduceCtorEq, iff_false, Bool.not_eq_true, Option.isSome_eq_false_iff,
          Option.isNone_iff_eq_none] at this
        exact this
      simp only [createRtpSessionTcpserverEx, hctx]
    | sslClientEx =>
      obtain ⟨ctx, hctx⟩ := Option.isSome_iff_exists.mp (info.sslCtx_iff.mpr htype)
      simp [createRtpSessionSslserverEx, hctx]
  unfold createRtpSessionWrapper
  simp only [hmade, hinit]
  by_cases hmm : mmType = 0
  · simp [hmm]
  · by_cases hbucket : calls.bucket
    · simp only [hmm, hbucket, decide_false, Bool.not_true, Bool.or_self, Bool.false_eq_true,
        if_false]
      split
      · rfl
      · split <;> rfl
    · simp [hmm, hbucket]

/-- A wrapper that is deleted releases what its transport owns. -/
theorem delete_eq : deleteRtpSessionWrapper ⟨⟨none, some ⟨info.sslCtx, info.sockId⟩, true⟩⟩ =
    info.release := by
  simp [deleteRtpSessionWrapper, TcpserverEx.fini, TcpserverEx.destroy, Transport.destroy,
    AcceptInfo.release, proSslCtxDelete]

theorem release_eq : info.release = proSslCtxDelete info.sslCtx ++ [.sockId info.sockId] := by
  simp [AcceptInfo.release, proCloseSockId, info.sockId_ne]

theorem mmType_ne_of_reaches {s : AcceptState} {check : Option CheckResult} {info : AcceptInfo}
    {calls : CreateCalls} (h : (Creation.onServer s check).reachesSession info calls = true) :
    s.mmType ≠ 0 ∧ calls.bucket = true := by
  simp only [Creation.reachesSession, Bool.and_eq_true, bne_iff_ne] at h
  exact ⟨h.2.1.1.1.1.1, h.1⟩

/-- The checks of `AsyncOnAcceptSession` and `AddBaseUser` as one. -/
theorem admit_eq (s : AcceptState) (check : Option CheckResult) :
    s.admit info.toAcceptInfo check calls =
      if (Creation.onServer s check).reachesSession info.toAcceptInfo calls then
        createRtpSessionWrapper s.mmType info.initArgs calls
      else (none, []) := by
  unfold AcceptState.admit AcceptState.addBaseUser Creation.reachesSession
  cases hadmits : sslAdmits s.sslConfig s.sslForced info.sessionType
  · simp [hadmits]
  cases huser : nodeUserOk info.user
  · simp
  cases hup : s.upToCheck
  · simp [hup]
  cases check with
  | none => simp
  | some result =>
    by_cases hrange : nodeUidMin ≤ result.userId ∧ result.userId ≤ nodeUidMaxx
    · have hlow : ¬ result.userId < nodeUidMin := by omega
      have hhigh : ¬ result.userId > nodeUidMaxx := by omega
      cases hvalid : (result.apply info.user).valid
      · simp [hvalid]
      cases hadd : s.upToAdd
      · simp [hadd]
      · simp only [hlow, hhigh, wrapper_eq, hadmits, hup, hadd, hvalid]
        by_cases hmm : s.mmType = 0
        · simp [hmm]
        · cases hbucket : calls.bucket <;> simp [hmm, hrange, hvalid]
    · have hout : result.userId < nodeUidMin ∨ result.userId > nodeUidMaxx := by omega
      have hno : ¬ (nodeUidMin ≤ result.userId ∧ result.userId ≤ nodeUidMaxx ∧
          (result.apply info.user).valid = true) := fun h => hrange ⟨h.1, h.2.1⟩
      simp [hadmits, hup, hout, hno, and_assoc]

/-- What is left of a creation, by the way it ends. -/
theorem create_eq (path : Creation) :
    path.create info.toAcceptInfo calls =
      if !path.reachesSession info.toAcceptInfo calls then (none, info.release)
      else if !calls.trans.ok info.sslCtx.isSome then
        (none, proSslCtxDelete info.sslCtx ++ info.release)
      else if !(calls.packet && calls.sendData) then (none, info.release ++ info.release)
      else if path.keeps then (some ⟨⟨none, some ⟨info.sslCtx, info.sockId⟩, true⟩⟩, [])
      else (none, info.release) := by
  cases path with
  | onC2s mmType sent =>
    simp only [Creation.create, loginOkSession, Creation.reachesSession, Creation.keeps,
      wrapper_eq]
    by_cases hopen : mmType = 0 ∨ calls.bucket = false
    · rcases hopen with h | h <;> simp [h]
    · obtain ⟨hmm, hbucket⟩ := not_or.mp hopen
      cases htrans : calls.trans.ok info.sslCtx.isSome with
      | false => simp [hmm, hbucket]
      | true =>
        cases hsend : calls.packet && calls.sendData with
        | false => simp [hmm, hbucket, release_eq]
        | true => cases sent <;> simp [hmm, hbucket, delete_eq]
  | onServer s check =>
    simp only [Creation.create, AcceptState.asyncOnAcceptSession, admit_eq, wrapper_eq,
      Creation.keeps]
    cases hreach : (Creation.onServer s check).reachesSession info.toAcceptInfo calls with
    | false => simp
    | true =>
      obtain ⟨hmm, hbucket⟩ := mmType_ne_of_reaches hreach
      cases htrans : calls.trans.ok info.sslCtx.isSome with
      | false => simp [hmm, hbucket]
      | true =>
        cases hsend : calls.packet && calls.sendData with
        | false => simp [hmm, hbucket, release_eq]
        | true => simp [hmm, hbucket]

end Accepted

/-- Creation releases the socket and the context once, or leaves both with the
new transport, exactly when no layer below has released them on its way out. -/
theorem Creation.ownedOnce_iff (path : Creation) (info : Accepted) (calls : CreateCalls) :
    OwnedOnce info.toAcceptInfo (path.create info.toAcceptInfo calls) ↔
      (path.reachesSession info.toAcceptInfo calls = true →
        calls.clean info.sslCtx.isSome = true) := by
  have hrelease : OwnedOnce info.toAcceptInfo (none, info.release) := by
    have hsock : info.release.count (.sockId info.sockId) = 1 := by
      cases hctx : info.sslCtx <;> simp [info.release_eq, proSslCtxDelete, hctx]
    have hctx : ∀ ctx, info.sslCtx = some ctx → info.release.count (.sslCtx ctx) = 1 := by
      intro ctx hctx
      simp [info.release_eq, proSslCtxDelete, hctx]
    constructor
    · exact hsock.le
    · intro ctx h
      exact (hctx ctx h).le
    · intro _
      exact ⟨hsock, hctx⟩
    · intro wrapper hwrapper
      cases hwrapper
  rw [info.create_eq]
  by_cases hreach : path.reachesSession info.toAcceptInfo calls
  · simp only [hreach, Bool.not_true, Bool.false_eq_true, if_false, forall_const]
    unfold CreateCalls.clean
    by_cases htrans : calls.trans.ok info.sslCtx.isSome
    · simp only [htrans, Bool.not_true, Bool.false_eq_true, if_false, if_true]
      by_cases hsend : (calls.packet && calls.sendData) = true
      · simp only [hsend, Bool.not_true, Bool.false_eq_true, if_false, iff_true]
        by_cases hkeeps : path.keeps
        · simp only [hkeeps, if_true]
          constructor
          · simp
          · simp
          · intro h
            cases h
          · intro wrapper hwrapper
            cases hwrapper
            exact ⟨rfl, rfl, rfl⟩
        · simpa [hkeeps] using hrelease
      · -- The transport has released both, and so does the caller.
        simp only [hsend, Bool.not_false, if_true, Bool.false_eq_true, iff_false]
        intro howned
        have honce := howned.sockIdAtMostOnce
        simp [info.release_eq] at honce
        omega
    · simp only [htrans, Bool.not_false, if_true, Bool.false_eq_true, if_false]
      cases hctx : info.sslCtx with
      | none => simpa [proSslCtxDelete] using hrelease
      | some ctx =>
        -- The destructor of the session has deleted the context, and so does the caller.
        simp only [Option.isSome_some, Bool.not_true, Bool.false_eq_true, iff_false]
        intro howned
        have honce := howned.sslCtxAtMostOnce ctx hctx
        simp [info.release_eq, proSslCtxDelete, hctx] at honce
  · simpa [hreach] using hrelease

/-- A TLS client 2-17-0 on socket 7. -/
def Creation.tlsClient : Accepted where
  sslCtx := some 1
  sockId := 7
  unixSocket := false
  remoteIp := "10.0.0.2"
  remotePort := 40000
  nonce := 5
  sessionType := .sslClientEx
  user := .ofIds 2 17 0
  passwordHash := []
  sockId_ne := by decide
  sslCtx_iff := by decide

/-- The client resets the connection before it is let in, so the transport finds
no peer name: the session deletes the context and `AsyncOnAcceptSession` deletes
it again. -/
theorem Creation.not_ownedOnce_peerReset :
    ¬ OwnedOnce Creation.tlsClient.toAcceptInfo
      ((Creation.onServer ⟨true, false, 11, true, true⟩ (some ⟨17, 0, 0, false⟩)).create
        Creation.tlsClient.toAcceptInfo ⟨true, ⟨true, false, true, true⟩, true, true⟩) :=
  fun h => absurd (h.sslCtxAtMostOnce 1 rfl) (by decide +kernel)

end Pronet.Msg
