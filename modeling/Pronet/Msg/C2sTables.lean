import Pronet.Library.Runs
import Pronet.Msg.C2s

/-! The tables of `CRtpMsgC2s` over whole runs. Connections are accounted for: one
that was accepted is pending or was taken out once, and a session that was made of
one is in the tables or was deleted once. -/
namespace Pronet.Msg

open Std Library Runs

inductive C2sOp
  | acceptSession (info : AcceptInfo) (timerId : Nat) (sent : Bool)
  | onRecvMsg (msg : DownMsg) (created : Option (Session × String)) (sent : Bool)
  | asyncKickoutUser (user : MsgUser)
  | onCloseSession (session : Session) (errorCode sslCode : Int)
  | onOkMsg (myUser : MsgUser) (myPublicIp : String)
  | onCloseMsg (errorCode sslCode : Int) (tcpConnected : Bool)
  | onTimer (timerId : Nat)
  | reconnect (connected : Bool)
  deriving DecidableEq, Repr

/-- Who takes a pending connection out of `m_timerId2Info`; only `client_login_ok`
may make a session of it. -/
inductive Taker
  | clientLoginOk (clientIndex : Nat) (session : Option Session)
  | clientLoginError (clientIndex : Nat)
  | onTimer
  | onCloseMsg
  deriving DecidableEq, Repr

structure Taken where
  timerId : Nat
  info : AcceptInfo
  taker : Taker
  deriving DecidableEq, Repr

def Taken.session? (taken : Taken) : Option Session :=
  match taken.taker with
  | .clientLoginOk _ session => session
  | _ => none

/-- The socket of a connection that was not made a session. -/
def Taken.socket? (taken : Taken) : Option (Option Nat × Int) :=
  if taken.session?.isSome then none else some (taken.info.sslCtx, taken.info.sockId)

inductive C2sCallback
  | onOkUser
  | onCloseUser
  | onCloseC2s
  deriving DecidableEq, Repr

namespace C2sCall

def callback? (user : MsgUser) : C2sCall → Option C2sCallback
  | .onOkUser other _ => if other = user then some .onOkUser else none
  | .onCloseUser other _ _ => if other = user then some .onCloseUser else none
  | .onCloseC2s .. => some .onCloseC2s
  | _ => none

def deleted? : C2sCall → Option Session
  | .deleteSession session => some session
  | _ => none

def closed? : C2sCall → Option (Option Nat × Int)
  | .closeSocket sslCtx sockId => some (sslCtx, sockId)
  | _ => none

end C2sCall

/-- A user is reported open only when closed and closed only when open; the loss of
the uplink closes whoever is open. -/
def takeTurn : Bool → C2sCallback → Option Bool
  | false, .onOkUser => some true
  | true, .onCloseUser => some false
  | _, .onCloseC2s => some false
  | _, _ => none

namespace C2s

def init (localSslConfig localSslForced : Bool) : C2s :=
  ⟨true, ⟨0, 0, 0, 0, 0, 0, 0⟩, ∅, ∅, ∅, localSslConfig, localSslForced⟩

def perform (s : C2s) : C2sOp → C2s × List C2sCall
  | .acceptSession info timerId sent => s.acceptSession info timerId sent
  | .onRecvMsg msg created sent => s.onRecvMsg created sent msg
  | .asyncKickoutUser user => s.asyncKickoutUser user
  | .onCloseSession session errorCode sslCode => s.onCloseSession session errorCode sslCode
  | .onOkMsg myUser myPublicIp => s.onOkMsg myUser myPublicIp
  | .onCloseMsg errorCode sslCode tcpConnected => s.onCloseMsg errorCode sslCode tcpConnected
  | .onTimer timerId => s.onTimer timerId
  | .reconnect connected => (s.reconnect connected, [])

/-- The pending connections that an operation takes out. -/
def taken (s : C2s) : C2sOp → List Taken
  | .onRecvMsg (.clientLoginOk clientIndex user) created _ =>
      if !user.valid || !s.msgClient then []
      else (s.timerId2Info[clientIndex]?).toList.map fun info =>
        ⟨clientIndex, info, .clientLoginOk clientIndex (created.map Prod.fst)⟩
  | .onRecvMsg (.clientLoginError clientIndex) _ _ =>
      if !s.msgClient then []
      else (s.timerId2Info[clientIndex]?).toList.map fun info =>
        ⟨clientIndex, info, .clientLoginError clientIndex⟩
  | .onTimer timerId =>
      if timerId = 0 then []
      else (s.timerId2Info[timerId]?).toList.map fun info => ⟨timerId, info, .onTimer⟩
  | .onCloseMsg .. =>
      if !s.msgClient then []
      else s.timerId2Info.toList.map fun entry => ⟨entry.1, entry.2, .onCloseMsg⟩
  | _ => []

/-- Whether `AcceptSession` keeps the connection. -/
def keeps (s : C2s) (info : AcceptInfo) (sent : Bool) : Bool :=
  sslAdmits s.localSslConfig s.localSslForced info.sessionType && nodeUserOk info.user &&
    decide (s.timerId2Info.size < maxPendingCount) && s.msgClient && s.c2sUser.valid &&
    decide (info.user ≠ s.c2sUser) && sent

/-- The connection that an operation makes pending, and the one it turns away. -/
def accepted (s : C2s) : C2sOp → List (Nat × AcceptInfo)
  | .acceptSession info timerId sent => if s.keeps info sent then [(timerId, info)] else []
  | _ => []

def refused (s : C2s) : C2sOp → List AcceptInfo
  | .acceptSession info _ sent => if s.keeps info sent then [] else [info]
  | _ => []

/-- `ScheduleTimer` does not return the id of a pending connection, and a created
session is not one that is in use. -/
def Fresh (s : C2s) : C2sOp → Prop
  | .acceptSession _ timerId _ => timerId ∉ s.timerId2Info
  | .onRecvMsg _ created _ => ∀ entry ∈ created, entry.1 ∉ s.session2User
  | _ => True

instance (s : C2s) (op : C2sOp) : Decidable (s.Fresh op) := by
  cases op <;> unfold Fresh <;> infer_instance

end C2s

/-- The node with all it has called, and where its connections went. -/
structure C2sRun where
  c2s : C2s
  calls : List C2sCall
  accepted : List (Nat × AcceptInfo)
  refused : List AcceptInfo
  taken : List Taken

namespace C2sRun

def init (localSslConfig localSslForced : Bool) : C2sRun :=
  ⟨C2s.init localSslConfig localSslForced, [], [], [], []⟩

def step (w : C2sRun) (op : C2sOp) : Option C2sRun :=
  some
    { c2s := (w.c2s.perform op).1
      calls := w.calls ++ (w.c2s.perform op).2
      accepted := w.accepted ++ w.c2s.accepted op
      refused := w.refused ++ w.c2s.refused op
      taken := w.taken ++ w.c2s.taken op }

/-- The tables are inverse to each other; every accepted connection is pending or
was taken out once, by a message with its own index if by a message; every session
made of one is in the tables or was deleted, once; every other socket was closed
once; and the callbacks of every user take turns. -/
structure Sound (w : C2sRun) : Prop where
  inverse : ∀ (session : Session) (user : MsgUser),
    w.c2s.session2User[session]? = some user ↔ w.c2s.user2Session[user]? = some session
  connections : (w.taken.map (fun taken => (taken.timerId, taken.info)) ++
    w.c2s.timerId2Info.toList).Perm w.accepted
  own : ∀ taken ∈ w.taken, ∀ (clientIndex : Nat) (session : Option Session),
    taken.taker = .clientLoginOk clientIndex session → clientIndex = taken.timerId
  sessions : (w.c2s.session2User.keys ++ w.calls.filterMap C2sCall.deleted?).Perm
    (w.taken.filterMap Taken.session?)
  sockets : (w.calls.filterMap C2sCall.closed?).Perm
    (w.refused.map (fun info => (info.sslCtx, info.sockId)) ++ w.taken.filterMap Taken.socket?)
  callbacks : ∀ user, (w.calls.filterMap (C2sCall.callback? user)).foldlM takeTurn false =
    some (decide (user ∈ w.c2s.user2Session))

end C2sRun

namespace C2s

def Inverse (s : C2s) : Prop :=
  ∀ (session : Session) (user : MsgUser),
    s.session2User[session]? = some user ↔ s.user2Session[user]? = some session

theorem Inverse.dropUser {s : C2s} (h : s.Inverse) {user : MsgUser} {session : Session}
    (huser : s.user2Session[user]? = some session) : (s.dropUser user session).Inverse := by
  intro session' user'
  simp only [C2s.dropUser, ExtTreeMap.getElem?_erase, Std.compare_eq_iff_eq]
  by_cases hs : session = session'
  · subst hs
    rw [if_pos rfl]
    by_cases hu : user = user'
    · rw [if_pos hu]
      simp
    · rw [if_neg hu]
      constructor
      · intro hnone
        cases hnone
      · intro huser'
        have hold := (h session user).mpr huser
        rw [(h session user').mpr huser', Option.some.injEq] at hold
        exact absurd hold.symm hu
  · rw [if_neg hs]
    by_cases hu : user = user'
    · subst hu
      rw [if_pos rfl]
      constructor
      · intro hsession
        have hold := (h session' user).mp hsession
        rw [huser, Option.some.injEq] at hold
        exact absurd hold hs
      · intro hnone
        cases hnone
    · rw [if_neg hu]
      exact h session' user'

theorem Inverse.insert {s next : C2s} (h : s.Inverse) {user : MsgUser} {session : Session}
    (huser : user ∉ s.user2Session) (hsession : session ∉ s.session2User)
    (hnext : next.session2User = s.session2User.insert session user)
    (hnext' : next.user2Session = s.user2Session.insert user session) : next.Inverse := by
  have hnone : s.user2Session[user]? = none := ExtTreeMap.getElem?_eq_none huser
  have hnone' : s.session2User[session]? = none := ExtTreeMap.getElem?_eq_none hsession
  intro session' user'
  rw [hnext, hnext']
  simp only [ExtTreeMap.getElem?_insert, Std.compare_eq_iff_eq]
  by_cases hs : session = session'
  · subst hs
    rw [if_pos rfl]
    by_cases hu : user = user'
    · rw [if_pos hu, hu]
      simp
    · rw [if_neg hu, Option.some.injEq, ← h session user', hnone']
      simp [hu]
  · rw [if_neg hs]
    by_cases hu : user = user'
    · subst hu
      rw [if_pos rfl, Option.some.injEq, h session' user, hnone]
      simp [hs]
    · rw [if_neg hu]
      exact h session' user'

/-- What one operation does: `r` is its result, and the lists say where connections go. -/
structure Moves (s : C2s) (r : C2s × List C2sCall) (taken : List Taken)
    (accepted : List (Nat × AcceptInfo)) (refused : List AcceptInfo) : Prop where
  inverse : r.1.Inverse
  connections : (taken.map (fun taken => (taken.timerId, taken.info)) ++ r.1.timerId2Info.toList).Perm
    (s.timerId2Info.toList ++ accepted)
  own : ∀ t ∈ taken, ∀ (clientIndex : Nat) (session : Option Session),
    t.taker = .clientLoginOk clientIndex session → clientIndex = t.timerId
  sessions : (r.1.session2User.keys ++ r.2.filterMap C2sCall.deleted?).Perm
    (s.session2User.keys ++ taken.filterMap Taken.session?)
  sockets : (r.2.filterMap C2sCall.closed?).Perm
    (refused.map (fun info => (info.sslCtx, info.sockId)) ++ taken.filterMap Taken.socket?)
  callbacks : ∀ user, (r.2.filterMap (C2sCall.callback? user)).foldlM takeTurn
    (decide (user ∈ s.user2Session)) = some (decide (user ∈ r.1.user2Session))

/-- An operation that changes no table and deletes, closes and reports nothing. -/
theorem Inverse.quiet {s : C2s} (h : s.Inverse) {next : C2s} {calls : List C2sCall}
    (hinfo : next.timerId2Info = s.timerId2Info) (husers : next.session2User = s.session2User)
    (hsessions : next.user2Session = s.user2Session)
    (hdeleted : calls.filterMap C2sCall.deleted? = []) (hclosed : calls.filterMap C2sCall.closed? = [])
    (hcallbacks : ∀ user, calls.filterMap (C2sCall.callback? user) = []) :
    s.Moves (next, calls) [] [] [] := by
  refine ⟨?_, ?_, ?_, ?_, ?_, ?_⟩
  · unfold Inverse
    rw [husers, hsessions]
    exact h
  · simp [hinfo]
  · intro t ht
    cases ht
  · simp [husers, hdeleted]
  · simp [hclosed]
  · intro user
    rw [hcallbacks user, hsessions]
    rfl

theorem closed?_reportLogout (user : MsgUser) :
    (reportLogout user).filterMap C2sCall.closed? = [] := by
  unfold reportLogout
  split <;> rfl

theorem deleted?_reportLogout (user : MsgUser) :
    (reportLogout user).filterMap C2sCall.deleted? = [] := by
  unfold reportLogout
  split <;> rfl

theorem callback?_reportLogout (user other : MsgUser) :
    (reportLogout user).filterMap (C2sCall.callback? other) = [] := by
  unfold reportLogout
  split <;> rfl

/-- Taking one user out, with its session deleted. -/
theorem Inverse.moves_dropUser {s : C2s} (h : s.Inverse) {user : MsgUser} {session : Session}
    (huser : s.user2Session[user]? = some session) {report : List C2sCall}
    (hreport : report = [] ∨ report = reportLogout user) (errorCode sslCode : Int) :
    s.Moves (s.dropUser user session,
      report ++ [.onCloseUser user errorCode sslCode, .deleteSession session]) [] [] [] := by
  have hdeleted : report.filterMap C2sCall.deleted? = [] := by
    obtain rfl | rfl := hreport
    · rfl
    · exact deleted?_reportLogout user
  have hclosed : report.filterMap C2sCall.closed? = [] := by
    obtain rfl | rfl := hreport
    · rfl
    · exact closed?_reportLogout user
  have hcallbacks : ∀ other, report.filterMap (C2sCall.callback? other) = [] := by
    intro other
    obtain rfl | rfl := hreport
    · rfl
    · exact callback?_reportLogout user other
  refine ⟨h.dropUser huser, ?_, ?_, ?_, ?_, ?_⟩
  · simp [C2s.dropUser]
  · intro t ht
    cases ht
  · have hkeys := Tables.keys_perm_erase ((h session user).mpr huser)
    rw [List.filterMap_append, hdeleted]
    simp only [C2s.dropUser, List.nil_append, List.filterMap_nil, List.append_nil]
    exact (List.perm_append_singleton session _).trans hkeys.symm
  · rw [List.filterMap_append, hclosed]
    rfl
  · intro other
    rw [List.filterMap_append, hcallbacks]
    simp only [C2s.dropUser]
    by_cases heq : user = other
    · subst heq
      have hmem : user ∈ s.user2Session := by
        rw [ExtTreeMap.mem_iff_isSome_getElem?, huser]
        rfl
      simp [C2sCall.callback?, takeTurn, hmem, List.filterMap_cons]
    · have hmem : other ∈ s.user2Session.erase user ↔ other ∈ s.user2Session := by
        rw [ExtTreeMap.mem_erase]
        simp [heq]
      simp [C2sCall.callback?, heq, hmem, List.filterMap_cons]

/-- Taking out a pending connection, with its socket closed. -/
theorem Inverse.moves_dropPending {s : C2s} (h : s.Inverse) (timerId : Nat) {taker : Taker}
    (htaker : ∀ clientIndex session, taker ≠ .clientLoginOk clientIndex session) :
    s.Moves (s.dropPending timerId)
      ((s.timerId2Info[timerId]?).toList.map fun info => ⟨timerId, info, taker⟩) [] [] := by
  unfold dropPending
  cases hinfo : s.timerId2Info[timerId]? with
  | none => exact h.quiet rfl rfl rfl rfl rfl (fun _ => rfl)
  | some info =>
    have hsession : Taken.session? ⟨timerId, info, taker⟩ = none := by
      unfold Taken.session?
      cases taker with
      | clientLoginOk clientIndex session => exact absurd rfl (htaker clientIndex session)
      | clientLoginError clientIndex => rfl
      | onTimer => rfl
      | onCloseMsg => rfl
    refine ⟨h, ?_, ?_, ?_, ?_, ?_⟩
    · simpa using (Tables.toList_perm_erase hinfo).symm
    · intro t ht clientIndex session heq
      rw [Option.toList_some, List.map_singleton, List.mem_singleton] at ht
      subst ht
      exact absurd heq (htaker clientIndex session)
    · simp [C2sCall.deleted?, closeInfo, hsession, List.filterMap_cons]
    · simp [C2sCall.closed?, closeInfo, Taken.socket?, hsession, List.filterMap_cons]
    · intro user
      simp [C2sCall.callback?, closeInfo, List.filterMap_cons]

theorem keeps_eq (s : C2s) (info : AcceptInfo) (timerId : Nat) (sent : Bool) :
    (s.keeps info sent = true ∧ s.acceptSession info timerId sent =
      ({ s with timerId2Info := s.timerId2Info.insert timerId info },
        [.sendMsg (.clientLogin (timerId % 2 ^ 32) info.user info.remoteIp
          (hashString info.passwordHash) info.nonce)])) ∨
    (s.keeps info sent = false ∧ ∃ calls, s.acceptSession info timerId sent = (s, calls) ∧
      (calls = [closeInfo info] ∨ calls = [.cancelTimer timerId, closeInfo info])) := by
  unfold acceptSession
  by_cases hrefuse : (!sslAdmits s.localSslConfig s.localSslForced info.sessionType ||
      !nodeUserOk info.user || decide (maxPendingCount ≤ s.timerId2Info.size) || !s.msgClient ||
      !s.c2sUser.valid || decide (info.user = s.c2sUser)) = true
  · right
    rw [if_pos hrefuse]
    refine ⟨?_, _, rfl, Or.inl rfl⟩
    unfold keeps
    simp only [Bool.or_eq_true, Bool.not_eq_true', decide_eq_true_eq] at hrefuse
    obtain (((((h | h) | h) | h) | h) | h) := hrefuse
    · simp [h]
    · simp [h]
    · simp [Nat.not_lt.mpr h]
    · simp [h]
    · simp [h]
    · simp [h]
  · rw [if_neg hrefuse]
    simp only [Bool.or_eq_true, Bool.not_eq_true', decide_eq_true_eq, not_or, Bool.not_eq_false,
      Nat.not_le] at hrefuse
    obtain ⟨⟨⟨⟨⟨hssl, huser⟩, hsize⟩, hclient⟩, hc2s⟩, hne⟩ := hrefuse
    cases sent with
    | false =>
      right
      exact ⟨by simp [keeps], _, rfl, Or.inr rfl⟩
    | true =>
      left
      exact ⟨by simp [keeps, hssl, huser, hsize, hclient, hc2s, hne], rfl⟩

theorem Inverse.moves_acceptSession {s : C2s} (h : s.Inverse) (info : AcceptInfo) (timerId : Nat)
    (sent : Bool) (hfresh : timerId ∉ s.timerId2Info) :
    s.Moves (s.acceptSession info timerId sent) []
      (if s.keeps info sent then [(timerId, info)] else [])
      (if s.keeps info sent then [] else [info]) := by
  obtain ⟨hkeeps, heq⟩ | ⟨hkeeps, calls, heq, hcalls⟩ := s.keeps_eq info timerId sent
  · rw [hkeeps, heq]
    refine ⟨h, ?_, ?_, ?_, ?_, ?_⟩
    · have hperm := Tables.toList_insertIfNew_perm info hfresh
      rw [← Tables.insert_eq_insertIfNew info hfresh] at hperm
      exact hperm.trans (List.perm_append_singleton (timerId, info) _).symm
    · intro t ht
      cases ht
    · simp [C2sCall.deleted?, List.filterMap_cons]
    · simp [C2sCall.closed?, List.filterMap_cons]
    · intro user
      rfl
  · rw [hkeeps, heq]
    have hdeleted : calls.filterMap C2sCall.deleted? = [] := by
      obtain rfl | rfl := hcalls <;> rfl
    have hclosed : calls.filterMap C2sCall.closed? = [(info.sslCtx, info.sockId)] := by
      obtain rfl | rfl := hcalls <;> rfl
    have hcallbacks : ∀ user, calls.filterMap (C2sCall.callback? user) = [] := by
      intro user
      obtain rfl | rfl := hcalls <;> rfl
    refine ⟨h, by simp, ?_, by simp [hdeleted], by simp [hclosed], ?_⟩
    · intro t ht
      cases ht
    · intro user
      rw [hcallbacks]
      rfl

theorem Inverse.moves_onCloseMsg {s : C2s} (h : s.Inverse) (errorCode sslCode : Int)
    (tcpConnected : Bool) :
    s.Moves (s.onCloseMsg errorCode sslCode tcpConnected)
      (if !s.msgClient then []
        else s.timerId2Info.toList.map fun entry => ⟨entry.1, entry.2, .onCloseMsg⟩) [] [] := by
  unfold C2s.onCloseMsg
  cases hclient : s.msgClient with
  | false => exact h.quiet rfl rfl rfl rfl rfl (fun _ => rfl)
  | true =>
    have hdeleted : ∀ entries : List (Nat × AcceptInfo), (entries.flatMap fun entry =>
        [C2sCall.cancelTimer entry.1, closeInfo entry.2]).filterMap C2sCall.deleted? = [] := by
      intro entries
      induction entries with
      | nil => rfl
      | cons entry entries ih => exact ih
    have hclosed : ∀ entries : List (Nat × AcceptInfo), (entries.flatMap fun entry =>
        [C2sCall.cancelTimer entry.1, closeInfo entry.2]).filterMap C2sCall.closed? =
          entries.map fun entry => (entry.2.sslCtx, entry.2.sockId) := by
      intro entries
      induction entries with
      | nil => rfl
      | cons entry entries ih => exact congrArg (List.cons _) ih
    have hcallbacks : ∀ (user : MsgUser) (entries : List (Nat × AcceptInfo)),
        (entries.flatMap fun entry =>
          [C2sCall.cancelTimer entry.1, closeInfo entry.2]).filterMap (C2sCall.callback? user) = [] := by
      intro user entries
      induction entries with
      | nil => rfl
      | cons entry entries ih => exact ih
    have hsessions : ∀ sessions : List Session,
        (sessions.map C2sCall.deleteSession).filterMap C2sCall.deleted? = sessions := by
      intro sessions
      induction sessions with
      | nil => rfl
      | cons session sessions ih => exact congrArg (List.cons session) ih
    have hquiet : ∀ (user : MsgUser) (sessions : List Session),
        (sessions.map C2sCall.deleteSession).filterMap (C2sCall.callback? user) = [] ∧
          (sessions.map C2sCall.deleteSession).filterMap C2sCall.closed? = [] := by
      intro user sessions
      induction sessions with
      | nil => exact ⟨rfl, rfl⟩
      | cons session sessions ih => exact ih
    have htaken : ∀ entries : List (Nat × AcceptInfo),
        (entries.map fun entry => Taken.mk entry.1 entry.2 .onCloseMsg).filterMap Taken.session? = [] ∧
        (entries.map fun entry => Taken.mk entry.1 entry.2 .onCloseMsg).filterMap Taken.socket? =
          entries.map fun entry => (entry.2.sslCtx, entry.2.sockId) := by
      intro entries
      induction entries with
      | nil => exact ⟨rfl, rfl⟩
      | cons entry entries ih => exact ⟨ih.1, congrArg (List.cons _) ih.2⟩
    refine ⟨?_, ?_, ?_, ?_, ?_, ?_⟩
    · intro session user
      simp
    · simp [Function.comp_def]
    · intro t ht clientIndex session heq
      simp only [Bool.not_true, Bool.false_eq_true, if_false, List.mem_map] at ht
      obtain ⟨entry, _, rfl⟩ := ht
      cases heq
    · simp only [Bool.not_true, Bool.false_eq_true, if_false, List.filterMap_append, hdeleted,
        hsessions, (htaken _).1]
      simp [C2sCall.deleted?, List.filterMap_cons]
    · simp only [Bool.not_true, Bool.false_eq_true, if_false, List.filterMap_append, hclosed,
        (hquiet s.c2sUser _).2, (htaken _).2]
      simp [C2sCall.closed?, List.filterMap_cons]
    · intro user
      simp only [Bool.not_true, Bool.false_eq_true, if_false, List.filterMap_append, hcallbacks,
        (hquiet user _).1]
      cases decide (user ∈ s.user2Session) <;>
        simp [C2sCall.callback?, takeTurn]

/-- The tables without the old session of a user who logs in again. -/
def freeUser (s : C2s) (user : MsgUser) : C2s :=
  { s with
    session2User := (s.user2Session[user]?).elim s.session2User s.session2User.erase
    user2Session := s.user2Session.erase user }

/-- Freeing a user keeps the tables and takes out its old session only. -/
structure Frees (s : C2s) (user : MsgUser) : Prop where
  inverse : (s.freeUser user).Inverse
  offline : user ∉ (s.freeUser user).user2Session
  others : ∀ other, other ≠ user → (other ∈ (s.freeUser user).user2Session ↔ other ∈ s.user2Session)
  sessions : ((s.freeUser user).session2User.keys ++ (s.user2Session[user]?).toList).Perm
    s.session2User.keys
  fresh : ∀ session, session ∉ s.session2User → session ∉ (s.freeUser user).session2User

theorem Inverse.frees {s : C2s} (h : s.Inverse) (user : MsgUser) : s.Frees user := by
  have hothers : ∀ other, other ≠ user →
      (other ∈ (s.freeUser user).user2Session ↔ other ∈ s.user2Session) := by
    intro other hne
    simp only [freeUser]
    rw [ExtTreeMap.mem_erase]
    simp [Ne.symm hne]
  have hoffline : user ∉ (s.freeUser user).user2Session := by
    simp only [freeUser]
    rw [ExtTreeMap.mem_erase]
    simp
  cases hold : s.user2Session[user]? with
  | none =>
    have hsame : (s.freeUser user).user2Session = s.user2Session := by
      apply ExtTreeMap.ext_getElem?
      intro other
      simp only [freeUser]
      rw [ExtTreeMap.getElem?_erase]
      split
      · rename_i heq
        rw [← LawfulEqCmp.compare_eq_iff_eq.mp heq, hold]
      · rfl
    have hsame' : (s.freeUser user).session2User = s.session2User := by
      simp only [freeUser, hold, Option.elim_none]
    refine ⟨?_, hoffline, hothers, ?_, ?_⟩
    · unfold Inverse
      rw [hsame, hsame']
      exact h
    · simp [hsame', hold]
    · intro session hsession
      rw [hsame']
      exact hsession
  | some old =>
    have hsession : (s.freeUser user).session2User = s.session2User.erase old := by
      simp only [freeUser, hold, Option.elim_some]
    have hdrop : (s.dropUser user old).Inverse := h.dropUser hold
    refine ⟨?_, hoffline, hothers, ?_, ?_⟩
    · unfold Inverse
      rw [hsession]
      exact hdrop
    · rw [hsession, hold]
      have hkeys := Tables.keys_perm_erase ((h old user).mpr hold)
      exact (List.perm_append_singleton old _).trans hkeys.symm
    · intro session hfresh
      rw [hsession, ExtTreeMap.mem_erase]
      exact fun hboth => hfresh hboth.2

theorem deleted?_oldSession (session : Option Session) :
    (session.toList.map C2sCall.deleteSession).filterMap C2sCall.deleted? = session.toList := by
  cases session <;> rfl

theorem closed?_oldSession (session : Option Session) :
    (session.toList.map C2sCall.deleteSession).filterMap C2sCall.closed? = [] := by
  cases session <;> rfl

theorem callback?_oldSession (user : MsgUser) (session : Option Session) :
    (session.toList.map C2sCall.deleteSession).filterMap (C2sCall.callback? user) = [] := by
  cases session <;> rfl

/-- The connection becomes a session, whether or not the response can be sent. -/
theorem Inverse.moves_created {s : C2s} (h : s.Inverse) {clientIndex : Nat} {info : AcceptInfo}
    (hinfo : s.timerId2Info[clientIndex]? = some info) {user : MsgUser} (hvalid : user.valid = true)
    (hclient : s.msgClient = true) {session : Session} (hfresh : session ∉ s.session2User)
    (publicIp : String) (sent : Bool) :
    s.Moves (s.processMsgClientLoginOk clientIndex user (some (session, publicIp)) sent)
      [⟨clientIndex, info, .clientLoginOk clientIndex (some session)⟩] [] [] := by
  have hfrees := h.frees user
  have hnew := hfrees.fresh session hfresh
  have hdrop := (Tables.toList_perm_erase hinfo).symm
  have honline : (s.user2Session[user]?).isSome = decide (user ∈ s.user2Session) := by
    rw [Bool.eq_iff_iff, decide_eq_true_eq, ExtTreeMap.mem_iff_isSome_getElem?]
  have hown : ∀ t ∈ [Taken.mk clientIndex info (.clientLoginOk clientIndex (some session))],
      ∀ (index : Nat) (made : Option Session), t.taker = .clientLoginOk index made →
        index = t.timerId := by
    intro t ht index made heq
    rw [List.mem_singleton] at ht
    subst ht
    cases heq
    rfl
  have hclosed : ∀ other, ((if (s.user2Session[user]?).isSome then [C2sCall.onCloseUser user (-1) 0]
      else []).filterMap (C2sCall.callback? other)).foldlM takeTurn (decide (other ∈ s.user2Session)) =
        some (decide (other ∈ (s.freeUser user).user2Session)) := by
    intro other
    rw [honline]
    by_cases heq : user = other
    · subst heq
      have hoff := hfrees.offline
      by_cases hon : user ∈ s.user2Session <;>
        simp [hon, hoff, C2sCall.callback?, takeTurn]
    · have hsame := hfrees.others other (Ne.symm heq)
      by_cases hon : user ∈ s.user2Session <;>
        simp [hon, hsame, heq, C2sCall.callback?]
  have hquiet : (if (s.user2Session[user]?).isSome then [C2sCall.onCloseUser user (-1) 0]
      else []).filterMap C2sCall.deleted? = [] ∧
      (if (s.user2Session[user]?).isSome then [C2sCall.onCloseUser user (-1) 0]
      else []).filterMap C2sCall.closed? = [] := by
    split <;> exact ⟨rfl, rfl⟩
  unfold processMsgClientLoginOk
  rw [hvalid, hclient, hinfo]
  simp only [Bool.not_true, Bool.or_self, Bool.false_eq_true, if_false]
  cases sent with
  | true =>
    have hkeys := Tables.keys_insert_perm user hnew
    refine ⟨hfrees.inverse.insert hfrees.offline hnew rfl rfl, ?_, hown, ?_, ?_, ?_⟩
    · simpa using hdrop
    · rw [List.perm_iff_count]
      intro a
      have hinsert := hkeys.count_eq a
      have hfree := hfrees.sessions.count_eq a
      simp only [if_true, List.filterMap_append, hquiet.1, deleted?_oldSession]
      simp only [freeUser, List.count_append, List.count_cons, List.filterMap_cons,
        List.filterMap_nil, C2sCall.deleted?, Taken.session?, List.count_nil] at hinsert hfree ⊢
      omega
    · simp only [if_true, List.filterMap_append, hquiet.2, closed?_oldSession]
      simp [C2sCall.closed?, Taken.socket?, Taken.session?, List.filterMap_cons]
    · intro other
      simp only [if_true, List.filterMap_append, callback?_oldSession]
      have hstart : [C2sCall.cancelTimer clientIndex,
          C2sCall.sendResponse session user publicIp].filterMap (C2sCall.callback? other) = [] := rfl
      rw [hstart, List.nil_append, List.append_nil, List.foldlM_append, hclosed]
      by_cases heq : user = other
      · subst heq
        have hoff := hfrees.offline
        simp [hoff, C2sCall.callback?, takeTurn]
      · have hmem : other ∈ (s.user2Session.erase user).insert user session ↔
            other ∈ (s.freeUser user).user2Session := by
          rw [ExtTreeMap.mem_insert]
          simp [heq, freeUser]
        simp [heq, hmem, C2sCall.callback?]
  | false =>
    refine ⟨hfrees.inverse, ?_, hown, ?_, ?_, ?_⟩
    · simpa using hdrop
    · rw [List.perm_iff_count]
      intro a
      have hfree := hfrees.sessions.count_eq a
      simp only [Bool.false_eq_true, if_false, List.filterMap_append, hquiet.1, deleted?_oldSession,
        deleted?_reportLogout]
      simp only [freeUser, List.count_append, List.count_cons, List.filterMap_cons,
        List.filterMap_nil, C2sCall.deleted?, Taken.session?, List.count_nil] at hfree ⊢
      omega
    · simp only [Bool.false_eq_true, if_false, List.filterMap_append, hquiet.2, closed?_oldSession,
        closed?_reportLogout]
      simp [C2sCall.closed?, Taken.socket?, Taken.session?, List.filterMap_cons]
    · intro other
      simp only [Bool.false_eq_true, if_false, List.filterMap_append, callback?_oldSession,
        callback?_reportLogout]
      have hstart : [C2sCall.cancelTimer clientIndex,
          C2sCall.sendResponse session user publicIp].filterMap (C2sCall.callback? other) = [] := rfl
      have hend : [C2sCall.deleteSession session].filterMap (C2sCall.callback? other) = [] := rfl
      rw [hstart, hend]
      simp only [List.nil_append, List.append_nil]
      exact hclosed other

theorem Inverse.moves_clientLoginOk {s : C2s} (h : s.Inverse) (clientIndex : Nat) (user : MsgUser)
    (created : Option (Session × String)) (sent : Bool)
    (hfresh : ∀ entry ∈ created, entry.1 ∉ s.session2User) :
    s.Moves (s.processMsgClientLoginOk clientIndex user created sent)
      (s.taken (.onRecvMsg (.clientLoginOk clientIndex user) created sent)) [] [] := by
  simp only [taken]
  by_cases hdrop : (!user.valid || !s.msgClient) = true
  · unfold processMsgClientLoginOk
    rw [if_pos hdrop, if_pos hdrop]
    exact h.quiet rfl rfl rfl rfl rfl (fun _ => rfl)
  · rw [if_neg hdrop]
    cases hinfo : s.timerId2Info[clientIndex]? with
    | none =>
      unfold processMsgClientLoginOk
      rw [if_neg hdrop, hinfo]
      exact h.quiet rfl rfl rfl (deleted?_reportLogout user) (closed?_reportLogout user)
        (callback?_reportLogout user)
    | some info =>
      have hboth : user.valid = true ∧ s.msgClient = true := by simpa using hdrop
      cases created with
      | some entry => exact h.moves_created hinfo hboth.1 hboth.2 (hfresh entry rfl) entry.2 sent
      | none =>
        unfold processMsgClientLoginOk
        rw [if_neg hdrop, hinfo]
        refine ⟨h, ?_, ?_, ?_, ?_, ?_⟩
        · simpa using (Tables.toList_perm_erase hinfo).symm
        · intro t ht index made heq
          rw [Option.toList_some, List.map_singleton, List.mem_singleton] at ht
          subst ht
          cases heq
          rfl
        · rw [List.filterMap_append, deleted?_reportLogout]
          simp [C2sCall.deleted?, closeInfo, Taken.session?, List.filterMap_cons]
        · rw [List.filterMap_append, closed?_reportLogout]
          simp [C2sCall.closed?, closeInfo, Taken.socket?, Taken.session?, List.filterMap_cons]
        · intro other
          rw [List.filterMap_append, callback?_reportLogout]
          rfl

theorem Inverse.moves {s : C2s} (h : s.Inverse) (op : C2sOp) (hfresh : s.Fresh op) :
    s.Moves (s.perform op) (s.taken op) (s.accepted op) (s.refused op) := by
  cases op with
  | acceptSession info timerId sent => exact h.moves_acceptSession info timerId sent hfresh
  | onRecvMsg msg created sent =>
    cases msg with
    | clientLoginOk clientIndex user =>
      exact h.moves_clientLoginOk clientIndex user created sent hfresh
    | clientLoginError clientIndex =>
      simp only [C2s.perform, C2s.onRecvMsg, processMsgClientLoginError, taken]
      split
      · exact h.quiet rfl rfl rfl rfl rfl (fun _ => rfl)
      · exact h.moves_dropPending clientIndex (fun _ _ heq => by cases heq)
    | clientKickout user =>
      simp only [C2s.perform, C2s.onRecvMsg, processMsgClientKickout]
      split
      · exact h.quiet rfl rfl rfl rfl rfl (fun _ => rfl)
      · split
        · exact h.quiet rfl rfl rfl rfl rfl (fun _ => rfl)
        · rename_i session huser
          exact h.moves_dropUser huser (Or.inl rfl) (-1) 0
  | asyncKickoutUser user =>
    simp only [C2s.perform, C2s.asyncKickoutUser]
    split
    · exact h.quiet rfl rfl rfl rfl rfl (fun _ => rfl)
    · rename_i session huser
      apply h.moves_dropUser huser
      split
      · exact Or.inr rfl
      · exact Or.inl rfl
  | onCloseSession session errorCode sslCode =>
    simp only [C2s.perform, C2s.onCloseSession]
    split
    · exact h.quiet rfl rfl rfl rfl rfl (fun _ => rfl)
    · rename_i user hsession
      apply h.moves_dropUser ((h session user).mp hsession)
      split
      · exact Or.inr rfl
      · exact Or.inl rfl
  | onOkMsg myUser myPublicIp =>
    simp only [C2s.perform, C2s.onOkMsg]
    split
    · exact h.quiet rfl rfl rfl rfl rfl (fun _ => rfl)
    · exact h.quiet rfl rfl rfl rfl rfl (fun _ => rfl)
  | onCloseMsg errorCode sslCode tcpConnected =>
    exact h.moves_onCloseMsg errorCode sslCode tcpConnected
  | onTimer timerId =>
    simp only [C2s.perform, C2s.onTimer, taken]
    split
    · exact h.quiet rfl rfl rfl rfl rfl (fun _ => rfl)
    · exact h.moves_dropPending timerId (fun _ _ heq => by cases heq)
  | reconnect connected =>
    simp only [C2s.perform, C2s.reconnect]
    split
    · exact h.quiet rfl rfl rfl rfl rfl (fun _ => rfl)
    · exact h.quiet rfl rfl rfl rfl rfl (fun _ => rfl)

end C2s

namespace C2sRun

theorem sound_init (localSslConfig localSslForced : Bool) :
    (init localSslConfig localSslForced).Sound := by
  refine ⟨?_, ?_, ?_, ?_, ?_, ?_⟩
  · intro session user
    simp [init, C2s.init]
  · simp [init, C2s.init]
  · intro t ht
    cases ht
  · simp [init, C2s.init]
  · simp [init]
  · intro user
    simp [init, C2s.init]

theorem Sound.step {w : C2sRun} (h : w.Sound) (op : C2sOp) (hfresh : w.c2s.Fresh op) :
    ∃ next, w.step op = some next ∧ next.Sound := by
  have hmoves := C2s.Inverse.moves h.inverse op hfresh
  refine ⟨_, rfl, hmoves.inverse, ?_, ?_, ?_, ?_, ?_⟩
  · rw [List.perm_iff_count]
    intro a
    have hbefore := h.connections.count_eq a
    have hmove := hmoves.connections.count_eq a
    simp only [List.map_append, List.count_append] at hbefore hmove ⊢
    omega
  · intro t ht
    rw [List.mem_append] at ht
    cases ht with
    | inl hold => exact h.own t hold
    | inr hnew => exact hmoves.own t hnew
  · rw [List.perm_iff_count]
    intro a
    have hbefore := h.sessions.count_eq a
    have hmove := hmoves.sessions.count_eq a
    simp only [List.filterMap_append, List.count_append] at hbefore hmove ⊢
    omega
  · rw [List.perm_iff_count]
    intro a
    have hbefore := h.sockets.count_eq a
    have hmove := hmoves.sockets.count_eq a
    simp only [List.filterMap_append, List.map_append, List.count_append] at hbefore hmove ⊢
    omega
  · intro user
    rw [List.filterMap_append, List.foldlM_append, h.callbacks user]
    exact hmoves.callbacks user

/-- Every run of the operations, with fresh timers and sessions, is accounted for. -/
theorem accounted_of_run (localSslConfig localSslForced : Bool) (ops : List C2sOp)
    (hfresh : Guarded step (fun w op => w.c2s.Fresh op) (init localSslConfig localSslForced) ops) :
    ∃ w, run step (init localSslConfig localSslForced) ops = some w ∧ w.Sound :=
  run_progress (fun _ op h hfresh => h.step op hfresh) (sound_init _ _) hfresh

/-- A user logs in, logs in again on a second connection whose response fails, and a
third connection still waits when the uplink is lost. -/
def reloggedUser : List C2sOp :=
  [.onOkMsg (.ofIds 1 2 1) "10.0.0.1",
    .acceptSession ⟨none, 5, false, "10.0.0.7", 4000, 9, .tcpClientEx, .ofIds 2 7 1, []⟩ 31 true,
    .onRecvMsg (.clientLoginOk 31 (.ofIds 2 7 1)) (some (10, "10.0.0.7")) true,
    .acceptSession ⟨none, 6, false, "10.0.0.7", 4001, 8, .tcpClientEx, .ofIds 2 7 1, []⟩ 32 true,
    .onRecvMsg (.clientLoginOk 32 (.ofIds 2 7 1)) (some (11, "10.0.0.7")) false,
    .acceptSession ⟨none, 7, false, "10.0.0.8", 4002, 7, .tcpClientEx, .ofIds 2 8 1, []⟩ 33 true,
    .onCloseMsg 0 0 true]

theorem accounted_of_run_reloggedUser :
    ∃ w, run step (init false false) reloggedUser = some w ∧ w.Sound :=
  accounted_of_run false false reloggedUser (by decide +kernel)

end C2sRun

end Pronet.Msg
