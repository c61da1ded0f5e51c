import Pronet.Msg.LinkFrames

/-! When the c2s node and the server agree on who is logged in. `client_logout`
and `client_login_ok` name a user and not a connection, so the two sides agree
on every run on which no logout of a user crosses a login of the same user. -/
namespace Pronet.Msg

open Std Library

/-- A logout of `user` that `c2sUser` asked for. -/
def Task.asksLogout (c2sUser user : MsgUser) : Task → Bool
  | .onRecvSession _ srcUser (.clientLogout clientId) => srcUser = c2sUser && clientId = user
  | _ => false

/-- The user that a login asked for by `c2sUser` admits, given the answer of the
check. -/
def Task.admits? (check : Option CheckResult) (c2sUser : MsgUser) : Task → Option MsgUser
  | .onRecvSession _ srcUser (.clientLogin _ clientId _ _ _) =>
      if srcUser = c2sUser then check.map fun result => result.apply clientId else none
  | _ => none

/-- What a message on the link says about the task that sent it. -/
def Task.Announces (check : Option CheckResult) (c2sUser : MsgUser) (task : Task) :
    DownMsg → Prop
  | .clientLoginOk _ clientId => task.admits? check c2sUser = some clientId
  | _ => True

/-- The user a message names can be logged in. -/
def DownMsg.NamesValid : DownMsg → Prop
  | .clientLoginOk _ clientId => clientId.valid = true
  | .clientLoginError _ => True
  | .clientKickout clientId => clientId.valid = true

namespace LoginSystem

/-- If the link is still there after a task, its sub users have changed as the
messages say, but for a logout the link asked for. -/
structure TaskFrame (link : Session) (s next : Server) (check : Option CheckResult) (task : Task)
    (msgs : List DownMsg) : Prop where
  named : ∀ msg ∈ msgs, msg.NamesValid
  linked : ∀ ctx', linkCtx? link next = some ctx' → ∃ ctx, linkCtx? link s = some ctx ∧
    ctx'.baseUser = ctx.baseUser ∧ ctx'.isC2s = ctx.isC2s ∧
    (∀ user, user ∈ ctx'.subUsers ↔ settled user (decide (user ∈ ctx.subUsers)) msgs = true ∧
      task.asksLogout ctx.baseUser user = false) ∧
    ∀ msg ∈ msgs, task.Announces check ctx.baseUser msg

theorem LinkFrame.taskFrame {link : Session} {s next : Server} {check : Option CheckResult}
    {task : Task} {msgs : List DownMsg} (h : LinkFrame link s next msgs)
    (htask : ∀ c2sUser user, task.asksLogout c2sUser user = false)
    (hmsgs : ∀ msg ∈ msgs, msg.NamesValid ∧ ∀ ctx, linkCtx? link s = some ctx →
      task.Announces check ctx.baseUser msg) :
    TaskFrame link s next check task msgs := by
  refine ⟨fun msg hmsg => (hmsgs msg hmsg).1, fun ctx' hctx' => ?_⟩
  obtain ⟨ctx, hctx, hbase, hc2s, hsub⟩ := h ctx' hctx'
  refine ⟨ctx, hctx, hbase, hc2s, fun user => ?_, fun msg hmsg => (hmsgs msg hmsg).2 ctx hctx⟩
  rw [hsub user, htask ctx.baseUser user]
  simp

theorem taskFrame_clientLogin {link : Session} {s : Server} (h : s.TableInv) {session : Session}
    {c2sUser clientId : MsgUser} {clientIndex : Nat} {publicIp : String} {hash : List Char}
    {nonce : Nat} {check : Option CheckResult} {r : Server × List ServerCall}
    (hr : s.processMsgClientLogin session c2sUser clientIndex clientId publicIp hash check =
      some r) :
    TaskFrame link s r.1 check
      (.onRecvSession session c2sUser (.clientLogin clientIndex clientId publicIp hash nonce))
      (linkMsgs link r.2) := by
  have hrefused : ∀ r', some (s, [ServerCall.sendToC2s session c2sUser
      (.clientLoginError clientIndex)]) = some r' → TaskFrame link s r'.1 check
        (.onRecvSession session c2sUser (.clientLogin clientIndex clientId publicIp hash nonce))
        (linkMsgs link r'.2) := by
    intro r' hr'
    cases Option.some.inj hr'
    apply LinkFrame.taskFrame
    · by_cases hs : session = link
      · intro ctx' hctx'
        exact ⟨ctx', hctx', rfl, rfl, fun user => by
          simp [linkMsgs, ServerCall.linkMsg?, hs, settle]⟩
      · simp only [linkMsgs, ServerCall.linkMsg?, hs, if_false, List.filterMap_cons,
          List.filterMap_nil]
        exact LinkFrame.rfl
    · intros; rfl
    · intro msg hmsg
      by_cases hs : session = link
      · simp only [linkMsgs, ServerCall.linkMsg?, hs, if_true, List.filterMap_cons,
          List.filterMap_nil, List.mem_singleton] at hmsg
        rw [hmsg]
        exact ⟨trivial, fun _ _ => trivial⟩
      · simp [linkMsgs, ServerCall.linkMsg?, hs] at hmsg
  have hignored : ∀ r', some (s, []) = some r' → TaskFrame link s r'.1 check
        (.onRecvSession session c2sUser (.clientLogin clientIndex clientId publicIp hash nonce))
        (linkMsgs link r'.2) := by
    intro r' hr'
    cases Option.some.inj hr'
    exact LinkFrame.rfl.taskFrame (fun _ _ => rfl) (by simp)
  unfold Server.processMsgClientLogin at hr
  split at hr
  · exact hignored r hr
  · split at hr
    · exact hignored r hr
    · cases check with
      | none => exact hrefused r hr
      | some result =>
        dsimp only at hr
        split at hr
        · exact hrefused r hr
        · have hadd : LinkFrame link s r.1 (linkMsgs link r.2) ∧ _ := linkFrame_addSubUser h hr
          obtain ⟨hframe, hmsgs⟩ := hadd
          refine hframe.taskFrame (fun _ _ => rfl) fun msg hmsg => ?_
          obtain ⟨hvalid, rfl | ⟨rfl, hbase⟩⟩ := hmsgs msg hmsg
          · exact ⟨hvalid, fun _ _ => trivial⟩
          · exact ⟨hvalid, fun ctx hctx => by simp [Task.Announces, Task.admits?, hbase ctx hctx]⟩

/-- The environment answers a task with a fresh context and a fresh session. -/
def FreshInput (link : Session) (s : Server) (input : TaskInput) : Prop :=
  input.ptr ∉ s.heap ∧
    ∀ session ∈ input.newSession, session ∉ s.session2Ctx ∧ session ≠ link

/-- A task keeps the tables and acts on the link as it announces. -/
theorem taskFrame_runTask {link : Session} {s : Server} (h : s.TableInv) {input : TaskInput}
    (hfresh : FreshInput link s input) {task : Task} {r : Server × List ServerCall}
    (hr : s.runTask input task = some r) :
    r.1.TableInv ∧ TaskFrame link s r.1 input.check task (linkMsgs link r.2) := by
  have hignored : ∀ r', some (s, []) = some r' →
      (∀ c2sUser user, task.asksLogout c2sUser user = false) →
      r'.1.TableInv ∧ TaskFrame link s r'.1 input.check task (linkMsgs link r'.2) := by
    intro r' hr' htask
    cases Option.some.inj hr'
    exact ⟨h, LinkFrame.rfl.taskFrame htask (by simp)⟩
  cases task with
  | onAcceptSession sessionType baseUser remoteIp =>
    simp only [Server.runTask, Server.asyncOnAcceptSession] at hr
    split at hr
    · exact hignored r hr fun _ _ => rfl
    · split at hr
      · split at hr
        · exact hignored r hr fun _ _ => rfl
        · rename_i result hcheck hrange
          have hptr := ExtTreeMap.getElem?_eq_none hfresh.1
          have htables := h.addBaseUser hptr
            (fun session hs => ExtTreeMap.getElem?_eq_none (hfresh.2 session hs).1)
            (result.apply baseUser) remoteIp result.appData result.isC2s
          obtain ⟨r', hr', hinv⟩ := htables
          cases Option.some.inj (hr.symm.trans hr')
          have hadd : LinkFrame link s r.1 (linkMsgs link r.2) ∧ _ :=
            linkFrame_addBaseUser h hptr (fun session hs => (hfresh.2 session hs).2) hr
          refine ⟨hinv, hadd.1.taskFrame (fun _ _ => rfl) fun msg hmsg => ?_⟩
          obtain ⟨rfl, hvalid⟩ := hadd.2 msg hmsg
          exact ⟨hvalid, fun _ _ => trivial⟩
      · exact hignored r hr fun _ _ => rfl
  | onRecvSession session c2sUser msg =>
    cases msg with
    | clientLogin clientIndex clientId publicIp hash nonce =>
      exact ⟨h.processMsgClientLogin hr, taskFrame_clientLogin h hr⟩
    | clientLogout clientId =>
      obtain ⟨r', hr', hinv⟩ := h.processMsgClientLogout c2sUser clientId
      cases Option.some.inj (hr.symm.trans hr')
      have hlogout : linkMsgs link r.2 = [] ∧ _ := linkCtx?_processMsgClientLogout h hr
      refine ⟨hinv, by simp [hlogout.1], fun ctx' hctx' => ?_⟩
      obtain ⟨ctx, hctx, hbase, hc2s, hsub⟩ := hlogout.2 ctx' hctx'
      refine ⟨ctx, hctx, hbase, hc2s, fun user => ?_, by simp [hlogout.1]⟩
      rw [hsub, hlogout.1, settled_nil, decide_eq_true_iff]
      simp [Task.asksLogout]
  | kickoutUser user =>
    obtain ⟨r', hr', hinv⟩ := h.asyncKickoutUser user
    cases Option.some.inj (hr.symm.trans hr')
    have hkick : LinkFrame link s r.1 (linkMsgs link r.2) ∧ _ := linkFrame_asyncKickoutUser h hr
    refine ⟨hinv, hkick.1.taskFrame (fun _ _ => rfl) fun msg hmsg => ?_⟩
    obtain ⟨rfl, hvalid⟩ := hkick.2 msg hmsg
    exact ⟨hvalid, fun _ _ => trivial⟩
  | onCloseSession session errorCode sslCode =>
    obtain ⟨r', hr', hinv⟩ := h.asyncOnCloseSession session errorCode sslCode
    cases Option.some.inj (hr.symm.trans hr')
    have hclose : LinkFrame link s r.1 (linkMsgs link r.2) ∧ _ :=
      linkFrame_asyncOnCloseSession h hr
    exact ⟨hinv, hclose.1.taskFrame (fun _ _ => rfl) (by simp [hclose.2])⟩

/-- A logout of the user is on its way up or waits in the task queue. -/
def leaving (w : LoginSystem) (user : MsgUser) : Bool :=
  w.task.any (Task.asksLogout w.c2s.c2sUser user) || decide (.clientLogout user ∈ w.up)

end LoginSystem

namespace C2s

/-- The node is logged in and all its users can be reported. -/
structure Sound (s : C2s) : Prop where
  msgClient : s.msgClient = true
  session_valid : ∀ (session : Session) (user : MsgUser),
    s.session2User[session]? = some user → user.valid = true
  user_valid : ∀ user ∈ s.user2Session, user.valid = true

/-- For every user, a step that consumes `consumed` either connects it as these
messages say and reports nothing about it, or disconnects and reports it while no
login for it is left in `rest`. -/
structure Follows (s : C2s) (r : C2s × List C2sCall) (consumed rest : List DownMsg) : Prop where
  sound : r.1.Sound
  c2sUser : r.1.c2sUser = s.c2sUser
  connected : ∀ user,
    (.clientLogout user ∉ r.2.filterMap C2sCall.upMsg? ∧
      (user ∈ r.1.user2Session ↔
        settled user (decide (user ∈ s.user2Session)) consumed = true)) ∨
    (.clientLogout user ∈ r.2.filterMap C2sCall.upMsg? ∧ user ∉ r.1.user2Session ∧
      arriving user rest = false)

variable {s : C2s} {consumed rest : List DownMsg}

theorem Follows.of_same (h : s.Sound) {r : C2s × List C2sCall} (hclient : r.1.msgClient = s.msgClient)
    (hself : r.1.c2sUser = s.c2sUser) (hsessions : r.1.session2User = s.session2User)
    (husers : r.1.user2Session = s.user2Session)
    (hquiet : ∀ user connected, settled user connected consumed = connected)
    (hup : ∀ user, .clientLogout user ∉ r.2.filterMap C2sCall.upMsg?) :
    s.Follows r consumed rest := by
  constructor
  · exact ⟨hclient.trans h.msgClient, hsessions ▸ h.session_valid, husers ▸ h.user_valid⟩
  · exact hself
  · intro user
    refine .inl ⟨hup user, ?_⟩
    rw [husers, hquiet, decide_eq_true_iff]

theorem Follows.acceptSession (h : s.Sound) (info : AcceptInfo) (timerId : Nat) (sent : Bool) :
    s.Follows (s.acceptSession info timerId sent) [] rest := by
  unfold C2s.acceptSession
  split
  · exact .of_same h rfl rfl rfl rfl (fun _ _ => rfl) (by simp [closeInfo, C2sCall.upMsg?])
  · split
    · exact .of_same h rfl rfl rfl rfl (fun _ _ => rfl) (by simp [closeInfo, C2sCall.upMsg?])
    · exact .of_same h rfl rfl rfl rfl (fun _ _ => rfl) (by simp [C2sCall.upMsg?])

theorem Follows.dropPending (h : s.Sound) (timerId : Nat)
    (hquiet : ∀ user connected, settled user connected consumed = connected) :
    s.Follows (s.dropPending timerId) consumed rest := by
  unfold C2s.dropPending
  split
  · exact .of_same h rfl rfl rfl rfl hquiet (by simp)
  · exact .of_same h rfl rfl rfl rfl hquiet (by simp [closeInfo, C2sCall.upMsg?])

theorem Sound.dropUser (h : s.Sound) (user : MsgUser) (session : Session) :
    (s.dropUser user session).Sound := by
  constructor
  · exact h.msgClient
  · intro other owner howner
    simp only [C2s.dropUser, ExtTreeMap.getElem?_erase] at howner
    split at howner
    · cases howner
    · exact h.session_valid other owner howner
  · intro other hother
    exact h.user_valid other (ExtTreeMap.mem_of_mem_erase hother)

theorem mem_dropUser {user other : MsgUser} {session : Session} :
    other ∈ (s.dropUser user session).user2Session ↔ user ≠ other ∧ other ∈ s.user2Session := by
  rw [C2s.dropUser, ExtTreeMap.mem_erase, ne_eq, Std.compare_eq_iff_eq]

/-- Closing a downlink session disconnects its user and reports it. -/
theorem Follows.dropUser (h : s.Sound) {user : MsgUser} {session : Session} {calls : List C2sCall}
    (hvalid : user.valid = true) (harriving : arriving user rest = false)
    (hcalls : calls.filterMap C2sCall.upMsg? = []) :
    s.Follows (s.dropUser user session,
      (if s.msgClient then reportLogout user else []) ++ calls) [] rest := by
  have hup : ((if s.msgClient then reportLogout user else []) ++ calls).filterMap C2sCall.upMsg? =
      [.clientLogout user] := by
    simp [h.msgClient, reportLogout, hvalid, hcalls, C2sCall.upMsg?]
  constructor
  · exact h.dropUser user session
  · rfl
  · intro other
    rw [hup]
    by_cases heq : user = other
    · subst heq
      exact .inr ⟨by simp, by simp [mem_dropUser], harriving⟩
    · refine .inl ⟨by simpa using Ne.symm heq, ?_⟩
      rw [mem_dropUser, settled_nil, decide_eq_true_iff]
      exact and_iff_right heq

theorem Follows.onCloseSession (h : s.Sound) (session : Session) (errorCode sslCode : Int)
    (hguard : ∀ user ∈ s.session2User[session]?, arriving user rest = false) :
    s.Follows (s.onCloseSession session errorCode sslCode) [] rest := by
  unfold C2s.onCloseSession
  split
  · exact .of_same h rfl rfl rfl rfl (fun _ _ => rfl) (by simp)
  · rename_i user huser
    exact .dropUser h (h.session_valid session user huser) (hguard user huser) rfl

theorem Follows.asyncKickoutUser (h : s.Sound) (user : MsgUser)
    (hguard : user ∈ s.user2Session → arriving user rest = false) :
    s.Follows (s.asyncKickoutUser user) [] rest := by
  unfold C2s.asyncKickoutUser
  split
  · exact .of_same h rfl rfl rfl rfl (fun _ _ => rfl) (by simp)
  · rename_i session hsession
    have hin : user ∈ s.user2Session := by
      simp [ExtTreeMap.mem_iff_isSome_getElem?, hsession]
    exact .dropUser h (h.user_valid user hin) (hguard hin) rfl

theorem Follows.processMsgClientKickout (h : s.Sound) {user : MsgUser}
    (hvalid : user.valid = true) :
    s.Follows (s.processMsgClientKickout user) [.clientKickout user] rest := by
  unfold C2s.processMsgClientKickout
  rw [if_neg (by simp [hvalid, h.msgClient])]
  split
  · rename_i hnone
    have hnot : user ∉ s.user2Session := by
      rw [ExtTreeMap.mem_iff_isSome_getElem?, hnone]
      simp
    refine ⟨h, rfl, fun other => .inl ⟨by simp, ?_⟩⟩
    by_cases heq : user = other
    · subst heq
      simp [settle, hnot]
    · simp [settle, heq]
  · rename_i session hsession
    refine ⟨h.dropUser user session, rfl, fun other => .inl ⟨by simp [C2sCall.upMsg?], ?_⟩⟩
    rw [mem_dropUser]
    by_cases heq : user = other
    · simp [settle, heq]
    · simp [settle, heq]

/-- A login that the node binds to a session connects the user; one that it
cannot bind is given back, which is right only if the user is not connected. -/
theorem Follows.processMsgClientLoginOk (h : s.Sound) {clientIndex : Nat} {user : MsgUser}
    {created : Option (Session × String)} {sent : Bool} (hvalid : user.valid = true)
    (hguard : (clientIndex ∈ s.timerId2Info ∧ created.isSome = true) ∧ sent = true ∨
      arriving user rest = false ∧
        (user ∉ s.user2Session ∨ clientIndex ∈ s.timerId2Info ∧ created.isSome = true)) :
    s.Follows (s.processMsgClientLoginOk clientIndex user created sent)
      [.clientLoginOk clientIndex user] rest := by
  have hgiveBack : ∀ (next : C2s) (calls : List C2sCall),
      next.Sound → next.c2sUser = s.c2sUser →
      calls.filterMap C2sCall.upMsg? = [.clientLogout user] → arriving user rest = false →
      user ∉ next.user2Session →
      (∀ other, user ≠ other → (other ∈ next.user2Session ↔ other ∈ s.user2Session)) →
      s.Follows (next, calls) [.clientLoginOk clientIndex user] rest := by
    intro next calls hsound hself hup harriving hnot hothers
    refine ⟨hsound, hself, fun other => ?_⟩
    rw [hup]
    by_cases heq : user = other
    · subst heq
      exact .inr ⟨by simp, hnot, harriving⟩
    · refine .inl ⟨by simpa using Ne.symm heq, ?_⟩
      rw [hothers other heq]
      simp [settle, heq]
  unfold C2s.processMsgClientLoginOk
  rw [if_neg (by simp [hvalid, h.msgClient])]
  split
  · rename_i hnone
    have hpending : clientIndex ∉ s.timerId2Info := by
      simp [ExtTreeMap.mem_iff_isSome_getElem?, hnone]
    obtain ⟨harriving, hnot⟩ : arriving user rest = false ∧ user ∉ s.user2Session := by
      tauto
    exact hgiveBack _ _ h rfl (by simp [reportLogout, hvalid, C2sCall.upMsg?]) harriving hnot
      fun _ _ => Iff.rfl
  · rename_i info hinfo
    cases created with
    | none =>
      obtain ⟨harriving, hnot⟩ : arriving user rest = false ∧ user ∉ s.user2Session := by
        simpa using hguard
      exact hgiveBack _ _ ⟨h.msgClient, h.session_valid, h.user_valid⟩ rfl
        (by simp [reportLogout, hvalid, closeInfo, C2sCall.upMsg?, List.filterMap_cons])
        harriving hnot
        fun _ _ => Iff.rfl
    | some pair =>
      obtain ⟨newSession, publicIp⟩ := pair
      dsimp only
      have hfreed : ∀ (session : Session) (owner : MsgUser),
          (s.user2Session[user]?.elim s.session2User s.session2User.erase)[session]? = some owner →
          owner.valid = true := by
        intro session owner howner
        cases hold : s.user2Session[user]? with
        | none =>
          rw [hold] at howner
          exact h.session_valid session owner howner
        | some oldSession =>
          simp only [hold, Option.elim_some, ExtTreeMap.getElem?_erase] at howner
          split at howner
          · cases howner
          · exact h.session_valid session owner howner
      split
      · rename_i hsent
        refine ⟨⟨h.msgClient, ?_, ?_⟩, rfl, fun other => .inl ⟨?_, ?_⟩⟩
        · intro session owner howner
          simp only [ExtTreeMap.getElem?_insert, Std.compare_eq_iff_eq] at howner
          split at howner
          · rw [← Option.some.inj howner]
            exact hvalid
          · exact hfreed session owner howner
        · intro other hother
          simp only [ExtTreeMap.mem_insert, ExtTreeMap.mem_erase, Std.compare_eq_iff_eq] at hother
          rcases hother with rfl | hother
          · exact hvalid
          · exact h.user_valid other hother.2
        · cases hold : s.user2Session[user]? <;> simp [C2sCall.upMsg?, List.filterMap_cons]
        · simp only [ExtTreeMap.mem_insert, ExtTreeMap.mem_erase, ne_eq, Std.compare_eq_iff_eq,
            settled_cons, settled_nil, settle]
          by_cases heq : user = other
          · simp [heq]
          · simp [heq]
      · rename_i hsent
        have harriving : arriving user rest = false := by
          simp [hsent] at hguard
          exact hguard.1
        apply hgiveBack
        · refine ⟨h.msgClient, hfreed, fun other hother => ?_⟩
          exact h.user_valid other (ExtTreeMap.mem_of_mem_erase hother)
        · rfl
        · cases hold : s.user2Session[user]? <;>
            simp [C2sCall.upMsg?, List.filterMap_cons, reportLogout, hvalid]
        · exact harriving
        · simp
        · intro other heq
          simp [ExtTreeMap.mem_erase, heq]

end C2s

namespace LoginSystem

/-- What holds between the c2s node and the context of its link. -/
structure Linked (w : LoginSystem) (ctx : LinkCtx) : Prop where
  base : ctx.baseUser = w.c2s.c2sUser
  isC2s : ctx.isC2s = true
  of_leaving : ∀ user, w.leaving user = true →
    user ∉ w.c2s.user2Session ∧ arriving user w.down = false
  of_not_leaving : ∀ user, w.leaving user = false →
    (user ∈ ctx.subUsers ↔ settled user (decide (user ∈ w.c2s.user2Session)) w.down = true)

structure LoginInv (link : Session) (w : LoginSystem) : Prop where
  tables : w.server.TableInv
  c2s : w.c2s.Sound
  classId : w.c2s.c2sUser.classId = serverCid
  down_valid : ∀ msg ∈ w.down, msg.NamesValid
  linked : ∀ ctx, linkCtx? link w.server = some ctx → w.Linked ctx

/-- A step of the c2s node that follows the messages keeps the agreement. -/
theorem LoginInv.withC2s {link : Session} {w : LoginSystem} (h : w.LoginInv link)
    {consumed rest : List DownMsg} (hdown : w.down = consumed ++ rest)
    {r : C2s × List C2sCall} (hr : w.c2s.Follows r consumed rest) :
    ({ w with down := rest }.withC2s r).LoginInv link := by
  have hleaving : ∀ user, ({ w with down := rest }.withC2s r).leaving user =
      (w.leaving user || decide (.clientLogout user ∈ r.2.filterMap C2sCall.upMsg?)) := by
    intro user
    simp [leaving, LoginSystem.withC2s, hr.c2sUser, Bool.or_assoc]
  refine ⟨h.tables, hr.sound, hr.c2sUser ▸ h.classId, fun msg hmsg => ?_, fun ctx hctx => ?_⟩
  · apply h.down_valid
    rw [hdown]
    exact List.mem_append_right consumed hmsg
  have hlinked := h.linked ctx hctx
  constructor
  · exact hlinked.base.trans hr.c2sUser.symm
  · exact hlinked.isC2s
  · intro user huser
    rcases hr.connected user with ⟨hup, hconnected⟩ | ⟨-, hnot, harriving⟩
    · rw [hleaving, decide_eq_false hup, Bool.or_false] at huser
      obtain ⟨hnot, harriving⟩ := hlinked.of_leaving user huser
      rw [hdown, arriving_append, Bool.or_eq_false_iff] at harriving
      refine ⟨fun hin => ?_, harriving.2⟩
      rw [LoginSystem.withC2s, hconnected, decide_eq_false hnot,
        settled_of_not_arriving harriving.1] at hin
      cases hin
    · exact ⟨hnot, harriving⟩
  · intro user huser
    rw [hleaving, Bool.or_eq_false_iff, decide_eq_false_iff_not] at huser
    rcases hr.connected user with ⟨-, hconnected⟩ | ⟨hup, -⟩
    · have hdecide : decide (user ∈ r.1.user2Session) =
          settled user (decide (user ∈ w.c2s.user2Session)) consumed := by
        rw [Bool.eq_iff_iff, decide_eq_true_iff]
        exact hconnected
      rw [hlinked.of_not_leaving user huser.1, hdown, settled_append, ← hdecide]
      rfl
    · exact absurd hup huser.2

/-- A task of the server keeps the agreement, unless it admits a user whose
logout is still on its way. -/
theorem LoginInv.serverTask {link : Session} {w : LoginSystem} (h : w.LoginInv link)
    {input : TaskInput} (hfresh : FreshInput link w.server input) {task : Task}
    {rest : List Task} (htask : w.task = task :: rest)
    (hguard : ∀ user ∈ task.admits? input.check w.c2s.c2sUser,
      { w with task := rest }.leaving user = false) {r : Server × List ServerCall}
    (hr : w.server.runTask input task = some r) :
    ({ w with task := rest }.withServer link r).LoginInv link := by
  obtain ⟨hinv, hframe⟩ := taskFrame_runTask h.tables hfresh hr
  have hleaving : ∀ user, w.leaving user = (task.asksLogout w.c2s.c2sUser user ||
      ({ w with task := rest }.withServer link r).leaving user) := by
    intro user
    rw [leaving, htask, List.any_cons, Bool.or_assoc]
    rfl
  have hdown : ({ w with task := rest }.withServer link r).down =
      w.down ++ linkMsgs link r.2 := rfl
  refine ⟨hinv, h.c2s, h.classId, fun msg hmsg => ?_, fun ctx' hctx' => ?_⟩
  · rw [hdown] at hmsg
    exact (List.mem_append.mp hmsg).elim (h.down_valid msg) (hframe.named msg)
  obtain ⟨ctx, hctx, hbase, hc2s, hsub, hmsgs⟩ := hframe.linked ctx' hctx'
  have hlinked := h.linked ctx hctx
  rw [hlinked.base] at hsub hmsgs
  have hquiet : ∀ user, task.admits? input.check w.c2s.c2sUser ≠ some user →
      arriving user (linkMsgs link r.2) = false := by
    intro user hne
    rw [arriving, List.any_eq_false]
    intro msg hmsg
    have hannounced := hmsgs msg hmsg
    cases msg with
    | clientLoginOk clientIndex clientId =>
      simp only [decide_eq_true_eq]
      rintro rfl
      exact hne hannounced
    | clientLoginError clientIndex => simp
    | clientKickout clientId => simp
  constructor
  · exact hbase.trans hlinked.base
  · exact hc2s.trans hlinked.isC2s
  · intro user huser
    obtain ⟨hnot, harriving⟩ := hlinked.of_leaving user (by rw [hleaving, huser, Bool.or_true])
    refine ⟨hnot, ?_⟩
    rw [hdown, arriving_append, harriving, Bool.false_or]
    apply hquiet
    intro hadmits
    have hrest : { w with task := rest }.leaving user = true := huser
    rw [hguard user hadmits] at hrest
    cases hrest
  · intro user huser
    rw [hsub, hdown, settled_append]
    change _ ↔ settled user (settled user (decide (user ∈ w.c2s.user2Session)) w.down)
      (linkMsgs link r.2) = true
    cases hlogout : task.asksLogout w.c2s.c2sUser user with
    | true =>
      have hadmits : task.admits? input.check w.c2s.c2sUser ≠ some user := by
        unfold Task.asksLogout at hlogout
        split at hlogout
        · simp [Task.admits?]
        · cases hlogout
      obtain ⟨hnot, harriving⟩ := hlinked.of_leaving user (by rw [hleaving, hlogout, Bool.true_or])
      simp only [Bool.true_eq_false, and_false, false_iff, Bool.not_eq_true]
      rw [decide_eq_false hnot, settled_of_not_arriving harriving,
        settled_of_not_arriving (hquiet user hadmits)]
    | false =>
      have hold := hlinked.of_not_leaving user (by rw [hleaving, hlogout, huser]; rfl)
      have hdecide : decide (user ∈ ctx.subUsers) =
          settled user (decide (user ∈ w.c2s.user2Session)) w.down := by
        rw [Bool.eq_iff_iff, decide_eq_true_iff]
        exact hold
      rw [hdecide]
      exact and_iff_left rfl

/-- Moving messages and queueing tasks changes nothing but who is leaving. -/
theorem LoginInv.requeue {link : Session} {w : LoginSystem} (h : w.LoginInv link)
    (task : List Task) (up : List UpMsg)
    (hleaving : ∀ ctx, linkCtx? link w.server = some ctx →
      ∀ user, { w with task, up }.leaving user = w.leaving user) :
    { w with task, up }.LoginInv link := by
  refine ⟨h.tables, h.c2s, h.classId, h.down_valid, fun ctx hctx => ?_⟩
  have hlinked := h.linked ctx hctx
  refine ⟨hlinked.base, hlinked.isC2s, fun user huser => ?_, fun user huser => ?_⟩
  · exact hlinked.of_leaving user (hleaving ctx hctx user ▸ huser)
  · exact hlinked.of_not_leaving user (hleaving ctx hctx user ▸ huser)

theorem LoginInv.queueTask {link : Session} {w : LoginSystem} (h : w.LoginInv link) {task : Task}
    (htask : ∀ c2sUser user, task.asksLogout c2sUser user = false) :
    { w with task := w.task ++ [task] }.LoginInv link := by
  apply h.requeue
  intro ctx _ user
  simp [leaving, htask]

/-- While the link is there its logouts are queued and never dropped. -/
theorem LoginInv.serverReceive {link : Session} {w next : LoginSystem} (h : w.LoginInv link)
    {msg : UpMsg} {rest : List UpMsg} (hup : w.up = msg :: rest)
    (hnext : { w with up := rest }.enqueue link w.c2s.c2sUser msg = some next) :
    next.LoginInv link := by
  obtain ⟨admitted, hadmitted, hnext⟩ := Option.bind_eq_some_iff.mp hnext
  cases Option.some.inj hnext
  cases admitted with
  | true =>
    rw [if_pos rfl]
    apply h.requeue
    intro ctx _ user
    simp only [leaving, hup, List.any_append, List.any_cons, List.any_nil, Bool.or_false,
      List.mem_cons, Bool.or_assoc]
    congr 1
    cases msg with
    | clientLogin clientIndex clientId publicIp hash nonce => simp [Task.asksLogout]
    | clientLogout clientId => simp [Task.asksLogout, eq_comm]
  | false =>
    rw [if_neg (by simp)]
    apply h.requeue
    intro ctx hctx user
    obtain ⟨ptr, hs, hptr⟩ := linkCtx?_eq_some.mp hctx
    have hlinked := h.linked ctx hctx
    cases msg with
    | clientLogin clientIndex clientId publicIp hash nonce => simp [leaving, hup]
    | clientLogout clientId =>
      simp [Server.admitsC2sMsg, hs, hptr, hlinked.base, hlinked.isC2s, h.classId] at hadmitted

/-- No other session speaks for the user of the link. -/
theorem LoginInv.serverReceiveOther {link : Session} {w next : LoginSystem}
    (h : w.LoginInv link) {session : Session} (hne : session ≠ link) {srcUser : MsgUser}
    {msg : UpMsg} (hnext : w.enqueue session srcUser msg = some next) : next.LoginInv link := by
  obtain ⟨admitted, hadmitted, hnext⟩ := Option.bind_eq_some_iff.mp hnext
  cases Option.some.inj hnext
  cases admitted with
  | false => exact h
  | true =>
    rw [if_pos rfl]
    apply h.requeue
    intro ctx hctx user
    have hother : srcUser ≠ w.c2s.c2sUser := by
      intro heq
      unfold Server.admitsC2sMsg at hadmitted
      split at hadmitted
      · rename_i ptr hs
        obtain ⟨dtx, hdtx, hsession⟩ := h.tables.session_ctx session ptr hs
        simp only [hdtx, Option.bind_eq_bind, Option.bind_some] at hadmitted
        split at hadmitted
        · cases hadmitted
        · rename_i hadmits
          simp only [ne_eq, Bool.or_eq_true, Bool.not_eq_eq_eq_not, Bool.not_true, decide_eq_true_eq,
            not_or, Decidable.not_not] at hadmits
          obtain ⟨q, hlink, hq⟩ := linkCtx?_eq_some.mp hctx
          have hbase := (h.linked ctx hctx).base
          obtain rfl := h.tables.ptr_unique hdtx hq (LinkCtx.mem_users.mpr (.inl hadmits.2))
            (LinkCtx.mem_users.mpr (.inl (heq.trans hbase.symm)))
          rw [hdtx] at hq
          apply hne
          rw [← hsession, Option.some.inj hq]
          exact session_of_linkCtx? h.tables hctx
      · cases hadmitted
    cases msg with
    | clientLogin clientIndex clientId publicIp hash nonce => simp [leaving, Task.asksLogout]
    | clientLogout clientId => simp [leaving, Task.asksLogout, hother]

/-- No login and logout of one user cross at this event: the node does not log
out a user for whom a login is on its way down, a login it cannot use does not
name a connected user, and the server does not admit a user whose logout is on
its way up. -/
def uncrossed (w : LoginSystem) : LoginEvent → Bool
  | .c2sClose session _ _ =>
      (w.c2s.session2User[session]?).all fun user => !arriving user w.down
  | .c2sKickout user => user ∉ w.c2s.user2Session || !arriving user w.down
  | .c2sReceive created sent =>
      match w.down with
      | .clientLoginOk clientIndex user :: rest =>
          let usable := clientIndex ∈ w.c2s.timerId2Info && created.isSome
          usable && sent || !arriving user rest && (user ∉ w.c2s.user2Session || usable)
      | _ => true
  | .serverTask input =>
      match w.task with
      | task :: rest =>
          (task.admits? input.check w.c2s.c2sUser).all fun user =>
            !{ w with task := rest }.leaving user
      | [] => true
  | _ => true

/-- The answers of the environment are fresh. -/
def FreshEvent (link : Session) (w : LoginSystem) : LoginEvent → Prop
  | .serverTask input => FreshInput link w.server input
  | _ => True

instance (link : Session) (s : Server) (input : TaskInput) : Decidable (FreshInput link s input) :=
  inferInstanceAs (Decidable (input.ptr ∉ s.heap ∧
    ∀ session ∈ input.newSession, session ∉ s.session2Ctx ∧ session ≠ link))

instance (link : Session) (w : LoginSystem) (event : LoginEvent) :
    Decidable (w.FreshEvent link event) :=
  match event with
  | .serverTask input => inferInstanceAs (Decidable (FreshInput link w.server input))
  | .c2sAccept .. | .c2sTimer .. | .c2sClose .. | .c2sKickout .. | .c2sReceive .. |
    .serverReceive | .serverReceiveOther .. | .serverAccept .. | .serverKickout .. |
    .serverClose .. => isTrue trivial

/-- Both sides right after the c2s node has logged in on `link`. -/
structure Joined (link : Session) (w : LoginSystem) : Prop where
  tables : w.server.TableInv
  linked : ∃ ctx, linkCtx? link w.server = some ctx ∧ ctx.baseUser = w.c2s.c2sUser ∧
    ctx.subUsers = ∅ ∧ ctx.isC2s = true
  classId : w.c2s.c2sUser.classId = serverCid
  msgClient : w.c2s.msgClient = true
  timerId2Info : w.c2s.timerId2Info = ∅
  session2User : w.c2s.session2User = ∅
  user2Session : w.c2s.user2Session = ∅
  quiescent : w.Quiescent

theorem Joined.loginInv {link : Session} {w : LoginSystem} (h : w.Joined link) :
    w.LoginInv link := by
  obtain ⟨hup, hdown, htask⟩ := h.quiescent
  obtain ⟨ctx, hctx, hbase, hsub, hc2s⟩ := h.linked
  refine ⟨h.tables, ⟨h.msgClient, ?_, ?_⟩, h.classId, by simp [hdown], fun dtx hdtx => ?_⟩
  · simp [h.session2User]
  · simp [h.user2Session]
  · cases Option.some.inj (hctx.symm.trans hdtx)
    refine ⟨hbase, hc2s, fun user huser => ?_, fun user _ => ?_⟩
    · simp [leaving, hup, htask] at huser
    · simp [hsub, hdown, h.user2Session]

theorem LoginInv.step {link : Session} {w next : LoginSystem} (h : w.LoginInv link)
    {event : LoginEvent} (hfresh : w.FreshEvent link event) (hguard : w.uncrossed event = true)
    (hstep : w.step link event = some next) : next.LoginInv link := by
  cases event with
  | c2sAccept info timerId sent =>
    cases Option.some.inj hstep
    exact h.withC2s rfl (.acceptSession h.c2s info timerId sent)
  | c2sTimer timerId =>
    cases Option.some.inj hstep
    apply h.withC2s (List.nil_append _).symm
    unfold C2s.onTimer
    split
    · exact .of_same h.c2s rfl rfl rfl rfl (fun _ _ => rfl) (by simp)
    · exact .dropPending h.c2s timerId fun _ _ => rfl
  | c2sClose session errorCode sslCode =>
    cases Option.some.inj hstep
    apply h.withC2s (List.nil_append _).symm
    apply C2s.Follows.onCloseSession h.c2s
    simpa [uncrossed, Option.all_eq_true] using hguard
  | c2sKickout user =>
    cases Option.some.inj hstep
    apply h.withC2s (List.nil_append _).symm
    apply C2s.Follows.asyncKickoutUser h.c2s
    simp only [uncrossed, Bool.or_eq_true, decide_eq_true_eq, Bool.not_eq_eq_eq_not,
      Bool.not_true] at hguard
    exact hguard.resolve_left ∘ not_not_intro
  | c2sReceive created sent =>
    simp only [LoginSystem.step] at hstep
    split at hstep
    · cases hstep
    · rename_i msg rest hdown
      cases Option.some.inj hstep
      apply h.withC2s (hdown.trans (List.singleton_append).symm)
      have hvalid := h.down_valid msg (by simp [hdown])
      cases msg with
      | clientLoginOk clientIndex user =>
        apply C2s.Follows.processMsgClientLoginOk h.c2s hvalid
        simpa [uncrossed, hdown] using hguard
      | clientLoginError clientIndex =>
        simp only [C2s.onRecvMsg, C2s.processMsgClientLoginError]
        rw [if_neg (by simp [h.c2s.msgClient])]
        exact .dropPending h.c2s clientIndex fun _ _ => rfl
      | clientKickout user => exact .processMsgClientKickout h.c2s hvalid
  | serverReceive =>
    simp only [LoginSystem.step] at hstep
    split at hstep
    · cases hstep
    · rename_i msg rest hup
      exact h.serverReceive hup hstep
  | serverReceiveOther session srcUser msg =>
    simp only [LoginSystem.step] at hstep
    split at hstep
    · cases hstep
    · rename_i hne
      exact h.serverReceiveOther hne hstep
  | serverAccept sessionType baseUser remoteIp =>
    cases Option.some.inj hstep
    split
    · exact h.queueTask fun _ _ => rfl
    · exact h
  | serverKickout user =>
    cases Option.some.inj hstep
    split
    · exact h.queueTask fun _ _ => rfl
    · exact h
  | serverClose session errorCode sslCode =>
    cases Option.some.inj hstep
    exact h.queueTask fun _ _ => rfl
  | serverTask input =>
    simp only [LoginSystem.step] at hstep
    split at hstep
    · cases hstep
    · rename_i task rest htask
      obtain ⟨r, hr, rfl⟩ := Option.map_eq_some_iff.mp hstep
      refine h.serverTask hfresh htask ?_ hr
      simpa [uncrossed, htask, Option.all_eq_true] using hguard

/-- On every run on which no login and logout of one user cross, whenever nothing
is on its way the c2s node and the server have the same users. -/
theorem agrees_of_uncrossed_run (link : Session) (start final : LoginSystem)
    (events : List LoginEvent) (hjoined : start.Joined link)
    (hguard : Runs.Guarded (step link) (fun w event => w.FreshEvent link event ∧
      w.uncrossed event = true) start events)
    (hrun : Runs.run (step link) start events = some final) (hquiescent : final.Quiescent) :
    final.Agrees link := by
  have hinv : final.LoginInv link :=
    Runs.run_preserves (fun w event next h hg hstep => h.step hg.1 hg.2 hstep) hjoined.loginInv
      hguard hrun
  intro ctx hctx user
  obtain ⟨hup, hdown, htask⟩ := hquiescent
  have hlinked := hinv.linked ctx hctx
  have hleaving : final.leaving user = false := by simp [leaving, hup, htask]
  rw [hlinked.of_not_leaving user hleaving, hdown, settled_nil, decide_eq_true_iff]

/-- A c2s node right after its login on session 10. -/
def joinedNode : LoginSystem where
  server := (Server.init false false).insertLink 10 100 (.ofIds 1 2 1) true
  task := []
  c2s := ⟨true, .ofIds 1 2 1, ∅, ∅, ∅, false, false⟩
  up := []
  down := []

theorem joined_joinedNode : joinedNode.Joined 10 := by
  constructor
  · apply (Server.tableInv_init false false).insertLink
    · decide
    · rfl
    · rfl
    · rfl
  · exact ⟨⟨10, .ofIds 1 2 1, ∅, true⟩, rfl, rfl, rfl, rfl⟩
  · decide
  · rfl
  · rfl
  · rfl
  · rfl
  · exact ⟨rfl, rfl, rfl⟩

/-- A connection of the user 2-7. -/
def connection (sockId : Int) : AcceptInfo :=
  ⟨none, sockId, false, "10.0.0.7", 4000, 1, .tcpClientEx, .ofIds 2 7 0, List.replicate 32 0⟩

/-- `OnCheckUser` grants the id the client asked for. -/
def granted : TaskInput := ⟨some ⟨7, 0, 0, false⟩, none, 200⟩

/-- One connection logs in, and its session is the downlink 50. -/
def firstLogin : List LoginEvent :=
  [.c2sAccept (connection 30) 3 true, .serverReceive, .serverTask granted,
    .c2sReceive (some (50, "10.0.0.7")) true]

/-- The first connection is closed, and after that a second one logs in. -/
def reconnect : List LoginEvent :=
  firstLogin ++ [.c2sClose 50 0 0, .serverReceive, .serverTask granted,
    .c2sAccept (connection 31) 5 true, .serverReceive, .serverTask granted,
    .c2sReceive (some (51, "10.0.0.7")) true]

theorem agrees_of_uncrossed_run_reconnect :
    Runs.Guarded (step 10) (fun w event => w.FreshEvent 10 event ∧ w.uncrossed event = true)
      joinedNode reconnect ∧
    ∃ final, Runs.run (step 10) joinedNode reconnect = some final ∧ final.Agrees 10 ∧
      .ofIds 2 7 0 ∈ final.c2s.user2Session :=
  ⟨by decide, _, rfl, agrees_of_uncrossed_run 10 joinedNode _ reconnect joined_joinedNode
    (by decide) rfl ⟨rfl, rfl, rfl⟩, by decide⟩

/-- The second connection is accepted while the first is still logged in, and the
first is closed before the answer comes: the logout removes the user the answer
has just announced. -/
def crossedReconnect : List LoginEvent :=
  firstLogin ++ [.c2sAccept (connection 31) 5 true, .c2sClose 50 0 0, .serverReceive,
    .serverReceive, .serverTask granted, .serverTask granted,
    .c2sReceive (some (51, "10.0.0.7")) true]

/-- With fresh answers only, a quiescent state can have a user that is connected
at the c2s node and offline at the server. -/
theorem not_agrees_crossedReconnect :
    joinedNode.Joined 10 ∧
    Runs.Guarded (step 10) (FreshEvent 10) joinedNode crossedReconnect ∧
    ∃ final, Runs.run (step 10) joinedNode crossedReconnect = some final ∧ final.Quiescent ∧
      .ofIds 2 7 0 ∈ final.c2s.user2Session ∧ ¬ final.Agrees 10 := by
  refine ⟨joined_joinedNode, by decide, _, rfl, ⟨rfl, rfl, rfl⟩, by decide, fun h => ?_⟩
  have honline := (h _ rfl (.ofIds 2 7 0)).mp (by decide)
  revert honline
  decide

end LoginSystem

end Pronet.Msg
