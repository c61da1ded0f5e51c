import Pronet.Msg.LoginSystem

/-! How the operations of the server act on one link: whatever they do to the
sub users of the link is exactly what the control messages they send on it
announce. A logout that the link itself asked for is the one exception. -/
namespace Pronet.Msg

open Std Library

/-- Whether a user is connected after a control message, given that it was
`connected` before. -/
def settle (user : MsgUser) (connected : Bool) : DownMsg → Bool
  | .clientLoginOk _ clientId => if clientId = user then true else connected
  | .clientLoginError _ => connected
  | .clientKickout clientId => if clientId = user then false else connected

def settled (user : MsgUser) (connected : Bool) (msgs : List DownMsg) : Bool :=
  msgs.foldl (settle user) connected

@[simp] theorem settled_nil (user : MsgUser) (connected : Bool) :
    settled user connected [] = connected := rfl

@[simp] theorem settled_cons (user : MsgUser) (connected : Bool) (msg : DownMsg)
    (msgs : List DownMsg) :
    settled user connected (msg :: msgs) = settled user (settle user connected msg) msgs := rfl

theorem settled_append (user : MsgUser) (connected : Bool) (msgs more : List DownMsg) :
    settled user connected (msgs ++ more) = settled user (settled user connected msgs) more :=
  List.foldl_append

/-- A `client_login_ok` for the user is on its way. -/
def arriving (user : MsgUser) (msgs : List DownMsg) : Bool :=
  msgs.any fun
    | .clientLoginOk _ clientId => clientId = user
    | _ => false

@[simp] theorem arriving_append (user : MsgUser) (msgs more : List DownMsg) :
    arriving user (msgs ++ more) = (arriving user msgs || arriving user more) :=
  List.any_append

/-- Without an arriving login a user that is not connected stays so. -/
theorem settled_of_not_arriving {user : MsgUser} {msgs : List DownMsg}
    (h : arriving user msgs = false) : settled user false msgs = false := by
  induction msgs with
  | nil => rfl
  | cons msg msgs ih =>
    have hcons : arriving user (msg :: msgs) = (arriving user [msg] || arriving user msgs) := by
      simp [arriving]
    rw [hcons, Bool.or_eq_false_iff] at h
    cases msg <;> simp_all [settle, arriving]

def linkMsgs (link : Session) (calls : List ServerCall) : List DownMsg :=
  calls.filterMap (ServerCall.linkMsg? link)

@[simp] theorem linkMsgs_append (link : Session) (calls more : List ServerCall) :
    linkMsgs link (calls ++ more) = linkMsgs link calls ++ linkMsgs link more :=
  List.filterMap_append

@[simp] theorem linkMsgs_closeUsers (link : Session) (users : UserSet) (errorCode sslCode : Int) :
    linkMsgs link (Server.closeUsers users errorCode sslCode) = [] := by
  simp [linkMsgs, Server.closeUsers, ServerCall.linkMsg?]

@[simp] theorem linkMsgs_deleteSession (link : Session) (session : Option Session) :
    linkMsgs link (Server.deleteSession session) = [] := by
  simp [linkMsgs, Server.deleteSession, ServerCall.linkMsg?]

namespace LoginSystem

theorem linkCtx?_eq_some {link : Session} {s : Server} {ctx : LinkCtx} :
    linkCtx? link s = some ctx ↔
      ∃ ptr : CtxPtr, s.session2Ctx[link]? = some ptr ∧ s.heap[ptr]? = some ctx :=
  Option.bind_eq_some_iff

theorem session_of_linkCtx? {link : Session} {s : Server} {ctx : LinkCtx} (h : s.TableInv)
    (hctx : linkCtx? link s = some ctx) : ctx.session = link := by
  obtain ⟨ptr, hs, hptr⟩ := linkCtx?_eq_some.mp hctx
  obtain ⟨dtx, hdtx, rfl⟩ := h.session_ctx link ptr hs
  rw [Option.some.inj (hptr.symm.trans hdtx)]

/-- The context of the link is found through its own pointer. -/
theorem linkCtx?_of_session {link : Session} {s : Server} {ptr : CtxPtr} {ctx : LinkCtx}
    (h : s.TableInv) (hptr : s.heap[ptr]? = some ctx) (hs : ctx.session = link) :
    linkCtx? link s = some ctx :=
  linkCtx?_eq_some.mpr ⟨ptr, hs ▸ h.ctx_session ptr ctx hptr, hptr⟩

/-- If the link is still there, it was there before, for the same base user, and
its sub users have changed as the messages say. -/
def LinkFrame (link : Session) (s next : Server) (msgs : List DownMsg) : Prop :=
  ∀ ctx', linkCtx? link next = some ctx' → ∃ ctx, linkCtx? link s = some ctx ∧
    ctx'.baseUser = ctx.baseUser ∧ ctx'.isC2s = ctx.isC2s ∧
    ∀ user, user ∈ ctx'.subUsers ↔ settled user (decide (user ∈ ctx.subUsers)) msgs = true

theorem LinkFrame.rfl {link : Session} {s : Server} : LinkFrame link s s [] :=
  fun ctx' h => ⟨ctx', h, Eq.refl _, Eq.refl _, fun user => by simp⟩

theorem LinkFrame.trans {link : Session} {s mid next : Server} {msgs more : List DownMsg}
    (hleft : LinkFrame link s mid msgs) (hright : LinkFrame link mid next more) :
    LinkFrame link s next (msgs ++ more) := by
  intro ctx' hctx'
  obtain ⟨ctx, hctx, hbase, hc2s, hsub⟩ := hright ctx' hctx'
  obtain ⟨ctx₀, hctx₀, hbase₀, hc2s₀, hsub₀⟩ := hleft ctx hctx
  refine ⟨ctx₀, hctx₀, hbase.trans hbase₀, hc2s.trans hc2s₀, fun user => ?_⟩
  have hmid : decide (user ∈ ctx.subUsers) =
      settled user (decide (user ∈ ctx₀.subUsers)) msgs := by
    rw [Bool.eq_iff_iff, decide_eq_true_iff]
    exact hsub₀ user
  rw [settled_append, ← hmid]
  exact hsub user

/-- Deleting a link deletes no other. -/
theorem linkCtx?_dropLink {link : Session} {s : Server} (h : s.TableInv) {ptr : CtxPtr}
    {ctx : LinkCtx} (hctx : s.heap[ptr]? = some ctx) :
    linkCtx? link (s.dropLink ctx.session ptr ctx) =
      if ctx.session = link then none else linkCtx? link s := by
  split
  · rename_i hs
    simp [linkCtx?, Server.dropLink, hs]
  · rename_i hs
    cases hq : s.session2Ctx[link]? with
    | none => simp [linkCtx?, Server.dropLink, ExtTreeMap.getElem?_erase, hq]
    | some q =>
      obtain ⟨dtx, hdtx, hlink⟩ := h.session_ctx link q hq
      have hne : ptr ≠ q := by
        intro heq
        rw [← heq, hctx] at hdtx
        exact hs (Option.some.inj hdtx ▸ hlink)
      simp [linkCtx?, Server.dropLink, ExtTreeMap.getElem?_erase, hs, hq, hne]

theorem linkFrame_insertLink {link : Session} {s : Server} {session : Session} {ptr : CtxPtr}
    {baseUser : MsgUser} {isC2s : Bool} (h : s.TableInv) (hptr : s.heap[ptr]? = none)
    (hne : session ≠ link) : LinkFrame link s (s.insertLink session ptr baseUser isC2s) [] := by
  intro ctx' hctx'
  obtain ⟨q, hs, hq⟩ := linkCtx?_eq_some.mp hctx'
  simp only [Server.insertLink, ExtTreeMap.getElem?_insert, Std.compare_eq_iff_eq, hne,
    if_false] at hs hq
  obtain ⟨dtx, hdtx, -⟩ := h.session_ctx link q hs
  rw [if_neg (by rintro rfl; simp [hptr] at hdtx)] at hq
  exact ⟨ctx', linkCtx?_eq_some.mpr ⟨q, hs, hq⟩, Eq.refl _, Eq.refl _, fun user => by simp⟩

/-- A change of one context changes the link only if it is that context. -/
theorem linkCtx?_insert {link : Session} {s : Server} (h : s.TableInv) {ptr : CtxPtr}
    {ctx dtx : LinkCtx} {table : ExtTreeMap MsgUser CtxPtr} (hctx : s.heap[ptr]? = some ctx) :
    linkCtx? link { s with heap := s.heap.insert ptr dtx, user2Ctx := table } =
      if ctx.session = link then some dtx else linkCtx? link s := by
  split
  · rename_i hs
    exact linkCtx?_eq_some.mpr ⟨ptr, hs ▸ h.ctx_session ptr ctx hctx, by simp⟩
  · rename_i hs
    cases hq : s.session2Ctx[link]? with
    | none => simp [linkCtx?, hq]
    | some q =>
      have hne : ptr ≠ q := by
        rintro rfl
        obtain ⟨etx, hetx, hlink⟩ := h.session_ctx link ptr hq
        rw [hctx] at hetx
        exact hs (Option.some.inj hetx ▸ hlink)
      simp [linkCtx?, hq, ExtTreeMap.getElem?_insert, hne]

/-- A sub user of one context is neither a sub user nor the base user of the
context of another session. -/
theorem not_mem_subUsers_of_ne {link : Session} {s : Server} (h : s.TableInv) {ptr : CtxPtr}
    {ctx ctx' : LinkCtx} {user : MsgUser} (hctx : s.heap[ptr]? = some ctx)
    (hin : user ∈ ctx.users) (hne : ctx.session ≠ link) (hctx' : linkCtx? link s = some ctx') :
    user ∉ ctx'.subUsers := by
  intro hin'
  obtain ⟨q, hs, hq⟩ := linkCtx?_eq_some.mp hctx'
  obtain rfl := h.ptr_unique hctx hq hin (LinkCtx.mem_users.mpr (.inr hin'))
  rw [hctx] at hq
  apply hne
  rw [Option.some.inj hq]
  exact session_of_linkCtx? h hctx'

theorem linkMsgs_notifyKickout {link : Session} {ctx : LinkCtx} {user : MsgUser}
    (hwf : ctx.WellFormed) (hsub : user ∈ ctx.subUsers) :
    linkMsgs link (Server.notifyKickout ctx.session ctx.baseUser user) =
      if ctx.session = link then [.clientKickout user] else [] := by
  have hclass := (hwf.sub_c2s user hsub).2
  have hbase := hwf.base_userId
  have hvalid := hwf.sub_valid user hsub
  have hne : user ≠ ctx.baseUser := fun heq => hwf.base_not_sub (heq ▸ hsub)
  have hcalls : Server.notifyKickout ctx.session ctx.baseUser user =
      [.sendToC2s ctx.session ctx.baseUser (.clientKickout user)] := by
    simp [Server.notifyKickout, hclass, hbase, hvalid, hne]
  rw [hcalls]
  by_cases hs : ctx.session = link
  · simp [linkMsgs, ServerCall.linkMsg?, hs]
  · simp [linkMsgs, ServerCall.linkMsg?, hs]

/-- What the "remove old" block does to the link, and what it says about it. -/
theorem linkCtx?_removeOld {link : Session} {s : Server} (h : s.TableInv) {user : MsgUser}
    {keeper : Option MsgUser} {old : Server.Removed}
    (hold : s.removeOld user keeper = some old) {ctx' : LinkCtx}
    (hctx' : linkCtx? link old.server = some ctx') :
    ∃ ctx, linkCtx? link s = some ctx ∧ ctx'.baseUser = ctx.baseUser ∧ ctx'.isC2s = ctx.isC2s ∧
      (∀ other, other ∈ ctx'.subUsers ↔ other ∈ ctx.subUsers ∧ other ≠ user) ∧
      linkMsgs link old.calls =
        if user ∈ ctx.subUsers ∧ keeper ≠ some ctx.baseUser then [.clientKickout user] else [] := by
  have hsame : ∀ ctx : LinkCtx, user ∉ ctx.subUsers →
      ∀ other, other ∈ ctx.subUsers ↔ other ∈ ctx.subUsers ∧ other ≠ user :=
    fun ctx hnot other => ⟨fun hin => ⟨hin, fun heq => hnot (heq ▸ hin)⟩, And.left⟩
  rcases h.removeOld_cases user keeper with
    ⟨hnone, heq⟩ | ⟨ptr, ctx, hctx, hbase, heq⟩ | ⟨ptr, ctx, hctx, hsub, heq⟩ <;>
    cases Option.some.inj (hold.symm.trans heq)
  · have hnot : user ∉ ctx'.subUsers := by
      intro hin
      obtain ⟨q, -, hq⟩ := linkCtx?_eq_some.mp hctx'
      simp [h.ctx_user q ctx' hq user (LinkCtx.mem_users.mpr (.inr hin))] at hnone
    exact ⟨ctx', hctx', rfl, rfl, hsame ctx' hnot, by simp [hnot, linkMsgs]⟩
  · rw [linkCtx?_dropLink h hctx] at hctx'
    split at hctx'
    · cases hctx'
    · rename_i hne
      have hnot := not_mem_subUsers_of_ne h hctx (LinkCtx.mem_users.mpr (.inl hbase)) hne hctx'
      exact ⟨ctx', hctx', rfl, rfl, hsame ctx' hnot, by simp [hnot, linkMsgs]⟩
  · have hwf := h.ctx_wellFormed ptr ctx hctx
    rw [Server.dropSubUser, linkCtx?_insert h hctx] at hctx'
    split at hctx'
    · rename_i hlink
      cases Option.some.inj hctx'
      refine ⟨ctx, linkCtx?_of_session h hctx hlink, rfl, rfl, fun other => ?_, ?_⟩
      · rw [ExtTreeSet.mem_erase, ne_eq, Std.compare_eq_iff_eq, and_comm, eq_comm]
      · by_cases hkeeper : keeper = some ctx.baseUser
        · simp [hkeeper, linkMsgs]
        · rw [if_neg hkeeper, linkMsgs_notifyKickout hwf hsub, if_pos hlink, if_pos ⟨hsub, hkeeper⟩]
    · rename_i hne
      have hnot := not_mem_subUsers_of_ne h hctx (LinkCtx.mem_users.mpr (.inr hsub)) hne hctx'
      refine ⟨ctx', hctx', rfl, rfl, hsame ctx' hnot, ?_⟩
      by_cases hkeeper : keeper = some ctx.baseUser
      · simp [hkeeper, hnot, linkMsgs]
      · simp [hkeeper, hnot, linkMsgs_notifyKickout hwf hsub, hne]

/-- Without a keeper the block announces what it removes. -/
theorem linkFrame_removeOld {link : Session} {s : Server} (h : s.TableInv) {user : MsgUser}
    {keeper : Option MsgUser} {old : Server.Removed} (hold : s.removeOld user keeper = some old)
    (hkeeper : ∀ ctx, linkCtx? link s = some ctx → keeper ≠ some ctx.baseUser) :
    LinkFrame link s old.server (linkMsgs link old.calls) := by
  intro ctx' hctx'
  obtain ⟨ctx, hctx, hbase, hc2s, hsub, hmsgs⟩ := linkCtx?_removeOld h hold hctx'
  refine ⟨ctx, hctx, hbase, hc2s, fun other => ?_⟩
  rw [hsub, hmsgs]
  by_cases hin : user ∈ ctx.subUsers
  · rw [if_pos ⟨hin, hkeeper ctx hctx⟩, settled_cons, settled_nil, settle]
    by_cases heq : user = other
    · simp [heq]
    · simp [heq, Ne.symm heq]
  · rw [if_neg fun hand => hin hand.1, settled_nil, decide_eq_true_iff]
    exact ⟨And.left, fun hother => ⟨hother, fun heq => hin (heq ▸ hother)⟩⟩

/-- The link messages of the block are kick-outs of users that may log in. -/
theorem linkMsgs_removeOld {link : Session} {s : Server} {user : MsgUser}
    {keeper : Option MsgUser} {old : Server.Removed} (hold : s.removeOld user keeper = some old) :
    ∀ msg ∈ linkMsgs link old.calls, msg = .clientKickout user ∧ user.valid = true := by
  intro msg hmsg
  simp only [Server.removeOld] at hold
  split at hold
  · cases Option.some.inj hold
    cases hmsg
  · split at hold
    · cases hold
    · split at hold <;> cases Option.some.inj hold
      · cases hmsg
      · dsimp only at hmsg
        split at hmsg
        · cases hmsg
        · simp only [Server.notifyKickout] at hmsg
          split at hmsg
          · cases hmsg
          · rename_i hcheck
            simp only [linkMsgs, List.mem_filterMap, List.mem_singleton, exists_eq_left,
              ServerCall.linkMsg?, Option.ite_none_right_eq_some, Option.some.injEq] at hmsg
            simp at hcheck
            exact ⟨hmsg.2.symm, by tauto⟩

theorem linkFrame_asyncKickoutUser {link : Session} {s : Server} (h : s.TableInv)
    {user : MsgUser} {r : Server × List ServerCall} (hr : s.asyncKickoutUser user = some r) :
    LinkFrame link s r.1 (linkMsgs link r.2) ∧
      ∀ msg ∈ linkMsgs link r.2, msg = .clientKickout user ∧ user.valid = true := by
  obtain ⟨old, hold, heq⟩ := Option.bind_eq_some_iff.mp hr
  cases Option.some.inj heq
  simp only [linkMsgs_append, linkMsgs_closeUsers, linkMsgs_deleteSession, List.append_nil]
  exact ⟨linkFrame_removeOld h hold (by simp), linkMsgs_removeOld hold⟩

theorem linkFrame_asyncOnCloseSession {link : Session} {s : Server} (h : s.TableInv)
    {session : Session} {errorCode sslCode : Int} {r : Server × List ServerCall}
    (hr : s.asyncOnCloseSession session errorCode sslCode = some r) :
    LinkFrame link s r.1 (linkMsgs link r.2) ∧ linkMsgs link r.2 = [] := by
  unfold Server.asyncOnCloseSession at hr
  split at hr
  · rename_i ptr hptr
    obtain ⟨ctx, hctx, rfl⟩ := h.session_ctx session ptr hptr
    simp only [hctx, Option.bind_eq_bind, Option.bind_some] at hr
    cases Option.some.inj hr
    have hmsgs : linkMsgs link (Server.closeUsers ctx.users errorCode sslCode ++
        [.deleteSession ctx.session]) = [] := by
      simp [linkMsgs_append]; rfl
    refine ⟨fun ctx' hctx' => ?_, hmsgs⟩
    rw [linkCtx?_dropLink h hctx] at hctx'
    split at hctx'
    · cases hctx'
    · rw [hmsgs]
      exact LinkFrame.rfl ctx' hctx'
  · cases Option.some.inj hr
    exact ⟨LinkFrame.rfl, rfl⟩

theorem linkFrame_addBaseUser {link : Session} {s : Server} (h : s.TableInv)
    {newSession : Option Session} {ptr : CtxPtr} (hptr : s.heap[ptr]? = none)
    (hsession : ∀ session ∈ newSession, session ≠ link) {baseUser : MsgUser} {publicIp : String}
    {appData : Int} {isC2s : Bool} {r : Server × List ServerCall}
    (hr : s.addBaseUser newSession ptr baseUser publicIp appData isC2s = some r) :
    LinkFrame link s r.1 (linkMsgs link r.2) ∧
      ∀ msg ∈ linkMsgs link r.2, msg = .clientKickout baseUser ∧ baseUser.valid = true := by
  unfold Server.addBaseUser at hr
  split at hr
  · cases Option.some.inj hr
    exact ⟨LinkFrame.rfl, by simp [linkMsgs]⟩
  · split at hr
    · rename_i session
      obtain ⟨old, hold, heq⟩ := Option.bind_eq_some_iff.mp hr
      cases Option.some.inj heq
      obtain ⟨old', hold', hinv, -, hheap, -⟩ := h.removeOld baseUser none
      cases Option.some.inj (hold.symm.trans hold')
      have hmsgs : linkMsgs link [.suspendRecv session, .sendResponse session baseUser publicIp,
          .onOkUser baseUser publicIp none appData, .resumeRecv session] = [] := rfl
      simp only [linkMsgs_append, linkMsgs_closeUsers, linkMsgs_deleteSession, hmsgs,
        List.append_nil]
      refine ⟨?_, linkMsgs_removeOld hold⟩
      have hremove : LinkFrame link s old.server (linkMsgs link old.calls) :=
        linkFrame_removeOld h hold (by simp)
      have hinsert : LinkFrame link old.server
          (old.server.insertLink session ptr baseUser isC2s) [] :=
        linkFrame_insertLink hinv (hheap ptr hptr) (hsession session rfl)
      have hframe := hremove.trans hinsert
      rwa [List.append_nil] at hframe
    · cases Option.some.inj hr
      exact ⟨LinkFrame.rfl, by simp [linkMsgs]⟩

theorem linkMsgs_welcome (link session : Session) (c2sUser subUser : MsgUser) (publicIp : String)
    (msg : DownMsg) (appData : Int) :
    linkMsgs link [.suspendRecv session, .sendToC2s session c2sUser msg,
      .onOkUser subUser publicIp (some c2sUser) appData, .resumeRecv session] =
        if session = link then [msg] else [] := by
  by_cases hs : session = link
  · simp [linkMsgs, ServerCall.linkMsg?, List.filterMap_cons, hs]
  · simp [linkMsgs, ServerCall.linkMsg?, List.filterMap_cons, hs]

/-- Everything `AddSubUser` can do: nothing, or a removal and an insertion. -/
theorem addSubUser_cases {s : Server} (h : s.TableInv) {c2sUser subUser : MsgUser}
    {publicIp : String} {msg : DownMsg} {appData : Int} {r : Server × List ServerCall}
    (hr : s.addSubUser c2sUser subUser publicIp msg appData = some r) :
    r = (s, []) ∨ ∃ (ptr : CtxPtr) (ctx newCtx : LinkCtx) (old : Server.Removed),
      s.heap[ptr]? = some ctx ∧ ctx.baseUser = c2sUser ∧ subUser.valid = true ∧
      s.removeOld subUser (some c2sUser) = some old ∧ old.server.heap[ptr]? = some newCtx ∧
      newCtx.session = ctx.session ∧ newCtx.baseUser = ctx.baseUser ∧
      r.1 = old.server.insertSubUser ptr newCtx subUser ∧
      ∀ link, linkMsgs link r.2 =
        linkMsgs link old.calls ++ if newCtx.session = link then [msg] else [] := by
  unfold Server.addSubUser at hr
  split at hr
  · exact .inl (Option.some.inj hr).symm
  · rename_i hcheck
    simp only [ne_eq, decide_not, Bool.or_eq_true, Bool.not_eq_eq_eq_not, Bool.not_true,
      decide_eq_false_iff_not, beq_iff_eq, decide_eq_true_eq, not_or, Decidable.not_not,
      Bool.not_eq_false] at hcheck
    obtain ⟨⟨-, hvalid⟩, hne⟩ := hcheck
    split at hr
    · rename_i ptr hptr
      obtain ⟨ctx, hctx, -⟩ := h.user_ctx c2sUser ptr hptr
      simp only [hctx, Option.bind_eq_bind, Option.bind_some] at hr
      split at hr
      · exact .inl (Option.some.inj hr).symm
      · rename_i hlink
        simp only [ne_eq, Bool.or_eq_true, Bool.not_eq_eq_eq_not, Bool.not_true,
          decide_eq_true_eq, not_or, Bool.not_eq_false, Decidable.not_not] at hlink
        obtain ⟨old, hold, hr⟩ := Option.bind_eq_some_iff.mp hr
        obtain ⟨newCtx, hnew, hr⟩ := Option.bind_eq_some_iff.mp hr
        obtain ⟨old', hold', -, -, -, -, hframe⟩ := h.removeOld subUser (some c2sUser)
        cases Option.some.inj (hold.symm.trans hold')
        obtain ⟨subUsers, hnew', -⟩ := hframe ptr ctx hctx (hlink.2 ▸ hne)
        cases Option.some.inj (hnew.symm.trans hnew')
        cases Option.some.inj hr
        refine .inr ⟨ptr, ctx, _, old, hctx, hlink.2.symm, hvalid, hold, hnew, rfl, rfl, rfl,
          fun link => ?_⟩
        simp only [linkMsgs_append, linkMsgs_closeUsers, linkMsgs_deleteSession, List.append_nil]
        have hredline : ∀ c : Prop, [Decidable c] → linkMsgs link
            (if c then [.setOutputRedline ctx.session s.redlineBytes] else []) = [] := by
          intro c _
          split <;> rfl
        rw [hredline, linkMsgs_welcome, List.append_nil]
    · exact .inl (Option.some.inj hr).symm

theorem linkFrame_addSubUser {link : Session} {s : Server} (h : s.TableInv)
    {c2sUser subUser : MsgUser} {publicIp : String} {clientIndex : Nat} {appData : Int}
    {r : Server × List ServerCall}
    (hr : s.addSubUser c2sUser subUser publicIp (.clientLoginOk clientIndex subUser) appData =
      some r) :
    LinkFrame link s r.1 (linkMsgs link r.2) ∧
      ∀ msg ∈ linkMsgs link r.2, subUser.valid = true ∧ (msg = .clientKickout subUser ∨
        msg = .clientLoginOk clientIndex subUser ∧
          ∀ ctx, linkCtx? link s = some ctx → ctx.baseUser = c2sUser) := by
  rcases addSubUser_cases h hr with rfl | ⟨ptr, ctx, newCtx, old, hctx, rfl, hvalid, hold, hnew,
    hsession, hbase, hserver, hmsgs⟩
  · exact ⟨LinkFrame.rfl, by simp [linkMsgs]⟩
  obtain ⟨old', hold', hinv, -⟩ := h.removeOld subUser (some ctx.baseUser)
  cases Option.some.inj (hold.symm.trans hold')
  rw [hserver, hmsgs link, Server.insertSubUser]
  by_cases hlink : newCtx.session = link
  · have hcurrent : linkCtx? link s = some ctx :=
      linkCtx?_of_session h hctx (hsession.symm.trans hlink)
    rw [if_pos hlink]
    constructor
    · intro ctx' hctx'
      rw [linkCtx?_insert hinv hnew, if_pos hlink] at hctx'
      cases Option.some.inj hctx'
      obtain ⟨ctx₀, hctx₀, hbase₀, hc2s₀, hsub, hkick⟩ :=
        linkCtx?_removeOld h hold (linkCtx?_of_session hinv hnew hlink)
      cases Option.some.inj (hcurrent.symm.trans hctx₀)
      refine ⟨ctx, hctx₀, hbase₀, hc2s₀, fun other => ?_⟩
      rw [hkick, if_neg (by simp), List.nil_append, settled_cons, settled_nil, settle,
        ExtTreeSet.mem_insert, Std.compare_eq_iff_eq, hsub]
      by_cases heq : subUser = other
      · simp [heq]
      · simp [heq, Ne.symm heq]
    · intro msg hmsg
      rcases List.mem_append.mp hmsg with hmsg | hmsg
      · exact ⟨hvalid, .inl (linkMsgs_removeOld hold msg hmsg).1⟩
      · refine ⟨hvalid, .inr ⟨List.mem_singleton.mp hmsg, fun dtx hdtx => ?_⟩⟩
        rw [← Option.some.inj (hcurrent.symm.trans hdtx)]
  · rw [if_neg hlink, List.append_nil]
    refine ⟨fun ctx' hctx' => ?_, fun msg hmsg =>
      ⟨hvalid, .inl (linkMsgs_removeOld hold msg hmsg).1⟩⟩
    rw [linkCtx?_insert hinv hnew, if_neg hlink] at hctx'
    refine linkFrame_removeOld h hold (fun dtx hdtx heq => hlink ?_) ctx' hctx'
    obtain ⟨q, hs, hq⟩ := linkCtx?_eq_some.mp hdtx
    obtain rfl := h.ptr_unique hctx hq (LinkCtx.mem_users.mpr (.inl rfl))
      (LinkCtx.mem_users.mpr (.inl (Option.some.inj heq)))
    rw [hctx] at hq
    rw [hsession, Option.some.inj hq]
    exact session_of_linkCtx? h hdtx

/-- A logout asked for by `c2sUser` acts on its own link only, and silently. -/
theorem linkCtx?_processMsgClientLogout {link : Session} {s : Server} (h : s.TableInv)
    {c2sUser subUser : MsgUser} {r : Server × List ServerCall}
    (hr : s.processMsgClientLogout c2sUser subUser = some r) :
    linkMsgs link r.2 = [] ∧ ∀ ctx', linkCtx? link r.1 = some ctx' →
      ∃ ctx, linkCtx? link s = some ctx ∧ ctx'.baseUser = ctx.baseUser ∧ ctx'.isC2s = ctx.isC2s ∧
        ∀ user, user ∈ ctx'.subUsers ↔
          user ∈ ctx.subUsers ∧ ¬ (c2sUser = ctx.baseUser ∧ subUser = user) := by
  have hkeep : (∀ ctx, linkCtx? link s = some ctx → c2sUser = ctx.baseUser →
      subUser ∉ ctx.subUsers) → ∀ ctx', linkCtx? link s = some ctx' →
      ∃ ctx, linkCtx? link s = some ctx ∧ ctx'.baseUser = ctx.baseUser ∧ ctx'.isC2s = ctx.isC2s ∧
        ∀ user, user ∈ ctx'.subUsers ↔
          user ∈ ctx.subUsers ∧ ¬ (c2sUser = ctx.baseUser ∧ subUser = user) := by
    intro hnot ctx' hctx'
    refine ⟨ctx', hctx', rfl, rfl, fun user => ⟨fun hin => ⟨hin, ?_⟩, And.left⟩⟩
    rintro ⟨hbase, rfl⟩
    exact hnot ctx' hctx' hbase hin
  unfold Server.processMsgClientLogout at hr
  split at hr
  · rename_i hcheck
    cases Option.some.inj hr
    refine ⟨rfl, hkeep fun ctx hctx hbase hin => ?_⟩
    obtain ⟨ptr, -, hptr⟩ := linkCtx?_eq_some.mp hctx
    have hwf := h.ctx_wellFormed ptr ctx hptr
    have hclass := (hwf.sub_c2s subUser hin).2
    have hid := hwf.base_userId
    have hvalid := hwf.sub_valid subUser hin
    have hne : subUser ≠ ctx.baseUser := fun heq => hwf.base_not_sub (heq ▸ hin)
    simp [hbase, hclass, hid, hvalid, hne] at hcheck
  · split at hr
    · rename_i ptr hptr
      obtain ⟨ctx, hctx, hin⟩ := h.user_ctx subUser ptr hptr
      simp only [hctx, Option.bind_eq_bind, Option.bind_some] at hr
      split at hr
      · rename_i hcheck hlink
        cases Option.some.inj hr
        refine ⟨rfl, hkeep fun dtx hdtx hbase hsub => ?_⟩
        obtain ⟨q, -, hq⟩ := linkCtx?_eq_some.mp hdtx
        obtain rfl := h.ptr_unique hctx hq hin (LinkCtx.mem_users.mpr (.inr hsub))
        cases Option.some.inj (hctx.symm.trans hq)
        simp [hbase, ((h.ctx_wellFormed ptr ctx hctx).sub_c2s subUser hsub).1] at hlink
      · rename_i hcheck hlink
        simp only [ne_eq, Bool.or_eq_true, Bool.not_eq_eq_eq_not, Bool.not_true,
          decide_eq_true_eq, not_or, Bool.not_eq_false, Decidable.not_not] at hlink
        cases Option.some.inj hr
        refine ⟨rfl, fun ctx' hctx' => ?_⟩
        rw [Server.dropSubUser, linkCtx?_insert h hctx] at hctx'
        split at hctx'
        · rename_i hs
          cases Option.some.inj hctx'
          refine ⟨ctx, linkCtx?_of_session h hctx hs, rfl, rfl, fun user => ?_⟩
          rw [ExtTreeSet.mem_erase, ne_eq, Std.compare_eq_iff_eq, and_comm]
          simp [hlink.2]
        · rename_i hs
          have hnot := not_mem_subUsers_of_ne h hctx hin hs hctx'
          exact hkeep (fun dtx hdtx _ => Option.some.inj (hctx'.symm.trans hdtx) ▸ hnot) ctx' hctx'
    · rename_i hptr
      cases Option.some.inj hr
      refine ⟨rfl, hkeep fun ctx hctx _ hin => ?_⟩
      obtain ⟨q, -, hq⟩ := linkCtx?_eq_some.mp hctx
      exact hptr q (h.ctx_user q ctx hq subUser (LinkCtx.mem_users.mpr (.inr hin)))

end LoginSystem

end Pronet.Msg
