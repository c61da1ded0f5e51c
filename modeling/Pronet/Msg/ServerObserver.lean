import Pronet.Library.Alternation
import Pronet.Msg.ServerUsers

/-! What the observer of the message server is told. An operation closes the users
it removes and then reports at most one new user, so that the callbacks of every
user take turns. -/
namespace Pronet.Msg

open Std Library Runs Alternation

inductive UserCallback
  | onOkUser
  | onCloseUser
  deriving DecidableEq, Repr

def ServerCall.callback? (user : MsgUser) : ServerCall → Option UserCallback
  | .onOkUser other _ _ _ => if other = user then some .onOkUser else none
  | .onCloseUser other _ _ => if other = user then some .onCloseUser else none
  | _ => none

/-- The callbacks that are made for a user, in order. -/
def callbacksOf (user : MsgUser) (calls : List ServerCall) : List UserCallback :=
  calls.filterMap (ServerCall.callback? user)

theorem callbacksOf_append (user : MsgUser) (calls more : List ServerCall) :
    callbacksOf user (calls ++ more) = callbacksOf user calls ++ callbacksOf user more :=
  List.filterMap_append

theorem callbacksOf_closeUsers (user : MsgUser) (users : UserSet) (errorCode sslCode : Int) :
    callbacksOf user (Server.closeUsers users errorCode sslCode) =
      if user ∈ users then [.onCloseUser] else [] := by
  have hlist : ∀ list : List MsgUser, list.Nodup →
      (list.filterMap fun other => if other = user then some UserCallback.onCloseUser else none) =
        if user ∈ list then [.onCloseUser] else [] := by
    intro list hnodup
    induction list with
    | nil => rfl
    | cons other list ih =>
      rw [List.nodup_cons] at hnodup
      rw [List.filterMap_cons, ih hnodup.2]
      by_cases heq : other = user
      · subst heq
        simp [hnodup.1]
      · simp [heq, Ne.symm heq]
  unfold callbacksOf Server.closeUsers
  rw [List.filterMap_map]
  have hmem : user ∈ users.toList ↔ user ∈ users := ExtTreeSet.mem_toList
  rw [← if_congr hmem rfl rfl]
  apply hlist
  refine ExtTreeSet.distinct_toList.imp ?_
  intro first second hne heq
  exact hne (LawfulEqCmp.compare_eq_iff_eq.mpr heq)

theorem callbacksOf_deleteSession (user : MsgUser) (session : Option Session) :
    callbacksOf user (Server.deleteSession session) = [] := by
  cases session <;> rfl

theorem callbacksOf_notifyKickout (user : MsgUser) (session : Session) (c2sUser subUser : MsgUser) :
    callbacksOf user (Server.notifyKickout session c2sUser subUser) = [] := by
  unfold Server.notifyKickout
  split <;> rfl

namespace Server

/-- `next` is left of `s` when `users` are removed: they are no keys any more, and a
link that is gone had no other users. -/
structure Removes (s : Server) (users : UserSet) (next : Server) : Prop where
  online : ∀ user ∈ users, user ∈ s.user2Ctx
  keys : ∀ user, user ∈ next.user2Ctx ↔ user ∈ s.user2Ctx ∧ user ∉ users
  links : ∀ (session : Session) (ptr : CtxPtr) (ctx : LinkCtx), s.Links session ptr ctx →
    next.session2Ctx[session]? = none → ∀ user ∈ ctx.users, user ∈ users

theorem removes_nothing (s : Server) : s.Removes ∅ s := by
  refine ⟨?_, ?_, ?_⟩
  · intro user huser
    simp at huser
  · simp
  · intro session ptr ctx hlink hgone
    rw [hlink.1] at hgone
    cases hgone

theorem TableInv.removes_dropLink {s : Server} (h : s.TableInv) {ptr : CtxPtr} {ctx : LinkCtx}
    (hctx : s.heap[ptr]? = some ctx) {users : UserSet} (husers : ∀ user, user ∈ users ↔ user ∈ ctx.users) :
    s.Removes users (s.dropLink ctx.session ptr ctx) := by
  refine ⟨?_, ?_, ?_⟩
  · intro user huser
    have hptr := h.ctx_user ptr ctx hctx user ((husers user).mp huser)
    rw [ExtTreeMap.mem_iff_isSome_getElem?, hptr]
    rfl
  · intro user
    rw [ExtTreeMap.mem_iff_isSome_getElem?, ExtTreeMap.mem_iff_isSome_getElem?, husers]
    simp only [Server.dropLink, Tables.getElem?_eraseAll, ExtTreeSet.mem_toList]
    split
    · simp [*]
    · simp [*]
  · intro session p dtx hlink hgone user huser
    simp only [Server.dropLink] at hgone
    rw [ExtTreeMap.getElem?_erase, hlink.1] at hgone
    split at hgone
    · rename_i heq
      have hsession : ctx.session = session := LawfulEqCmp.compare_eq_iff_eq.mp heq
      have hptr := h.ctx_session ptr ctx hctx
      rw [hsession, hlink.1, Option.some.injEq] at hptr
      have hdtx := hlink.2
      rw [hptr, hctx, Option.some.injEq] at hdtx
      exact (husers user).mpr (hdtx ▸ huser)
    · cases hgone

theorem TableInv.removes_dropSubUser {s : Server} (h : s.TableInv) {ptr : CtxPtr} {ctx : LinkCtx}
    (hctx : s.heap[ptr]? = some ctx) {user : MsgUser} (huser : user ∈ ctx.users) {users : UserSet}
    (husers : ∀ other, other ∈ users ↔ other = user) :
    s.Removes users (s.dropSubUser ptr ctx user) := by
  refine ⟨?_, ?_, ?_⟩
  · intro other hother
    have hptr := h.ctx_user ptr ctx hctx user huser
    rw [(husers other).mp hother, ExtTreeMap.mem_iff_isSome_getElem?, hptr]
    rfl
  · intro other
    rw [husers]
    simp only [Server.dropSubUser]
    rw [ExtTreeMap.mem_erase]
    simp only [ne_eq, Std.compare_eq_iff_eq]
    rw [and_comm, eq_comm]
  · intro session p dtx hlink hgone
    simp only [Server.dropSubUser] at hgone
    rw [hlink.1] at hgone
    cases hgone

/-- The "remove old" block removes the users that it then closes. -/
theorem TableInv.removes_removeOld {s : Server} (h : s.TableInv) {user : MsgUser}
    {keeper : Option MsgUser} {old : Removed} (hold : s.removeOld user keeper = some old) :
    s.Removes old.oldUsers old.server ∧ (∀ other, callbacksOf other old.calls = []) ∧
      user ∉ old.server.user2Ctx := by
  have hfree : user ∉ old.server.user2Ctx := by
    obtain ⟨old', hold', _, hnone, _⟩ := h.removeOld user keeper
    rw [hold', Option.some.injEq] at hold
    rw [← hold, ExtTreeMap.mem_iff_isSome_getElem?, hnone]
    simp
  rcases h.removeOld_cases user keeper with
    ⟨hnone, heq⟩ | ⟨ptr, ctx, hctx, hbase, heq⟩ | ⟨ptr, ctx, hctx, hsub, heq⟩
  · rw [heq, Option.some.injEq] at hold
    subst hold
    exact ⟨s.removes_nothing, fun _ => rfl, hfree⟩
  · rw [heq, Option.some.injEq] at hold
    subst hold
    refine ⟨h.removes_dropLink hctx ?_, fun _ => rfl, hfree⟩
    intro other
    rw [LinkCtx.mem_users, ExtTreeSet.mem_insert, Std.compare_eq_iff_eq, ← hbase, eq_comm]
  · rw [heq, Option.some.injEq] at hold
    subst hold
    refine ⟨h.removes_dropSubUser hctx (LinkCtx.mem_users.mpr (Or.inr hsub)) ?_, ?_, hfree⟩
    · intro other
      rw [ExtTreeSet.mem_insert, Std.compare_eq_iff_eq]
      simp [eq_comm]
    · intro other
      dsimp only
      split
      · rfl
      · exact callbacksOf_notifyKickout other _ _ _

/-- What an operation does to the users: it removes and closes `old`, and then adds
and reports `new`. -/
structure Effect (s : Server) (r : Server × List ServerCall) (old : UserSet) (new : Option MsgUser) :
    Prop where
  callbacks : ∀ user, callbacksOf user r.2 =
    (if user ∈ old then [.onCloseUser] else []) ++ (if new = some user then [.onOkUser] else [])
  online : ∀ user ∈ old, user ∈ s.user2Ctx
  offline : ∀ user, new = some user → user ∈ s.user2Ctx → user ∈ old
  keys : ∀ user, user ∈ r.1.user2Ctx ↔ new = some user ∨ user ∈ s.user2Ctx ∧ user ∉ old
  links : ∀ (session : Session) (ptr : CtxPtr) (ctx : LinkCtx), s.Links session ptr ctx →
    r.1.session2Ctx[session]? = none → ∀ user ∈ ctx.users, user ∈ old

theorem effect_nothing (s : Server) : s.Effect (s, []) ∅ none := by
  have h := s.removes_nothing
  refine ⟨?_, h.online, ?_, ?_, h.links⟩
  · intro user
    simp [callbacksOf]
  · intro user hnew
    cases hnew
  · intro user
    simp

theorem Removes.effect {s next : Server} {users : UserSet} (h : s.Removes users next)
    {calls : List ServerCall}
    (hcalls : ∀ user, callbacksOf user calls = if user ∈ users then [.onCloseUser] else []) :
    s.Effect (next, calls) users none := by
  refine ⟨?_, h.online, ?_, ?_, h.links⟩
  · intro user
    simp [hcalls user]
  · intro user hnew
    cases hnew
  · intro user
    simp [h.keys user]

/-- A removal followed by the insertion of a user that is not a key any more. -/
theorem Removes.effect_insert {s mid next : Server} {users : UserSet} (h : s.Removes users mid)
    {user : MsgUser} (hfree : user ∉ mid.user2Ctx)
    (hkeys : ∀ other, other ∈ next.user2Ctx ↔ user = other ∨ other ∈ mid.user2Ctx)
    (hlinks : ∀ session : Session, next.session2Ctx[session]? = none → mid.session2Ctx[session]? = none)
    {calls : List ServerCall} (hcalls : ∀ other, callbacksOf other calls =
      (if other ∈ users then [.onCloseUser] else []) ++ (if user = other then [.onOkUser] else [])) :
    s.Effect (next, calls) users (some user) := by
  refine ⟨?_, h.online, ?_, ?_, ?_⟩
  · intro other
    simp [hcalls other]
  · intro other hnew hon
    rw [Option.some.injEq] at hnew
    subst hnew
    by_contra hnot
    exact hfree ((h.keys user).mpr ⟨hon, hnot⟩)
  · intro other
    rw [hkeys, h.keys, Option.some.injEq]
  · intro session ptr ctx hlink hgone
    exact h.links session ptr ctx hlink (hlinks session hgone)

theorem TableInv.effect_asyncKickoutUser {s : Server} (h : s.TableInv) {user : MsgUser}
    {r : Server × List ServerCall} (hr : s.asyncKickoutUser user = some r) :
    ∃ old, s.Effect r old none := by
  unfold Server.asyncKickoutUser at hr
  rw [Option.bind_eq_bind, Option.bind_eq_some_iff] at hr
  obtain ⟨old, hold, heq⟩ := hr
  cases heq
  obtain ⟨hremoves, hcalls, _⟩ := h.removes_removeOld hold
  refine ⟨old.oldUsers, hremoves.effect ?_⟩
  intro other
  rw [callbacksOf_append, callbacksOf_append, hcalls, callbacksOf_closeUsers,
    callbacksOf_deleteSession]
  simp

theorem TableInv.effect_addBaseUser {s : Server} (h : s.TableInv) {newSession : Option Session}
    {ptr : CtxPtr} {baseUser : MsgUser} {publicIp : String} {appData : Int} {isC2s : Bool}
    {r : Server × List ServerCall}
    (hr : s.addBaseUser newSession ptr baseUser publicIp appData isC2s = some r) :
    ∃ old new, s.Effect r old new ∧ ∀ user ∈ new, user = baseUser := by
  unfold Server.addBaseUser at hr
  split at hr
  · cases hr
    exact ⟨∅, none, s.effect_nothing, by simp⟩
  · cases newSession with
    | none =>
      cases hr
      exact ⟨∅, none, s.effect_nothing, by simp⟩
    | some session =>
      dsimp only at hr
      rw [Option.bind_eq_bind, Option.bind_eq_some_iff] at hr
      obtain ⟨old, hold, heq⟩ := hr
      cases heq
      obtain ⟨hremoves, hcalls, hfree⟩ := h.removes_removeOld hold
      refine ⟨old.oldUsers, some baseUser, hremoves.effect_insert hfree ?_ ?_ ?_, by simp⟩
      · intro other
        simp only [Server.insertLink]
        rw [ExtTreeMap.mem_insert, Std.compare_eq_iff_eq]
      · intro other hnone
        simp only [Server.insertLink] at hnone
        rw [ExtTreeMap.getElem?_insert] at hnone
        split at hnone
        · cases hnone
        · exact hnone
      · intro other
        simp only [callbacksOf_append, hcalls, callbacksOf_closeUsers, callbacksOf_deleteSession]
        by_cases heq : baseUser = other <;>
          simp [callbacksOf, List.filterMap_cons, ServerCall.callback?, heq]

theorem TableInv.effect_addSubUser {s : Server} (h : s.TableInv) {c2sUser subUser : MsgUser}
    {publicIp : String} {msg : DownMsg} {appData : Int} {r : Server × List ServerCall}
    (hr : s.addSubUser c2sUser subUser publicIp msg appData = some r) :
    ∃ old new, s.Effect r old new ∧ ∀ user ∈ new, user = subUser := by
  unfold Server.addSubUser at hr
  split at hr
  · cases hr
    exact ⟨∅, none, s.effect_nothing, by simp⟩
  · cases hptr : s.user2Ctx[c2sUser]? with
    | none =>
      rw [hptr] at hr
      cases hr
      exact ⟨∅, none, s.effect_nothing, by simp⟩
    | some newPtr =>
      rw [hptr] at hr
      dsimp only at hr
      rw [Option.bind_eq_bind, Option.bind_eq_some_iff] at hr
      obtain ⟨ctx, _, hr⟩ := hr
      split at hr
      · cases hr
        exact ⟨∅, none, s.effect_nothing, by simp⟩
      · simp only [Option.bind_eq_bind, Option.bind_eq_some_iff] at hr
        obtain ⟨old, hold, newCtx, _, heq⟩ := hr
        cases heq
        obtain ⟨hremoves, hcalls, hfree⟩ := h.removes_removeOld hold
        refine ⟨old.oldUsers, some subUser, hremoves.effect_insert hfree ?_ ?_ ?_, by simp⟩
        · intro other
          simp only [Server.insertSubUser]
          rw [ExtTreeMap.mem_insert, Std.compare_eq_iff_eq]
        · intro other hnone
          exact hnone
        · intro other
          have hredline : ∀ (redline : Prop) [Decidable redline] (session : Session) (bytes : Nat),
              callbacksOf other (if redline then [.setOutputRedline session bytes] else []) = [] := by
            intro redline _ session bytes
            split <;> rfl
          simp only [callbacksOf_append, hcalls, callbacksOf_closeUsers, callbacksOf_deleteSession,
            hredline]
          by_cases heq : subUser = other <;>
          simp [callbacksOf, List.filterMap_cons, ServerCall.callback?, heq]

theorem TableInv.effect_processMsgClientLogout {s : Server} (h : s.TableInv)
    {c2sUser subUser : MsgUser} {r : Server × List ServerCall}
    (hr : s.processMsgClientLogout c2sUser subUser = some r) : ∃ old, s.Effect r old none := by
  unfold Server.processMsgClientLogout at hr
  split at hr
  · cases hr
    exact ⟨∅, s.effect_nothing⟩
  · cases hptr : s.user2Ctx[subUser]? with
    | none =>
      rw [hptr] at hr
      cases hr
      exact ⟨∅, s.effect_nothing⟩
    | some ptr =>
      rw [hptr] at hr
      dsimp only at hr
      rw [Option.bind_eq_bind, Option.bind_eq_some_iff] at hr
      obtain ⟨ctx, hctx, hr⟩ := hr
      split at hr
      · cases hr
        exact ⟨∅, s.effect_nothing⟩
      · cases hr
        obtain ⟨ctx', hctx', huser⟩ := h.user_ctx subUser ptr hptr
        rw [hctx, Option.some.injEq] at hctx'
        subst hctx'
        have husers : ∀ other, other ∈ (∅ : UserSet).insert subUser ↔ other = subUser := by
          intro other
          rw [ExtTreeSet.mem_insert, Std.compare_eq_iff_eq]
          simp [eq_comm]
        refine ⟨_, (h.removes_dropSubUser hctx huser husers).effect ?_⟩
        intro other
        rw [if_congr (husers other) rfl rfl]
        by_cases heq : subUser = other <;> simp [callbacksOf, ServerCall.callback?, heq, eq_comm]

theorem TableInv.effect_asyncOnCloseSession {s : Server} (h : s.TableInv) {session : Session}
    {errorCode sslCode : Int} {r : Server × List ServerCall}
    (hr : s.asyncOnCloseSession session errorCode sslCode = some r) :
    ∃ old, s.Effect r old none := by
  unfold Server.asyncOnCloseSession at hr
  cases hptr : s.session2Ctx[session]? with
  | none =>
    rw [hptr] at hr
    cases hr
    exact ⟨∅, s.effect_nothing⟩
  | some ptr =>
    rw [hptr] at hr
    dsimp only at hr
    rw [Option.bind_eq_bind, Option.bind_eq_some_iff] at hr
    obtain ⟨ctx, hctx, heq⟩ := hr
    cases heq
    obtain ⟨ctx', hctx', hsession⟩ := h.session_ctx session ptr hptr
    rw [hctx, Option.some.injEq] at hctx'
    subst hctx'
    subst hsession
    refine ⟨ctx.users, (h.removes_dropLink hctx (fun _ => Iff.rfl)).effect ?_⟩
    intro other
    rw [callbacksOf_append, callbacksOf_closeUsers]
    simp [callbacksOf, ServerCall.callback?]

theorem TableInv.effect {s : Server} (h : s.TableInv) {op : ServerOp}
    {r : Server × List ServerCall} (hr : s.perform op = some r) : ∃ old new, s.Effect r old new := by
  cases op with
  | addBaseUser newSession ptr baseUser publicIp appData isC2s =>
    obtain ⟨old, new, heffect, _⟩ := h.effect_addBaseUser hr
    exact ⟨old, new, heffect⟩
  | addSubUser c2sUser subUser publicIp msg appData =>
    obtain ⟨old, new, heffect, _⟩ := h.effect_addSubUser hr
    exact ⟨old, new, heffect⟩
  | asyncKickoutUser user =>
    obtain ⟨old, heffect⟩ := h.effect_asyncKickoutUser hr
    exact ⟨old, none, heffect⟩
  | processMsgClientLogout c2sUser subUser =>
    obtain ⟨old, heffect⟩ := h.effect_processMsgClientLogout hr
    exact ⟨old, none, heffect⟩
  | asyncOnCloseSession session errorCode sslCode =>
    obtain ⟨old, heffect⟩ := h.effect_asyncOnCloseSession hr
    exact ⟨old, none, heffect⟩

/-- The switch of a user stands at "online" exactly for the keys of `m_user2Ctx`. -/
structure ObserverInv (s : Server × List ServerCall) : Prop where
  tables : s.1.TableInv
  switch : ∀ user, follow .onOkUser .onCloseUser false (callbacksOf user s.2) =
    some (decide (user ∈ s.1.user2Ctx))

theorem observerInv_init (sslConfig sslForced : Bool) :
    ObserverInv (init sslConfig sslForced, []) := by
  refine ⟨tableInv_init _ _, ?_⟩
  intro user
  simp [callbacksOf, follow, init]

theorem Effect.follow {s : Server} {r : Server × List ServerCall} {old : UserSet}
    {new : Option MsgUser} (h : s.Effect r old new) (user : MsgUser) :
    Alternation.follow .onOkUser .onCloseUser (decide (user ∈ s.user2Ctx)) (callbacksOf user r.2) =
      some (decide (user ∈ r.1.user2Ctx)) := by
  have honline := h.online user
  have hoffline := h.offline user
  have hkeys := h.keys user
  rw [h.callbacks user]
  by_cases hold : user ∈ old
  · have hon := honline hold
    by_cases hnew : new = some user
    · have hkey : user ∈ r.1.user2Ctx := hkeys.mpr (Or.inl hnew)
      simp [Alternation.follow, hold, hnew, hon, hkey]
    · have hkey : user ∉ r.1.user2Ctx := by
        rw [hkeys]
        simp [hnew, hold]
      simp [Alternation.follow, hold, hnew, hon, hkey]
  · by_cases hnew : new = some user
    · have hon : user ∉ s.user2Ctx := fun hon => hold (hoffline hnew hon)
      have hkey : user ∈ r.1.user2Ctx := hkeys.mpr (Or.inl hnew)
      simp [Alternation.follow, hold, hnew, hon, hkey]
    · have hkey : user ∈ r.1.user2Ctx ↔ user ∈ s.user2Ctx := by
        rw [hkeys]
        simp [hnew, hold]
      simp [Alternation.follow, hold, hnew, hkey]

theorem ObserverInv.step {s : Server × List ServerCall} (h : ObserverInv s) (op : ServerOp)
    (hfresh : s.1.Fresh op) : ∃ next, logged perform s op = some next ∧ ObserverInv next := by
  obtain ⟨r, hr, htables⟩ := h.tables.perform op hfresh
  obtain ⟨old, new, heffect⟩ := h.tables.effect hr
  refine ⟨(r.1, s.2 ++ r.2), by simp [logged, hr], htables, ?_⟩
  intro user
  rw [callbacksOf_append, follow_append, h.switch user, Option.bind_some]
  exact heffect.follow user

/-- The callbacks of every user take turns, and the user is logged in when the last
one was `OnOkUser`. -/
structure ObserverView (s : Server × List ServerCall) : Prop where
  alternates : ∀ user, Alternates .onOkUser .onCloseUser (callbacksOf user s.2)
  online : ∀ user, user ∈ s.1.user2Ctx ↔ (callbacksOf user s.2).getLast? = some .onOkUser

theorem ObserverInv.view {s : Server × List ServerCall} (h : ObserverInv s) : ObserverView s := by
  refine ⟨?_, ?_⟩
  · intro user
    exact (alternates_of_follow (by decide) (h.switch user)).1
  · intro user
    have hlast := (alternates_of_follow (by decide) (h.switch user)).2
    rw [decide_eq_true_eq] at hlast
    exact hlast

/-- On every run of the five operations the observer sees each user come and go in
turns; and an operation that takes a link away closes each of its users once. -/
theorem observerView_of_run (sslConfig sslForced : Bool) (ops : List ServerOp)
    (hfresh : Guarded (logged perform) (fun s op => s.1.Fresh op) (init sslConfig sslForced, []) ops) :
    ∃ s, run (logged perform) (init sslConfig sslForced, []) ops = some s ∧ ObserverView s ∧
      ∀ op r, s.1.perform op = some r →
        ∀ (session : Session) (ptr : CtxPtr) (ctx : LinkCtx), s.1.Links session ptr ctx →
          r.1.session2Ctx[session]? = none →
            ∀ user ∈ ctx.users, (callbacksOf user r.2).count .onCloseUser = 1 := by
  obtain ⟨s, hrun, hinv⟩ := run_progress (fun s op h hfresh => ObserverInv.step h op hfresh)
    (observerInv_init sslConfig sslForced) hfresh
  refine ⟨s, hrun, hinv.view, ?_⟩
  intro op r hr session ptr ctx hlink hgone user huser
  obtain ⟨old, new, heffect⟩ := hinv.tables.effect hr
  rw [heffect.callbacks user, if_pos (heffect.links session ptr ctx hlink hgone user huser)]
  split <;> rfl

theorem observerView_of_run_movingUsers :
    ∃ s, run (logged perform) (init false false, []) movingUsers = some s ∧ ObserverView s ∧
      ∀ op r, s.1.perform op = some r →
        ∀ (session : Session) (ptr : CtxPtr) (ctx : LinkCtx), s.1.Links session ptr ctx →
          r.1.session2Ctx[session]? = none →
            ∀ user ∈ ctx.users, (callbacksOf user r.2).count .onCloseUser = 1 :=
  observerView_of_run false false movingUsers (by decide +kernel)

end Server

end Pronet.Msg
