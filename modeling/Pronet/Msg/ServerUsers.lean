import Pronet.Msg.ServerTables

/-! Every run of the five operations that change the user tables. The counts
reported by `GetUserCount` follow from the tables, because the users of the
links partition the keys of the user table. -/
namespace Pronet.Msg

open Std Library

inductive ServerOp
  | addBaseUser (newSession : Option Session) (ptr : CtxPtr) (baseUser : MsgUser)
      (publicIp : String) (appData : Int) (isC2s : Bool)
  | addSubUser (c2sUser subUser : MsgUser) (publicIp : String) (msg : DownMsg) (appData : Int)
  | asyncKickoutUser (user : MsgUser)
  | processMsgClientLogout (c2sUser subUser : MsgUser)
  | asyncOnCloseSession (session : Session) (errorCode sslCode : Int)

namespace Server

def perform (s : Server) : ServerOp → Option (Server × List ServerCall)
  | .addBaseUser newSession ptr baseUser publicIp appData isC2s =>
      s.addBaseUser newSession ptr baseUser publicIp appData isC2s
  | .addSubUser c2sUser subUser publicIp msg appData =>
      s.addSubUser c2sUser subUser publicIp msg appData
  | .asyncKickoutUser user => s.asyncKickoutUser user
  | .processMsgClientLogout c2sUser subUser => s.processMsgClientLogout c2sUser subUser
  | .asyncOnCloseSession session errorCode sslCode =>
      s.asyncOnCloseSession session errorCode sslCode

def step (s : Server) (op : ServerOp) : Option Server :=
  (s.perform op).map Prod.fst

/-- A created session is not yet in the table and `new` does not return a live
context. -/
def Fresh (s : Server) : ServerOp → Prop
  | .addBaseUser newSession ptr _ _ _ _ =>
      s.heap[ptr]? = none ∧ ∀ session ∈ newSession, s.session2Ctx[session]? = none
  | _ => True

instance (s : Server) (op : ServerOp) : Decidable (s.Fresh op) :=
  match op with
  | .addBaseUser newSession ptr _ _ _ _ =>
      decidable_of_iff ((s.heap[ptr]?).isNone = true ∧
        newSession.all (fun session => (s.session2Ctx[session]?).isNone) = true) (by
          simp [Fresh, Option.all_eq_true])
  | .addSubUser .. => isTrue trivial
  | .asyncKickoutUser .. => isTrue trivial
  | .processMsgClientLogout .. => isTrue trivial
  | .asyncOnCloseSession .. => isTrue trivial

/-- An operation on consistent tables follows no deleted pointer and leaves the
tables consistent. -/
theorem TableInv.perform {s : Server} (h : s.TableInv) (op : ServerOp) (hfresh : s.Fresh op) :
    ∃ r, s.perform op = some r ∧ r.1.TableInv := by
  cases op with
  | addBaseUser newSession ptr baseUser publicIp appData isC2s =>
    exact h.addBaseUser hfresh.1 hfresh.2 baseUser publicIp appData isC2s
  | addSubUser c2sUser subUser publicIp msg appData =>
    exact h.addSubUser c2sUser subUser publicIp msg appData
  | asyncKickoutUser user => exact h.asyncKickoutUser user
  | processMsgClientLogout c2sUser subUser => exact h.processMsgClientLogout c2sUser subUser
  | asyncOnCloseSession session errorCode sslCode =>
    exact h.asyncOnCloseSession session errorCode sslCode

theorem TableInv.step {s : Server} (h : s.TableInv) (op : ServerOp) (hfresh : s.Fresh op) :
    ∃ next, s.step op = some next ∧ next.TableInv := by
  obtain ⟨r, hr, hinv⟩ := h.perform op hfresh
  exact ⟨r.1, by simp [Server.step, hr], hinv⟩

/-- `ctx` is the live context stored for `session`. -/
def Links (s : Server) (session : Session) (ptr : CtxPtr) (ctx : LinkCtx) : Prop :=
  s.session2Ctx[session]? = some ptr ∧ s.heap[ptr]? = some ctx

/-- The tables as their users see them. -/
structure UserTables (s : Server) : Prop where
  keys : ∀ user, user ∈ s.user2Ctx ↔ ∃ session ptr ctx, s.Links session ptr ctx ∧
    (user = ctx.baseUser ∨ user ∈ ctx.subUsers)
  disjoint : ∀ user session ptr ctx session' ptr' ctx',
    s.Links session ptr ctx → s.Links session' ptr' ctx' →
    (user = ctx.baseUser ∨ user ∈ ctx.subUsers) →
    (user = ctx'.baseUser ∨ user ∈ ctx'.subUsers) → session = session' ∧ ptr = ptr'
  mapsTo : ∀ user session ptr ctx, s.Links session ptr ctx →
    (user = ctx.baseUser ∨ user ∈ ctx.subUsers) → s.user2Ctx[user]? = some ptr
  session_eq : ∀ session ptr ctx, s.Links session ptr ctx → ctx.session = session
  sub_c2s : ∀ session ptr ctx, s.Links session ptr ctx → ¬ ctx.subUsers.isEmpty →
    ctx.isC2s = true ∧ ctx.baseUser.classId = serverCid
  base_not_sub : ∀ session ptr ctx, s.Links session ptr ctx → ctx.baseUser ∉ ctx.subUsers
  user_live : ∀ (user : MsgUser) (ptr : CtxPtr), s.user2Ctx[user]? = some ptr → ptr ∈ s.heap
  session_live : ∀ (session : Session) (ptr : CtxPtr),
    s.session2Ctx[session]? = some ptr → ptr ∈ s.heap

theorem TableInv.userTables {s : Server} (h : s.TableInv) : s.UserTables := by
  constructor
  case keys =>
    intro user
    simp only [ExtTreeMap.mem_iff_isSome_getElem?, Option.isSome_iff_exists]
    constructor
    · rintro ⟨ptr, hptr⟩
      obtain ⟨ctx, hctx, hin⟩ := h.user_ctx user ptr hptr
      exact ⟨ctx.session, ptr, ctx, ⟨h.ctx_session ptr ctx hctx, hctx⟩, LinkCtx.mem_users.mp hin⟩
    · rintro ⟨session, ptr, ctx, ⟨-, hctx⟩, hin⟩
      exact ⟨ptr, h.ctx_user ptr ctx hctx user (LinkCtx.mem_users.mpr hin)⟩
  case disjoint =>
    rintro user session ptr ctx session' ptr' ctx' ⟨hs, hctx⟩ ⟨hs', hctx'⟩ hin hin'
    obtain rfl := h.ptr_unique hctx hctx' (LinkCtx.mem_users.mpr hin) (LinkCtx.mem_users.mpr hin')
    obtain ⟨dtx, hdtx, rfl⟩ := h.session_ctx session ptr hs
    obtain ⟨dtx', hdtx', rfl⟩ := h.session_ctx session' ptr hs'
    exact ⟨by rw [Option.some.inj (hdtx.symm.trans hdtx')], rfl⟩
  case mapsTo =>
    rintro user session ptr ctx ⟨-, hctx⟩ hin
    exact h.ctx_user ptr ctx hctx user (LinkCtx.mem_users.mpr hin)
  case session_eq =>
    rintro session ptr ctx ⟨hs, hctx⟩
    obtain ⟨dtx, hdtx, rfl⟩ := h.session_ctx session ptr hs
    rw [Option.some.inj (hctx.symm.trans hdtx)]
  case sub_c2s =>
    rintro session ptr ctx ⟨-, hctx⟩ hne
    obtain ⟨user, huser⟩ : ∃ user, user ∈ ctx.subUsers := by
      simpa [ExtTreeSet.isEmpty_iff, ExtTreeSet.eq_empty_iff_forall_not_mem] using hne
    exact (h.ctx_wellFormed ptr ctx hctx).sub_c2s user huser
  case base_not_sub =>
    rintro session ptr ctx ⟨-, hctx⟩
    exact (h.ctx_wellFormed ptr ctx hctx).base_not_sub
  case user_live =>
    intro user ptr hptr
    obtain ⟨ctx, hctx, -⟩ := h.user_ctx user ptr hptr
    simp [ExtTreeMap.mem_iff_isSome_getElem?, hctx]
  case session_live =>
    intro session ptr hptr
    obtain ⟨ctx, hctx, -⟩ := h.session_ctx session ptr hptr
    simp [ExtTreeMap.mem_iff_isSome_getElem?, hctx]

/-- The sub users of the context stored for one entry of the session table. -/
def entryCtx (s : Server) (entry : Session × CtxPtr) : LinkCtx :=
  (s.heap[entry.2]?).getD ⟨entry.1, rootId, ∅, false⟩

def subUserTotal (s : Server) : Nat :=
  (s.session2Ctx.toList.map fun entry => (s.entryCtx entry).subUsers.size).sum

theorem TableInv.entryCtx {s : Server} (h : s.TableInv) {entry : Session × CtxPtr}
    (hentry : entry ∈ s.session2Ctx.toList) :
    s.heap[entry.2]? = some (s.entryCtx entry) ∧ (s.entryCtx entry).session = entry.1 := by
  obtain ⟨session, ptr⟩ := entry
  obtain ⟨ctx, hctx, hs⟩ :=
    h.session_ctx session ptr (ExtTreeMap.mem_toList_iff_getElem?_eq_some.mp hentry)
  simp [Server.entryCtx, hctx, hs]

/-- The user table holds one base user for every link and all the sub users. -/
theorem TableInv.user2Ctx_size {s : Server} (h : s.TableInv) :
    s.user2Ctx.size = s.session2Ctx.size + s.subUserTotal := by
  have hlength : ∀ entry ∈ s.session2Ctx.toList,
      (s.entryCtx entry).users.toList.length = 1 + (s.entryCtx entry).subUsers.size := by
    intro entry hentry
    have hnot := (h.ctx_wellFormed _ _ (h.entryCtx hentry).1).base_not_sub
    rw [ExtTreeSet.length_toList, LinkCtx.users, ExtTreeSet.size_insert,
      if_neg (by simpa using hnot), Nat.add_comm]
  have hsum : s.session2Ctx.size + s.subUserTotal = (s.session2Ctx.toList.map fun entry =>
      (s.entryCtx entry).users.toList.length).sum := by
    rw [List.map_congr_left hlength, List.sum_map_add]
    simp [subUserTotal]
  rw [hsum]
  apply Tables.size_eq_sum_of_partition
  · exact List.Nodup.of_map Prod.fst (by
      rw [ExtTreeMap.map_fst_toList_eq_keys]; exact ExtTreeMap.nodup_keys)
  · intro entry hentry
    exact (s.entryCtx entry).users.ordered_toList.imp fun hlt heq => by
      simp [heq] at hlt
  · rintro ⟨session, ptr⟩ ho ⟨session', ptr'⟩ ho' user hin hin'
    obtain ⟨hctx, hs⟩ := h.entryCtx ho
    obtain ⟨hctx', hs'⟩ := h.entryCtx ho'
    obtain rfl : ptr = ptr' := h.ptr_unique hctx hctx' (ExtTreeSet.mem_toList.mp hin)
      (ExtTreeSet.mem_toList.mp hin')
    have hsession : session = session' := by
      rw [Option.some.inj (hctx.symm.trans hctx')] at hs
      exact hs.symm.trans hs'
    rw [hsession]
  · intro user
    rw [h.userTables.keys]
    constructor
    · rintro ⟨session, ptr, ctx, ⟨hs, hctx⟩, hin⟩
      refine ⟨(session, ptr), ExtTreeMap.mem_toList_iff_getElem?_eq_some.mpr hs, ?_⟩
      simpa [Server.entryCtx, hctx, LinkCtx.mem_users] using hin
    · rintro ⟨⟨session, ptr⟩, hentry, hin⟩
      refine ⟨session, ptr, _, ⟨ExtTreeMap.mem_toList_iff_getElem?_eq_some.mp hentry,
        (h.entryCtx hentry).1⟩, LinkCtx.mem_users.mp (ExtTreeSet.mem_toList.mp hin)⟩

theorem TableInv.getUserCount {s : Server} (h : s.TableInv) :
    s.session2Ctx.size ≤ s.user2Ctx.size ∧
      s.getUserCount = (s.session2Ctx.size, s.subUserTotal) := by
  have hsize := h.user2Ctx_size
  have hle : s.user2Ctx.size ≤ 2 ^ 64 := by
    rw [← ExtTreeMap.length_keys]
    exact MsgUser.length_le_of_nodup ExtTreeMap.nodup_keys
  refine ⟨by omega, ?_⟩
  simp only [Server.getUserCount, Prod.mk.injEq, true_and]
  have hlt : s.subUserTotal < 2 ^ 64 := by
    by_contra hge
    have hzero : s.session2Ctx.size = 0 := by omega
    have hempty : s.session2Ctx.toList = [] :=
      List.length_eq_zero_iff.mp (ExtTreeMap.length_toList.trans hzero)
    simp [subUserTotal, hempty] at hge
  omega

/-- Every run of the five operations, with fresh sessions, keeps the tables
consistent and follows no deleted context; the reported sub user count is the
number of sub users. -/
theorem userTables_of_run (sslConfig sslForced : Bool) (ops : List ServerOp)
    (hfresh : Runs.Guarded step Fresh (init sslConfig sslForced) ops) :
    ∃ s, Runs.run step (init sslConfig sslForced) ops = some s ∧ s.UserTables ∧
      s.session2Ctx.size ≤ s.user2Ctx.size ∧
      s.getUserCount = (s.session2Ctx.size, s.subUserTotal) := by
  obtain ⟨s, hrun, hinv⟩ :=
    Runs.run_progress (fun s op h hfresh => h.step op hfresh) (tableInv_init _ _) hfresh
  exact ⟨s, hrun, hinv.userTables, hinv.getUserCount⟩

/-- A c2s node logs in and brings two users; one of them moves to a direct login
and the other to a second node, which is then kicked out. -/
def movingUsers : List ServerOp :=
  [.addBaseUser (some 10) 100 (.ofIds 1 2 1) "10.0.0.1" 0 true,
    .addSubUser (.ofIds 1 2 1) (.ofIds 2 7 1) "10.0.0.7" (.clientLoginOk 1 (.ofIds 2 7 1)) 0,
    .addSubUser (.ofIds 1 2 1) (.ofIds 2 8 1) "10.0.0.8" (.clientLoginOk 2 (.ofIds 2 8 1)) 0,
    .addBaseUser (some 11) 101 (.ofIds 2 7 1) "10.0.0.7" 0 false,
    .addBaseUser (some 12) 102 (.ofIds 1 3 1) "10.0.0.2" 0 true,
    .addSubUser (.ofIds 1 3 1) (.ofIds 2 8 1) "10.0.0.8" (.clientLoginOk 3 (.ofIds 2 8 1)) 0,
    .asyncKickoutUser (.ofIds 1 3 1)]

theorem userTables_of_run_movingUsers :
    Runs.Guarded step Fresh (init false false) movingUsers ∧
    ∃ s, Runs.run step (init false false) movingUsers = some s ∧ s.UserTables ∧
      s.session2Ctx.size ≤ s.user2Ctx.size ∧
      s.getUserCount = (s.session2Ctx.size, s.subUserTotal) :=
  ⟨by decide, userTables_of_run false false movingUsers (by decide)⟩

end Server

end Pronet.Msg
