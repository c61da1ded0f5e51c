import Pronet.Library.Runs
import Pronet.Msg.Server

/-! The two user tables of the message server and the contexts they point to
agree in every state. One lemma says what the "remove old" block can do; each
operation is then a removal followed by at most one insertion. -/
namespace Pronet.Msg

open Std Library

theorem LinkCtx.mem_users {ctx : LinkCtx} {user : MsgUser} :
    user ∈ ctx.users ↔ user = ctx.baseUser ∨ user ∈ ctx.subUsers := by
  rw [users, ExtTreeSet.mem_insert, Std.compare_eq_iff_eq, eq_comm]

/-- What a context owes to its own fields. -/
structure LinkCtx.WellFormed (ctx : LinkCtx) : Prop where
  base_valid : ctx.baseUser.valid = true
  base_not_sub : ctx.baseUser ∉ ctx.subUsers
  sub_valid : ∀ user ∈ ctx.subUsers, user.valid = true
  sub_c2s : ∀ user ∈ ctx.subUsers, ctx.isC2s = true ∧ ctx.baseUser.classId = serverCid

theorem LinkCtx.WellFormed.base_userId {ctx : LinkCtx} (h : ctx.WellFormed) :
    ctx.baseUser.userId ≠ 0 := by
  have hvalid := h.base_valid
  simp only [MsgUser.valid, Bool.and_eq_true, bne_iff_ne] at hvalid
  exact hvalid.2

namespace Server

/-- The representation invariant of the tables. -/
structure TableInv (s : Server) : Prop where
  user_ctx : ∀ (user : MsgUser) (ptr : CtxPtr), s.user2Ctx[user]? = some ptr →
    ∃ ctx : LinkCtx, s.heap[ptr]? = some ctx ∧ user ∈ ctx.users
  session_ctx : ∀ (session : Session) (ptr : CtxPtr), s.session2Ctx[session]? = some ptr →
    ∃ ctx : LinkCtx, s.heap[ptr]? = some ctx ∧ ctx.session = session
  ctx_session : ∀ (ptr : CtxPtr) (ctx : LinkCtx), s.heap[ptr]? = some ctx →
    s.session2Ctx[ctx.session]? = some ptr
  ctx_user : ∀ (ptr : CtxPtr) (ctx : LinkCtx), s.heap[ptr]? = some ctx →
    ∀ user ∈ ctx.users, s.user2Ctx[user]? = some ptr
  ctx_wellFormed : ∀ (ptr : CtxPtr) (ctx : LinkCtx), s.heap[ptr]? = some ctx → ctx.WellFormed

theorem tableInv_init (sslConfig sslForced : Bool) : (init sslConfig sslForced).TableInv := by
  constructor <;> simp [init]

/-- Two contexts that share a user are one context. -/
theorem TableInv.ptr_unique {s : Server} (h : s.TableInv) {p q : CtxPtr} {ctx dtx : LinkCtx}
    {user : MsgUser} (hp : s.heap[p]? = some ctx) (hq : s.heap[q]? = some dtx)
    (hctx : user ∈ ctx.users) (hdtx : user ∈ dtx.users) : p = q := by
  have := h.ctx_user p ctx hp user hctx
  rw [h.ctx_user q dtx hq user hdtx] at this
  exact (Option.some.inj this).symm

theorem TableInv.dropLink {s : Server} (h : s.TableInv) {ptr : CtxPtr} {ctx : LinkCtx}
    (hctx : s.heap[ptr]? = some ctx) : (s.dropLink ctx.session ptr ctx).TableInv := by
  have hother : ∀ (q : CtxPtr) (dtx : LinkCtx), (s.dropLink ctx.session ptr ctx).heap[q]? = some dtx →
      q ≠ ptr ∧ s.heap[q]? = some dtx := by
    intro q dtx hq
    simp only [Server.dropLink, ExtTreeMap.getElem?_erase, Std.compare_eq_iff_eq] at hq
    split at hq <;> grind
  have hsession : ∀ (q : CtxPtr) (dtx : LinkCtx), q ≠ ptr → s.heap[q]? = some dtx → dtx.session ≠ ctx.session := by
    intro q dtx hne hq heq
    have := h.ctx_session q dtx hq
    rw [heq, h.ctx_session ptr ctx hctx] at this
    exact hne (Option.some.inj this).symm
  constructor
  case user_ctx =>
    intro user q huser
    simp only [Server.dropLink, Tables.getElem?_eraseAll, ExtTreeSet.mem_toList] at huser
    split at huser
    · cases huser
    · rename_i hnot
      obtain ⟨dtx, hq, hmem⟩ := h.user_ctx user q huser
      have hne : ptr ≠ q := by rintro rfl; grind
      exact ⟨dtx, by simp [Server.dropLink, ExtTreeMap.getElem?_erase, hne, hq], hmem⟩
  case session_ctx =>
    intro session q hs
    simp only [Server.dropLink, ExtTreeMap.getElem?_erase, Std.compare_eq_iff_eq] at hs
    split at hs
    · cases hs
    · rename_i hnot
      obtain ⟨dtx, hq, rfl⟩ := h.session_ctx session q hs
      have hne : ptr ≠ q := by rintro rfl; grind
      exact ⟨dtx, by simp [Server.dropLink, ExtTreeMap.getElem?_erase, hne, hq], rfl⟩
  case ctx_session =>
    intro q dtx hq
    obtain ⟨hne, hq⟩ := hother q dtx hq
    have := hsession q dtx hne hq
    simp [Server.dropLink, ExtTreeMap.getElem?_erase, this.symm, h.ctx_session q dtx hq]
  case ctx_user =>
    intro q dtx hq user hmem
    obtain ⟨hne, hq⟩ := hother q dtx hq
    have hnot : user ∉ ctx.users := fun hin => hne (h.ptr_unique hq hctx hmem hin)
    simp [Server.dropLink, hnot, h.ctx_user q dtx hq user hmem]
  case ctx_wellFormed =>
    intro q dtx hq
    exact h.ctx_wellFormed q dtx (hother q dtx hq).2

theorem TableInv.dropSubUser {s : Server} (h : s.TableInv) {ptr : CtxPtr} {ctx : LinkCtx}
    {user : MsgUser} (hctx : s.heap[ptr]? = some ctx) (hsub : user ∈ ctx.subUsers) :
    (s.dropSubUser ptr ctx user).TableInv := by
  have hwf := h.ctx_wellFormed ptr ctx hctx
  have hbase : user ≠ ctx.baseUser := fun heq => hwf.base_not_sub (heq ▸ hsub)
  have huser : s.user2Ctx[user]? = some ptr :=
    h.ctx_user ptr ctx hctx user (LinkCtx.mem_users.mpr (.inr hsub))
  have hget : ∀ q : CtxPtr, (s.dropSubUser ptr ctx user).heap[q]? =
      if ptr = q then some { ctx with subUsers := ctx.subUsers.erase user } else s.heap[q]? := by
    intro q
    simp [Server.dropSubUser, ExtTreeMap.getElem?_insert]
  have hmem : ∀ other, other ∈ ({ ctx with subUsers := ctx.subUsers.erase user } : LinkCtx).users ↔
      other ∈ ctx.users ∧ other ≠ user := by
    intro other
    simp only [LinkCtx.mem_users, ExtTreeSet.mem_erase, ne_eq, Std.compare_eq_iff_eq]
    grind
  constructor
  case user_ctx =>
    intro other q hother
    simp only [Server.dropSubUser, ExtTreeMap.getElem?_erase, Std.compare_eq_iff_eq] at hother
    split at hother
    · cases hother
    · rename_i hne
      obtain ⟨dtx, hq, hin⟩ := h.user_ctx other q hother
      rw [hget]
      split
      · grind
      · exact ⟨dtx, hq, hin⟩
  case session_ctx =>
    intro session q hs
    obtain ⟨dtx, hq, rfl⟩ := h.session_ctx session q hs
    rw [hget]
    split
    · grind
    · exact ⟨dtx, hq, rfl⟩
  case ctx_session =>
    intro q dtx hq
    rw [hget] at hq
    split at hq
    · grind [h.ctx_session ptr ctx hctx, Server.dropSubUser]
    · exact h.ctx_session q dtx hq
  case ctx_user =>
    intro q dtx hq other hin
    simp only [Server.dropSubUser, ExtTreeMap.getElem?_erase, Std.compare_eq_iff_eq]
    rw [hget] at hq
    split at hq
    · rename_i heq
      cases Option.some.inj hq
      obtain ⟨hin, hne⟩ := (hmem other).mp hin
      rw [if_neg hne.symm, ← heq, h.ctx_user ptr ctx hctx other hin]
    · rename_i hne
      have hold := h.ctx_user q dtx hq other hin
      rw [if_neg (by rintro rfl; exact hne (by rw [huser] at hold; exact Option.some.inj hold)), hold]
  case ctx_wellFormed =>
    intro q dtx hq
    rw [hget] at hq
    split at hq
    · cases Option.some.inj hq
      constructor
      · exact hwf.base_valid
      · simp [ExtTreeSet.mem_erase, hwf.base_not_sub]
      · exact fun u hu => hwf.sub_valid u (ExtTreeSet.mem_of_mem_erase hu)
      · exact fun u hu => hwf.sub_c2s u (ExtTreeSet.mem_of_mem_erase hu)
    · exact h.ctx_wellFormed q dtx hq

theorem TableInv.insertLink {s : Server} (h : s.TableInv) {session : Session} {ptr : CtxPtr}
    {baseUser : MsgUser} {isC2s : Bool} (hvalid : baseUser.valid = true)
    (hptr : s.heap[ptr]? = none) (hsession : s.session2Ctx[session]? = none)
    (hbase : s.user2Ctx[baseUser]? = none) :
    (s.insertLink session ptr baseUser isC2s).TableInv := by
  have hget : ∀ q : CtxPtr, (s.insertLink session ptr baseUser isC2s).heap[q]? =
      if ptr = q then some ⟨session, baseUser, ∅, isC2s⟩ else s.heap[q]? := by
    intro q
    simp [Server.insertLink, ExtTreeMap.getElem?_insert]
  have husers : ∀ user, user ∈ (⟨session, baseUser, ∅, isC2s⟩ : LinkCtx).users ↔
      user = baseUser := by
    intro user
    simp [LinkCtx.mem_users]
  constructor
  case user_ctx =>
    intro user q huser
    simp only [Server.insertLink, ExtTreeMap.getElem?_insert, Std.compare_eq_iff_eq] at huser
    rw [hget]
    split at huser
    · grind
    · obtain ⟨ctx, hq, hin⟩ := h.user_ctx user q huser
      rw [if_neg (by rintro rfl; simp [hptr] at hq)]
      exact ⟨ctx, hq, hin⟩
  case session_ctx =>
    intro other q hs
    simp only [Server.insertLink, ExtTreeMap.getElem?_insert, Std.compare_eq_iff_eq] at hs
    rw [hget]
    split at hs
    · grind
    · obtain ⟨ctx, hq, heq⟩ := h.session_ctx other q hs
      rw [if_neg (by rintro rfl; simp [hptr] at hq)]
      exact ⟨ctx, hq, heq⟩
  case ctx_session =>
    intro q ctx hq
    simp only [Server.insertLink, ExtTreeMap.getElem?_insert, Std.compare_eq_iff_eq]
    rw [hget] at hq
    split at hq
    · grind
    · have hold := h.ctx_session q ctx hq
      rw [if_neg (by rintro rfl; simp [hsession] at hold), hold]
  case ctx_user =>
    intro q ctx hq user hin
    simp only [Server.insertLink, ExtTreeMap.getElem?_insert, Std.compare_eq_iff_eq]
    rw [hget] at hq
    split at hq
    · cases Option.some.inj hq
      simp_all
    · have hold := h.ctx_user q ctx hq user hin
      rw [if_neg (by rintro rfl; simp [hbase] at hold), hold]
  case ctx_wellFormed =>
    intro q ctx hq
    rw [hget] at hq
    split at hq
    · cases Option.some.inj hq
      constructor <;> simp [hvalid]
    · exact h.ctx_wellFormed q ctx hq

theorem TableInv.insertSubUser {s : Server} (h : s.TableInv) {ptr : CtxPtr} {ctx : LinkCtx}
    {user : MsgUser} (hctx : s.heap[ptr]? = some ctx) (hvalid : user.valid = true)
    (hc2s : ctx.isC2s = true) (hclass : ctx.baseUser.classId = serverCid)
    (huser : s.user2Ctx[user]? = none) : (s.insertSubUser ptr ctx user).TableInv := by
  have hwf := h.ctx_wellFormed ptr ctx hctx
  have hget : ∀ q : CtxPtr, (s.insertSubUser ptr ctx user).heap[q]? =
      if ptr = q then some { ctx with subUsers := ctx.subUsers.insert user } else s.heap[q]? := by
    intro q
    simp [Server.insertSubUser, ExtTreeMap.getElem?_insert]
  have hmem : ∀ other, other ∈ ({ ctx with subUsers := ctx.subUsers.insert user } : LinkCtx).users ↔
      other ∈ ctx.users ∨ other = user := by
    intro other
    simp only [LinkCtx.mem_users, ExtTreeSet.mem_insert, Std.compare_eq_iff_eq]
    grind
  constructor
  case user_ctx =>
    intro other q hother
    simp only [Server.insertSubUser, ExtTreeMap.getElem?_insert, Std.compare_eq_iff_eq] at hother
    rw [hget]
    split at hother
    · grind
    · obtain ⟨dtx, hq, hin⟩ := h.user_ctx other q hother
      split
      · grind
      · exact ⟨dtx, hq, hin⟩
  case session_ctx =>
    intro session q hs
    obtain ⟨dtx, hq, rfl⟩ := h.session_ctx session q hs
    rw [hget]
    split
    · grind
    · exact ⟨dtx, hq, rfl⟩
  case ctx_session =>
    intro q dtx hq
    rw [hget] at hq
    split at hq
    · grind [h.ctx_session ptr ctx hctx, Server.insertSubUser]
    · exact h.ctx_session q dtx hq
  case ctx_user =>
    intro q dtx hq other hin
    simp only [Server.insertSubUser, ExtTreeMap.getElem?_insert, Std.compare_eq_iff_eq]
    rw [hget] at hq
    split at hq
    · rename_i heq
      cases Option.some.inj hq
      split
      · rw [heq]
      · rename_i hne
        obtain hin | rfl := (hmem other).mp hin
        · rw [← heq, h.ctx_user ptr ctx hctx other hin]
        · exact absurd rfl hne
    · have hold := h.ctx_user q dtx hq other hin
      rw [if_neg (by rintro rfl; simp [huser] at hold), hold]
  case ctx_wellFormed =>
    intro q dtx hq
    rw [hget] at hq
    split at hq
    · cases Option.some.inj hq
      have hne : user ≠ ctx.baseUser := by
        rintro rfl
        have := h.ctx_user ptr ctx hctx _ (LinkCtx.mem_users.mpr (.inl rfl))
        simp [huser] at this
      constructor
      · exact hwf.base_valid
      · simp [ExtTreeSet.mem_insert, hne, hwf.base_not_sub]
      · intro u hu
        simp only [ExtTreeSet.mem_insert, Std.compare_eq_iff_eq] at hu
        rcases hu with rfl | hu
        · exact hvalid
        · exact hwf.sub_valid u hu
      · exact fun _ _ => ⟨hc2s, hclass⟩
    · exact h.ctx_wellFormed q dtx hq

/-- Everything the "remove old" block can do. -/
theorem TableInv.removeOld_cases {s : Server} (h : s.TableInv) (user : MsgUser)
    (keeper : Option MsgUser) :
    (s.user2Ctx[user]? = none ∧ s.removeOld user keeper = some ⟨s, ∅, none, []⟩) ∨
    (∃ (ptr : CtxPtr) (ctx : LinkCtx), s.heap[ptr]? = some ctx ∧ user = ctx.baseUser ∧
      s.removeOld user keeper = some ⟨s.dropLink ctx.session ptr ctx, ctx.subUsers.insert user,
        some ctx.session, []⟩) ∨
    (∃ (ptr : CtxPtr) (ctx : LinkCtx), s.heap[ptr]? = some ctx ∧ user ∈ ctx.subUsers ∧
      s.removeOld user keeper = some ⟨s.dropSubUser ptr ctx user, (∅ : UserSet).insert user, none,
        if keeper = some ctx.baseUser then []
        else notifyKickout ctx.session ctx.baseUser user⟩) := by
  cases hptr : s.user2Ctx[user]? with
  | none => exact .inl ⟨rfl, by simp [removeOld, hptr]⟩
  | some ptr =>
    obtain ⟨ctx, hctx, hin⟩ := h.user_ctx user ptr hptr
    by_cases hbase : user = ctx.baseUser
    · exact .inr (.inl ⟨ptr, ctx, hctx, hbase, by simp [removeOld, hptr, hctx, ← hbase]⟩)
    · have hsub := (LinkCtx.mem_users.mp hin).resolve_left hbase
      exact .inr (.inr ⟨ptr, ctx, hctx, hsub, by simp [removeOld, hptr, hctx, hbase]⟩)

/-- The block keeps the tables, frees the user, brings nothing back, and on a
link of another base user touches at most the removed sub user. -/
theorem TableInv.removeOld {s : Server} (h : s.TableInv) (user : MsgUser)
    (keeper : Option MsgUser) :
    ∃ old, s.removeOld user keeper = some old ∧ old.server.TableInv ∧
      old.server.user2Ctx[user]? = none ∧
      (∀ ptr : CtxPtr, s.heap[ptr]? = none → old.server.heap[ptr]? = none) ∧
      (∀ session : Session, s.session2Ctx[session]? = none →
        old.server.session2Ctx[session]? = none) ∧
      (∀ (ptr : CtxPtr) (ctx : LinkCtx), s.heap[ptr]? = some ctx → user ≠ ctx.baseUser →
        ∃ subUsers, old.server.heap[ptr]? = some { ctx with subUsers } ∧
          ∀ other, other ∈ subUsers ↔ other ∈ ctx.subUsers ∧ other ≠ user) := by
  rcases h.removeOld_cases user keeper with
    ⟨hnone, heq⟩ | ⟨ptr, ctx, hctx, hbase, heq⟩ | ⟨ptr, ctx, hctx, hsub, heq⟩
  · refine ⟨_, heq, h, hnone, fun _ hp => hp, fun _ hs => hs, fun q dtx hq _ => ?_⟩
    refine ⟨dtx.subUsers, hq, fun other => ⟨fun hin => ⟨hin, ?_⟩, fun hin => hin.1⟩⟩
    rintro rfl
    simp [h.ctx_user q dtx hq _ (LinkCtx.mem_users.mpr (.inr hin))] at hnone
  · refine ⟨_, heq, h.dropLink hctx, ?_, fun q hq => ?_, fun session hs => ?_, fun q dtx hq hne => ?_⟩
    · simp [Server.dropLink, LinkCtx.mem_users, hbase]
    · simp [Server.dropLink, ExtTreeMap.getElem?_erase, hq]
    · simp [Server.dropLink, ExtTreeMap.getElem?_erase, hs]
    · have hptr : ptr ≠ q := by rintro rfl; grind
      refine ⟨dtx.subUsers, by simp [Server.dropLink, ExtTreeMap.getElem?_erase, hptr, hq],
        fun other => ⟨fun hin => ⟨hin, ?_⟩, fun hin => hin.1⟩⟩
      rintro rfl
      exact hptr (h.ptr_unique hctx hq (LinkCtx.mem_users.mpr (.inl hbase))
        (LinkCtx.mem_users.mpr (.inr hin)))
  · refine ⟨_, heq, h.dropSubUser hctx hsub, ?_, fun q hq => ?_, fun session hs => hs,
      fun q dtx hq _ => ?_⟩
    · simp [Server.dropSubUser]
    · have hptr : ptr ≠ q := by rintro rfl; simp [hctx] at hq
      simp [Server.dropSubUser, ExtTreeMap.getElem?_insert, hptr, hq]
    · by_cases hptr : ptr = q
      · subst hptr
        cases Option.some.inj (hctx.symm.trans hq)
        refine ⟨ctx.subUsers.erase user, by simp [Server.dropSubUser], fun other => ?_⟩
        simp only [ExtTreeSet.mem_erase, ne_eq, Std.compare_eq_iff_eq]
        grind
      · refine ⟨dtx.subUsers, by simp [Server.dropSubUser, ExtTreeMap.getElem?_insert, hptr, hq],
          fun other => ⟨fun hin => ⟨hin, ?_⟩, fun hin => hin.1⟩⟩
        rintro rfl
        exact hptr (h.ptr_unique hctx hq (LinkCtx.mem_users.mpr (.inr hsub))
          (LinkCtx.mem_users.mpr (.inr hin)))

theorem TableInv.asyncKickoutUser {s : Server} (h : s.TableInv) (user : MsgUser) :
    ∃ r, s.asyncKickoutUser user = some r ∧ r.1.TableInv := by
  obtain ⟨old, heq, hinv, -⟩ := h.removeOld user none
  exact ⟨_, by simp only [Server.asyncKickoutUser, heq]; rfl, hinv⟩

theorem TableInv.addBaseUser {s : Server} (h : s.TableInv) {newSession : Option Session}
    {ptr : CtxPtr} (hptr : s.heap[ptr]? = none)
    (hsession : ∀ session ∈ newSession, s.session2Ctx[session]? = none) (baseUser : MsgUser)
    (publicIp : String) (appData : Int) (isC2s : Bool) :
    ∃ r, s.addBaseUser newSession ptr baseUser publicIp appData isC2s = some r ∧
      r.1.TableInv := by
  unfold Server.addBaseUser
  by_cases hvalid : baseUser.valid = true
  · cases newSession with
    | none => exact ⟨_, by simp only [hvalid]; rfl, h⟩
    | some session =>
      obtain ⟨old, heq, hinv, huser, hheap, hsess, -⟩ := h.removeOld baseUser none
      refine ⟨_, by simp only [hvalid, heq]; rfl, ?_⟩
      exact hinv.insertLink hvalid (hheap ptr hptr) (hsess session (hsession session rfl)) huser
  · exact ⟨_, by simp only [hvalid]; rfl, h⟩

theorem TableInv.addSubUser {s : Server} (h : s.TableInv) (c2sUser subUser : MsgUser)
    (publicIp : String) (msg : DownMsg) (appData : Int) :
    ∃ r, s.addSubUser c2sUser subUser publicIp msg appData = some r ∧ r.1.TableInv := by
  unfold Server.addSubUser
  split
  · exact ⟨_, rfl, h⟩
  · rename_i hcheck
    simp only [ne_eq, decide_not, Bool.or_eq_true, Bool.not_eq_eq_eq_not, Bool.not_true,
      decide_eq_false_iff_not, beq_iff_eq, decide_eq_true_eq, not_or, Decidable.not_not,
      Bool.not_eq_false] at hcheck
    obtain ⟨⟨⟨hclass, -⟩, hvalid⟩, hne⟩ := hcheck
    cases hptr : s.user2Ctx[c2sUser]? with
    | none => exact ⟨_, rfl, h⟩
    | some newPtr =>
      obtain ⟨newCtx, hctx, -⟩ := h.user_ctx c2sUser newPtr hptr
      obtain ⟨old, heq, hinv, huser, -, -, hframe⟩ := h.removeOld subUser (some c2sUser)
      simp only [hctx, Option.bind_eq_bind, Option.bind_some]
      split
      · exact ⟨_, rfl, h⟩
      · rename_i hlink
        simp only [ne_eq, Bool.or_eq_true, Bool.not_eq_eq_eq_not, Bool.not_true,
          decide_eq_true_eq, not_or, Bool.not_eq_false, Decidable.not_not] at hlink
        obtain ⟨hc2s, rfl⟩ := hlink
        obtain ⟨subUsers, hnew, -⟩ := hframe newPtr newCtx hctx hne
        refine ⟨_, by simp only [heq, hnew, Option.bind_some]; rfl, ?_⟩
        exact hinv.insertSubUser hnew hvalid hc2s hclass huser

theorem TableInv.processMsgClientLogin {s : Server} (h : s.TableInv) {session : Session}
    {c2sUser clientId : MsgUser} {clientIndex : Nat} {publicIp : String} {hash : List Char}
    {check : Option CheckResult} {r : Server × List ServerCall}
    (hr : s.processMsgClientLogin session c2sUser clientIndex clientId publicIp hash check =
      some r) : r.1.TableInv := by
  unfold Server.processMsgClientLogin at hr
  split at hr
  · exact Option.some.inj hr ▸ h
  · split at hr
    · exact Option.some.inj hr ▸ h
    · cases check with
      | none => exact Option.some.inj hr ▸ h
      | some result =>
        dsimp only at hr
        split at hr
        · exact Option.some.inj hr ▸ h
        · obtain ⟨r', hr', hinv⟩ := h.addSubUser c2sUser (result.apply clientId) publicIp
            (.clientLoginOk clientIndex (result.apply clientId)) result.appData
          exact Option.some.inj (hr.symm.trans hr') ▸ hinv

theorem TableInv.processMsgClientLogout {s : Server} (h : s.TableInv)
    (c2sUser subUser : MsgUser) :
    ∃ r, s.processMsgClientLogout c2sUser subUser = some r ∧ r.1.TableInv := by
  unfold Server.processMsgClientLogout
  split
  · exact ⟨_, rfl, h⟩
  · rename_i hcheck
    cases hptr : s.user2Ctx[subUser]? with
    | none => exact ⟨_, rfl, h⟩
    | some ptr =>
      obtain ⟨ctx, hctx, hin⟩ := h.user_ctx subUser ptr hptr
      simp only [hctx, Option.bind_eq_bind, Option.bind_some]
      split
      · exact ⟨_, rfl, h⟩
      · rename_i hlink
        refine ⟨_, rfl, h.dropSubUser hctx ((LinkCtx.mem_users.mp hin).resolve_left ?_)⟩
        grind

theorem TableInv.asyncOnCloseSession {s : Server} (h : s.TableInv) (session : Session)
    (errorCode sslCode : Int) :
    ∃ r, s.asyncOnCloseSession session errorCode sslCode = some r ∧ r.1.TableInv := by
  unfold Server.asyncOnCloseSession
  cases hptr : s.session2Ctx[session]? with
  | none => exact ⟨_, rfl, h⟩
  | some ptr =>
    obtain ⟨ctx, hctx, rfl⟩ := h.session_ctx session ptr hptr
    exact ⟨_, by simp only [hctx]; rfl, h.dropLink hctx⟩

end Server

end Pronet.Msg
