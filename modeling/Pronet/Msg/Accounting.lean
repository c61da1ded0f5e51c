import Pronet.Msg.MsgServer

/-! The instances that `CMsgServer` counts are the users that are logged in, and no
user has more of them than its row allows. -/
namespace Pronet.Msg

open Std Library Runs

namespace MsgServer

/-- `m_uid2Ctx[cid][uid].iids`, if there is a context. -/
def ctx? (s : MsgServer) (classId : UInt8) (userId : Nat) : Option (ExtTreeSet UInt16) :=
  (s.uid2Ctx classId)[userId]?

/-- The instance is counted. -/
def has (s : MsgServer) (user : MsgUser) : Bool :=
  (s.ctx? user.classId user.userId).any fun iids => decide (user.instId ∈ iids)

theorem ctx?_onOkUser (s : MsgServer) {user : MsgUser} {publicIp : String} (hvalid : user.valid = true)
    (hip : publicIp.isEmpty = false) (classId : UInt8) (userId : Nat) :
    (s.onOkUser user publicIp).ctx? classId userId =
      if user.classId = classId ∧ user.userId = userId then
        some (((s.ctx? classId userId).getD ∅).insert user.instId)
      else s.ctx? classId userId := by
  unfold onOkUser ctx?
  rw [hvalid, hip]
  simp only [Bool.not_true, Bool.or_self, Bool.false_eq_true, if_false]
  by_cases hclass : classId = user.classId
  · subst hclass
    rw [Function.update_self, ExtTreeMap.getElem?_insert]
    by_cases huser : user.userId = userId
    · subst huser
      simp
    · simp [huser]
  · rw [Function.update_of_ne hclass, if_neg (fun hboth => hclass hboth.1.symm)]

theorem ctx?_onCloseUser (s : MsgServer) {user : MsgUser} (hvalid : user.valid = true)
    (classId : UInt8) (userId : Nat) :
    (s.onCloseUser user).ctx? classId userId =
      if user.classId = classId ∧ user.userId = userId then
        (s.ctx? classId userId).bind fun iids =>
          if (iids.erase user.instId).size = 0 then none else some (iids.erase user.instId)
      else s.ctx? classId userId := by
  unfold onCloseUser ctx?
  rw [hvalid]
  simp only [Bool.not_true, Bool.false_eq_true, if_false]
  cases hctx : (s.uid2Ctx user.classId)[user.userId]? with
  | none =>
    dsimp only
    split
    · rename_i hboth
      rw [← hboth.1, ← hboth.2, hctx]
      rfl
    · rfl
  | some iids =>
    dsimp only
    by_cases hclass : classId = user.classId
    · subst hclass
      rw [Function.update_self]
      by_cases huser : user.userId = userId
      · subst huser
        simp only [and_self, if_true, hctx, Option.bind_some]
        split
        · exact ExtTreeMap.getElem?_erase_self
        · exact ExtTreeMap.getElem?_insert_self
      · have hkeep : ¬ (user.classId = user.classId ∧ user.userId = userId) :=
          fun hboth => huser hboth.2
        rw [if_neg hkeep]
        split
        · rw [ExtTreeMap.getElem?_erase, if_neg]
          simpa using huser
        · rw [ExtTreeMap.getElem?_insert, if_neg]
          simpa using huser
    · rw [Function.update_of_ne hclass, if_neg (fun hboth => hclass hboth.1.symm)]

/-- No context is empty, and every context is that of a user id. -/
structure Proper (s : MsgServer) : Prop where
  nonempty : ∀ (classId : UInt8) (userId : Nat), ∀ iids ∈ s.ctx? classId userId, iids.size ≠ 0
  ids : ∀ (classId : UInt8) (userId : Nat), ∀ iids ∈ s.ctx? classId userId, userId < 2 ^ 40

theorem proper_init : init.Proper := by
  refine ⟨?_, ?_⟩
  · intro classId userId iids h
    simp [init, ctx?] at h
  · intro classId userId iids h
    simp [init, ctx?] at h

theorem size_ne_zero_of_mem {iids : ExtTreeSet UInt16} {instId : UInt16} (h : instId ∈ iids) :
    iids.size ≠ 0 := by
  intro hzero
  rw [← ExtTreeSet.mem_toList,
    List.eq_nil_of_length_eq_zero (ExtTreeSet.length_toList.trans hzero)] at h
  cases h

theorem Proper.onOkUser {s : MsgServer} (h : s.Proper) {user : MsgUser} {publicIp : String}
    (hvalid : user.valid = true) (hip : publicIp.isEmpty = false) :
    (s.onOkUser user publicIp).Proper := by
  refine ⟨?_, ?_⟩
  · intro classId userId iids hiids
    rw [s.ctx?_onOkUser hvalid hip] at hiids
    split at hiids
    · cases hiids
      exact size_ne_zero_of_mem ExtTreeSet.mem_insert_self
    · exact h.nonempty classId userId iids hiids
  · intro classId userId iids hiids
    rw [s.ctx?_onOkUser hvalid hip] at hiids
    split at hiids
    · rename_i hboth
      rw [← hboth.2]
      exact user.userId_lt
    · exact h.ids classId userId iids hiids

theorem Proper.onCloseUser {s : MsgServer} (h : s.Proper) {user : MsgUser}
    (hvalid : user.valid = true) : (s.onCloseUser user).Proper := by
  refine ⟨?_, ?_⟩
  · intro classId userId iids hiids
    rw [s.ctx?_onCloseUser hvalid] at hiids
    split at hiids
    · rw [Option.mem_def, Option.bind_eq_some_iff] at hiids
      obtain ⟨before, _, hiids⟩ := hiids
      split at hiids
      · cases hiids
      · rename_i hsize
        cases hiids
        exact hsize
    · exact h.nonempty classId userId iids hiids
  · intro classId userId iids hiids
    rw [s.ctx?_onCloseUser hvalid] at hiids
    split at hiids
    · rename_i hboth
      rw [← hboth.2]
      exact user.userId_lt
    · exact h.ids classId userId iids hiids

theorem has_onOkUser (s : MsgServer) {user : MsgUser} {publicIp : String} (hvalid : user.valid = true)
    (hip : publicIp.isEmpty = false) (other : MsgUser) :
    (s.onOkUser user publicIp).has other = (decide (user = other) || s.has other) := by
  unfold has
  rw [s.ctx?_onOkUser hvalid hip]
  by_cases hboth : user.classId = other.classId ∧ user.userId = other.userId
  · rw [if_pos hboth, Option.any_some, Bool.eq_iff_iff]
    simp only [decide_eq_true_eq, Bool.or_eq_true, ExtTreeSet.mem_insert,
      LawfulEqCmp.compare_eq_iff_eq]
    have heq : user.instId = other.instId ↔ user = other :=
      ⟨MsgUser.eq_of_ids hboth.1 hboth.2, fun h => h ▸ rfl⟩
    rw [heq]
    cases s.ctx? other.classId other.userId <;> simp
  · rw [if_neg hboth]
    have hne : user ≠ other := by
      intro heq
      subst heq
      exact hboth ⟨rfl, rfl⟩
    simp [hne]

theorem has_onCloseUser (s : MsgServer) {user : MsgUser} (hvalid : user.valid = true)
    (other : MsgUser) :
    (s.onCloseUser user).has other = (!decide (user = other) && s.has other) := by
  unfold has
  rw [s.ctx?_onCloseUser hvalid]
  by_cases hboth : user.classId = other.classId ∧ user.userId = other.userId
  · rw [if_pos hboth]
    have heq : user.instId = other.instId ↔ user = other :=
      ⟨MsgUser.eq_of_ids hboth.1 hboth.2, fun h => h ▸ rfl⟩
    cases s.ctx? other.classId other.userId with
    | none => simp
    | some iids =>
      rw [Option.bind_some, Option.any_some, Bool.eq_iff_iff]
      have hmem : other.instId ∈ iids.erase user.instId ↔ ¬ user = other ∧ other.instId ∈ iids := by
        rw [ExtTreeSet.mem_erase, ne_eq, LawfulEqCmp.compare_eq_iff_eq, heq]
      split
      · rename_i hzero
        simp only [Option.any_none, Bool.false_eq_true, Bool.and_eq_true, Bool.not_eq_true',
          decide_eq_false_iff_not, decide_eq_true_eq, false_iff]
        intro hin
        exact size_ne_zero_of_mem (hmem.mpr hin) hzero
      · simp [hmem]
  · rw [if_neg hboth]
    have hne : user ≠ other := by
      intro heq
      subst heq
      exact hboth ⟨rfl, rfl⟩
    simp [hne]

end MsgServer

namespace ServerCall

/-- The call is one that the observer does not turn away. -/
def Reportable : ServerCall → Prop
  | .onOkUser user publicIp _ _ => user.valid = true ∧ publicIp.isEmpty = false
  | .onCloseUser user _ _ => user.valid = true
  | _ => True

def okIp? : ServerCall → Option String
  | .onOkUser _ publicIp _ _ => some publicIp
  | _ => none

end ServerCall

namespace MsgServer

theorem Proper.observe {calls : List ServerCall} {s : MsgServer} (h : s.Proper)
    (hcalls : ∀ call ∈ calls, call.Reportable) : (calls.foldl observe s).Proper := by
  induction calls generalizing s with
  | nil => exact h
  | cons call calls ih =>
    rw [List.forall_mem_cons] at hcalls
    rw [List.foldl_cons]
    apply ih _ hcalls.2
    cases call with
    | onOkUser user publicIp c2sUser appData => exact h.onOkUser hcalls.1.1 hcalls.1.2
    | onCloseUser user errorCode sslCode => exact h.onCloseUser hcalls.1
    | _ => exact h

/-- Only the callbacks of a user matter for it: the last one counts. -/
theorem has_observe {calls : List ServerCall} (hcalls : ∀ call ∈ calls, call.Reportable)
    (s : MsgServer) (user : MsgUser) :
    (calls.foldl observe s).has user =
      (callbacksOf user calls).foldl (fun _ callback => decide (callback = .onOkUser)) (s.has user) := by
  induction calls generalizing s with
  | nil => rfl
  | cons call calls ih =>
    rw [List.forall_mem_cons] at hcalls
    rw [List.foldl_cons, ih hcalls.2]
    cases call with
    | onOkUser other publicIp c2sUser appData =>
      simp only [MsgServer.observe, s.has_onOkUser hcalls.1.1 hcalls.1.2]
      by_cases heq : other = user <;> simp [callbacksOf, ServerCall.callback?, heq]
    | onCloseUser other errorCode sslCode =>
      simp only [MsgServer.observe, s.has_onCloseUser hcalls.1]
      by_cases heq : other = user <;> simp [callbacksOf, ServerCall.callback?, heq]
    | _ => rfl

end MsgServer

namespace Server

theorem Effect.reportable {s : Server} {r : Server × List ServerCall} {old : UserSet}
    {new : Option MsgUser} (heffect : s.Effect r old new) (h : s.TableInv) (hnext : r.1.TableInv)
    (hips : ∀ publicIp ∈ r.2.filterMap ServerCall.okIp?, publicIp.isEmpty = false) :
    ∀ call ∈ r.2, call.Reportable := by
  have hkey : ∀ (t : Server), t.TableInv → ∀ user ∈ t.user2Ctx, user.valid = true := by
    intro t ht user huser
    rw [ExtTreeMap.mem_iff_isSome_getElem?] at huser
    obtain ⟨ptr, hptr⟩ := Option.isSome_iff_exists.mp huser
    obtain ⟨ctx, hctx, hmem⟩ := ht.user_ctx user ptr hptr
    have hwf := ht.ctx_wellFormed ptr ctx hctx
    cases LinkCtx.mem_users.mp hmem with
    | inl hbase => exact hbase ▸ hwf.base_valid
    | inr hsub => exact hwf.sub_valid user hsub
  intro call hcall
  cases call with
  | onOkUser user publicIp c2sUser appData =>
    have hmem : UserCallback.onOkUser ∈ callbacksOf user r.2 := by
      unfold callbacksOf
      rw [List.mem_filterMap]
      exact ⟨_, hcall, by simp [ServerCall.callback?]⟩
    rw [heffect.callbacks user] at hmem
    have hnew : new = some user := by
      by_contra hne
      rw [if_neg hne] at hmem
      split at hmem <;> simp at hmem
    refine ⟨hkey r.1 hnext user ((heffect.keys user).mpr (Or.inl hnew)), hips publicIp ?_⟩
    rw [List.mem_filterMap]
    exact ⟨_, hcall, rfl⟩
  | onCloseUser user errorCode sslCode =>
    have hmem : UserCallback.onCloseUser ∈ callbacksOf user r.2 := by
      unfold callbacksOf
      rw [List.mem_filterMap]
      exact ⟨_, hcall, by simp [ServerCall.callback?]⟩
    rw [heffect.callbacks user] at hmem
    have hold : user ∈ old := by
      by_contra hne
      rw [if_neg hne] at hmem
      split at hmem <;> simp at hmem
    exact hkey s h user (heffect.online user hold)
  | _ => trivial

/-- An operation that adds nobody reports nobody. -/
theorem Effect.okIps {s : Server} {r : Server × List ServerCall} {old : UserSet}
    (heffect : s.Effect r old none) : ∀ ip ∈ r.2.filterMap ServerCall.okIp?, ip.isEmpty = false := by
  intro ip hip
  rw [List.mem_filterMap] at hip
  obtain ⟨call, hcall, hsome⟩ := hip
  cases call with
  | onOkUser user publicIp c2sUser appData =>
    have hmem : UserCallback.onOkUser ∈ callbacksOf user r.2 := by
      unfold callbacksOf
      rw [List.mem_filterMap]
      exact ⟨_, hcall, by simp [ServerCall.callback?]⟩
    rw [heffect.callbacks user] at hmem
    split at hmem <;> simp at hmem
  | _ => cases hsome

theorem okIps_closeUsers (users : UserSet) (errorCode sslCode : Int) :
    (closeUsers users errorCode sslCode).filterMap ServerCall.okIp? = [] := by
  unfold closeUsers
  rw [List.filterMap_map]
  exact List.filterMap_eq_nil_iff.mpr (fun _ _ => rfl)

theorem okIps_deleteSession (session : Option Session) :
    (deleteSession session).filterMap ServerCall.okIp? = [] := by
  cases session <;> rfl

theorem okIps_removeOld {s : Server} {user : MsgUser} {keeper : Option MsgUser} {old : Removed}
    (hold : s.removeOld user keeper = some old) : old.calls.filterMap ServerCall.okIp? = [] := by
  unfold removeOld at hold
  split at hold
  · cases hold
    rfl
  · split at hold
    · cases hold
    · split at hold
      · cases hold
        rfl
      · cases hold
        dsimp only
        split
        · rfl
        · unfold notifyKickout
          split <;> rfl

theorem okIps_addBaseUser {s : Server} {newSession : Option Session} {ptr : CtxPtr}
    {baseUser : MsgUser} {publicIp : String} {appData : Int} {isC2s : Bool}
    {r : Server × List ServerCall}
    (hr : s.addBaseUser newSession ptr baseUser publicIp appData isC2s = some r) :
    ∀ ip ∈ r.2.filterMap ServerCall.okIp?, ip = publicIp := by
  unfold Server.addBaseUser at hr
  split at hr
  · cases hr
    simp
  · cases newSession with
    | none =>
      cases hr
      simp
    | some session =>
      dsimp only at hr
      rw [Option.bind_eq_bind, Option.bind_eq_some_iff] at hr
      obtain ⟨old, hold, heq⟩ := hr
      cases heq
      simp only [List.filterMap_append, okIps_removeOld hold, okIps_closeUsers, okIps_deleteSession]
      simp [ServerCall.okIp?, List.filterMap_cons]

theorem okIps_addSubUser {s : Server} {c2sUser subUser : MsgUser} {publicIp : String}
    {msg : DownMsg} {appData : Int} {r : Server × List ServerCall}
    (hr : s.addSubUser c2sUser subUser publicIp msg appData = some r) :
    ∀ ip ∈ r.2.filterMap ServerCall.okIp?, ip = publicIp := by
  unfold Server.addSubUser at hr
  split at hr
  · cases hr
    simp
  · cases hptr : s.user2Ctx[c2sUser]? with
    | none =>
      rw [hptr] at hr
      cases hr
      simp
    | some newPtr =>
      rw [hptr] at hr
      dsimp only at hr
      rw [Option.bind_eq_bind, Option.bind_eq_some_iff] at hr
      obtain ⟨ctx, _, hr⟩ := hr
      split at hr
      · cases hr
        simp
      · simp only [Option.bind_eq_bind, Option.bind_eq_some_iff] at hr
        obtain ⟨old, hold, newCtx, _, heq⟩ := hr
        cases heq
        have hredline : ∀ (redline : Prop) [Decidable redline] (session : Session) (bytes : Nat),
            (if redline then [ServerCall.setOutputRedline session bytes] else []).filterMap
              ServerCall.okIp? = [] := by
          intro redline _ session bytes
          split <;> rfl
        simp only [List.filterMap_append, okIps_removeOld hold, okIps_closeUsers,
          okIps_deleteSession, hredline]
        simp [ServerCall.okIp?, List.filterMap_cons]

/-- What `AsyncOnAcceptSession` can do. -/
theorem asyncOnAcceptSession_cases (s : Server) (sessionType : SessionType) (baseUser : MsgUser)
    (remoteIp : String) (check : Option CheckResult) (newSession : Option Session) (ptr : CtxPtr) :
    s.asyncOnAcceptSession sessionType baseUser remoteIp check newSession ptr = some (s, []) ∨
    ∃ result, check = some result ∧
      s.asyncOnAcceptSession sessionType baseUser remoteIp check newSession ptr =
        s.addBaseUser newSession ptr (result.apply baseUser) remoteIp result.appData result.isC2s := by
  unfold Server.asyncOnAcceptSession
  split
  · exact Or.inl rfl
  · cases check with
    | none => exact Or.inl rfl
    | some result =>
      dsimp only
      split
      · exact Or.inl rfl
      · exact Or.inr ⟨result, rfl, rfl⟩

/-- What `ProcessMsg_client_login` can do. -/
theorem processMsgClientLogin_cases (s : Server) (session : Session) (c2sUser : MsgUser)
    (clientIndex : Nat) (clientId : MsgUser) (publicIp : String) (hash : List Char)
    (check : Option CheckResult) :
    (∃ calls, (calls = [] ∨ calls = [.sendToC2s session c2sUser (.clientLoginError clientIndex)]) ∧
      s.processMsgClientLogin session c2sUser clientIndex clientId publicIp hash check =
        some (s, calls)) ∨
    ∃ result, check = some result ∧
      s.processMsgClientLogin session c2sUser clientIndex clientId publicIp hash check =
        s.addSubUser c2sUser (result.apply clientId) publicIp
          (.clientLoginOk clientIndex (result.apply clientId)) result.appData := by
  unfold Server.processMsgClientLogin
  split
  · exact Or.inl ⟨[], Or.inl rfl, rfl⟩
  · split
    · exact Or.inl ⟨[], Or.inl rfl, rfl⟩
    · cases check with
      | none => exact Or.inl ⟨_, Or.inr rfl, rfl⟩
      | some result =>
        dsimp only
        split
        · exact Or.inl ⟨_, Or.inr rfl, rfl⟩
        · exact Or.inr ⟨result, rfl, rfl⟩

end Server

namespace MsgServer

/-- The observer lets the user in: its row allows one more instance, or it is there. -/
def Admits (a : Admission) (s : MsgServer) (user : MsgUser) : Prop :=
  ∃ row, a.db.matchingRow user.classId user.userId = some row ∧
    ∀ iids ∈ s.ctx? user.classId user.userId, instRefused iids row.adjust user = false

theorem onCheckUser_eq_some {a : Admission} {s : MsgServer} {selected : Bool} {user : MsgUser}
    {publicIp : String} {hash : List UInt8} {nonce : UInt64} {result : CheckResult}
    (h : s.onCheckUser a selected user publicIp hash nonce = some result) :
    publicIp.isEmpty = false ∧ s.Admits a user ∧ result.userId = user.userId ∧
      result.instId = user.instId := by
  unfold onCheckUser at h
  simp only [Option.bind_eq_bind] at h
  split at h
  · cases h
  · rename_i hfirst
    simp only [Bool.or_eq_true, not_or, Bool.not_eq_true] at hfirst
    rw [Option.bind_eq_some_iff] at h
    obtain ⟨row, hrow, h⟩ := h
    rw [Option.map_eq_some_iff] at hrow
    obtain ⟨raw, hraw, rfl⟩ := hrow
    split at h
    · cases h
    · split at h
      · cases h
      · rename_i hinst
        split at h
        · cases h
        · cases h
          refine ⟨hfirst.1.2, ⟨raw, hraw, ?_⟩, rfl, rfl⟩
          intro iids hiids
          have hctx : (s.uid2Ctx user.classId)[user.userId]? = some iids := hiids
          rw [hctx, Option.any_some] at hinst
          simpa using hinst

/-- An online user of the server class is not let in again. -/
theorem onCheckUser_busy {a : Admission} {s : MsgServer} {selected : Bool} {user : MsgUser}
    {publicIp : String} {hash : List UInt8} {nonce : UInt64} (hclass : user.classId = serverCid)
    (hon : s.has user = true) : s.onCheckUser a selected user publicIp hash nonce = none := by
  cases hcheck : s.onCheckUser a selected user publicIp hash nonce with
  | none => rfl
  | some result =>
    obtain ⟨_, ⟨row, _, hinst⟩, _⟩ := onCheckUser_eq_some hcheck
    obtain ⟨iids, hiids, hmem⟩ := (Option.any_eq_true _ _).mp hon
    have hrefused := hinst iids hiids
    rw [decide_eq_true_eq] at hmem
    simp [instRefused, hclass, hmem] at hrefused

end MsgServer

theorem CheckResult.apply_madeUser {result : CheckResult} {user : MsgUser} {madeId : Nat}
    (huser : result.userId = (madeUser user madeId).userId)
    (hinst : result.instId = (madeUser user madeId).instId) :
    result.apply user = madeUser user madeId := by
  refine MsgUser.eq_of_ids ?_ ?_ hinst
  · unfold madeUser
    split <;> rfl
  · unfold CheckResult.apply
    rw [huser]
    exact MsgUser.userId_setUserId user (madeUser user madeId).userId_lt

namespace MsgStation

open Server

/-- An operation of the station: it removes users and adds at most the one that the
observer has let in. -/
theorem effect_perform {a : Admission} {w : MsgStation} (h : w.server.TableInv) {op : StationOp}
    {r : Server × List ServerCall} (hr : w.perform a op = some r) :
    ∃ old new, w.server.Effect r old new ∧
      (∀ ip ∈ r.2.filterMap ServerCall.okIp?, ip.isEmpty = false) ∧
      ∀ user ∈ new, w.msgServer.Admits a user := by
  cases op with
  | acceptSession sessionType baseUser remoteIp hash nonce madeId selected newSession ptr =>
    simp only [perform] at hr
    rcases asyncOnAcceptSession_cases w.server sessionType baseUser remoteIp
      (w.msgServer.onCheckUser a selected (madeUser baseUser madeId) remoteIp hash nonce)
      newSession ptr with hnothing | ⟨result, hcheck, hadd⟩
    · rw [hnothing, Option.some.injEq] at hr
      subst hr
      exact ⟨∅, none, w.server.effect_nothing, by simp, by simp⟩
    · rw [hadd] at hr
      obtain ⟨hip, hadmits, huser, hinst⟩ := MsgServer.onCheckUser_eq_some hcheck
      obtain ⟨old, new, heffect, hnew⟩ := h.effect_addBaseUser hr
      refine ⟨old, new, heffect, ?_, ?_⟩
      · intro ip hmem
        rw [okIps_addBaseUser hr ip hmem]
        exact hip
      · intro user hmem
        rw [hnew user hmem, CheckResult.apply_madeUser huser hinst]
        exact hadmits
  | clientLogin session c2sUser clientIndex clientId publicIp hashString hash nonce madeId selected =>
    simp only [perform] at hr
    rcases processMsgClientLogin_cases w.server session c2sUser clientIndex clientId publicIp hashString
      (w.msgServer.onCheckUser a selected (madeUser clientId madeId) publicIp hash nonce) with
      ⟨calls, hcalls, hnothing⟩ | ⟨result, hcheck, hadd⟩
    · rw [hnothing, Option.some.injEq] at hr
      subst hr
      have hremoves := w.server.removes_nothing
      have hquiet : ∀ user, callbacksOf user calls = [] := by
        intro user
        obtain rfl | rfl := hcalls <;> rfl
      refine ⟨∅, none, hremoves.effect ?_, ?_, by simp⟩
      · intro user
        simp [hquiet user]
      · obtain rfl | rfl := hcalls <;> simp [ServerCall.okIp?, List.filterMap_cons]
    · rw [hadd] at hr
      obtain ⟨hip, hadmits, huser, hinst⟩ := MsgServer.onCheckUser_eq_some hcheck
      obtain ⟨old, new, heffect, hnew⟩ := h.effect_addSubUser hr
      refine ⟨old, new, heffect, ?_, ?_⟩
      · intro ip hmem
        rw [okIps_addSubUser hr ip hmem]
        exact hip
      · intro user hmem
        rw [hnew user hmem, CheckResult.apply_madeUser huser hinst]
        exact hadmits
  | clientLogout c2sUser subUser =>
    obtain ⟨old, heffect⟩ := h.effect_processMsgClientLogout hr
    exact ⟨old, none, heffect, heffect.okIps, by simp⟩
  | kickoutUser user =>
    obtain ⟨old, heffect⟩ := h.effect_asyncKickoutUser hr
    exact ⟨old, none, heffect, heffect.okIps, by simp⟩
  | onCloseSession session errorCode sslCode =>
    obtain ⟨old, heffect⟩ := h.effect_asyncOnCloseSession hr
    exact ⟨old, none, heffect, heffect.okIps, by simp⟩

/-- Operations run on consistent tables and leave them consistent. -/
theorem tables_perform {w : MsgStation} (a : Admission) (h : w.server.TableInv) (op : StationOp)
    (hfresh : w.Fresh op) : ∃ r, w.perform a op = some r ∧ r.1.TableInv := by
  cases op with
  | acceptSession sessionType baseUser remoteIp hash nonce madeId selected newSession ptr =>
    simp only [perform]
    rcases asyncOnAcceptSession_cases w.server sessionType baseUser remoteIp
      (w.msgServer.onCheckUser a selected (madeUser baseUser madeId) remoteIp hash nonce)
      newSession ptr with hnothing | ⟨result, hcheck, hadd⟩
    · exact ⟨_, hnothing, h⟩
    · rw [hadd]
      exact h.addBaseUser hfresh.1 hfresh.2 _ _ _ _
  | clientLogin session c2sUser clientIndex clientId publicIp hashString hash nonce madeId selected =>
    simp only [perform]
    rcases processMsgClientLogin_cases w.server session c2sUser clientIndex clientId publicIp hashString
      (w.msgServer.onCheckUser a selected (madeUser clientId madeId) publicIp hash nonce) with
      ⟨calls, _, hnothing⟩ | ⟨result, hcheck, hadd⟩
    · exact ⟨_, hnothing, h⟩
    · rw [hadd]
      exact h.addSubUser _ _ _ _ _
  | clientLogout c2sUser subUser => exact h.processMsgClientLogout c2sUser subUser
  | kickoutUser user => exact h.asyncKickoutUser user
  | onCloseSession session errorCode sslCode => exact h.asyncOnCloseSession session errorCode sslCode

/-- The limit of a user: that of its row, but at least one. -/
def limit (a : Admission) (classId : UInt8) (userId : Nat) : Option Nat :=
  (a.db.matchingRow classId userId).map fun row => max 1 row.maxiids.toNat

structure AccountInv (a : Admission) (w : MsgStation) : Prop where
  tables : w.server.TableInv
  proper : w.msgServer.Proper
  counted : ∀ user, w.msgServer.has user = decide (user ∈ w.server.user2Ctx)
  bounded : ∀ (classId : UInt8) (userId : Nat), ∀ iids ∈ w.msgServer.ctx? classId userId,
    ∃ n ∈ limit a classId userId, iids.size ≤ n

theorem accountInv_init (a : Admission) (sslConfig sslForced : Bool) :
    (init sslConfig sslForced).AccountInv a := by
  refine ⟨tableInv_init _ _, MsgServer.proper_init, ?_, ?_⟩
  · intro user
    simp [init, MsgServer.has, MsgServer.ctx?, MsgServer.init, Server.init]
  · intro classId userId iids hiids
    simp [init, MsgServer.ctx?, MsgServer.init] at hiids

theorem adjust_maxiids_le (row : TblMsgUserRow) :
    row.adjust.maxiids.toNat ≤ max 1 row.maxiids.toNat := by
  simp only [TblMsgUserRow.adjust]
  split <;> omega

/-- A set that has nothing but what another one has is no larger. -/
theorem size_le_of_subset {iids others : ExtTreeSet UInt16} (h : ∀ instId ∈ iids, instId ∈ others) :
    iids.size ≤ others.size := by
  have hnodup : iids.toList.Nodup := by
    refine ExtTreeSet.distinct_toList.imp ?_
    intro first second hne heq
    exact hne (LawfulEqCmp.compare_eq_iff_eq.mpr heq)
  have hsub : iids.toList ⊆ others.toList := by
    intro instId hmem
    rw [ExtTreeSet.mem_toList] at hmem ⊢
    exact h instId hmem
  have hle := (hnodup.subperm hsub).length_le
  rwa [ExtTreeSet.length_toList, ExtTreeSet.length_toList] at hle

theorem Effect.has_observe {s : Server} {r : Server × List ServerCall} {old : UserSet}
    {new : Option MsgUser} (heffect : s.Effect r old new) {m : MsgServer}
    (hcalls : ∀ call ∈ r.2, call.Reportable)
    (hcounted : ∀ user, m.has user = decide (user ∈ s.user2Ctx)) (user : MsgUser) :
    (r.2.foldl MsgServer.observe m).has user = decide (user ∈ r.1.user2Ctx) := by
  rw [MsgServer.has_observe hcalls, hcounted, heffect.callbacks user]
  have hkeys := heffect.keys user
  by_cases hnew : new = some user
  · have hkey : user ∈ r.1.user2Ctx := hkeys.mpr (Or.inl hnew)
    by_cases hold : user ∈ old <;> simp [hnew, hold, hkey]
  · by_cases hold : user ∈ old
    · have hkey : user ∉ r.1.user2Ctx := by
        rw [hkeys]
        simp [hnew, hold]
      simp [hnew, hold, hkey]
    · have hkey : user ∈ r.1.user2Ctx ↔ user ∈ s.user2Ctx := by
        rw [hkeys]
        simp [hnew, hold]
      simp [hnew, hold, hkey]

theorem exists_mem_of_size_ne_zero {iids : ExtTreeSet UInt16} (h : iids.size ≠ 0) :
    ∃ instId, instId ∈ iids := by
  cases hlist : iids.toList with
  | nil =>
    rw [← ExtTreeSet.length_toList, hlist] at h
    exact absurd rfl h
  | cons instId rest =>
    refine ⟨instId, ?_⟩
    rw [← ExtTreeSet.mem_toList, hlist]
    exact List.mem_cons_self

/-- Whoever is counted for an id after an operation was counted before, or is the
user that was let in. -/
theorem bounded_observe {a : Admission} {w : MsgStation} (h : w.AccountInv a)
    {r : Server × List ServerCall} {old : UserSet} {new : Option MsgUser}
    (heffect : w.server.Effect r old new) (hadmits : ∀ user ∈ new, w.msgServer.Admits a user)
    {m : MsgServer} (hproper : m.Proper)
    (hcounted : ∀ user, m.has user = decide (user ∈ r.1.user2Ctx)) (classId : UInt8) (userId : Nat)
    {iids : ExtTreeSet UInt16 compare} (hiids : iids ∈ m.ctx? classId userId) :
    ∃ n ∈ limit a classId userId, iids.size ≤ n := by
  have hid := hproper.ids classId userId iids hiids
  -- every instance in the set is that of a user
  have hsource : ∀ instId ∈ iids, new = some (.ofIds classId userId instId) ∨
      ∃ before ∈ w.msgServer.ctx? classId userId, instId ∈ before := by
    intro instId hmem
    have hthis : (MsgUser.ofIds classId userId instId).userId = userId :=
      MsgUser.userId_setUserId _ hid
    have hhas : m.has (.ofIds classId userId instId) = true := by
      unfold MsgServer.has
      rw [hthis, Option.any_eq_true]
      exact ⟨iids, hiids, decide_eq_true hmem⟩
    rw [hcounted, decide_eq_true_eq, heffect.keys] at hhas
    cases hhas with
    | inl hnew => exact Or.inl hnew
    | inr hold =>
      right
      have hbefore := h.counted (.ofIds classId userId instId)
      rw [decide_eq_true hold.1] at hbefore
      unfold MsgServer.has at hbefore
      rw [hthis, Option.any_eq_true] at hbefore
      obtain ⟨before, hctx, hin⟩ := hbefore
      exact ⟨before, hctx, of_decide_eq_true hin⟩
  cases hctx : w.msgServer.ctx? classId userId with
  | none =>
    -- the first instance of this id
    have hone : ∀ instId ∈ iids, new = some (.ofIds classId userId instId) := by
      intro instId hmem
      obtain hnew | ⟨before, hbefore, _⟩ := hsource instId hmem
      · exact hnew
      · rw [hctx] at hbefore
        cases hbefore
    obtain ⟨instId, hinst⟩ := exists_mem_of_size_ne_zero (hproper.nonempty classId userId iids hiids)
    have hnew := hone instId hinst
    obtain ⟨row, hrow, _⟩ := hadmits _ hnew
    have hthis : (MsgUser.ofIds classId userId instId).userId = userId :=
      MsgUser.userId_setUserId _ hid
    rw [hthis] at hrow
    refine ⟨max 1 row.maxiids.toNat, ?_, ?_⟩
    · unfold limit
      rw [show a.db.matchingRow classId userId = some row from hrow]
      rfl
    · have hsub : ∀ other ∈ iids, other ∈ (∅ : ExtTreeSet UInt16).insert instId := by
        intro other hother
        have hsame := hone other hother
        rw [hnew, Option.some.injEq] at hsame
        rw [ExtTreeSet.mem_insert, LawfulEqCmp.compare_eq_iff_eq]
        exact Or.inl (congrArg MsgUser.instId hsame)
      have hle := size_le_of_subset hsub
      have hsize : ((∅ : ExtTreeSet UInt16).insert instId).size ≤ 1 := ExtTreeSet.size_insert_le
      omega
  | some before =>
    obtain ⟨n, hn, hle⟩ := h.bounded classId userId before hctx
    by_cases hall : ∀ instId ∈ iids, instId ∈ before
    · exact ⟨n, hn, (size_le_of_subset hall).trans hle⟩
    · -- an instance that was not there is the one that was let in
      push Not at hall
      obtain ⟨instId, hinst, hnot⟩ := hall
      have hnew : new = some (.ofIds classId userId instId) := by
        obtain hnew | ⟨other, hother, hin⟩ := hsource instId hinst
        · exact hnew
        · rw [hctx] at hother
          cases hother
          exact absurd hin hnot
      obtain ⟨row, hrow, hroom⟩ := hadmits _ hnew
      have hthis : (MsgUser.ofIds classId userId instId).userId = userId :=
        MsgUser.userId_setUserId _ hid
      rw [hthis] at hrow hroom
      have hroom := hroom before hctx
      have hnotin : (MsgUser.ofIds classId userId instId).instId ∉ before := hnot
      have hlt : before.size < row.adjust.maxiids.toNat := by
        unfold MsgServer.instRefused at hroom
        rw [decide_eq_true hnotin, Bool.and_true, Bool.or_eq_false_iff, decide_eq_false_iff_not] at hroom
        omega
      have hsub : ∀ other ∈ iids, other ∈ before.insert instId := by
        intro other hother
        rw [ExtTreeSet.mem_insert, LawfulEqCmp.compare_eq_iff_eq]
        obtain hsame | ⟨third, hthird, hin⟩ := hsource other hother
        · rw [hnew, Option.some.injEq] at hsame
          exact Or.inl (congrArg MsgUser.instId hsame)
        · rw [hctx] at hthird
          cases hthird
          exact Or.inr hin
      have hle' := size_le_of_subset hsub
      have hsize : (before.insert instId).size ≤ before.size + 1 := ExtTreeSet.size_insert_le
      have hadjust := adjust_maxiids_le row
      refine ⟨max 1 row.maxiids.toNat, ?_, by omega⟩
      unfold limit
      rw [show a.db.matchingRow classId userId = some row from hrow]
      rfl

theorem AccountInv.step {a : Admission} {w : MsgStation} (h : w.AccountInv a) (op : StationOp)
    (hfresh : w.Fresh op) : ∃ next, w.step a op = some next ∧ next.AccountInv a := by
  obtain ⟨r, hr, htables⟩ := tables_perform a h.tables op hfresh
  obtain ⟨old, new, heffect, hips, hadmits⟩ := effect_perform h.tables hr
  have hcalls := heffect.reportable h.tables htables hips
  have hproper := h.proper.observe hcalls
  have hcounted := Effect.has_observe heffect hcalls h.counted
  refine ⟨⟨r.1, r.2.foldl MsgServer.observe w.msgServer⟩, by simp [MsgStation.step, hr], ?_⟩
  exact ⟨htables, hproper, hcounted,
    fun classId userId iids hiids =>
      bounded_observe h heffect hadmits hproper hcounted classId userId hiids⟩

/-- The instances of an id are those of its users that are logged in; no context is
empty, and none has more instances than its row allows, or one. -/
structure Accounted (a : Admission) (w : MsgStation) : Prop where
  exact : ∀ (classId : UInt8) (userId : Nat), userId < 2 ^ 40 → ∀ instId : UInt16,
    (∃ iids ∈ w.msgServer.ctx? classId userId, instId ∈ iids) ↔
      MsgUser.ofIds classId userId instId ∈ w.server.user2Ctx
  nonempty : ∀ (classId : UInt8) (userId : Nat), ∀ iids ∈ w.msgServer.ctx? classId userId,
    ∃ instId, instId ∈ iids
  bounded : ∀ (classId : UInt8) (userId : Nat), ∀ iids ∈ w.msgServer.ctx? classId userId,
    ∃ row, a.db.matchingRow classId userId = some row ∧ iids.size ≤ max 1 row.maxiids.toNat

theorem AccountInv.accounted {a : Admission} {w : MsgStation} (h : w.AccountInv a) :
    w.Accounted a := by
  refine ⟨?_, ?_, ?_⟩
  · intro classId userId hid instId
    have hthis : (MsgUser.ofIds classId userId instId).userId = userId :=
      MsgUser.userId_setUserId _ hid
    have hcounted := h.counted (.ofIds classId userId instId)
    unfold MsgServer.has at hcounted
    rw [hthis, Bool.eq_iff_iff, Option.any_eq_true, decide_eq_true_eq] at hcounted
    rw [← hcounted]
    constructor
    · intro hin
      obtain ⟨iids, hctx, hmem⟩ := hin
      exact ⟨iids, hctx, decide_eq_true hmem⟩
    · intro hin
      obtain ⟨iids, hctx, hmem⟩ := hin
      exact ⟨iids, hctx, of_decide_eq_true hmem⟩
  · intro classId userId iids hiids
    exact exists_mem_of_size_ne_zero (h.proper.nonempty classId userId iids hiids)
  · intro classId userId iids hiids
    obtain ⟨n, hn, hle⟩ := h.bounded classId userId iids hiids
    unfold limit at hn
    rw [Option.mem_def, Option.map_eq_some_iff] at hn
    obtain ⟨row, hrow, rfl⟩ := hn
    exact ⟨row, hrow, hle⟩

/-- A login for an online user of the server class leaves the server as it is. -/
theorem AccountInv.busy {a : Admission} {w : MsgStation} (h : w.AccountInv a) {op : StationOp}
    {user : MsgUser} (hlogin : loginUser op = some user) (hclass : user.classId = serverCid)
    (hon : user ∈ w.server.user2Ctx) {next : MsgStation} (hstep : w.step a op = some next) :
    next.server = w.server := by
  have hhas : w.msgServer.has user = true := by rw [h.counted, decide_eq_true hon]
  unfold MsgStation.step at hstep
  rw [Option.map_eq_some_iff] at hstep
  obtain ⟨r, hr, rfl⟩ := hstep
  cases op with
  | acceptSession sessionType baseUser remoteIp hash nonce madeId selected newSession ptr =>
    cases hlogin
    simp only [perform, MsgServer.onCheckUser_busy hclass hhas] at hr
    rcases asyncOnAcceptSession_cases w.server sessionType baseUser remoteIp none newSession ptr with
      hnothing | ⟨result, hcheck, _⟩
    · rw [hnothing, Option.some.injEq] at hr
      rw [← hr]
    · cases hcheck
  | clientLogin session c2sUser clientIndex clientId publicIp hashString hash nonce madeId selected =>
    cases hlogin
    simp only [perform, MsgServer.onCheckUser_busy hclass hhas] at hr
    rcases processMsgClientLogin_cases w.server session c2sUser clientIndex clientId publicIp hashString
      none with ⟨calls, _, hnothing⟩ | ⟨result, hcheck, _⟩
    · rw [hnothing, Option.some.injEq] at hr
      rw [← hr]
    · cases hcheck
  | clientLogout c2sUser subUser => cases hlogin
  | kickoutUser user => cases hlogin
  | onCloseSession session errorCode sslCode => cases hlogin

/-- On every run of logins, logouts, kick-outs and closes the observer counts exactly
the users that are logged in, within their limits, and no login replaces an online
user of the server class. -/
theorem accounted_of_station_run (a : Admission) (sslConfig sslForced : Bool) (ops : List StationOp)
    (hfresh : Guarded (MsgStation.step a) Fresh (init sslConfig sslForced) ops) :
    ∃ w, run (MsgStation.step a) (init sslConfig sslForced) ops = some w ∧ w.Accounted a ∧
      ∀ op user, loginUser op = some user → user.classId = serverCid → user ∈ w.server.user2Ctx →
        ∀ next, w.step a op = some next → next.server = w.server := by
  obtain ⟨w, hrun, hinv⟩ := run_progress (fun w op h hfresh => AccountInv.step h op hfresh)
    (accountInv_init a sslConfig sslForced) hfresh
  refine ⟨w, hrun, hinv.accounted, ?_⟩
  intro op user hlogin hclass hon next hstep
  exact hinv.busy hlogin hclass hon hstep

/-- Class 1 has c2s nodes with one instance each, class 2 clients with two. -/
def twoClasses : Admission :=
  { db := fun classId _ =>
      if classId = 1 then some ⟨1, 0, 1, 1, "", ""⟩
      else if classId = 2 then some ⟨2, 0, 2, 0, "", ""⟩ else none
    inetAton := fun _ => 0
    checkServiceData := fun _ _ _ => true }

/-- Three instances of one client log in on a c2s node; the third is refused. Then
the node is lost. -/
def threeInstances : List StationOp :=
  [.acceptSession .tcpClientEx (.ofIds 1 2 1) "10.0.0.1" [] 0 0 true (some 10) 100,
    .clientLogin 10 (.ofIds 1 2 1) 1 (.ofIds 2 7 1) "10.0.0.7" (List.replicate 64 '0') [] 0 0 true,
    .clientLogin 10 (.ofIds 1 2 1) 2 (.ofIds 2 7 2) "10.0.0.7" (List.replicate 64 '0') [] 0 0 true,
    .clientLogin 10 (.ofIds 1 2 1) 3 (.ofIds 2 7 3) "10.0.0.7" (List.replicate 64 '0') [] 0 0 true,
    .onCloseSession 10 (-1) 0]

theorem accounted_of_station_run_threeInstances :
    ∃ w, run (MsgStation.step twoClasses) (init false false) threeInstances = some w ∧
      w.Accounted twoClasses ∧
      ∀ op user, loginUser op = some user → user.classId = serverCid → user ∈ w.server.user2Ctx →
        ∀ next, w.step twoClasses op = some next → next.server = w.server :=
  accounted_of_station_run twoClasses false false threeInstances (by decide +kernel)

end MsgStation

end Pronet.Msg
