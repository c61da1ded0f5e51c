import Pronet.Rtp.RtpService

/-! A service and its handshakers over a whole run: what it has taken has been given away or is
with a handshaker, and what the observer is given has come from a client that was offered. -/
namespace Pronet.Rtp

open Library Runs Std

namespace ServiceRun

open RtpService ServiceEffect Deferred

def heldSocks (shakers : List Shaker) : List HandshakeSock := shakers.filterMap Shaker.held

/-- The session is the one that a handshaker has reported. -/
def Accepted (shakers : List Shaker) : ServiceEffect → Prop
  | .onAcceptSession a => ∃ (s : Shaker) (buf : List UInt8), shakers[a.handshaker]? = some s ∧
      s.result = some (some buf) ∧ s.nonce = a.nonce ∧ Genuine a.handshaker s.sock buf a
  | _ => True

structure Inv (mmType : UInt8) (w : ServiceRun) : Prop where
  type : w.service.mmType = mmType
  origin : ∀ (i : Nat) (s : Shaker), w.shakers[i]? = some s →
    ∃ offer, .arrive offer ∈ w.effects.done ∧ ServiceOffer.Asks offer s.sock s.nonce ∧ offer.serviceId = mmType
  entries : ∀ (ssl : Bool) (i : Nat) (nonce : UInt64), (w.service.table ssl)[i]? = some nonce →
    ∃ s : Shaker, w.shakers[i]? = some s ∧ s.sock.ctx.isSome = ssl ∧ s.nonce = nonce ∧ s.called = false ∧
      s.deleted = false
  deleted : ∀ (i : Nat) (s : Shaker), w.shakers[i]? = some s → s.deleted = true → .deleteHandshaker i ∈ w.effects.done
  shakers : ∀ s ∈ w.shakers, s.WellFormed
  ids : (w.effects.total.filterMap created).Perm (List.range w.shakers.length)
  handshakers : w.effects.Balanced created ServiceEffect.deleted w.service.handshakers
  socks : w.effects.Balanced sockTaken sockLeft []
  ctxs : w.effects.Balanced ctxTaken ctxLeft []
  given : w.effects.Balanced given returned (heldSocks w.shakers)
  hosts : w.effects.Balanced hosted hostDeleted w.service.serviceHost.toList
  ordered : w.effects.Ordered needs
  accepts : w.effects.Each (Accepted w.shakers)
  pending : w.service.pendingCount ≤ maxPendingCount
  behind : ∀ l ∈ w.effects.pending, ∀ e ∈ l, e.behind = true
  finished : w.service.serviceHost = none → w.service.tcpHandshaker2Nonce = ∅ ∧
    w.service.sslHandshaker2Nonce = ∅ ∧
      ∃ pre post, w.effects.done = pre ++ .fini :: post ∧ ∀ e ∈ post, created e = none

/-- What happens to a handshaker between two sections. -/
structure Kept (shakers shakers' : List Shaker) : Prop where
  length : shakers'.length = shakers.length
  each : ∀ (i : Nat) (s : Shaker), shakers[i]? = some s → ∃ s' : Shaker, shakers'[i]? = some s' ∧
    s'.sock = s.sock ∧ s'.nonce = s.nonce ∧ s'.deleted = s.deleted ∧ ∀ result, s.result = some result → s'.result = some result

variable {mmType : UInt8} {w : ServiceRun} {shakers shakers' : List Shaker}

theorem Kept.refl (shakers : List Shaker) : Kept shakers shakers :=
  ⟨rfl, fun _ s hs => ⟨s, hs, rfl, rfl, rfl, fun _ h => h⟩⟩

theorem Kept.set {i : Nat} {s s' : Shaker} (hs : shakers[i]? = some s) (hsock : s'.sock = s.sock)
    (hnonce : s'.nonce = s.nonce) (hdeleted : s'.deleted = s.deleted)
    (hresult : ∀ result, s.result = some result → s'.result = some result) : Kept shakers (shakers.set i s') := by
  refine ⟨List.length_set, ?_⟩
  intro j t ht
  rw [List.getElem?_set]
  split
  · rename_i heq
    subst heq
    cases hs.symm.trans ht
    rw [if_pos (List.getElem?_eq_some_iff.mp hs).1]
    exact ⟨s', rfl, hsock, hnonce, hdeleted, hresult⟩
  · exact ⟨t, ht, rfl, rfl, rfl, fun _ h => h⟩

theorem Accepted.mono {e : ServiceEffect} (h : Accepted shakers e)
    (hkept : ∀ (i : Nat) (s : Shaker), shakers[i]? = some s → ∃ s' : Shaker, shakers'[i]? = some s' ∧
      s'.sock = s.sock ∧ s'.nonce = s.nonce ∧ ∀ result, s.result = some result → s'.result = some result) : Accepted shakers' e := by
  cases e with
  | onAcceptSession a =>
    obtain ⟨s, buf, hs, hresult, hnonce, hgenuine⟩ := h
    obtain ⟨s', hs', hsock, hnonce', hresult'⟩ := hkept _ s hs
    exact ⟨s', buf, hs', hresult' _ hresult, hnonce'.trans hnonce, hsock ▸ hgenuine⟩
  | _ => trivial

theorem inv_start (serviceHost : Nat) (mmType : UInt8) (hasSslConfig : Bool) :
    (start serviceHost mmType hasSslConfig).Inv mmType where
  type := rfl
  origin i s hs := by cases hs
  entries ssl i nonce hi := by cases ssl <;> simp [start, RtpService.init, table] at hi
  deleted i s hs := by cases hs
  shakers s hs := absurd hs List.not_mem_nil
  ids := List.Perm.refl _
  handshakers := by
    have hkeys : (∅ : HandshakerTable).keys = [] := Tables.keys_empty
    unfold Deferred.Balanced RtpService.handshakers start RtpService.init
    simp only [hkeys]
    exact List.Perm.refl _
  socks := List.Perm.refl _
  ctxs := List.Perm.refl _
  given := List.Perm.refl _
  hosts := List.Perm.refl _
  ordered := by
    refine ⟨Follows.of_forall ?_, fun l hl => absurd hl List.not_mem_nil⟩
    intro e he
    rw [List.mem_singleton.mp he]
    rfl
  accepts := by
    intro e he
    rw [List.mem_singleton.mp (show e ∈ [ServiceEffect.init serviceHost] from he)]
    trivial
  pending := Nat.zero_le _
  behind l hl := absurd hl List.not_mem_nil
  finished hclosed := by cases hclosed

/-- At most one handshaker is made, and it is the next one. -/
theorem newShakers {service : RtpService} {fresh : Nat} {back : List HandshakeSock} {r : Section}
    (hr : Allowed fresh service back r) :
    r.2.1.filterMap newShaker = [] ∧ (r.2.1 ++ r.2.2).filterMap created = [] ∧
        (∀ e ∈ r.2.1, created e = none) ∧ (r.2.1 ++ r.2.2).filterMap given = [] ∨
      ∃ offer sock, r.2.1.filterMap newShaker = [Shaker.init sock offer.nonce] ∧
        (r.2.1 ++ r.2.2).filterMap created = [fresh] ∧ (r.2.1 ++ r.2.2).filterMap given = [sock] ∧
        .createHandshaker fresh sock offer.nonce ∈ r.2.1 ∧ .arrive offer ∈ r.2.1 ∧
        ServiceOffer.Asks offer sock offer.nonce ∧ offer.serviceId = service.mmType ∧
        service.serviceHost ≠ none := by
  have hnone : ∀ {ι : Type} (l : List ServiceEffect) (f : ServiceEffect → Option ι), (∀ e ∈ l, f e = none) →
      l.filterMap f = [] := fun l f hf => List.filterMap_eq_nil_iff.mpr hf
  have hmakes : ∀ e : ServiceEffect, created e = none → newShaker e = none ∧ given e = none := by
    intro e he
    cases e <;> first | exact ⟨rfl, rfl⟩ | cases he
  have hbehind : ∀ e ∈ r.2.2, created e = none := by
    intro e he
    have := hr.behind e he
    cases e <;> first | rfl | cases this
  rcases hr.created with hnot | ⟨offer, sock, pre, hpre, hinside, harrive, hasks, hservice, hopen⟩
  · refine .inl ⟨hnone _ _ fun e he => (hmakes e (hnot e he)).1, ?_, hnot, ?_⟩
    · rw [List.filterMap_append, hnone _ _ hnot, hnone _ _ hbehind]
      rfl
    · rw [List.filterMap_append, hnone _ _ fun e he => (hmakes e (hnot e he)).2,
        hnone _ _ fun e he => (hmakes e (hbehind e he)).2]
      rfl
  · have hnot := List.filterMap_eq_nil_iff.mp hpre
    refine .inr ⟨offer, sock, ?_, ?_, ?_, ?_, ?_, hasks, hservice, hopen⟩
    · rw [hinside, List.filterMap_append, hnone _ _ fun e he => (hmakes e (hnot e he)).1]
      rfl
    · rw [hinside, List.filterMap_append, List.filterMap_append, hpre, hnone _ _ hbehind]
      rfl
    · rw [hinside, List.filterMap_append, List.filterMap_append, hnone _ _ fun e he => (hmakes e (hnot e he)).2,
        hnone _ _ fun e he => (hmakes e (hbehind e he)).2]
      rfl
    · rw [hinside]
      exact List.mem_append_right _ (List.mem_singleton_self _)
    · rw [hinside]
      exact List.mem_append_left _ harrive

theorem heldSocks_append (shakers shakers' : List Shaker) :
    heldSocks (shakers ++ shakers') = heldSocks shakers ++ heldSocks shakers' := by
  unfold heldSocks
  rw [List.filterMap_append]

theorem heldSocks_congr (h : ∀ i : Nat, (shakers'[i]?).map Shaker.held = (shakers[i]?).map Shaker.held) :
    heldSocks shakers' = heldSocks shakers := by
  have hmap : shakers'.map Shaker.held = shakers.map Shaker.held := by
    apply List.ext_getElem?
    intro i
    rw [List.getElem?_map, List.getElem?_map]
    exact h i
  have hfilter : ∀ l : List Shaker, heldSocks l = (l.map Shaker.held).filterMap id := by
    intro l
    rw [List.filterMap_map]
    rfl
  rw [hfilter, hfilter, hmap]

/-- A handshaker that stops to hold its socket. -/
theorem heldSocks_perm_set {i : Nat} {s s' : Shaker} (hs : shakers[i]? = some s) (hheld : s.held = some s.sock)
    (hnone : s'.held = none) : (heldSocks shakers).Perm (s.sock :: heldSocks (shakers.set i s')) := by
  unfold heldSocks
  induction shakers generalizing i with
  | nil => cases hs
  | cons first shakers ih =>
    cases i with
    | zero =>
      cases hs
      rw [List.set_cons_zero, List.filterMap_cons_some hheld, List.filterMap_cons_none hnone]
    | succ i =>
      rw [List.set_cons_succ]
      cases hfirst : first.held with
      | none =>
        rw [List.filterMap_cons_none hfirst, List.filterMap_cons_none hfirst]
        exact ih hs
      | some sock =>
        rw [List.filterMap_cons_some hfirst, List.filterMap_cons_some hfirst]
        exact ((ih hs).cons sock).trans (List.Perm.swap _ _ _)

/-- A section, behind a change of the handshakers. -/
theorem Inv.enter (h : w.Inv mmType) (hkept : Kept w.shakers shakers)
    (hwell : ∀ s ∈ shakers, s.WellFormed) {back : List HandshakeSock} {r : Section}
    (hr : Allowed w.shakers.length w.service back r)
    (hheld : (heldSocks w.shakers).Perm (back ++ heldSocks shakers))
    (hcalled : ∀ (ssl : Bool) (i : Nat) (s s' : Shaker), i ∈ r.1.table ssl → w.shakers[i]? = some s →
      shakers[i]? = some s' → s.sock.ctx.isSome = ssl → s'.called = s.called)
    (haccepts : ∀ e ∈ r.2.2, Accepted shakers e) :
    Inv mmType ((⟨w.service, shakers, w.effects⟩ : ServiceRun).enter r) := by
  have hnew := newShakers hr
  have hold : ∀ (i : Nat) (s : Shaker), w.shakers[i]? = some s → ∃ s' : Shaker,
      (shakers ++ r.2.1.filterMap newShaker)[i]? = some s' ∧ shakers[i]? = some s' ∧ s'.sock = s.sock ∧
      s'.nonce = s.nonce ∧ s'.deleted = s.deleted ∧ ∀ result, s.result = some result → s'.result = some result := by
    intro i s hs
    obtain ⟨s', hs', hrest⟩ := hkept.each i s hs
    refine ⟨s', ?_, hs', hrest⟩
    rw [List.getElem?_append_left (List.getElem?_eq_some_iff.mp hs').1]
    exact hs'
  have hback : ∀ (i : Nat) (s' : Shaker), (shakers ++ r.2.1.filterMap newShaker)[i]? = some s' →
      (∃ s : Shaker, w.shakers[i]? = some s ∧ s'.sock = s.sock ∧ s'.nonce = s.nonce ∧ s'.deleted = s.deleted) ∨
      (∃ offer, s' = Shaker.init s'.sock offer.nonce ∧ .arrive offer ∈ r.2.1 ∧
        ServiceOffer.Asks offer s'.sock offer.nonce ∧ offer.serviceId = w.service.mmType) := by
    intro i s' hs'
    by_cases hi : i < shakers.length
    · rw [List.getElem?_append_left hi] at hs'
      obtain ⟨s, hs⟩ : ∃ s, w.shakers[i]? = some s :=
        ⟨_, List.getElem?_eq_getElem (by rw [← hkept.length]; exact hi)⟩
      obtain ⟨s'', hs'', hsock, hnonce, hdeleted, -⟩ := hkept.each i s hs
      cases hs'.symm.trans hs''
      exact .inl ⟨s, hs, hsock, hnonce, hdeleted⟩
    · rw [List.getElem?_append_right (Nat.le_of_not_lt hi)] at hs'
      rcases hnew with ⟨hnone, -⟩ | ⟨offer, sock, hone, -, -, -, harrive, hasks, hservice, -⟩
      · rw [hnone] at hs'
        cases hs'
      · rw [hone] at hs'
        have heq := List.mem_singleton.mp (List.mem_of_getElem? hs')
        subst heq
        exact .inr ⟨offer, rfl, harrive, hasks, hservice⟩
  refine ⟨hr.mmType.trans h.type, ?_, ?_, ?_, ?_, ?_, h.handshakers.enter hr.handshakers,
    h.socks.enter (hr.socks.append_right _), h.ctxs.enter (hr.ctxs.append_right _), ?_, h.hosts.enter hr.hosts, ?_, ?_,
    hr.pending h.pending, ?_, ?_⟩
  · intro i s' hs'
    rcases hback i s' hs' with ⟨s, hs, hsock, hnonce, -⟩ | ⟨offer, hs'', harrive, hasks, hservice⟩
    · obtain ⟨offer, harrive, hasks, hservice⟩ := h.origin i s hs
      rw [← hsock, ← hnonce] at hasks
      exact ⟨offer, List.mem_append_left _ harrive, hasks, hservice⟩
    · have hnonce : s'.nonce = offer.nonce := by rw [hs'']; rfl
      rw [← hnonce] at hasks
      exact ⟨offer, List.mem_append_right _ harrive, hasks, hservice.trans h.type⟩
  · intro ssl i nonce hi
    rcases hr.entries ssl i nonce hi with hentry | ⟨sock, hcreate, hssl⟩
    · obtain ⟨s, hs, hssl, hnonce, hcalled', hdeleted⟩ := h.entries ssl i nonce hentry
      obtain ⟨s', hs', hs'', hsock, hnonce', hdeleted', -⟩ := hold i s hs
      have hmem : i ∈ r.1.table ssl := mem_of_entry hi
      refine ⟨s', hs', ?_, hnonce'.trans hnonce, ?_, hdeleted'.trans hdeleted⟩
      · rw [hsock]
        exact hssl
      · exact (hcalled ssl i s s' hmem hs hs'' hssl).trans hcalled'
    · rcases hnew with ⟨-, -, hnot, -⟩ | ⟨offer, sock', hone, hcreated, -, hcreate', -⟩
      · cases hnot _ hcreate
      · have hsame : ServiceEffect.createHandshaker i sock nonce =
            .createHandshaker w.shakers.length sock' offer.nonce := by
          rcases hr.created with hnot | ⟨offer', sock'', pre, hpre, hinside, -⟩
          · cases hnot _ hcreate
          · have hlast : ∀ e ∈ r.2.1, created e ≠ none →
                e = .createHandshaker w.shakers.length sock'' offer'.nonce := by
              intro e he hsome
              rw [hinside] at he
              rcases List.mem_append.mp he with he | he
              · exact absurd (List.filterMap_eq_nil_iff.mp hpre e he) hsome
              · exact List.mem_singleton.mp he
            rw [hlast _ hcreate (Option.some_ne_none _), hlast _ hcreate' (Option.some_ne_none _)]
        cases hsame
        refine ⟨Shaker.init sock offer.nonce, ?_, hssl, rfl, rfl, rfl⟩
        show (shakers ++ r.2.1.filterMap newShaker)[w.shakers.length]? = _
        rw [hone, ← hkept.length, List.getElem?_append_right (Nat.le_refl _), Nat.sub_self]
        rfl
  · intro i s' hs' hdeleted
    rcases hback i s' hs' with ⟨s, hs, -, -, hsame⟩ | ⟨offer, hs'', -⟩
    · exact List.mem_append_left _ (h.deleted i s hs (hsame.symm.trans hdeleted))
    · rw [hs''] at hdeleted
      cases hdeleted
  · intro s hs
    rcases List.mem_append.mp hs with hs | hs
    · exact hwell s hs
    · rcases hnew with ⟨hnone, -⟩ | ⟨offer, sock, hone, -⟩
      · rw [hnone] at hs
        cases hs
      · rw [hone] at hs
        rw [List.mem_singleton.mp hs]
        exact ⟨fun hcalled => absurd hcalled Bool.false_ne_true,
          fun hdestroyed => absurd hdestroyed Bool.false_ne_true⟩
  · have htotal := (total_enter w.effects r.2.1 r.2.2).filterMap created
    rw [List.filterMap_append] at htotal
    refine htotal.trans ?_
    show List.Perm _ (List.range (shakers ++ r.2.1.filterMap newShaker).length)
    rcases hnew with ⟨hnone, hcreated, -⟩ | ⟨offer, sock, hone, hcreated, -⟩
    · rw [hnone, hcreated, List.append_nil, List.append_nil, hkept.length]
      exact h.ids
    · rw [hone, hcreated, List.length_append, List.length_singleton, List.range_succ, hkept.length]
      exact h.ids.append_right _
  · refine h.given.enter ?_
    show List.Perm _ (_ ++ heldSocks (shakers ++ r.2.1.filterMap newShaker))
    rw [heldSocks_append, hr.back]
    rcases hnew with ⟨hnone, -, -, hgiven⟩ | ⟨offer, sock, hone, -, hgiven, -⟩
    · rw [hnone, hgiven, List.nil_append]
      show List.Perm _ (_ ++ (_ ++ []))
      rw [List.append_nil]
      exact hheld
    · rw [hone, hgiven, ← List.append_assoc]
      exact List.perm_append_comm.trans (hheld.append_right _)
  · refine h.ordered.enter (Follows.of_forall ?_) (hr.order _)
    intro e he
    have hin := hr.inside e he
    cases e <;> first | rfl | cases hin
  · refine Each.enter ?_ ?_ ?_
    · intro e he
      refine (h.accepts e he).mono ?_
      intro i s hs
      obtain ⟨s', hs', -, hsock, hnonce, -, hresult⟩ := hold i s hs
      exact ⟨s', hs', hsock, hnonce, hresult⟩
    · intro e he
      have hin := hr.inside e he
      cases e with
      | onAcceptSession a => cases hin
      | _ => trivial
    · intro e he
      refine (haccepts e he).mono ?_
      intro i s hs
      refine ⟨s, ?_, rfl, rfl, fun _ hresult => hresult⟩
      show (shakers ++ r.2.1.filterMap newShaker)[i]? = _
      rw [List.getElem?_append_left (List.getElem?_eq_some_iff.mp hs).1]
      exact hs
  · intro l hl
    unfold ServiceRun.enter Deferred.enter at hl
    dsimp only at hl
    split at hl
    · exact h.behind l hl
    · rcases List.mem_append.mp hl with hl | hl
      · exact h.behind l hl
      · rw [List.mem_singleton.mp hl]
        exact hr.behind
  · intro hclosed
    by_cases hopen : w.service.serviceHost = none
    · obtain ⟨htcp, hssl, pre, post, hdone, hpost⟩ := h.finished hopen
      have hsame : r.1 = w.service := hr.quiet hopen
      refine ⟨(congrArg tcpHandshaker2Nonce hsame).trans htcp, (congrArg sslHandshaker2Nonce hsame).trans hssl, pre,
        post ++ r.2.1, ?_, ?_⟩
      · show w.effects.done ++ r.2.1 = _
        rw [hdone, List.append_assoc, List.cons_append]
      · intro e he
        rcases List.mem_append.mp he with he | he
        · exact hpost e he
        · rcases hnew with ⟨-, -, hnot, -⟩ | ⟨-, -, -, -, -, -, -, -, -, hsome⟩
          · exact hnot e he
          · exact absurd hopen hsome
    · obtain ⟨htcp, hssl, hinside⟩ := hr.stops hopen hclosed
      refine ⟨htcp, hssl, w.effects.done, [], ?_, fun e he => absurd he List.not_mem_nil⟩
      show w.effects.done ++ r.2.1 = _
      rw [hinside]

theorem Inv.fresh (h : w.Inv mmType) (ssl : Bool) : w.shakers.length ∉ w.service.table ssl := by
  intro hmem
  obtain ⟨s, hs, -⟩ := h.entries ssl _ _ (ExtTreeMap.getElem?_eq_some_getElem hmem)
  exact Nat.lt_irrefl _ (List.getElem?_eq_some_iff.mp hs).1

/-- A handshaker that is being deleted, or has been, is in no table. -/
theorem Inv.not_mem_table (h : w.Inv mmType) {i : Nat} (hi : .deleteHandshaker i ∈ w.effects.total) (ssl : Bool) :
    i ∉ w.service.table ssl := by
  intro hmem
  have hnodup : (w.effects.total.filterMap ServiceEffect.deleted ++ w.service.handshakers).Nodup :=
    h.handshakers.nodup (h.ids.symm.nodup List.nodup_range)
  have hdeleted : i ∈ w.effects.total.filterMap ServiceEffect.deleted := List.mem_filterMap.mpr ⟨_, hi, rfl⟩
  refine List.disjoint_of_nodup_append hnodup hdeleted ?_
  unfold RtpService.handshakers
  cases ssl with
  | false => exact List.mem_append_left _ (ExtTreeMap.mem_keys.mpr hmem)
  | true => exact List.mem_append_right _ (ExtTreeMap.mem_keys.mpr hmem)

theorem getElem?_reach (e : ServiceEffect) (shakers : List Shaker) (j : Nat) :
    (e.reach shakers)[j]? =
      shakers[j]?.map fun s => if e = .deleteHandshaker j then { s with deleted := true } else s := by
  cases e with
  | deleteHandshaker i =>
    unfold reach
    rw [List.getElem?_modify]
    simp only [ServiceEffect.deleteHandshaker.injEq]
    rfl
  | _ => simp [reach]

theorem heldSocks_reach (e : ServiceEffect) (shakers : List Shaker) :
    heldSocks (e.reach shakers) = heldSocks shakers := by
  apply heldSocks_congr
  intro i
  rw [getElem?_reach, Option.map_map]
  congr 1
  funext s
  rw [Function.comp_apply]
  split <;> rfl

/-- A handshaker does what is still left of a section. -/
theorem Inv.proceed (h : w.Inv mmType) {handler : Nat} {e : ServiceEffect} {rest : List ServiceEffect}
    (hthread : w.effects.pending[handler]? = some (e :: rest)) {effects : Deferred ServiceEffect}
    (hd : w.effects.proceed handler = some effects) :
    Inv mmType { w with shakers := e.reach w.shakers, effects := effects } := by
  obtain ⟨e', rest', hi, heq⟩ := proceed_eq_some hd
  cases hthread.symm.trans hi
  have hbehind : e.behind = true := h.behind _ (List.mem_of_getElem? hthread) e List.mem_cons_self
  have hback : ∀ (i : Nat) (s' : Shaker), (e.reach w.shakers)[i]? = some s' → ∃ s : Shaker, w.shakers[i]? = some s ∧
      s' = if e = .deleteHandshaker i then { s with deleted := true } else s := by
    intro i s' hs'
    rw [getElem?_reach] at hs'
    obtain ⟨s, hs, hs''⟩ := Option.map_eq_some_iff.mp hs'
    exact ⟨s, hs, hs''.symm⟩
  have hdone : ∀ e' ∈ w.effects.done, e' ∈ effects.done := fun e' he' => mem_done_proceed hd he'
  refine ⟨h.type, ?_, ?_, ?_, ?_, ?_, h.handshakers.proceed hd, h.socks.proceed hd, h.ctxs.proceed hd, ?_,
    h.hosts.proceed hd, h.ordered.proceed hd, ?_, h.pending, ?_, ?_⟩
  · intro i s' hs'
    obtain ⟨s, hs, rfl⟩ := hback i s' hs'
    obtain ⟨offer, harrive, hasks, hservice⟩ := h.origin i s hs
    refine ⟨offer, hdone _ harrive, ?_, hservice⟩
    split <;> exact hasks
  · intro ssl i nonce hentry
    obtain ⟨s, hs, hkind, hnonce, hcalled, hdeleted⟩ := h.entries ssl i nonce hentry
    have hother : e ≠ .deleteHandshaker i := by
      rintro rfl
      refine h.not_mem_table ?_ ssl (mem_of_entry hentry)
      exact List.mem_append_right _ (List.mem_flatten.mpr ⟨_, List.mem_of_getElem? hthread, List.mem_cons_self⟩)
    refine ⟨s, ?_, hkind, hnonce, hcalled, hdeleted⟩
    dsimp only
    rw [getElem?_reach, hs, Option.map_some, if_neg hother]
  · intro i s' hs' hdeleted
    obtain ⟨s, hs, rfl⟩ := hback i s' hs'
    split at hdeleted
    · rename_i hdelete
      rw [heq, hdelete]
      exact List.mem_append_right _ (List.mem_singleton_self _)
    · exact hdone _ (h.deleted i s hs hdeleted)
  · intro s' hs'
    obtain ⟨i, hi⟩ := List.getElem?_of_mem hs'
    obtain ⟨s, hs, rfl⟩ := hback i s' hi
    have hwell := h.shakers s (List.mem_of_getElem? hs)
    split
    · refine ⟨hwell.called, fun hdestroyed => ?_⟩
      have hunused := hwell.destroyed hdestroyed
      unfold Shaker.unused at hunused ⊢
      rw [Bool.and_eq_true] at hunused ⊢
      exact ⟨rfl, hunused.2⟩
    · exact hwell
  · have hlength : (e.reach w.shakers).length = w.shakers.length := by
      cases e with
      | deleteHandshaker i => exact List.length_modify _ _ _
      | _ => rfl
    dsimp only
    rw [hlength]
    exact ((total_proceed hd).filterMap created).trans h.ids
  · dsimp only
    rw [heldSocks_reach]
    exact h.given.proceed hd
  · intro e' he'
    refine (h.accepts.proceed hd e' he').mono ?_
    intro i s hs
    refine ⟨if e = .deleteHandshaker i then { s with deleted := true } else s, ?_, ?_⟩
    · dsimp only
      rw [getElem?_reach, hs, Option.map_some]
    · split <;> exact ⟨rfl, rfl, fun _ hresult => hresult⟩
  · rw [heq]
    intro l hl
    rcases List.mem_or_eq_of_mem_set hl with hl | rfl
    · exact h.behind l hl
    · exact fun e' he' => h.behind _ (List.mem_of_getElem? hthread) e' (List.mem_cons_of_mem _ he')
  · intro hclosed
    obtain ⟨htcp, hssl, pre, post, hpre, hpost⟩ := h.finished hclosed
    refine ⟨htcp, hssl, pre, post ++ [e], ?_, ?_⟩
    · rw [heq]
      dsimp only
      rw [hpre, List.append_assoc, List.cons_append]
    · intro e' he'
      rcases List.mem_append.mp he' with he' | he'
      · exact hpost e' he'
      · rw [List.mem_singleton.mp he']
        cases e <;> first | rfl | cases hbehind

theorem shakers_set (h : w.Inv mmType) {i : Nat} {s' : Shaker} (hwell : s'.WellFormed) :
    ∀ s ∈ w.shakers.set i s', s.WellFormed := by
  intro s hs
  rcases List.mem_or_eq_of_mem_set hs with hs | rfl
  · exact h.shakers s hs
  · exact hwell

theorem heldSocks_set {i : Nat} {s s' : Shaker} (hs : shakers[i]? = some s) (hheld : s'.held = s.held) :
    heldSocks (shakers.set i s') = heldSocks shakers := by
  apply heldSocks_congr
  intro j
  rw [List.getElem?_set]
  split
  · rename_i heq
    subst heq
    rw [if_pos (List.getElem?_eq_some_iff.mp hs).1, hs, Option.map_some, Option.map_some, hheld]
  · rfl

/-- A handshaker decides for itself. -/
theorem Inv.decide (h : w.Inv mmType) {i : Nat} {s : Shaker} (hs : w.shakers[i]? = some s)
    (hundecided : s.result = none) (hlive : s.deleted = false) (result : Option (List UInt8)) :
    (w.put i { s with result := some result }).Inv mmType := by
  have hwell := h.shakers s (List.mem_of_getElem? hs)
  have hcalled : s.called = false := by
    cases hcalled : s.called with
    | false => rfl
    | true => exact absurd hundecided (hwell.called hcalled)
  have hdestroyed : s.destroyed = false := by
    cases hdestroyed : s.destroyed with
    | false => rfl
    | true =>
      have hunused := hwell.destroyed hdestroyed
      unfold Shaker.unused at hunused
      rw [hlive] at hunused
      cases hunused
  have hheld : ({ s with result := some result } : Shaker).held = s.held := by
    unfold Shaker.held Shaker.holds
    rw [hundecided, hcalled, hdestroyed]
    cases result <;> rfl
  have hkept : Kept w.shakers (w.put i { s with result := some result }).shakers := by
    refine Kept.set hs rfl rfl rfl ?_
    intro result' hresult'
    rw [hundecided] at hresult'
    cases hresult'
  have hback : ∀ (j : Nat) (t : Shaker), (w.shakers.set i { s with result := some result })[j]? = some t →
      ∃ t', w.shakers[j]? = some t' ∧ t.sock = t'.sock ∧ t.nonce = t'.nonce ∧ t.deleted = t'.deleted := by
    intro j t ht
    rw [List.getElem?_set] at ht
    split at ht
    · rename_i heq
      subst heq
      rw [if_pos (List.getElem?_eq_some_iff.mp hs).1, Option.some.injEq] at ht
      subst ht
      exact ⟨s, hs, rfl, rfl, rfl⟩
    · exact ⟨t, ht, rfl, rfl, rfl⟩
  refine ⟨h.type, ?_, ?_, ?_, ?_, ?_, h.handshakers, h.socks, h.ctxs, ?_, h.hosts, h.ordered, ?_, h.pending, h.behind,
    h.finished⟩
  · intro j t ht
    obtain ⟨t', ht', hsock, hnonce, -⟩ := hback j t ht
    rw [hsock, hnonce]
    exact h.origin j t' ht'
  · intro ssl j nonce hentry
    obtain ⟨t, ht, hkind, hnonce, hfirst, hkeep⟩ := h.entries ssl j nonce hentry
    by_cases heq : i = j
    · subst heq
      cases hs.symm.trans ht
      refine ⟨{ s with result := some result }, ?_, hkind, hnonce, hfirst, hkeep⟩
      unfold put
      dsimp only
      rw [List.getElem?_set_self (List.getElem?_eq_some_iff.mp hs).1]
    · refine ⟨t, ?_, hkind, hnonce, hfirst, hkeep⟩
      unfold put
      dsimp only
      rw [List.getElem?_set_ne heq]
      exact ht
  · intro j t ht hdeleted
    obtain ⟨t', ht', -, -, hsame⟩ := hback j t ht
    exact h.deleted j t' ht' (hsame.symm.trans hdeleted)
  · refine shakers_set h ⟨fun _ => Option.some_ne_none _, fun hgone => ?_⟩
    exact absurd (hdestroyed.symm.trans hgone) Bool.false_ne_true
  · show List.Perm _ (List.range (w.shakers.set i _).length)
    rw [List.length_set]
    exact h.ids
  · unfold put
    dsimp only
    rw [heldSocks_set hs hheld]
    exact h.given
  · intro e he
    refine (h.accepts e he).mono ?_
    intro j t ht
    obtain ⟨t', ht', hsock, hnonce, -, hresult⟩ := hkept.each j t ht
    exact ⟨t', ht', hsock, hnonce, hresult⟩

theorem empty_of_closed (h : w.Inv mmType) (ssl : Bool) (hclosed : w.service.serviceHost = none) :
    w.service.table ssl = ∅ := by
  obtain ⟨htcp, hssl, -⟩ := h.finished hclosed
  cases ssl with
  | false => exact htcp
  | true => exact hssl

theorem accepted_of_not {l : List ServiceEffect} (h : ∀ a, ServiceEffect.onAcceptSession a ∉ l) :
    ∀ e ∈ l, Accepted shakers e := by
  intro e he
  cases e with
  | onAcceptSession a => exact absurd he (h a)
  | _ => trivial

/-- What a handshaker reports takes it out of its table, and gives back its socket on success. -/
theorem Inv.report (h : w.Inv mmType) {i : Nat} {s : Shaker} (hs : w.shakers[i]? = some s)
    {result : Option (List UInt8)} (hresult : s.result = some result) (hfirst : s.called = false) (hasPeer : Bool) :
    Inv mmType ((w.put i { s with called := true }).enter (w.reportSection i s result hasPeer)) := by
  have hwell := h.shakers s (List.mem_of_getElem? hs)
  have hkept : Kept w.shakers (w.put i { s with called := true }).shakers :=
    Kept.set hs rfl rfl rfl fun _ hsome => hsome
  have hshakers : ∀ t ∈ (w.put i { s with called := true }).shakers, t.WellFormed := by
    refine shakers_set h ⟨fun _ => ?_, fun hdestroyed => ?_⟩
    · rw [hresult]
      exact Option.some_ne_none _
    · have hunused := hwell.destroyed hdestroyed
      unfold Shaker.unused at hunused
      rw [hresult, hfirst, Option.isNone_some, Bool.or_self, Bool.and_false] at hunused
      cases hunused
  have hallowed : Allowed w.shakers.length w.service (if result.isSome then [s.sock] else [])
      (w.reportSection i s result hasPeer) := by
    unfold reportSection
    cases s.sock.ctx <;> cases result
    · exact allowed_handshakeError (erases_tcp w.service i)
    · exact allowed_handshakeOk (erases_tcp w.service i) s.sock _ hasPeer
    · exact allowed_handshakeError (erases_ssl w.service i)
    · exact allowed_handshakeOk (erases_ssl w.service i) s.sock _ hasPeer
  have hgone : i ∉ (w.reportSection i s result hasPeer).1.table s.sock.ctx.isSome := by
    unfold reportSection
    cases s.sock.ctx <;> cases result
    · exact not_mem_of_handshakeError rfl rfl (empty_of_closed h false)
    · exact not_mem_of_handshakeOk rfl rfl (empty_of_closed h false)
    · exact not_mem_of_handshakeError rfl rfl (empty_of_closed h true)
    · exact not_mem_of_handshakeOk rfl rfl (empty_of_closed h true)
  refine h.enter hkept hshakers hallowed ?_ ?_ ?_
  · cases result with
    | none =>
      have hheld : ({ s with called := true } : Shaker).held = s.held := by
        unfold Shaker.held Shaker.holds
        rw [hresult]
      unfold put
      dsimp only
      rw [heldSocks_set hs hheld]
      exact List.Perm.refl _
    | some buf =>
      refine heldSocks_perm_set hs ?_ ?_
      · unfold Shaker.held Shaker.holds
        rw [hresult, hfirst]
        rfl
      · unfold Shaker.held Shaker.holds
        dsimp only
        rw [hresult]
        rfl
  · intro ssl j t t' hmem ht ht' hkind
    by_cases heq : i = j
    · subst heq
      cases hs.symm.trans ht
      rw [← hkind] at hmem
      exact absurd hmem hgone
    · unfold put at ht'
      dsimp only at ht'
      rw [List.getElem?_set_ne heq, ht, Option.some.injEq] at ht'
      rw [ht']
  · have hreported : ∀ (ssl : Bool) {table : HandshakerTable} {store : HandshakerTable → RtpService}
        {buf : List UInt8}, result = some buf → table = w.service.table ssl →
        ∀ e ∈ (w.service.handshakeOk table store i s.sock buf hasPeer).2.2,
          Accepted (w.put i { s with called := true }).shakers e := by
      intro ssl table store buf hbuf htable e he
      cases e with
      | onAcceptSession a =>
        obtain ⟨hgenuine, hentry⟩ := accepts_handshakeOk he
        rw [htable] at hentry
        obtain ⟨t, ht, -, hnonce, -⟩ := h.entries ssl i a.nonce hentry
        cases hs.symm.trans ht
        refine ⟨{ s with called := true }, buf, ?_, ?_, hnonce, ?_⟩
        · unfold put
          dsimp only
          rw [hgenuine.handshaker, List.getElem?_set_self (List.getElem?_eq_some_iff.mp hs).1]
        · rw [← hbuf]
          exact hresult
        · rw [hgenuine.handshaker]
          exact hgenuine
      | _ => trivial
    have herror : ∀ {table : HandshakerTable} {store : HandshakerTable → RtpService},
        ∀ e ∈ (w.service.handshakeError table store i).2.2,
          Accepted (w.put i { s with called := true }).shakers e := by
      intro table store
      apply accepted_of_not
      intro a ha
      unfold handshakeError at ha
      split at ha
      · cases ha
      · split at ha
        · cases ha
        · simp at ha
    unfold reportSection
    cases s.sock.ctx <;> cases result
    · exact herror
    · exact hreported false rfl rfl
    · exact herror
    · exact hreported true rfl rfl

theorem Inv.destroy (h : w.Inv mmType) {i : Nat} {s : Shaker} (hs : w.shakers[i]? = some s)
    (hunused : s.unused = true) (hlive : s.destroyed = false) :
    Inv mmType ((w.put i { s with destroyed := true }).enter
      (w.service, (if s.holds then [.dispose i s.sock] else []), [])) := by
  have hwell := h.shakers s (List.mem_of_getElem? hs)
  have hkept : Kept w.shakers (w.put i { s with destroyed := true }).shakers :=
    Kept.set hs rfl rfl rfl fun _ hsome => hsome
  have hallowed : Allowed w.shakers.length w.service s.held.toList
      (w.service, (if s.holds then [.dispose i s.sock] else []), []) := by
    unfold Shaker.held
    cases s.holds with
    | false => exact allowed_nothing
    | true =>
      refine allowed_still (List.Perm.refl _) (List.Perm.refl _) rfl ?_
      intro e he
      rw [List.mem_singleton.mp he]
      exact ⟨rfl, rfl, rfl⟩
  refine h.enter hkept (shakers_set h ⟨hwell.called, fun _ => hunused⟩) hallowed ?_ ?_
    fun e he => absurd he List.not_mem_nil
  · cases hholds : s.held with
    | none =>
      have hheld : ({ s with destroyed := true } : Shaker).held = s.held := by
        unfold Shaker.held Shaker.holds at hholds ⊢
        cases hresult : s.result with
        | none =>
          rw [hresult, hlive] at hholds
          cases hholds
        | some result =>
          cases result with
          | none =>
            rw [hresult, hlive] at hholds
            cases hholds
          | some buf => rfl
      unfold put
      dsimp only
      rw [heldSocks_set hs hheld]
      exact List.Perm.refl _
    | some sock =>
      have hholding : s.held = some s.sock := by
        unfold Shaker.held at hholds ⊢
        cases hs' : s.holds with
        | false =>
          rw [hs'] at hholds
          cases hholds
        | true => rfl
      cases hholds.symm.trans hholding
      refine heldSocks_perm_set hs hholding ?_
      unfold Shaker.held Shaker.holds at hholding ⊢
      dsimp only
      cases hresult : s.result with
      | none => rfl
      | some result =>
        cases result with
        | none => rfl
        | some buf =>
          -- a handshaker that has been used and has decided has also reported
          unfold Shaker.unused at hunused
          rw [hresult, Option.isNone_some, Bool.false_or, Bool.and_eq_true] at hunused
          rw [hresult, hunused.2] at hholding
          cases hholding
  · intro ssl j t t' _ ht ht' _
    unfold put at ht'
    dsimp only at ht'
    rw [List.getElem?_set] at ht'
    split at ht'
    · rename_i heq
      subst heq
      rw [if_pos (List.getElem?_eq_some_iff.mp hs).1, Option.some.injEq] at ht'
      cases hs.symm.trans ht
      rw [← ht']
    · cases ht.symm.trans ht'
      rfl

theorem behind_onServiceAccept (s : RtpService) (offer : ServiceOffer) (sslCtx handshaker : Option Nat) :
    (s.onServiceAccept offer sslCtx handshaker).2.2 = [] := by
  unfold onServiceAccept
  dsimp only
  repeat' split
  all_goals rfl

theorem not_accept_fini (s : RtpService) (a : AcceptedSession) : .onAcceptSession a ∉ s.fini.2.2 := by
  unfold RtpService.fini
  split
  · exact List.not_mem_nil
  · intro ha
    simp at ha

theorem Inv.step (h : w.Inv mmType) (e : ServiceEvent) {next : ServiceRun} (hstep : w.step e = some next) :
    next.Inv mmType := by
  cases e with
  | onServiceAccept offer sslCtx created =>
    cases hstep
    refine h.enter (Kept.refl _) h.shakers (allowed_onServiceAccept h.fresh offer sslCtx created)
      (List.Perm.refl _) ?_ ?_
    · intro ssl i s s' _ hs hs' _
      cases hs.symm.trans hs'
      rfl
    · rw [behind_onServiceAccept]
      exact fun e he => absurd he List.not_mem_nil
  | decide handshaker result =>
    obtain ⟨s, hs, hstep⟩ := Option.bind_eq_some_iff.mp hstep
    split at hstep
    · cases hstep
    · rename_i hfree
      cases hstep
      rw [Bool.or_eq_true, not_or, Bool.not_eq_true, Bool.not_eq_true, Option.isSome_eq_false_iff,
        Option.isNone_iff_eq_none] at hfree
      exact h.decide hs hfree.1 hfree.2 result
  | report handshaker hasPeer =>
    obtain ⟨s, hs, hstep⟩ := Option.bind_eq_some_iff.mp hstep
    obtain ⟨result, hresult, hstep⟩ := Option.bind_eq_some_iff.mp hstep
    split at hstep
    · cases hstep
    · rename_i hfirst
      cases hstep
      exact h.report hs hresult (Bool.eq_false_of_not_eq_true hfirst) hasPeer
  | destroy handshaker =>
    obtain ⟨s, hs, hstep⟩ := Option.bind_eq_some_iff.mp hstep
    split at hstep
    · cases hstep
    · rename_i hfree
      cases hstep
      rw [Bool.or_eq_true, not_or, Bool.not_eq_true', Bool.not_eq_false, Bool.not_eq_true] at hfree
      exact h.destroy hs hfree.1 hfree.2
  | fini =>
    cases hstep
    refine h.enter (Kept.refl _) h.shakers allowed_fini (List.Perm.refl _) ?_ ?_
    · intro ssl i s s' _ hs hs' _
      cases hs.symm.trans hs'
      rfl
    · exact accepted_of_not (not_accept_fini w.service)
  | proceed handler =>
    obtain ⟨thread, hthread, hstep⟩ := Option.bind_eq_some_iff.mp hstep
    obtain ⟨e, he, hstep⟩ := Option.bind_eq_some_iff.mp hstep
    obtain ⟨effects, heffects, hstep⟩ := Option.bind_eq_some_iff.mp hstep
    cases hstep
    obtain ⟨rest, rfl⟩ := List.head?_eq_some_iff.mp he
    exact h.proceed hthread heffects

/-- What the observer is given: a session that has been offered to the service of the media type,
whose client has sent a whole packet with its info. -/
structure Announced (mmType : UInt8) (w : ServiceRun) (before : List ServiceEffect) (a : AcceptedSession) : Prop where
  deleted : .deleteHandshaker a.handshaker ∈ before
  offered : ∃ offer, .arrive offer ∈ w.effects.done ∧ ServiceOffer.Asks offer a.sock a.nonce ∧
    offer.serviceId = mmType
  received : ∃ s buf, w.shakers[a.handshaker]? = some s ∧ s.result = some (some buf) ∧
    Genuine a.handshaker s.sock buf a

/-- What holds of a service in every state. The lists are of what has happened, and of what some
handler is about to do behind its section. -/
structure Serves (mmType : UInt8) (w : ServiceRun) : Prop where
  socks : (w.effects.done.filterMap arrived).Perm (w.effects.done.filterMap sockGone ++
    (w.effects.pending.flatten.filterMap sockGone ++ (heldSocks w.shakers).map HandshakeSock.sockId))
  ctxs : (w.effects.done.filterMap ctxCreated).Perm (w.effects.done.filterMap ctxGone ++
    (w.effects.pending.flatten.filterMap ctxGone ++ (heldSocks w.shakers).filterMap HandshakeSock.ctx))
  handshakers : (List.range w.shakers.length).Perm (w.effects.done.filterMap ServiceEffect.deleted ++
    (w.effects.pending.flatten.filterMap ServiceEffect.deleted ++ w.service.handshakers))
  hosts : (w.effects.done.filterMap hosted).Perm (w.effects.done.filterMap hostDeleted ++
    (w.effects.pending.flatten.filterMap hostDeleted ++ w.service.serviceHost.toList))
  entries : ∀ (ssl : Bool) (i : Nat) (nonce : UInt64), (w.service.table ssl)[i]? = some nonce →
    ∃ s : Shaker, w.shakers[i]? = some s ∧ s.sock.ctx.isSome = ssl ∧ s.nonce = nonce ∧ s.called = false ∧
      s.deleted = false
  accepted : ∀ pre a post, w.effects.done = pre ++ .onAcceptSession a :: post → Announced mmType w pre a
  pending : w.service.pendingCount ≤ maxPendingCount
  finished : w.service.serviceHost = none → w.service.handshakers = [] ∧
    ∃ pre post, w.effects.done = pre ++ .fini :: post ∧ ∀ e ∈ post, created e = none
  settled : w.effects.pending.flatten = [] → (∀ s ∈ w.shakers, s.destroyed = true) →
    (w.effects.done.filterMap arrived).Perm (w.effects.done.filterMap sockGone) ∧
      (w.effects.done.filterMap ctxCreated).Perm (w.effects.done.filterMap ctxGone)

/-- What the service lends to handshakers they give back or dispose of, or still have. -/
theorem Inv.borrowed (h : w.Inv mmType) (p : HandshakeSock → Option Nat) :
    (w.effects.total.filterMap (lent p)).Perm (w.effects.total.filterMap (handedBack p) ++
      w.effects.total.filterMap (disposed p) ++ (heldSocks w.shakers).filterMap p) := by
  have hgiven := h.given.filterMap p
  rw [List.filterMap_append, List.filterMap_filterMap, List.filterMap_filterMap] at hgiven
  have hlent : (fun e => (ServiceEffect.given e).bind p) = lent p := by
    funext e
    cases e <;> rfl
  have hreturned : Splits (fun e => (ServiceEffect.returned e).bind p) (handedBack p) (disposed p) := by
    intro e
    cases e with
    | handBack i sock => exact .inl ⟨rfl, rfl⟩
    | dispose i sock => exact .inr ⟨rfl, rfl⟩
    | _ => exact .inl ⟨rfl, rfl⟩
  rw [hlent] at hgiven
  exact hgiven.trans ((hreturned.perm _).append_right _)

theorem Inv.sockCustody (h : w.Inv mmType) :
    w.effects.Balanced arrived sockGone ((heldSocks w.shakers).map HandshakeSock.sockId) := by
  have hborrowed := h.borrowed fun sock => some sock.sockId
  rw [List.filterMap_eq_map'] at hborrowed
  refine h.socks.join sockClosed hborrowed ?_ ?_ ?_
  all_goals
    intro e
    cases e <;> first | exact .inl ⟨rfl, rfl⟩ | exact .inr ⟨rfl, rfl⟩

theorem Inv.ctxCustody (h : w.Inv mmType) :
    w.effects.Balanced ctxCreated ctxGone ((heldSocks w.shakers).filterMap HandshakeSock.ctx) := by
  refine h.ctxs.join ctxClosed (h.borrowed HandshakeSock.ctx) ?_ ?_ ?_
  all_goals
    intro e
    cases e <;> first | exact .inl ⟨rfl, rfl⟩ | exact .inr ⟨rfl, rfl⟩

/-- What only arrives in sections has arrived. -/
theorem Inv.done_perm (h : w.Inv mmType) {ι : Type} {taken gone : ServiceEffect → Option ι} {held : List ι}
    (htaken : ∀ e : ServiceEffect, e.behind = true → taken e = none) (hbalanced : w.effects.Balanced taken gone held) :
    (w.effects.done.filterMap taken).Perm
      (w.effects.done.filterMap gone ++ (w.effects.pending.flatten.filterMap gone ++ held)) := by
  have hnone : w.effects.pending.flatten.filterMap taken = [] := by
    refine List.filterMap_eq_nil_iff.mpr ?_
    intro e he
    obtain ⟨l, hl, he⟩ := List.mem_flatten.mp he
    exact htaken e (h.behind l hl e he)
  unfold Deferred.Balanced total at hbalanced
  rw [List.filterMap_append, List.filterMap_append, hnone, List.append_nil, List.append_assoc] at hbalanced
  exact hbalanced

theorem Inv.serves (h : w.Inv mmType) : w.Serves mmType := by
  have hsocks := h.done_perm (fun e he => by cases e <;> first | rfl | cases he) h.sockCustody
  have hctxs := h.done_perm (fun e he => by cases e <;> first | rfl | cases he) h.ctxCustody
  have hhosts := h.done_perm (fun e he => by cases e <;> first | rfl | cases he) h.hosts
  refine ⟨hsocks, hctxs, ?_, hhosts, h.entries, ?_, h.pending, ?_, ?_⟩
  · have hhandshakers := h.ids.symm.trans h.handshakers
    unfold total at hhandshakers
    rw [List.filterMap_append, List.append_assoc] at hhandshakers
    exact hhandshakers
  · intro pre a post hdone
    obtain ⟨s, buf, hs, hresult, hnonce, hgenuine⟩ :=
      h.accepts (.onAcceptSession a) (List.mem_append_left _ (by rw [hdone]; simp))
    obtain ⟨offer, harrive, hasks, hservice⟩ := h.origin _ s hs
    rw [← hgenuine.sock, hnonce] at hasks
    exact ⟨by simpa using h.ordered.done pre _ post hdone _ rfl, ⟨offer, harrive, hasks, hservice⟩,
      s, buf, hs, hresult, hgenuine⟩
  · intro hclosed
    obtain ⟨htcp, hssl, hfini⟩ := h.finished hclosed
    refine ⟨?_, hfini⟩
    unfold RtpService.handshakers
    rw [htcp, hssl, Tables.keys_empty]
    rfl
  · intro hpending hdestroyed
    have hnone : heldSocks w.shakers = [] := by
      refine List.filterMap_eq_nil_iff.mpr ?_
      intro s hs
      have hwell := h.shakers s hs
      have hgone := hdestroyed s hs
      have hunused := hwell.destroyed hgone
      unfold Shaker.unused at hunused
      rw [Bool.and_eq_true, Bool.or_eq_true, Option.isNone_iff_eq_none] at hunused
      unfold Shaker.held Shaker.holds
      rw [hgone]
      cases hresult : s.result with
      | none => rfl
      | some result =>
        cases result with
        | none => rfl
        | some buf =>
          rw [hresult] at hunused
          rw [hunused.2.resolve_left (Option.some_ne_none _)]
          rfl
    rw [hpending, hnone] at hsocks hctxs
    simp only [List.filterMap_nil, List.map_nil, List.append_nil] at hsocks hctxs
    exact ⟨hsocks, hctxs⟩

theorem inv_of_run {serviceHost : Nat} {mmType : UInt8} {hasSslConfig : Bool} {es : List ServiceEvent}
    {w : ServiceRun} (hrun : run step (start serviceHost mmType hasSslConfig) es = some w) : w.Inv mmType :=
  run_preserves (fun _ e _ hv _ hstep => hv.step e hstep) (inv_start serviceHost mmType hasSslConfig)
    (guarded_true _ es) hrun

/-- Whatever the service host, the handshakers and their clients do, and whatever the order of the
sections and of what is left behind them. -/
theorem serves_of_service_run {serviceHost : Nat} {mmType : UInt8} {hasSslConfig : Bool} {es : List ServiceEvent}
    {w : ServiceRun} (hrun : run step (start serviceHost mmType hasSslConfig) es = some w) : w.Serves mmType :=
  (inv_of_run hrun).serves

/-- A client in the clear, one over SSL whose packet is malformed, and one that is still being
waited for when the service ends. -/
def threeClients : List ServiceEvent :=
  let hello := RtpPacket.dummyBuffer sizeofSessionInfo ++ List.replicate sizeofSessionInfo 7
  [.onServiceAccept ⟨1, 20, false, 11, 0, 900⟩ none true, .onServiceAccept ⟨1, 21, true, 11, 1, 901⟩ (some 50) true,
    .onServiceAccept ⟨1, 22, false, 11, 0, 902⟩ none true, .onServiceAccept ⟨1, 23, false, 12, 0, 903⟩ none true,
    .decide 1 (some (List.replicate 172 0)), .decide 0 (some hello), .report 1 false, .report 0 true, .proceed 1,
    .fini, .proceed 1, .proceed 0, .proceed 0, .proceed 0, .proceed 2, .proceed 2, .destroy 0, .destroy 1, .destroy 2]

theorem serves_of_service_run_threeClients :
    ∃ w, run step (start 1 11 true) threeClients = some w ∧ w.Serves 11 ∧
      w.effects.done.filterMap sockGone = [23, 20, 21, 22] := by
  have hgone : (run step (start 1 11 true) threeClients).map (fun w => w.effects.done.filterMap sockGone) =
      some [23, 20, 21, 22] := by decide +kernel
  obtain ⟨w, hw, hsocks⟩ := Option.map_eq_some_iff.mp hgone
  exact ⟨w, hw, serves_of_service_run hw, hsocks⟩

end ServiceRun

end Pronet.Rtp
