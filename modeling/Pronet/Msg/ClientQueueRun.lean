import Pronet.Msg.ClientQueue

/-! Every run of a message client keeps its queue in order. It also keeps a callback
for the messages that wait, as long as no message is pushed while the login response is
being handled and the session owes nothing. -/
namespace Pronet.Msg

open Rtp Net Library Runs

variable {ssl : Bool} {mmType : UInt8}

namespace ClientQueue

/-- A packet that is pushed leaves something in the bucket of the session. -/
theorem front_pushPacket (s : ClientSession ssl mmType) (packet : OutPacket (clientInfo ssl mmType)) :
    (s.pushPacket packet).front ≠ none := by
  have hfront : (s.pushPacket packet).front =
      (s.queue.1.pushBackAddRef (OutPacket.view _) packet).1.getFront := by
    unfold SendPath.pushPacket
    dsimp only
    split
    · unfold SendPath.baseRequestOnSend
      split <;> rfl
    · rfl
  rw [hfront, ← Option.isSome_iff_ne_none]
  exact s.queue.2.push_front packet

theorem same_pushPacket (s : ClientSession ssl mmType) (packet : OutPacket (clientInfo ssl mmType)) :
    (s.pushPacket packet).isOpen = s.isOpen ∧ (s.pushPacket packet).okPhase = s.okPhase ∧
      (s.pushPacket packet).enableOutput = s.enableOutput ∧ (s.pushPacket packet).locked = true := by
  unfold SendPath.pushPacket
  dsimp only
  split
  · unfold SendPath.baseRequestOnSend
    split <;> exact ⟨rfl, rfl, rfl, rfl⟩
  · exact ⟨rfl, rfl, rfl, rfl⟩

theorem ok_setFront {b : BaseBucket QueuedMsg} (h : b.Ok QueuedMsg.view) {front : QueuedMsg}
    {rest : List QueuedMsg} (hpackets : b.packets = front :: rest) (user : MsgUser) :
    (setFront b (front.own user)).Ok QueuedMsg.view := by
  refine ⟨?_, h.redline⟩
  have htotal := h.total
  have hsize : QueuedMsg.view.size (front.own user) = QueuedMsg.view.size front :=
    QueuedMsg.size_own user front
  rw [hpackets] at htotal
  simp only [setFront, hpackets, List.tail_cons, List.map_cons, hsize]
  exact htotal

/-- What `SendData` leaves behind once it may send. -/
structure Sent (c c' : ClientQueue ssl mmType) : Prop where
  rest : c' = { c with session := c'.session, bucket := c'.bucket, accepted := c'.accepted }
  session : c.session.Inv → c'.session.Inv
  isOpen : c'.session.isOpen = c.session.isOpen
  okPhase : c'.session.okPhase = c.session.okPhase
  enableOutput : c'.session.enableOutput = c.session.enableOutput
  bucketOk : c'.bucket.Ok QueuedMsg.view
  order : c'.accepted ++ c'.bucket.packets.map (QueuedMsg.own c.user) =
    c.accepted ++ c.bucket.packets.map (QueuedMsg.own c.user)
  lockedFront : c'.session.locked = true → c'.session.front ≠ none
  tried : c'.session.locked = true ∨ c'.bucket.packets = [] ∨ c'.session.isOpen = false

theorem sent_sendData {c : ClientQueue ssl mmType} (hlocked : c.session.locked = false)
    (henable : c.session.enableOutput = true) (hok : c.bucket.Ok QueuedMsg.view) :
    Sent c (c.sendData true) := by
  have hnot : c.session.locked = true → c.session.front ≠ none := by
    intro h
    rw [hlocked] at h
    cases h
  unfold sendData
  simp only [Bool.not_true, Bool.false_eq_true, if_false, hok.getFront]
  cases hpackets : c.bucket.packets with
  | nil => exact ⟨rfl, id, rfl, rfl, rfl, hok, rfl, hnot, Or.inr (Or.inl hpackets)⟩
  | cons front rest =>
    have hok' := ok_setFront hok hpackets c.user
    have horder : (setFront c.bucket (front.own c.user)).packets.map (QueuedMsg.own c.user) =
        c.bucket.packets.map (QueuedMsg.own c.user) := by
      simp [setFront, hpackets, QueuedMsg.own_own]
    rw [List.head?_cons]
    dsimp only
    by_cases hopen : c.session.isOpen = true
    · obtain ⟨hsame, hphase, hout, hlock⟩ := same_pushPacket c.session (front.own c.user).packet
      have hfront := front_pushPacket c.session (front.own c.user).packet
      have hperform : c.session.perform (.sendPacket (front.own c.user).packet false) =
          some (c.session.pushPacket (front.own c.user).packet, []) := by
        simp [SendPath.perform, hlocked, hopen, henable]
      rw [hperform]
      dsimp only
      split
      · -- The session has taken the message.
        refine ⟨rfl, fun h => h.pushPacket _, hsame, hphase, hout, hok'.popFrontRelease _, ?_,
          fun _ => hfront, Or.inl hlock⟩
        have hpop : ((setFront c.bucket (front.own c.user)).popFrontRelease QueuedMsg.view
            (front.own c.user)).1.packets = rest := by
          have hne : c.bucket.totalBytes ≠ 0 := by
            rw [ne_eq, hok.totalBytes_eq_zero, hpackets]
            simp
          simp [BaseBucket.popFrontRelease, hne, setFront, hpackets]
        dsimp only
        rw [hpop, hpackets, List.append_assoc]
        simp
      · exact ⟨rfl, fun h => h.pushPacket _, hsame, hphase, hout, hok', congrArg _ horder,
          fun _ => hfront, Or.inl hlock⟩
    · have hperform : c.session.perform (.sendPacket (front.own c.user).packet false) =
          some (c.session, []) := by
        simp [SendPath.perform, hlocked, hopen]
      rw [hperform]
      dsimp only
      rw [if_neg (by simp [takes, hopen])]
      exact ⟨rfl, id, rfl, rfl, rfl, hok', congrArg _ horder, hnot,
        Or.inr (Or.inr (Bool.eq_false_iff.mpr hopen))⟩

structure Inv (c : ClientQueue ssl mmType) : Prop where
  session : c.session.Inv
  bucketOk : c.bucket.Ok QueuedMsg.view
  before : c.login = none → c.accepted = [] ∧ c.bucket.packets = c.pushed
  order : ∀ user, c.login = some user →
    c.accepted ++ c.bucket.packets.map (QueuedMsg.own user) = c.pushed.map (QueuedMsg.own user)
  user : ∀ user, c.login = some user → c.user = user
  waiting : c.login = none → c.onOkCalled = false ∧ c.window = false
  logged : c.login ≠ none → c.onOkCalled = true ∨ c.window = true
  okPhase : c.login ≠ none → c.session.okPhase = .done
  enableOutput : c.session.enableOutput = true
  lockedFront : c.session.locked = true → c.session.front ≠ none
  apart : ¬ (c.window = true ∧ c.onSend = true)
  owed : c.login ≠ none → c.isOpen = true → c.session.Open → c.session.locked = false →
    c.bucket.packets ≠ [] → c.session.trans.Owes ∨ c.onSend = true

theorem inv_init (user : MsgUser) : (init user : ClientQueue ssl mmType).Inv where
  session := SendPath.inv_init
  bucketOk := BaseBucket.ok_new
  before _ := ⟨rfl, rfl⟩
  order _ h := nomatch h
  user _ h := nomatch h
  waiting _ := ⟨rfl, rfl⟩
  logged h := absurd rfl h
  okPhase h := absurd rfl h
  enableOutput := rfl
  lockedFront h := nomatch h
  apart h := nomatch h.1
  owed h := absurd rfl h

/-- After the login a try to send keeps the invariant, whether or not a callback was
owed before. -/
theorem Inv.of_sent {c c' : ClientQueue ssl mmType} (hsession : c.session.Inv)
    (horder : c.accepted ++ c.bucket.packets.map (QueuedMsg.own c.user) =
      c.pushed.map (QueuedMsg.own c.user))
    (hlogin : c.login = some c.user) (hlogged : c.onOkCalled = true ∨ c.window = true)
    (hphase : c.session.okPhase = .done) (henable : c.session.enableOutput = true)
    (hapart : ¬ (c.window = true ∧ c.onSend = true)) (hsent : Sent c c') : c'.Inv := by
  have hrest := hsent.rest
  have hlogin' : c'.login = some c.user := by rw [hrest]; exact hlogin
  have hpushed : c'.pushed = c.pushed := by rw [hrest]
  refine ⟨hsent.session hsession, hsent.bucketOk, ?_, ?_, ?_, ?_, ?_, ?_, ?_, hsent.lockedFront, ?_, ?_⟩
  · rw [hlogin']
    exact fun h => nomatch h
  · intro user huser
    rw [hlogin', Option.some.injEq] at huser
    subst huser
    rw [hpushed, hsent.order, horder]
  · intro user huser
    rw [hlogin', Option.some.injEq] at huser
    rw [← huser, hrest]
  · rw [hlogin']
    exact fun h => nomatch h
  · intro _
    rw [hrest]
    exact hlogged
  · exact fun _ => hsent.okPhase.trans hphase
  · exact hsent.enableOutput.trans henable
  · rw [hrest]
    exact hapart
  · intro _ _ hopen hlocked hpackets
    rcases hsent.tried with h | h | h
    · rw [hlocked] at h
      cases h
    · exact absurd h hpackets
    · exact absurd (hopen.1.symm.trans h) (by simp)

/-- The queue with one more message. -/
def queued (c : ClientQueue ssl mmType) (msg : QueuedMsg) : ClientQueue ssl mmType :=
  { c with
    bucket := { c.bucket with
      packets := c.bucket.packets ++ [msg]
      totalBytes := c.bucket.totalBytes + msg.size }
    pushed := c.pushed ++ [msg] }

/-- A message that passes the redline check of `PushMsg` finds room in the bucket. -/
theorem pushMsg_cases (c : ClientQueue ssl mmType) (body : List UInt8) (charset : UInt32)
    (dstUsers : List MsgUser) (srcUser : Option MsgUser) :
    c.pushMsg body charset dstUsers srcUser = (c, false) ∨
    ∃ msg, c.pushMsg body charset dstUsers srcUser = ((c.queued msg).sendData c.onOkCalled, true) := by
  unfold pushMsg
  split
  · exact Or.inl rfl
  · split
    · exact Or.inl rfl
    · rename_i hredline
      split
      · rename_i hfits
        split
        · exact Or.inl rfl
        · right
          have hroom : ¬ c.bucket.redlineBytes ≤ c.bucket.totalBytes := by omega
          refine ⟨⟨body, charset, srcUser.getD zeroUser, dstUsers, hfits.1, hfits.2⟩, ?_⟩
          simp only [BaseBucket.pushBackAddRef, hroom, if_false, if_true]
          rfl
      · exact Or.inl rfl

theorem refused_pushMsg (c : ClientQueue ssl mmType) (body : List UInt8) (charset : UInt32)
    (dstUsers : List MsgUser) (srcUser : Option MsgUser)
    (h : (c.pushMsg body charset dstUsers srcUser).2 = false) :
    (c.pushMsg body charset dstUsers srcUser).1 = c := by
  obtain hsame | ⟨msg, htaken⟩ := c.pushMsg_cases body charset dstUsers srcUser
  · rw [hsame]
  · rw [htaken] at h
    cases h

theorem ok_queued {c : ClientQueue ssl mmType} (h : c.bucket.Ok QueuedMsg.view) (msg : QueuedMsg) :
    (c.queued msg).bucket.Ok QueuedMsg.view :=
  ⟨by simp [queued, h.total, QueuedMsg.view], h.redline⟩

theorem Inv.order_queued {c : ClientQueue ssl mmType} (h : c.Inv) (msg : QueuedMsg) {user : MsgUser}
    (hlogin : c.login = some user) :
    (c.queued msg).accepted ++ (c.queued msg).bucket.packets.map (QueuedMsg.own user) =
      (c.queued msg).pushed.map (QueuedMsg.own user) := by
  simp only [queued, List.map_append, ← List.append_assoc]
  rw [h.order user hlogin]

theorem Inv.pushMsg {c : ClientQueue ssl mmType} (h : c.Inv) (hlocked : c.session.locked = false)
    (hguard : c.window = true → c.session.trans.Owes) (body : List UInt8) (charset : UInt32)
    (dstUsers : List MsgUser) (srcUser : Option MsgUser) :
    (c.pushMsg body charset dstUsers srcUser).1.Inv := by
  obtain hsame | ⟨msg, htaken⟩ := c.pushMsg_cases body charset dstUsers srcUser
  · rw [hsame]
    exact h
  · rw [htaken]
    dsimp only
    cases hok : c.onOkCalled with
    | true =>
      have hlogin : c.login ≠ none := by
        intro hnone
        rw [(h.waiting hnone).1] at hok
        cases hok
      obtain ⟨user, huser⟩ := Option.ne_none_iff_exists'.mp hlogin
      have hsame := h.user user huser
      subst hsame
      exact Inv.of_sent (c := c.queued msg) h.session (h.order_queued msg huser) huser
        (h.logged hlogin) (h.okPhase hlogin) h.enableOutput h.apart
        (sent_sendData hlocked h.enableOutput (ok_queued h.bucketOk msg))
    | false =>
      refine ⟨h.session, ok_queued h.bucketOk msg, ?_, fun _ => h.order_queued msg, h.user, h.waiting,
        h.logged, h.okPhase, h.enableOutput, h.lockedFront, h.apart, ?_⟩
      · intro hnone
        obtain ⟨haccepted, hpackets⟩ := h.before hnone
        exact ⟨haccepted, congrArg (· ++ [msg]) hpackets⟩
      · -- Only the window is left, and there the session owes a callback.
        intro hlogin _ _ _ _
        rcases h.logged hlogin with hcalled | hwindow
        · rw [show c.onOkCalled = true from hcalled] at hok
          cases hok
        · exact Or.inl (hguard hwindow)

/-- Only the upcall of the transport reaches the observer of the session. -/
theorem upcall_of_calls {s next : ClientSession ssl mmType} {calls : List Bool}
    {e : SendEvent (clientInfo ssl mmType)} (hstep : s.perform e = some (next, calls))
    (hcalls : calls ≠ []) : e = .upcall := by
  cases SendPath.performs_of_perform hstep with
  | upcall hphase hupcall => rfl
  | _ => exact absurd rfl hcalls

theorem Inv.session_kept {c : ClientQueue ssl mmType} (h : c.Inv) {next : ClientSession ssl mmType}
    {calls : List Bool} {e : SendEvent (clientInfo ssl mmType)} (hmay : c.mayRun e = true)
    (hstep : c.session.perform e = some (next, calls)) (hkept : SendPath.Kept c.session next) :
    Inv { c with session := next, onSend := c.onSend || !calls.isEmpty } := by
  refine ⟨h.session.perform e hstep, h.bucketOk, h.before, h.order, h.user, h.waiting, h.logged,
    fun hlogin => hkept.okPhase (h.okPhase hlogin), hkept.enableOutput.trans h.enableOutput, ?_, ?_, ?_⟩
  · intro hlocked
    have hbefore : c.session.locked = true := hkept.locked.symm.trans hlocked
    show ((Bucket.base _).getFront next.queue).2 ≠ none
    rw [hkept.queue hbefore]
    exact h.lockedFront hbefore
  · rintro ⟨hwindow, honSend⟩
    simp only [Bool.or_eq_true, Bool.not_eq_true', List.isEmpty_eq_false_iff] at honSend
    rcases honSend with honSend | hcalls
    · exact h.apart ⟨hwindow, honSend⟩
    · rw [upcall_of_calls hstep hcalls] at hmay
      simp [mayRun, show c.window = true from hwindow] at hmay
  · intro hlogin hopen hsession hlocked hpackets
    have hbefore := h.owed hlogin hopen (hkept.isOpenOf hsession) (hkept.locked.symm.trans hlocked)
      hpackets
    rcases hbefore with howes | honSend
    · rcases h.session.owes_perform e hstep (h.okPhase hlogin) hsession howes with howes | hcalls
      · exact Or.inl howes
      · right
        simp [hcalls]
    · right
      simp [honSend]

/-- The message that was pushed to the session, or one before it, is now in the slot. -/
theorem Inv.sendFront {c : ClientQueue ssl mmType} (h : c.Inv) (hlocked : c.session.locked = true) :
    Inv { c with session := { c.session.sendPacketUnlock.1 with locked := false } } := by
  have htried := SendPath.tried_sendPacketUnlock c.session
  have hflags := htried.flags
  have hstep : c.session.perform .sendFront =
      some ({ c.session.sendPacketUnlock.1 with locked := false }, []) := by
    simp [SendPath.perform, hlocked]
  refine ⟨h.session.perform _ hstep, h.bucketOk, h.before, h.order, h.user, h.waiting, h.logged,
    fun hlogin => hflags.okPhase.trans (h.okPhase hlogin), ?_, (fun hfree => absurd hfree Bool.false_ne_true), h.apart, ?_⟩
  · exact (SendPath.kept_sendPacketUnlock c.session).1.trans h.enableOutput
  · intro hlogin _ hopen _ _
    have hok : c.session.base.onOkCalled = true :=
      h.session.baseOk (by rw [h.okPhase hlogin]; simp)
    exact Or.inl (Or.inl (htried.owed (hflags.isOpenOf hopen) hok h.session.dataMode
      (h.lockedFront hlocked)))

theorem Inv.performSession {c : ClientQueue ssl mmType} (h : c.Inv) {next : ClientSession ssl mmType}
    {calls : List Bool} {e : SendEvent (clientInfo ssl mmType)} (hmay : c.mayRun e = true)
    (hstep : c.session.perform e = some (next, calls)) :
    Inv { c with session := next, onSend := c.onSend || !calls.isEmpty } := by
  cases habove : SendPath.fromAbove e with
  | false => exact h.session_kept hmay hstep (h.session.kept_perform habove hstep)
  | true =>
    cases SendPath.performs_of_perform hstep with
    | sendFront hlocked => simpa using h.sendFront hlocked
    | ignored => simpa using h
    | sendPacket | setOutputRedline | enableOutput => cases hmay
    | _ => cases habove

theorem Inv.onRecvSession {c : ClientQueue ssl mmType} (h : c.Inv) {srcUser : MsgUser}
    (hlocked : c.session.locked = false) (hwindow : c.window = false) (honSend : c.onSend = false)
    (hphase : c.session.okPhase = .done) (hcalled : c.onOkCalled = false) :
    ({ c with user := srcUser, login := some srcUser, window := true }.sendData true).Inv := by
  have hlogin : c.login = none := by
    by_contra hne
    rcases h.logged hne with hok | hok
    · rw [hcalled] at hok
      cases hok
    · rw [hwindow] at hok
      cases hok
  obtain ⟨haccepted, hpackets⟩ := h.before hlogin
  refine Inv.of_sent (c := { c with user := srcUser, login := some srcUser, window := true })
    h.session ?_ rfl (Or.inr rfl) hphase h.enableOutput ?_
    (sent_sendData hlocked h.enableOutput h.bucketOk)
  · simp [haccepted, hpackets]
  · rintro ⟨-, hsend⟩
    exact absurd (honSend.symm.trans hsend) (by simp)

theorem sendData_onSend (c : ClientQueue ssl mmType) (onSend : Bool) :
    { c.sendData true with onSend := onSend } = { c with onSend := onSend }.sendData true := by
  unfold sendData takes
  simp only [Bool.not_true, Bool.false_eq_true, if_false]
  cases c.bucket.getFront with
  | none => rfl
  | some front =>
    dsimp only
    cases c.session.perform (.sendPacket (front.own c.user).packet false) with
    | none => rfl
    | some r =>
      dsimp only
      split <;> rfl

theorem Inv.onSendSession {c : ClientQueue ssl mmType} (h : c.Inv)
    (hlocked : c.session.locked = false) (honSend : c.onSend = true) :
    Inv { (if c.isOpen then c.sendData c.onOkCalled else c) with onSend := false } := by
  have hapart : ¬ (c.window = true ∧ false = true) := fun hno => nomatch hno.2
  split
  · cases hcalled : c.onOkCalled with
    | true =>
      have hlogin : c.login ≠ none := by
        intro hnone
        rw [(h.waiting hnone).1] at hcalled
        cases hcalled
      obtain ⟨user, huser⟩ := Option.ne_none_iff_exists'.mp hlogin
      have hsame := h.user user huser
      subst hsame
      rw [sendData_onSend]
      exact Inv.of_sent (c := { c with onSend := false }) h.session (h.order c.user huser) huser
        (h.logged hlogin) (h.okPhase hlogin) h.enableOutput hapart
        (sent_sendData hlocked h.enableOutput h.bucketOk)
    | false =>
      refine ⟨h.session, h.bucketOk, h.before, h.order, h.user, h.waiting, h.logged, h.okPhase,
        h.enableOutput, h.lockedFront, hapart, ?_⟩
      -- Without the flag the client is not logged in: the window and the callback are apart.
      intro hlogin
      rcases h.logged hlogin with hok | hwindow
      · exact absurd (hcalled.symm.trans hok) (by simp)
      · exact absurd ⟨hwindow, honSend⟩ h.apart
  · rename_i hclosed
    exact ⟨h.session, h.bucketOk, h.before, h.order, h.user, h.waiting, h.logged, h.okPhase,
      h.enableOutput, h.lockedFront, hapart, fun _ hopen => absurd hopen hclosed⟩

theorem Inv.setOutputRedline {c : ClientQueue ssl mmType} (h : c.Inv) (redlineBytes : Nat)
    {next : ClientSession ssl mmType} {calls : List Bool}
    (hstep : c.session.perform (.setOutputRedline redlineBytes 0) = some (next, calls)) :
    Inv { c with session := next, bucket := c.bucket.setRedline redlineBytes } := by
  have hsession : Inv { c with session := next } := by
    have hnext := h.session.perform _ hstep
    cases SendPath.performs_of_perform hstep with
    | ignored => exact h
    | setOutputRedline _ _ hlocked =>
      exact ⟨hnext, h.bucketOk, h.before, h.order, h.user, h.waiting, h.logged, h.okPhase,
        h.enableOutput, fun hlock => absurd hlock hlocked, h.apart, h.owed⟩
  have hpackets : (c.bucket.setRedline redlineBytes).packets = c.bucket.packets := by
    unfold BaseBucket.setRedline
    split <;> rfl
  refine ⟨hsession.session, h.bucketOk.setRedline redlineBytes, ?_, ?_, h.user, h.waiting, h.logged,
    hsession.okPhase, hsession.enableOutput, hsession.lockedFront, h.apart, ?_⟩
  · dsimp only
    rw [hpackets]
    exact h.before
  · dsimp only
    rw [hpackets]
    exact h.order
  · dsimp only
    rw [hpackets]
    exact hsession.owed

/-- A message is pushed behind the section with the login response only while the session
owes a callback. -/
def Timely (c : ClientQueue ssl mmType) : QueueEvent ssl mmType → Prop
  | .pushMsg .. => c.window = true → c.session.trans.Owes
  | _ => True

instance (c : ClientQueue ssl mmType) (e : QueueEvent ssl mmType) : Decidable (c.Timely e) := by
  unfold Timely
  split <;> infer_instance

theorem Inv.step {c next : ClientQueue ssl mmType} (h : c.Inv) {e : QueueEvent ssl mmType}
    (htimely : c.Timely e) (hstep : c.step e = some next) : next.Inv := by
  cases e with
  | pushMsg body charset dstUsers srcUser =>
    simp only [ClientQueue.step] at hstep
    split at hstep
    · cases hstep
    · rename_i hlocked
      rw [Option.some.injEq] at hstep
      subst hstep
      exact h.pushMsg (Bool.eq_false_iff.mpr hlocked) htimely body charset dstUsers srcUser
  | onRecvSession srcUser =>
    simp only [ClientQueue.step] at hstep
    split at hstep
    · cases hstep
    · rename_i hready
      simp only [Bool.or_eq_true, decide_eq_true_eq, not_or, Bool.not_eq_true, not_not] at hready
      split at hstep
      · rw [Option.some.injEq] at hstep
        subst hstep
        exact h
      · rename_i hfirst
        simp only [Bool.or_eq_true, not_or, Bool.not_eq_true] at hfirst
        rw [Option.some.injEq] at hstep
        subst hstep
        exact h.onRecvSession hready.1.1.1.1.1 hready.1.1.1.1.2 hready.1.1.1.2 hready.2 hfirst.2
  | onOkMsg =>
    simp only [ClientQueue.step] at hstep
    split at hstep
    · rename_i hwindow
      rw [Option.some.injEq] at hstep
      subst hstep
      refine ⟨h.session, h.bucketOk, h.before, h.order, h.user, ?_, fun _ => Or.inl rfl, h.okPhase,
        h.enableOutput, h.lockedFront, (fun hno => nomatch hno.1), h.owed⟩
      intro hnone
      exact absurd (hwindow.symm.trans (h.waiting hnone).2) (by simp)
    · cases hstep
  | onSendSession =>
    simp only [ClientQueue.step] at hstep
    split at hstep
    · cases hstep
    · rename_i hready
      simp only [Bool.or_eq_true, not_or, Bool.not_eq_true, Bool.not_eq_false'] at hready
      rw [Option.some.injEq] at hstep
      subst hstep
      exact h.onSendSession hready.1 hready.2
  | setOutputRedline redlineBytes =>
    simp only [ClientQueue.step] at hstep
    split at hstep
    · cases hstep
    · split at hstep
      · rw [Option.some.injEq] at hstep
        subst hstep
        exact h
      · obtain ⟨⟨session, calls⟩, hperform, rfl⟩ := Option.map_eq_some_iff.mp hstep
        exact h.setOutputRedline redlineBytes hperform
  | onCloseSession =>
    simp only [ClientQueue.step] at hstep
    split at hstep
    · cases hstep
    · rw [Option.some.injEq] at hstep
      subst hstep
      exact ⟨h.session, h.bucketOk, h.before, h.order, h.user, h.waiting, h.logged, h.okPhase,
        h.enableOutput, h.lockedFront, h.apart, (fun _ hopen => nomatch hopen)⟩
  | session e =>
    simp only [ClientQueue.step] at hstep
    split at hstep
    · cases hstep
    · rename_i hmay
      obtain ⟨⟨session, calls⟩, hperform, rfl⟩ := Option.map_eq_some_iff.mp hstep
      exact h.performSession (by simpa using hmay) hperform

theorem Inv.sound {c : ClientQueue ssl mmType} (h : c.Inv) : c.Sound := by
  refine ⟨h.before, h.order, c.refused_pushMsg, ?_⟩
  intro hcalled hopen hsession hlocked hpackets
  refine h.owed ?_ hopen hsession hlocked hpackets
  intro hnone
  exact absurd (hcalled.symm.trans (h.waiting hnone).1) (by simp)

end ClientQueue

end Pronet.Msg
