import Pronet.Net.SslTransport
import Pronet.Rtp.SessionWrapper

/-! `m_sendTick` and `m_onSendTick` of a session over a TCP or TLS transport. A call of
`SendPacket` holds `m_lock` from its call of `SendData` until it has set the ticks, and the
transport runs on in between. -/
namespace Pronet.Rtp

open Library Runs Net

/-- What a session calls of its transport, and the sections of the transport itself.
`able` says whether the reactor can add the handler. -/
structure TransportSteps (σ ε : Type*) where
  sendData : σ → List UInt8 → UInt64 → Bool → σ × Bool
  requestOnSend : σ → Bool → σ
  perform : σ → ε → Option σ
  upcall : σ → Option (σ × Option TcpTransport.Upcall)

def tcpSteps : TransportSteps (Wire UInt8) (WireEvent UInt8) where
  sendData w buf actionId able :=
    if able || w.trans.onWr then
      ((w.step (.sendData buf actionId)).getD w, (w.trans.sendData buf actionId).2)
    else (w, false)
  requestOnSend w able := if able || w.trans.onWr then (w.step .requestOnSend).getD w else w
  perform w event :=
    match event with
    | .sendData _ _ | .requestOnSend | .upcall => none
    | event => w.step event
  upcall w :=
    match w.trans.phase with
    | .upcall locals => (w.step .upcall).map fun next => (next, w.trans.upcallOf locals)
    | _ => none

def sslSteps : TransportSteps (SslWire UInt8) (SslEvent UInt8) where
  sendData w buf actionId able :=
    ((w.step (.sendData buf actionId able)).getD w,
      w.adds able && (w.trans.tcp.sendData buf actionId).2)
  requestOnSend w able := (w.step (.requestOnSend able)).getD w
  perform w event :=
    match event with
    | .sendData _ _ _ | .requestOnSend _ | .upcall => none
    | event => w.step event
  upcall w :=
    match w.trans.tcp.phase with
    | .upcall locals => (w.step .upcall).map fun next => (next, w.trans.tcp.upcallOf locals)
    | _ => none

/-- A packet that `SendPacket` accepted, or a callback that `OnSend` has processed. -/
inductive SendMark
  | accepted (actionId : UInt64)
  | processed (actionId : UInt64)
  deriving DecidableEq, Repr

/-- `lock` is what `SendData` returned to the thread that is inside `SendPacket`. The clock
stands at `now`. -/
structure TickSession (σ : Type*) where
  trans : σ
  hasTrans : Bool
  onOkCalled : Bool
  actionId : UInt64
  sendingTick : Int
  sendTick : Int
  onSendTick : Int
  lock : Option Bool
  now : Int
  log : List SendMark
  deriving DecidableEq, Repr

/-- `fini` is whatever sets `m_trans` to NULL, a handler that closes the transport too. -/
inductive TickEvent (ε : Type*)
  | doHandshake (buf : List UInt8) (able : Bool)
  | okSession
  | sendPacket (packet : RtpPacket) (able : Bool)
  | setTicks (tick : Int)
  | onHeartbeat (able : Bool)
  | requestOnSend (able : Bool)
  | transport (event : ε)
  | upcall (tick : Int)
  | fini

namespace TickSession

variable {σ ε : Type*}

def init (initTick : Int) (trans : σ) : TickSession σ :=
  ⟨trans, true, false, 0, initTick, initTick, initTick, none, initTick, []⟩

def sender (info : OutInfo) (s : TickSession σ) : TcpSender :=
  ⟨info.kind, info.outSrcMmId, info.mmType, s.hasTrans, s.onOkCalled⟩

/-- `SendPacket` behind `SendData`. -/
def setTicks (s : TickSession σ) (ret : Bool) (tick : Int) : TickSession σ :=
  let s := { s with sendingTick := tick, lock := none, now := tick }
  if ret then
    { s with
      actionId := s.actionId + 1
      sendTick := s.sendingTick
      onSendTick := s.sendingTick - 1
      log := s.log ++ [.accepted (s.actionId + 1)] }
  else s

def onSend (s : TickSession σ) (actionId : UInt64) (tick : Int) : TickSession σ :=
  if !s.hasTrans then s
  else if !s.onOkCalled then s
  else
    { s with
      onSendTick := if 0 < actionId && actionId = s.actionId then tick else s.onSendTick
      now := tick
      log := s.log ++ [.processed actionId] }

/-- One section. Those of the session wait for `m_lock`. -/
def step (info : OutInfo) (steps : TransportSteps σ ε) (s : TickSession σ) :
    TickEvent ε → Option (TickSession σ)
  | .doHandshake buf able =>
      if s.lock = none && s.hasTrans && !s.onOkCalled then
        some { s with trans := (steps.sendData s.trans buf 0 able).1 }
      else none
  | .okSession => if s.lock = none then some { s with onOkCalled := true } else none
  | .sendPacket packet able =>
      if s.lock = none then
        match (s.sender info).sendPacket packet with
        | none => some s
        | some buf =>
            let (trans, ret) := steps.sendData s.trans buf (s.actionId + 1) able
            some { s with trans := trans, lock := some ret }
      else none
  | .setTicks tick =>
      match s.lock with
      | none => none
      | some ret => if s.now ≤ tick then some (s.setTicks ret tick) else none
  | .onHeartbeat able =>
      if s.lock = none then
        if s.hasTrans && s.onOkCalled then
          some { s with trans := (steps.sendData s.trans (SendPath.heartbeat info.kind) 0 able).1 }
        else some s
      else none
  | .requestOnSend able =>
      if s.lock = none then
        some (if s.hasTrans then { s with trans := steps.requestOnSend s.trans able } else s)
      else none
  | .transport event => (steps.perform s.trans event).map fun trans => { s with trans := trans }
  | .upcall tick =>
      match steps.upcall s.trans with
      | none => none
      | some (trans, none) => some { s with trans := trans }
      | some (trans, some call) =>
          if s.lock = none && s.now ≤ tick then
            match call with
            | .onSend actionId => some ({ s with trans := trans }.onSend actionId tick)
            | .onClose _ => some { s with trans := trans, hasTrans := false }
          else none
  | .fini => if s.lock = none then some { s with hasTrans := false } else none

/-- The action id of the latest accepted packet, and those of the callbacks that were
processed after it. -/
def sinceLatest (log : List SendMark) : Option (UInt64 × List UInt64) :=
  log.foldl (fun since mark =>
    match mark with
    | .accepted actionId => some (actionId, [])
    | .processed actionId => since.map fun s => (s.1, s.2 ++ [actionId])) none

def acceptedCount (log : List SendMark) : Nat :=
  log.countP fun
    | .accepted _ => true
    | .processed _ => false

/-- A packet was accepted, and the callback with the id of the latest one is still to come. -/
def Pending (log : List SendMark) : Prop :=
  ∃ actionId processed, sinceLatest log = some (actionId, processed) ∧ actionId ∉ processed

/-- The number of the latest accepted packet is a multiple of 2^64. -/
def Wrapped (log : List SendMark) : Prop :=
  0 < acceptedCount log ∧ acceptedCount log % 2 ^ 64 = 0

/-- What the ticks tell while nobody holds the lock. -/
def TicksTell (s : TickSession σ) : Prop :=
  s.lock = none → (s.onSendTick < s.sendTick ↔ Pending s.log)

theorem sinceLatest_accepted (log : List SendMark) (actionId : UInt64) :
    sinceLatest (log ++ [.accepted actionId]) = some (actionId, []) := List.foldl_append

theorem sinceLatest_processed (log : List SendMark) (actionId : UInt64) :
    sinceLatest (log ++ [.processed actionId]) =
      (sinceLatest log).map fun s => (s.1, s.2 ++ [actionId]) := List.foldl_append

theorem sinceLatest_eq_none_iff (log : List SendMark) :
    sinceLatest log = none ↔ acceptedCount log = 0 := by
  induction log using List.reverseRecOn with
  | nil => exact iff_of_true rfl rfl
  | append_singleton log mark ih =>
    unfold acceptedCount at ih ⊢
    rw [List.countP_append, Nat.add_eq_zero_iff]
    cases mark with
    | accepted actionId => simp [sinceLatest_accepted]
    | processed actionId => simp [sinceLatest_processed, ih]

/-- `OnSend` takes an id for an answer only if it is not 0. -/
def Unanswered (log : List SendMark) : Prop :=
  ∃ actionId processed, sinceLatest log = some (actionId, processed) ∧
    (actionId ∈ processed → actionId = 0)

structure Inv (s : TickSession σ) : Prop where
  clock : s.sendTick ≤ s.now
  latest : ∀ actionId processed, sinceLatest s.log = some (actionId, processed) →
    actionId = s.actionId
  count : s.actionId.toNat = acceptedCount s.log % 2 ^ 64
  ticks : s.onSendTick < s.sendTick ↔ Unanswered s.log

theorem inv_init (initTick : Int) (trans : σ) : (init initTick trans).Inv := by
  apply Inv.mk
  · exact le_rfl
  · intro actionId processed h
    cases h
  · rfl
  · apply iff_of_false (lt_irrefl initTick)
    rintro ⟨actionId, processed, h, -⟩
    cases h

/-- Everything but the transport, the lock and the two pointers. -/
theorem Inv.of_eq {s next : TickSession σ} (h : s.Inv) (hnow : next.now = s.now)
    (hid : next.actionId = s.actionId) (hsend : next.sendTick = s.sendTick)
    (honSend : next.onSendTick = s.onSendTick) (hlog : next.log = s.log) : next.Inv := by
  apply Inv.mk
  · rw [hsend, hnow]
    exact h.clock
  · rw [hlog, hid]
    exact h.latest
  · rw [hid, hlog]
    exact h.count
  · rw [honSend, hsend, hlog]
    exact h.ticks

theorem Inv.setTicks {s : TickSession σ} (h : s.Inv) (ret : Bool) {tick : Int}
    (htick : s.now ≤ tick) : (s.setTicks ret tick).Inv := by
  unfold TickSession.setTicks
  cases ret with
  | false =>
    apply Inv.mk
    · exact h.clock.trans htick
    · exact h.latest
    · exact h.count
    · exact h.ticks
  | true =>
    have hlatest := sinceLatest_accepted s.log (s.actionId + 1)
    apply Inv.mk
    · exact le_rfl
    · intro actionId processed hsince
      have hsame := Option.some.inj (hlatest.symm.trans hsince)
      exact (congrArg Prod.fst hsame).symm
    · have hcount : acceptedCount (s.log ++ [.accepted (s.actionId + 1)]) =
          acceptedCount s.log + 1 := by
        unfold acceptedCount
        rw [List.countP_append]
        rfl
      show (s.actionId + 1).toNat = acceptedCount (s.log ++ _) % 2 ^ 64
      rw [hcount, UInt64.toNat_add, h.count]
      show (_ + 1) % 2 ^ 64 = _
      omega
    · apply iff_of_true
      · show tick - 1 < tick
        omega
      · exact ⟨_, _, hlatest, fun hmem => absurd hmem List.not_mem_nil⟩

theorem unanswered_processed {s : TickSession σ} (h : s.Inv) (actionId : UInt64) :
    Unanswered (s.log ++ [.processed actionId]) ↔
      Unanswered s.log ∧ ¬ (0 < actionId ∧ actionId = s.actionId) := by
  have hpos : 0 < actionId ↔ actionId ≠ 0 := by
    rw [UInt64.lt_iff_toNat_lt, ne_eq, ← UInt64.toNat_inj]
    exact Nat.pos_iff_ne_zero
  unfold Unanswered
  rw [sinceLatest_processed, hpos]
  cases hsince : sinceLatest s.log with
  | none => simp
  | some since =>
    have hlatest := h.latest since.1 since.2 hsince
    simp only [Option.map_some, Option.some.injEq, Prod.ext_iff]
    constructor
    · rintro ⟨latest, processed, ⟨hid, hprocessed⟩, hzero⟩
      refine ⟨⟨since.1, since.2, ⟨rfl, rfl⟩, ?_⟩, ?_⟩
      · intro hmem
        rw [hid]
        apply hzero
        rw [← hid, ← hprocessed]
        exact List.mem_append_left _ hmem
      · rintro ⟨hne, hsame⟩
        apply hne
        rw [hsame, ← hlatest, hid]
        apply hzero
        rw [← hprocessed, ← hid, hlatest, ← hsame]
        exact List.mem_append_right _ List.mem_cons_self
    · rintro ⟨⟨latest, processed, ⟨hid, hprocessed⟩, hzero⟩, hother⟩
      refine ⟨since.1, since.2 ++ [actionId], ⟨rfl, rfl⟩, ?_⟩
      intro hmem
      rcases List.mem_append.mp hmem with hold | hnew
      · rw [hid]
        apply hzero
        rw [← hid, ← hprocessed]
        exact hold
      · by_contra hne
        have hsame := List.mem_singleton.mp hnew
        exact hother ⟨hsame ▸ hne, hsame.symm.trans hlatest⟩

theorem Inv.onSend {s : TickSession σ} (h : s.Inv) (actionId : UInt64) {tick : Int}
    (htick : s.now ≤ tick) : (s.onSend actionId tick).Inv := by
  unfold TickSession.onSend
  split
  · exact h
  · split
    · exact h
    · have hclock := h.clock
      apply Inv.mk
      · exact hclock.trans htick
      · intro latest processed hsince
        dsimp only at hsince
        rw [sinceLatest_processed, Option.map_eq_some_iff] at hsince
        obtain ⟨since, hsince, hsame⟩ := hsince
        have hid : since.1 = latest := congrArg Prod.fst hsame
        rw [← hid]
        exact h.latest since.1 since.2 hsince
      · show s.actionId.toNat = acceptedCount (s.log ++ [.processed actionId]) % 2 ^ 64
        unfold acceptedCount
        rw [List.countP_append]
        exact h.count
      · show (if _ then _ else _) < s.sendTick ↔ Unanswered (s.log ++ [.processed actionId])
        rw [unanswered_processed h]
        by_cases hanswer : 0 < actionId ∧ actionId = s.actionId
        · rw [if_pos (by simpa using hanswer)]
          apply iff_of_false
          · omega
          · exact fun hboth => hboth.2 hanswer
        · rw [if_neg (by simpa using hanswer), h.ticks]
          exact (and_iff_left hanswer).symm

theorem Inv.step {info : OutInfo} {steps : TransportSteps σ ε} {s next : TickSession σ} (h : s.Inv)
    (event : TickEvent ε) (hstep : s.step info steps event = some next) : next.Inv := by
  cases event with
  | doHandshake buf able =>
    simp only [TickSession.step] at hstep
    split at hstep
    · exact Option.some.inj hstep ▸ h.of_eq rfl rfl rfl rfl rfl
    · cases hstep
  | okSession =>
    simp only [TickSession.step] at hstep
    split at hstep
    · exact Option.some.inj hstep ▸ h.of_eq rfl rfl rfl rfl rfl
    · cases hstep
  | sendPacket packet able =>
    simp only [TickSession.step] at hstep
    split at hstep
    · split at hstep
      · exact Option.some.inj hstep ▸ h
      · exact Option.some.inj hstep ▸ h.of_eq rfl rfl rfl rfl rfl
    · cases hstep
  | setTicks tick =>
    simp only [TickSession.step] at hstep
    split at hstep
    · cases hstep
    · split at hstep
      · rename_i htick
        exact Option.some.inj hstep ▸ h.setTicks _ htick
      · cases hstep
  | onHeartbeat able =>
    simp only [TickSession.step] at hstep
    split at hstep
    · split at hstep
      · exact Option.some.inj hstep ▸ h.of_eq rfl rfl rfl rfl rfl
      · exact Option.some.inj hstep ▸ h
    · cases hstep
  | requestOnSend able =>
    simp only [TickSession.step] at hstep
    split at hstep
    · rw [← Option.some.inj hstep]
      split
      · exact h.of_eq rfl rfl rfl rfl rfl
      · exact h
    · cases hstep
  | transport event =>
    obtain ⟨trans, -, htrans⟩ := Option.map_eq_some_iff.mp hstep
    exact htrans ▸ h.of_eq rfl rfl rfl rfl rfl
  | upcall tick =>
    simp only [TickSession.step] at hstep
    split at hstep
    · cases hstep
    · exact Option.some.inj hstep ▸ h.of_eq rfl rfl rfl rfl rfl
    · rename_i trans call _
      split at hstep
      · rename_i hfree
        have htick : s.now ≤ tick := (by simpa using hfree : s.lock = none ∧ s.now ≤ tick).2
        cases call with
        | onSend actionId =>
          have htrans : Inv { s with trans := trans } := h.of_eq rfl rfl rfl rfl rfl
          exact Option.some.inj hstep ▸ htrans.onSend actionId htick
        | onClose errorCode => exact Option.some.inj hstep ▸ h.of_eq rfl rfl rfl rfl rfl
      · cases hstep
  | fini =>
    simp only [TickSession.step] at hstep
    split at hstep
    · exact Option.some.inj hstep ▸ h.of_eq rfl rfl rfl rfl rfl
    · cases hstep

theorem Inv.unanswered_iff {s : TickSession σ} (h : s.Inv) :
    Unanswered s.log ↔ Pending s.log ∨ Wrapped s.log := by
  have hcount := h.count
  unfold Unanswered Pending Wrapped
  cases hsince : sinceLatest s.log with
  | none =>
    rw [(sinceLatest_eq_none_iff s.log).mp hsince]
    simp
  | some since =>
    have hsome : 0 < acceptedCount s.log := by
      rw [Nat.pos_iff_ne_zero, ne_eq, ← sinceLatest_eq_none_iff, hsince]
      simp
    have hzero : since.1 = 0 ↔ acceptedCount s.log % 2 ^ 64 = 0 := by
      rw [h.latest since.1 since.2 hsince, ← UInt64.toNat_inj, hcount]
      rfl
    constructor
    · rintro ⟨actionId, processed, hsame, hanswer⟩
      have hsame := Option.some.inj hsame
      by_cases hmem : actionId ∈ processed
      · right
        refine ⟨hsome, hzero.mp ?_⟩
        rw [hsame]
        exact hanswer hmem
      · exact Or.inl ⟨actionId, processed, congrArg some hsame, hmem⟩
    · rintro (⟨actionId, processed, hsame, hpending⟩ | ⟨-, hwrapped⟩)
      · exact ⟨actionId, processed, hsame, fun hmem => absurd hmem hpending⟩
      · exact ⟨since.1, since.2, rfl, fun _ => hzero.mpr hwrapped⟩

/-- Whatever the transport does. -/
theorem ticks_of_steps {info : OutInfo} {steps : TransportSteps σ ε} {initTick : Int} {trans : σ}
    {events : List (TickEvent ε)} {s : TickSession σ}
    (hrun : run (step info steps) (init initTick trans) events = some s) :
    s.onSendTick < s.sendTick ↔ Pending s.log ∨ Wrapped s.log := by
  have hinv : s.Inv := run_preserves (fun _ event _ h _ hstep => Inv.step h event hstep)
    (inv_init initTick trans) (guarded_true (init initTick trans) events) hrun
  exact hinv.ticks.trans hinv.unanswered_iff

/-- Over both transports, the ticks tell whether the latest accepted packet is pending, but
always say so of a packet whose number is a multiple of 2^64. -/
theorem ticksTell_of_run (info : OutInfo) (initTick : Int) :
    (∀ (events : List (TickEvent (WireEvent UInt8))) (s : TickSession (Wire UInt8)),
      run (step info tcpSteps) (init initTick Wire.init) events = some s → s.lock = none →
      (s.onSendTick < s.sendTick ↔ Pending s.log ∨ Wrapped s.log)) ∧
    (∀ (size : Nat) (buf : Nat → UInt8) (events : List (TickEvent (SslEvent UInt8)))
      (s : TickSession (SslWire UInt8)),
      run (step info sslSteps) (init initTick (SslWire.init size buf)) events = some s →
      s.lock = none → (s.onSendTick < s.sendTick ↔ Pending s.log ∨ Wrapped s.log)) := by
  constructor
  · intro events s hrun _
    exact ticks_of_steps hrun
  · intro size buf events s hrun _
    exact ticks_of_steps hrun

def messages : OutInfo := ⟨.serverEx, false, 0, 11⟩

def oneByte : RtpPacket := RtpPacket.setMmType ⟨RtpPacket.dummyBuffer 1 ++ [65]⟩ 11

/-- A packet is accepted while the callback of the packet before it is on its way. -/
def crossingPackets : List (TickEvent (WireEvent UInt8)) :=
  [.okSession, .sendPacket oneByte true, .setTicks 5,
    .transport (.onOutput (.sent 21)), .sendPacket oneByte true, .setTicks 5,
    .upcall 5]

theorem ticksTell_of_run_crossingPackets :
    ∃ s, run (step messages tcpSteps) (init 0 Wire.init) crossingPackets = some s ∧
      (s.onSendTick = 4 ∧ s.sendTick = 5 ∧ s.log = [.accepted 1, .accepted 2, .processed 1]) ∧
      s.lock = none ∧ (s.onSendTick < s.sendTick ↔ Pending s.log ∨ Wrapped s.log) := by
  have hends : (run (step messages tcpSteps) (init 0 Wire.init) crossingPackets).any (fun s =>
      (s.onSendTick = 4 ∧ s.sendTick = 5 ∧ s.log = [.accepted 1, .accepted 2, .processed 1]) ∧
        s.lock = none) = true := by
    decide +kernel
  obtain ⟨s, hs, hticks⟩ := (Option.any_eq_true _ _).mp hends
  obtain ⟨hticks, hfree⟩ := of_decide_eq_true hticks
  exact ⟨s, hs, hticks, hfree, (ticksTell_of_run messages 0).1 crossingPackets s hs hfree⟩

/-- A packet of one byte that goes out at once. -/
def sentAtOnce : List (TickEvent (WireEvent UInt8)) :=
  [.sendPacket oneByte true, .setTicks 0, .transport (.onOutput (.sent 21)),
    .upcall 0, .transport .deregister, .transport .leave]

/-- Between two such packets. -/
structure AtRest (s : TickSession (Wire UInt8)) (count : Nat) : Prop where
  trans : s.trans.trans = TcpTransport.init
  hasTrans : s.hasTrans = true
  onOkCalled : s.onOkCalled = true
  actionId : s.actionId = UInt64.ofNat count
  now : s.now = 0
  lock : s.lock = none

/-- Its bytes on the wire. -/
def oneByteSent : List UInt8 :=
  (oneByte.bytes.drop (sizeofExt + sizeofHeader - TcpKind.serverEx.otherSize)).take
    (oneByte.getPayloadSize.toNat + TcpKind.serverEx.otherSize)

theorem sendPacket_oneByte :
    TcpSender.sendPacket ⟨.serverEx, 0, 11, true, true⟩ oneByte = some oneByteSent := by
  decide +kernel

theorem length_oneByteSent : oneByteSent.length = 21 := by decide +kernel

theorem oneByteSent_ne_nil : oneByteSent ≠ [] := by
  intro hnil
  have hlength := length_oneByteSent
  rw [hnil] at hlength
  cases hlength

/-- A transport with all of a buffer to send, and after it has sent it. -/
def filled (buf : List UInt8) (actionId : UInt64) : TcpTransport UInt8 :=
  ⟨true, true, true, false, actionId, none, ⟨[buf], some 0⟩, true, true, .idle⟩

def emptied (actionId : UInt64) : TcpTransport UInt8 :=
  ⟨true, true, false, false, 0, none, SendPool.empty, true, true, .upcall ⟨none, true, false, actionId⟩⟩

theorem sendData_init {buf : List UInt8} (hbuf : buf ≠ []) (actionId : UInt64) :
    TcpTransport.init.sendData buf actionId = (filled buf actionId, true) := by
  simp [TcpTransport.sendData, TcpTransport.init, TcpTransport.addWr, SendPool.fill, SendPool.empty,
    hbuf, filled]

theorem outputLocked_filled {buf : List UInt8} (hbuf : buf ≠ []) (actionId : UInt64) :
    (filled buf actionId).outputLocked (.sent buf.length) = emptied actionId := by
  have hlength : buf.length ≠ 0 := fun hzero => hbuf (List.length_eq_zero_iff.mp hzero)
  simp [TcpTransport.outputLocked, filled, SendPool.preSend, hbuf, TcpTransport.outputData,
    SendPool.flush, SendPool.onSendBuf, SendPool.postSend, TcpTransport.takeLocals, emptied,
    SendPool.empty]

theorem AtRest.send {s : TickSession (Wire UInt8)} {count : Nat} (h : AtRest s count) :
    step messages tcpSteps s (.sendPacket oneByte true) = some { s with
      trans := ⟨filled oneByteSent (s.actionId + 1), s.trans.written,
        s.trans.accepted ++ [(oneByteSent, s.actionId + 1)], s.trans.reported⟩
      lock := some true } := by
  have hsender : s.sender messages = ⟨.serverEx, 0, 11, true, true⟩ := by
    unfold sender
    rw [h.hasTrans, h.onOkCalled]
    rfl
  simp only [step, h.lock, if_true, hsender, sendPacket_oneByte, tcpSteps, Bool.true_or, Wire.step,
    h.trans, sendData_init oneByteSent_ne_nil, Option.getD_some]

theorem AtRest.next {s : TickSession (Wire UInt8)} {count : Nat} (h : AtRest s count) :
    ∃ next, run (step messages tcpSteps) s sentAtOnce = some next ∧
      AtRest next (count + 1) ∧
      next.log = s.log ++ [.accepted (s.actionId + 1)] ++ [.processed (s.actionId + 1)] ∧
      next.sendTick = 0 ∧ next.onSendTick = if 0 < s.actionId + 1 then 0 else -1 := by
  obtain ⟨⟨trans, written, accepted, reported⟩, hasTrans, onOkCalled, actionId, sendingTick,
    sendTick, onSendTick, lock, now, log⟩ := s
  have hsend := h.send
  obtain ⟨htrans, hhas, hok, hid, hnow, hlock⟩ := h
  dsimp only at htrans hhas hok hid hnow hlock
  subst htrans hhas hok hnow hlock
  have hwhole := outputLocked_filled oneByteSent_ne_nil (actionId + 1)
  rw [length_oneByteSent] at hwhole
  unfold sentAtOnce
  rw [run, hsend]
  simp only [Option.bind_some, run, step, TickSession.setTicks, le_refl, if_true, tcpSteps, Wire.step]
  rw [if_pos (show (filled oneByteSent (actionId + 1)).phase = .idle from rfl), hwhole]
  refine ⟨_, rfl, ⟨rfl, rfl, rfl, ?_, rfl, rfl⟩, rfl, rfl, ?_⟩
  · show actionId + 1 = UInt64.ofNat (count + 1)
    rw [hid, UInt64.ofNat_add]
    rfl
  · show (if decide (0 < actionId + 1) && decide (actionId + 1 = actionId + 1) then (0 : Int)
      else 0 - 1) = _
    simp

/-- After `okSession`, any number of such packets can go out. -/
theorem exists_atRest (count : Nat) :
    ∃ events s, run (step messages tcpSteps) (init 0 Wire.init) events = some s ∧ AtRest s count := by
  induction count with
  | zero => exact ⟨[.okSession], _, rfl, ⟨rfl, rfl, rfl, rfl, rfl, rfl⟩⟩
  | succ count ih =>
    obtain ⟨events, s, hrun, hrest⟩ := ih
    obtain ⟨next, hnext, hatRest, -⟩ := hrest.next
    refine ⟨events ++ sentAtOnce, next, ?_, hatRest⟩
    rw [run_append, hrun]
    exact hnext

/-- The id of the packet with the number 2^64 is 0, and its callback is not recognised. -/
theorem not_ticksTell_wrapped :
    ∃ events s, run (step messages tcpSteps) (init 0 Wire.init) events = some s ∧ ¬ s.TicksTell := by
  obtain ⟨events, s, hrun, hrest⟩ := exists_atRest (2 ^ 64 - 1)
  obtain ⟨next, hnext, hatRest, hlog, hsend, honSend⟩ := hrest.next
  have hid : s.actionId + 1 = 0 := by
    rw [hrest.actionId]
    decide
  refine ⟨events ++ sentAtOnce, next, ?_, ?_⟩
  · rw [run_append, hrun]
    exact hnext
  · intro htell
    have hlate : next.onSendTick < next.sendTick := by
      rw [hsend, honSend, hid]
      decide
    obtain ⟨actionId, processed, hsince, hpending⟩ := (htell hatRest.lock).mp hlate
    rw [hlog, sinceLatest_processed, sinceLatest_accepted, hid] at hsince
    have hsame := Prod.mk.inj (Option.some.inj hsince)
    apply hpending
    rw [← hsame.1, ← hsame.2]
    exact List.mem_cons_self

end TickSession

end Pronet.Rtp
