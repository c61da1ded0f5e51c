import Mathlib

/-! The output buckets of a session: `CRtpBucket`, which refuses packets behind its
redline, `CRtpAudioBucket`, which drops old ones, and `CRtpVideoBucket`, which
works in frames. `IRtpBucket` is what they have in common. -/
namespace Pronet.Rtp

/-- What a bucket reads of a packet. No packet has an empty payload. -/
structure PacketView (π : Type) where
  size : π → Nat
  size_pos : ∀ packet, 0 < size packet
  marker : π → Bool
  keyFrame : π → Bool
  firstPacketOfFrame : π → Bool

def baseRedlineBytes : Nat := 1024 * 1024
def audioRedlineBytes : Nat := 1024 * 8
def videoRedlineBytes : Nat := 1024 * 1024
def maxFrameBytes : Nat := 1920 * 1080 * 3 / 2
def videoRedlineFrames : Nat := 10

variable {π : Type}

/-- `CRtpBucket`. -/
structure BaseBucket (π : Type) where
  packets : List π
  totalBytes : Nat
  redlineBytes : Nat
  deriving DecidableEq, Repr

namespace BaseBucket

def new : BaseBucket π := ⟨[], 0, baseRedlineBytes⟩

def getFront (b : BaseBucket π) : Option π :=
  if b.totalBytes = 0 then none else b.packets.head?

def pushBackAddRef (view : PacketView π) (b : BaseBucket π) (packet : π) : BaseBucket π × Bool :=
  if b.redlineBytes ≤ b.totalBytes then (b, false)
  else
    ({ b with
        packets := b.packets ++ [packet]
        totalBytes := b.totalBytes + view.size packet }, true)

/-- `PopFrontRelease`, and the packet it has popped, if any. -/
def popFrontRelease [DecidableEq π] (view : PacketView π) (b : BaseBucket π) (packet : π) :
    BaseBucket π × Option π :=
  if b.totalBytes = 0 || b.packets.head? ≠ some packet then (b, none)
  else
    ({ b with
        packets := b.packets.tail
        totalBytes := b.totalBytes - view.size packet }, some packet)

def reset (b : BaseBucket π) : BaseBucket π := { b with packets := [], totalBytes := 0 }

def setRedline (b : BaseBucket π) (redlineBytes : Nat) : BaseBucket π :=
  if 0 < redlineBytes then { b with redlineBytes := redlineBytes } else b

/-- The bytes are counted, and there is room for a packet. -/
structure Ok (view : PacketView π) (b : BaseBucket π) : Prop where
  total : b.totalBytes = (b.packets.map view.size).sum
  redline : 0 < b.redlineBytes

variable {view : PacketView π} {b : BaseBucket π}

theorem ok_new : (new : BaseBucket π).Ok view := ⟨rfl, Nat.two_pow_pos 20⟩

theorem Ok.totalBytes_eq_zero (h : b.Ok view) : b.totalBytes = 0 ↔ b.packets = [] := by
  rw [h.total]
  cases hpackets : b.packets with
  | nil => simp
  | cons packet packets =>
    have := view.size_pos packet
    simp
    omega

theorem Ok.getFront (h : b.Ok view) : b.getFront = b.packets.head? := by
  unfold BaseBucket.getFront
  split
  · rename_i hzero
    rw [h.totalBytes_eq_zero.mp hzero]
    rfl
  · rfl

theorem Ok.pushBackAddRef (h : b.Ok view) (packet : π) :
    (b.pushBackAddRef view packet).1.Ok view := by
  unfold BaseBucket.pushBackAddRef
  split
  · exact h
  · exact ⟨by simp [h.total], h.redline⟩

/-- A push leaves something to send, whether the packet is taken or not. -/
theorem Ok.push_front (h : b.Ok view) (packet : π) :
    ((b.pushBackAddRef view packet).1.getFront).isSome = true := by
  rw [(h.pushBackAddRef packet).getFront]
  unfold BaseBucket.pushBackAddRef
  split
  · rename_i hfull
    have hne : b.packets ≠ [] := by
      intro hnil
      have := h.redline
      rw [h.totalBytes_eq_zero.mpr hnil] at hfull
      omega
    simpa using hne
  · simp

theorem Ok.popFrontRelease [DecidableEq π] (h : b.Ok view) (packet : π) :
    (b.popFrontRelease view packet).1.Ok view := by
  unfold BaseBucket.popFrontRelease
  split
  · exact h
  · rename_i hpop
    simp only [Bool.or_eq_true, decide_eq_true_eq, not_or, not_not] at hpop
    obtain ⟨packets, hpackets⟩ := List.head?_eq_some_iff.mp hpop.2
    refine ⟨?_, h.redline⟩
    have htotal := h.total
    rw [hpackets] at htotal ⊢
    simp only [List.map_cons, List.sum_cons, List.tail_cons] at htotal ⊢
    omega

theorem pop_getFront [DecidableEq π] {packet : π} (hfront : b.getFront = some packet) :
    (b.popFrontRelease view packet).2 = some packet := by
  unfold BaseBucket.getFront at hfront
  split at hfront
  · cases hfront
  · rename_i hzero
    simp [BaseBucket.popFrontRelease, hzero, hfront]

theorem Ok.reset (h : b.Ok view) : b.reset.Ok view := ⟨rfl, h.redline⟩

theorem Ok.setRedline (h : b.Ok view) (redlineBytes : Nat) :
    (b.setRedline redlineBytes).Ok view := by
  unfold BaseBucket.setRedline
  split
  · rename_i hpos
    exact ⟨h.total, hpos⟩
  · exact h

theorem getFront_setRedline (redlineBytes : Nat) :
    (b.setRedline redlineBytes).getFront = b.getFront := by
  unfold BaseBucket.setRedline
  split <;> rfl

end BaseBucket

/-- The loop of `CRtpAudioBucket::PushBackAddRef` that removes old packets. -/
def dropOld (view : PacketView π) (redlineBytes : Nat) : List π → Nat → List π × Nat
  | [], totalBytes => ([], totalBytes)
  | packet :: packets, totalBytes =>
      if redlineBytes ≤ totalBytes then
        dropOld view redlineBytes packets (totalBytes - view.size packet)
      else (packet :: packets, totalBytes)

theorem dropOld_total (view : PacketView π) (redlineBytes : Nat) (packets : List π) :
    (dropOld view redlineBytes packets (packets.map view.size).sum).2 =
      ((dropOld view redlineBytes packets (packets.map view.size).sum).1.map view.size).sum := by
  induction packets with
  | nil => rfl
  | cons packet packets ih =>
    unfold dropOld
    split
    · rw [List.map_cons, List.sum_cons, Nat.add_sub_cancel_left]
      exact ih
    · rfl

/-- `CRtpAudioBucket` differs from `CRtpBucket` in its redline and in what it does there. -/
def audioPushBackAddRef (view : PacketView π) (b : BaseBucket π) (packet : π) :
    BaseBucket π × Bool :=
  let kept := dropOld view b.redlineBytes b.packets b.totalBytes
  ({ b with packets := kept.1 ++ [packet], totalBytes := kept.2 + view.size packet }, true)

theorem BaseBucket.Ok.audioPushBackAddRef {view : PacketView π} {b : BaseBucket π} (h : b.Ok view)
    (packet : π) : (audioPushBackAddRef view b packet).1.Ok view := by
  refine ⟨?_, h.redline⟩
  have htotal := dropOld_total view b.redlineBytes b.packets
  rw [← h.total] at htotal
  simp [Rtp.audioPushBackAddRef, htotal]

/-- `RTP_VIDEO_FRAME`. -/
structure VideoFrame (π : Type) where
  keyFrame : Bool
  bucket : BaseBucket π
  deriving DecidableEq, Repr

/-- `CRtpVideoBucket`, without the sequence number and the source that it writes
but never checks. -/
structure VideoBucket (π : Type) where
  redlineBytes : Nat
  redlineFrames : Nat
  totalBytes : Nat
  totalFrames : Nat
  waitingFrame : Option (VideoFrame π)
  frames : List (VideoFrame π)
  sendingFrame : Option (VideoFrame π)
  needKeyFrame : Bool
  deriving DecidableEq, Repr

namespace VideoBucket

def new : VideoBucket π := ⟨videoRedlineBytes, videoRedlineFrames, 0, 0, none, [], none, true⟩

/-- `GetFront` without a frame being sent: start with the next one. -/
def nextFrame (b : VideoBucket π) : VideoBucket π × Option π :=
  match b.frames with
  | [] => (b, none)
  | frame :: frames =>
      ({ b with frames := frames, sendingFrame := some frame }, frame.bucket.getFront)

def getFront (b : VideoBucket π) : VideoBucket π × Option π :=
  match b.sendingFrame with
  | none => b.nextFrame
  | some frame =>
      match frame.bucket.getFront with
      | some packet => (b, some packet)
      | none => nextFrame { b with sendingFrame := none, totalFrames := b.totalFrames - 1 }

/-- Give up the frame that is being collected. -/
def dropWaiting (b : VideoBucket π) : VideoBucket π :=
  match b.waitingFrame with
  | none => b
  | some frame =>
      { b with
        totalBytes := b.totalBytes - frame.bucket.totalBytes
        waitingFrame := none
        totalFrames := b.totalFrames - 1 }

/-- Steps 1 and 4: the frame a packet belongs to, unless it has to be dropped. -/
def openFrame (view : PacketView π) (b : VideoBucket π) (packet : π) :
    VideoBucket π × Option (VideoFrame π) :=
  let starts := view.keyFrame packet && view.firstPacketOfFrame packet
  if b.needKeyFrame && !starts then (b, none)
  else
    let b := { b with needKeyFrame := false }
    if view.firstPacketOfFrame packet then
      let b := b.dropWaiting
      ({ b with totalFrames := b.totalFrames + 1 }, some ⟨view.keyFrame packet, BaseBucket.new⟩)
    else
      match b.waitingFrame with
      | none => ({ b with needKeyFrame := true }, none)
      | some frame => (b, some frame)

/-- Steps 6 to 8: a complete frame is queued, and a key frame replaces what waits. -/
def closeFrame (b : VideoBucket π) (frame : VideoFrame π) : VideoBucket π × Bool :=
  if !frame.keyFrame then
    if b.totalBytes ≤ b.redlineBytes && b.totalFrames ≤ b.redlineFrames then
      ({ b with frames := b.frames ++ [frame], waitingFrame := none }, true)
    else ({ b.dropWaiting with needKeyFrame := true }, false)
  else
    ({ b with
        totalBytes := b.totalBytes - (b.frames.map fun old => old.bucket.totalBytes).sum
        totalFrames := b.totalFrames - b.frames.length
        frames := [frame]
        waitingFrame := none }, true)

def pushBackAddRef (view : PacketView π) (b : VideoBucket π) (packet : π) : VideoBucket π × Bool :=
  match b.openFrame view packet with
  | (b, none) => (b, false)
  | (b, some frame) =>
      let frame := { frame with bucket := (frame.bucket.pushBackAddRef view packet).1 }
      let b := { b with
        waitingFrame := some frame
        totalBytes := b.totalBytes + view.size packet }
      if view.marker packet then b.closeFrame frame
      else if maxFrameBytes ≤ frame.bucket.totalBytes then
        ({ b.dropWaiting with needKeyFrame := true }, false)
      else (b, true)

def popFrontRelease [DecidableEq π] (view : PacketView π) (b : VideoBucket π) (packet : π) :
    VideoBucket π × Option π :=
  match b.sendingFrame with
  | none => (b, none)
  | some frame =>
      if frame.bucket.getFront ≠ some packet then (b, none)
      else
        let (bucket, popped) := frame.bucket.popFrontRelease view packet
        let b := { b with totalBytes := b.totalBytes - view.size packet }
        if bucket.getFront = none then
          ({ b with sendingFrame := none, totalFrames := b.totalFrames - 1 }, popped)
        else ({ b with sendingFrame := some { frame with bucket := bucket } }, popped)

def reset (b : VideoBucket π) : VideoBucket π :=
  { b with
    totalBytes := 0
    totalFrames := 0
    waitingFrame := none
    frames := []
    sendingFrame := none
    needKeyFrame := true }

def setRedline (b : VideoBucket π) (redlineBytes redlineFrames : Nat) : VideoBucket π :=
  { b with
    redlineBytes := if 0 < redlineBytes then redlineBytes else b.redlineBytes
    redlineFrames := if 0 < redlineFrames then redlineFrames else b.redlineFrames }

/-- No complete frame is empty. -/
structure Ok (view : PacketView π) (b : VideoBucket π) : Prop where
  frames : ∀ frame ∈ b.frames, frame.bucket.getFront.isSome = true
  waiting : ∀ frame, b.waitingFrame = some frame → frame.bucket.Ok view

variable {view : PacketView π} {b : VideoBucket π}

theorem ok_new : (new : VideoBucket π).Ok view :=
  ⟨fun _ h => absurd h List.not_mem_nil, fun _ h => nomatch h⟩

theorem frames_dropWaiting : b.dropWaiting.frames = b.frames := by
  unfold dropWaiting
  split <;> rfl

theorem waitingFrame_dropWaiting : b.dropWaiting.waitingFrame = none := by
  unfold dropWaiting
  split
  · rename_i h
    exact h
  · rfl

theorem Ok.nextFrame (h : b.Ok view) : b.nextFrame.1.Ok view := by
  unfold VideoBucket.nextFrame
  split
  · exact h
  · rename_i frame frames hframes
    refine ⟨fun other hother => h.frames other ?_, h.waiting⟩
    rw [hframes]
    exact List.mem_cons_of_mem frame hother

theorem Ok.getFront (h : b.Ok view) : b.getFront.1.Ok view := by
  unfold VideoBucket.getFront
  split
  · exact h.nextFrame
  · split
    · exact h
    · exact Ok.nextFrame ⟨h.frames, h.waiting⟩

/-- What `GetFront` returns is the front of the frame that is now being sent. -/
theorem Ok.sending_getFront (h : b.Ok view) :
    (b.getFront.2 = none ∧ b.getFront.1.sendingFrame = none ∧ b.getFront.1.frames = []) ∨
    ∃ frame packet, b.getFront.1.sendingFrame = some frame ∧
      frame.bucket.getFront = some packet ∧ b.getFront.2 = some packet := by
  have hnext : ∀ b' : VideoBucket π, b'.Ok view → b'.sendingFrame = none →
      (b'.nextFrame.2 = none ∧ b'.nextFrame.1.sendingFrame = none ∧ b'.nextFrame.1.frames = []) ∨
      ∃ frame packet, b'.nextFrame.1.sendingFrame = some frame ∧
        frame.bucket.getFront = some packet ∧ b'.nextFrame.2 = some packet := by
    intro b' h' hsending
    unfold VideoBucket.nextFrame
    split
    · rename_i hframes
      exact Or.inl ⟨rfl, hsending, hframes⟩
    · rename_i frame frames hframes
      have hmem : frame ∈ b'.frames := by
        rw [hframes]
        exact List.mem_cons_self
      obtain ⟨packet, hpacket⟩ := Option.isSome_iff_exists.mp (h'.frames frame hmem)
      exact Or.inr ⟨frame, packet, rfl, hpacket, hpacket⟩
  unfold VideoBucket.getFront
  split
  · rename_i hsending
    exact hnext b h hsending
  · rename_i frame hsending
    split
    · rename_i packet hpacket
      exact Or.inr ⟨frame, packet, hsending, hpacket, rfl⟩
    · exact hnext _ ⟨h.frames, h.waiting⟩ rfl

theorem Ok.getFront_again (h : b.Ok view) : b.getFront.1.getFront = b.getFront := by
  obtain ⟨hnone, hsending, hframes⟩ | ⟨frame, packet, hsending, hfront, hsome⟩ :=
    h.sending_getFront
  · rw [VideoBucket.getFront, hsending]
    dsimp only
    rw [VideoBucket.nextFrame, hframes]
    exact Prod.ext rfl hnone.symm
  · rw [VideoBucket.getFront, hsending]
    dsimp only
    rw [hfront]
    exact Prod.ext rfl hsome.symm

theorem Ok.openFrame (h : b.Ok view) (packet : π) :
    (b.openFrame view packet).1.Ok view ∧
      ∀ frame, (b.openFrame view packet).2 = some frame → frame.bucket.Ok view := by
  unfold VideoBucket.openFrame
  dsimp only
  split
  · exact ⟨h, fun _ hframe => nomatch hframe⟩
  · split
    · refine ⟨⟨?_, ?_⟩, ?_⟩
      · rw [frames_dropWaiting]
        exact h.frames
      · rw [waitingFrame_dropWaiting]
        exact fun _ hframe => nomatch hframe
      · rintro frame ⟨⟩
        exact BaseBucket.ok_new
    · split
      · exact ⟨⟨h.frames, h.waiting⟩, fun _ hframe => nomatch hframe⟩
      · rename_i frame hframe
        refine ⟨⟨h.frames, h.waiting⟩, ?_⟩
        rintro frame' ⟨⟩
        exact h.waiting frame hframe

theorem Ok.dropWaiting (h : b.Ok view) (needKeyFrame : Bool) :
    Ok view { b.dropWaiting with needKeyFrame := needKeyFrame } := by
  refine ⟨?_, ?_⟩
  · rw [frames_dropWaiting]
    exact h.frames
  · rw [waitingFrame_dropWaiting]
    exact fun _ hframe => nomatch hframe

theorem Ok.closeFrame (h : b.Ok view) {frame : VideoFrame π}
    (hframe : frame.bucket.getFront.isSome = true) : (b.closeFrame frame).1.Ok view := by
  unfold VideoBucket.closeFrame
  split
  · split
    · refine ⟨fun other hother => ?_, fun _ hnone => nomatch hnone⟩
      rcases List.mem_append.mp hother with hold | hnew
      · exact h.frames other hold
      · rw [List.mem_singleton.mp hnew]
        exact hframe
    · exact h.dropWaiting true
  · refine ⟨fun other hother => ?_, fun _ hnone => nomatch hnone⟩
    rw [List.mem_singleton.mp hother]
    exact hframe

theorem Ok.pushBackAddRef (h : b.Ok view) (packet : π) :
    (b.pushBackAddRef view packet).1.Ok view := by
  obtain ⟨hopened, hframe⟩ := h.openFrame packet
  unfold VideoBucket.pushBackAddRef
  split
  · rename_i b' heq
    rw [heq] at hopened
    exact hopened
  · rename_i b' frame heq
    rw [heq] at hopened hframe
    have hok := hframe frame rfl
    have hfilled : Ok view { b' with
        waitingFrame := some { frame with bucket := (frame.bucket.pushBackAddRef view packet).1 }
        totalBytes := b'.totalBytes + view.size packet } := by
      refine ⟨hopened.frames, ?_⟩
      rintro frame' ⟨⟩
      exact hok.pushBackAddRef packet
    dsimp only
    split
    · exact hfilled.closeFrame (hok.push_front packet)
    · split
      · exact hfilled.dropWaiting true
      · exact hfilled

theorem Ok.popFrontRelease [DecidableEq π] (h : b.Ok view) (packet : π) :
    (b.popFrontRelease view packet).1.Ok view := by
  unfold VideoBucket.popFrontRelease
  split
  · exact h
  · split
    · exact h
    · dsimp only
      split <;> exact ⟨h.frames, h.waiting⟩

theorem Ok.pop_getFront [DecidableEq π] (h : b.Ok view) {packet : π}
    (hfront : b.getFront.2 = some packet) :
    (b.getFront.1.popFrontRelease view packet).2 = some packet := by
  obtain ⟨hnone, -⟩ | ⟨frame, first, hsending, hfirst, hsome⟩ := h.sending_getFront
  · rw [hnone] at hfront
    cases hfront
  · rw [hsome, Option.some.injEq] at hfront
    subst hfront
    rw [VideoBucket.popFrontRelease, hsending]
    dsimp only
    rw [if_neg (not_not.mpr hfirst)]
    split <;> exact BaseBucket.pop_getFront hfirst

theorem Ok.setRedline (h : b.Ok view) (redlineBytes redlineFrames : Nat) :
    (b.setRedline redlineBytes redlineFrames).Ok view := ⟨h.frames, h.waiting⟩

theorem getFront_setRedline (redlineBytes redlineFrames : Nat) :
    (b.setRedline redlineBytes redlineFrames).getFront.2 = b.getFront.2 := by
  unfold VideoBucket.getFront VideoBucket.nextFrame setRedline
  cases b.sendingFrame with
  | none => cases b.frames <;> rfl
  | some frame =>
    dsimp only
    cases frame.bucket.getFront with
    | none => cases b.frames <;> rfl
    | some packet => rfl

end VideoBucket

/-- `IRtpBucket`: the operations, and what a session relies on. `GetFront` may
change the state, but asking again gives the same answer; the packet it gave can
be popped, and `popFrontRelease` returns what it pops. -/
structure Bucket (π : Type) where
  State : Type
  new : State
  getFront : State → State × Option π
  pushBackAddRef : State → π → State × Bool
  popFrontRelease : State → π → State × Option π
  reset : State → State
  setRedline : State → Nat → Nat → State
  getFront_new : (getFront new).2 = none
  getFront_again : ∀ b, getFront (getFront b).1 = getFront b
  pop_getFront : ∀ b packet, (getFront b).2 = some packet →
    (popFrontRelease (getFront b).1 packet).2 = some packet
  getFront_reset : ∀ b, (getFront (reset b)).2 = none
  getFront_setRedline : ∀ b redlineBytes redlineFrames,
    (getFront (setRedline b redlineBytes redlineFrames)).2 = (getFront b).2

namespace Bucket

variable [DecidableEq π] (view : PacketView π)

def base : Bucket π where
  State := { b : BaseBucket π // b.Ok view }
  new := ⟨.new, BaseBucket.ok_new⟩
  getFront b := (b, b.1.getFront)
  pushBackAddRef b packet :=
    (⟨(b.1.pushBackAddRef view packet).1, b.2.pushBackAddRef packet⟩,
      (b.1.pushBackAddRef view packet).2)
  popFrontRelease b packet :=
    (⟨(b.1.popFrontRelease view packet).1, b.2.popFrontRelease packet⟩,
      (b.1.popFrontRelease view packet).2)
  reset b := ⟨b.1.reset, b.2.reset⟩
  setRedline b redlineBytes _ := ⟨b.1.setRedline redlineBytes, b.2.setRedline redlineBytes⟩
  getFront_new := rfl
  getFront_again _ := rfl
  pop_getFront _ _ h := BaseBucket.pop_getFront h
  getFront_reset _ := rfl
  getFront_setRedline _ redlineBytes _ := BaseBucket.getFront_setRedline redlineBytes

end Bucket

end Pronet.Rtp
