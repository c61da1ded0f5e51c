import Pronet.Rtp.BucketLedger
import Pronet.Rtp.VideoPush

/-! The books of `CRtpVideoBucket`, which counts the bytes of its frames a second time.
The waiting frame has a redline of its own: a packet that it refuses is counted all
the same, and from then on the two counts differ. -/
namespace Pronet.Rtp

open Library.Ledger

variable {π : Type}

namespace VideoBucket

def nextFrameEffects (b : VideoBucket π) : List (Effect π) :=
  match b.frames with
  | [] => []
  | frame :: _ => frame.bucket.getFrontEffects

def getFrontEffects (b : VideoBucket π) : List (Effect π) :=
  match b.sendingFrame with
  | none => b.nextFrameEffects
  | some frame =>
      frame.bucket.getFrontEffects ++
        match frame.bucket.getFront with
        | some _ => []
        | none =>
            frame.bucket.resetEffects ++ [.subtract b.totalFrames 1] ++
              nextFrameEffects { b with sendingFrame := none, totalFrames := b.totalFrames - 1 }

def dropWaitingEffects (b : VideoBucket π) : List (Effect π) :=
  match b.waitingFrame with
  | none => []
  | some frame =>
      .subtract b.totalBytes frame.bucket.totalBytes :: frame.bucket.resetEffects ++
        [.subtract b.totalFrames 1]

def openFrameEffects (view : PacketView π) (b : VideoBucket π) (packet : π) : List (Effect π) :=
  if b.needKeyFrame && !(view.keyFrame packet && view.firstPacketOfFrame packet) then []
  else if view.firstPacketOfFrame packet then b.dropWaitingEffects
  else []

/-- The loop of step 7. -/
def flushEffects : List (VideoFrame π) → Nat → Nat → List (Effect π)
  | [], _, _ => []
  | frame :: frames, totalBytes, totalFrames =>
      .subtract totalBytes frame.bucket.totalBytes :: frame.bucket.resetEffects ++
        .subtract totalFrames 1 ::
          flushEffects frames (totalBytes - frame.bucket.totalBytes) (totalFrames - 1)

def closeFrameEffects (b : VideoBucket π) (frame : VideoFrame π) : List (Effect π) :=
  if !frame.keyFrame then
    if b.totalBytes ≤ b.redlineBytes && b.totalFrames ≤ b.redlineFrames then []
    else b.dropWaitingEffects
  else flushEffects b.frames b.totalBytes b.totalFrames

/-- Steps 5 to 8. -/
def endEffects (view : PacketView π) (b : VideoBucket π) (frame : VideoFrame π) (packet : π) :
    List (Effect π) :=
  if view.marker packet then b.closeFrameEffects frame
  else if maxFrameBytes ≤ frame.bucket.totalBytes then b.dropWaitingEffects
  else []

def pushEffects (view : PacketView π) (b : VideoBucket π) (packet : π) : List (Effect π) :=
  b.openFrameEffects view packet ++
    match b.openFrame view packet with
    | (_, none) => []
    | (b, some frame) =>
        frame.bucket.pushEffects packet ++
          (b.fill view frame packet).endEffects view (frame.fill view packet) packet

def popEffects [DecidableEq π] (view : PacketView π) (b : VideoBucket π) (packet : π) :
    List (Effect π) :=
  match b.sendingFrame with
  | none => []
  | some frame =>
      frame.bucket.getFrontEffects ++
        if frame.bucket.getFront ≠ some packet then []
        else
          let bucket := (frame.bucket.popFrontRelease view packet).1
          .subtract b.totalBytes (view.size packet) :: frame.bucket.popEffects view packet ++
            bucket.getFrontEffects ++
            if bucket.getFront = none then bucket.resetEffects ++ [.subtract b.totalFrames 1]
            else []

/-- The frames held: one that is filled, those that wait and one that is sent. -/
def held (b : VideoBucket π) : List (VideoFrame π) :=
  b.waitingFrame.toList ++ b.frames ++ b.sendingFrame.toList

def packets (b : VideoBucket π) : List π := b.held.flatMap fun frame => frame.bucket.packets

def resetEffects (b : VideoBucket π) : List (Effect π) :=
  b.held.flatMap fun frame => frame.bucket.resetEffects

def step [DecidableEq π] (view : PacketView π) (b : VideoBucket π) :
    BucketOp π → VideoBucket π × List (Effect π)
  | .getFront => (b.getFront.1, b.getFrontEffects)
  | .pushBackAddRef packet => ((b.pushBackAddRef view packet).1, b.pushEffects view packet)
  | .popFrontRelease none => (b, [])
  | .popFrontRelease (some packet) =>
      ((b.popFrontRelease view packet).1, b.popEffects view packet)
  | .reset => (b.reset, b.resetEffects)
  | .setRedline redlineBytes redlineFrames => (b.setRedline redlineBytes redlineFrames, [])

/-- The counters are those of the frames held, each packet of which is referenced once,
and `GetFront` finds a packet unless no frame is complete. -/
structure Balanced (view : PacketView π) (b : VideoBucket π) (effects : List (Effect π)) :
    Prop where
  totalBytes : b.totalBytes = (b.packets.map view.size).sum
  totalFrames : b.totalFrames = b.held.length
  sound : ∀ effect ∈ effects, effect.Sound
  refs : addRefs effects = releases effects + b.packets
  front : b.getFront.2 = none ↔ b.frames = [] ∧ b.sendingFrame = none

/-- A packet is added to a frame that has reached its own redline. -/
def Overfills (view : PacketView π) (b : VideoBucket π) : BucketOp π → Prop
  | .pushBackAddRef packet =>
      view.firstPacketOfFrame packet = false ∧
        ∃ frame, b.waitingFrame = some frame ∧ baseRedlineBytes ≤ frame.bucket.totalBytes
  | _ => False

/-- The counters are those of the frames held, but for `drift` bytes too many. -/
structure Tally (view : PacketView π) (drift : Nat) (b : VideoBucket π) : Prop where
  totalBytes : b.totalBytes = (b.held.map fun frame => frame.bucket.totalBytes).sum + drift
  totalFrames : b.totalFrames = b.held.length
  bytes : ∀ frame ∈ b.held, frame.bucket.Ok view
  redline : ∀ frame ∈ b.held, frame.bucket.redlineBytes = baseRedlineBytes
  filled : ∀ frame ∈ b.frames ++ b.sendingFrame.toList, frame.bucket.packets ≠ []
  synced : b.waitingFrame ≠ none → b.needKeyFrame = false

variable {view : PacketView π} {drift : Nat} {b next : VideoBucket π} {frame : VideoFrame π}
  {packet : π}

theorem tally_new : (new : VideoBucket π).Tally view 0 :=
  ⟨rfl, rfl, by simp [held, new], by simp [held, new], by simp [new], by simp [new]⟩

theorem size_packets_of {frames : List (VideoFrame π)}
    (hbytes : ∀ frame ∈ frames, frame.bucket.Ok view) :
    ((frames.flatMap fun frame => frame.bucket.packets).map view.size).sum =
      (frames.map fun frame => frame.bucket.totalBytes).sum := by
  induction frames with
  | nil => rfl
  | cons frame frames ih =>
    have hframe := (hbytes frame List.mem_cons_self).total
    have hrest := ih fun other hother => hbytes other (List.mem_cons_of_mem frame hother)
    simp only [List.flatMap_cons, List.map_append, List.sum_append, List.map_cons, List.sum_cons,
      hrest, hframe]

/-- What is done to delete a frame with all it holds. -/
theorem settles_delete (bucket : BaseBucket π) {totalBytes totalFrames : Nat} (rest : List π)
    (hbytes : bucket.totalBytes ≤ totalBytes) (hframes : 1 ≤ totalFrames) :
    Settles (.subtract totalBytes bucket.totalBytes :: bucket.resetEffects ++
      [.subtract totalFrames 1]) (bucket.packets ++ rest : List π) (rest : Multiset π) := by
  rw [← Multiset.coe_add]
  exact (Settles.subtract hbytes _).append
    ((Settles.releaseAll bucket.packets _).append (Settles.subtract hframes _))

theorem Tally.dropWaiting (h : b.Tally view drift) (needKeyFrame : Bool) :
    Tally view drift { b.dropWaiting with needKeyFrame := needKeyFrame } ∧
      Settles b.dropWaitingEffects (b.packets : Multiset π) b.dropWaiting.packets := by
  obtain ⟨_, _, totalBytes, totalFrames, waitingFrame, frames, sendingFrame, _⟩ := b
  cases waitingFrame with
  | none => exact ⟨⟨h.totalBytes, h.totalFrames, h.bytes, h.redline, h.filled, nofun⟩, .nil _⟩
  | some frame =>
    have htotal : totalBytes = _ := h.totalBytes
    have hcount : totalFrames = _ := h.totalFrames
    simp only [held, Option.toList_some, List.cons_append, List.map_cons, List.sum_cons,
      List.length_cons, List.nil_append] at htotal hcount
    refine ⟨⟨?_, ?_, ?_, ?_, h.filled, nofun⟩, ?_⟩
    · simp only [held, VideoBucket.dropWaiting, Option.toList_none, List.nil_append]
      omega
    · simp only [held, VideoBucket.dropWaiting, Option.toList_none, List.nil_append]
      omega
    · exact fun other hother => h.bytes other (List.mem_cons_of_mem _ hother)
    · exact fun other hother => h.redline other (List.mem_cons_of_mem _ hother)
    · have hbytes : frame.bucket.totalBytes ≤ totalBytes := by omega
      have hframes : 1 ≤ totalFrames := by omega
      exact settles_delete frame.bucket _ hbytes hframes

/-- An empty frame to collect packets in. -/
theorem Tally.start (h : b.Tally view drift) (hwaiting : b.waitingFrame = none) (keyFrame : Bool) :
    Tally view drift
        { b with
          totalFrames := b.totalFrames + 1
          waitingFrame := some ⟨keyFrame, BaseBucket.new⟩
          needKeyFrame := false } := by
  obtain ⟨_, _, totalBytes, totalFrames, waitingFrame, frames, sendingFrame, _⟩ := b
  dsimp only at hwaiting
  subst hwaiting
  refine ⟨?_, ?_, ?_, ?_, h.filled, fun _ => rfl⟩
  · have htotal := h.totalBytes
    simpa [held, BaseBucket.new] using htotal
  · have hcount := h.totalFrames
    simpa [held] using hcount
  · intro frame hframe
    rcases List.mem_cons.mp hframe with hnew | hold
    · rw [hnew]
      exact BaseBucket.ok_new
    · exact h.bytes frame hold
  · intro frame hframe
    rcases List.mem_cons.mp hframe with hnew | hold
    · rw [hnew]
      rfl
    · exact h.redline frame hold

theorem packets_start (hwaiting : b.waitingFrame = none) (keyFrame : Bool) :
    packets { b with
      totalFrames := b.totalFrames + 1
      waitingFrame := some ⟨keyFrame, BaseBucket.new⟩
      needKeyFrame := false } = b.packets := by
  simp [packets, held, hwaiting, BaseBucket.new]

theorem Tally.opened_none (h : b.Tally view drift)
    (hopen : b.openFrame view packet = (next, none)) :
    next.Tally view drift ∧ Settles (b.openFrameEffects view packet) (b.packets : Multiset π)
      next.packets := by
  have hopened := opened view b packet
  rw [hopen] at hopened
  unfold openFrameEffects
  cases hopened with
  | unsynced hneed hstart =>
    rw [if_pos (by rw [hneed, hstart]; rfl)]
    exact ⟨h, .nil _⟩
  | stray hneed hfirst hwaiting =>
    rw [if_neg (by rw [hneed]; exact Bool.false_ne_true), if_neg (Bool.eq_false_iff.mp hfirst)]
    exact ⟨⟨h.totalBytes, h.totalFrames, h.bytes, h.redline, h.filled,
      fun hsome => absurd hwaiting hsome⟩, .nil _⟩

theorem Tally.opened_some (h : b.Tally view drift)
    (hopen : b.openFrame view packet = (next, some frame)) :
    Tally view drift { next with waitingFrame := some frame } ∧
      Settles (b.openFrameEffects view packet) (b.packets : Multiset π)
        (packets { next with waitingFrame := some frame }) := by
  have hopened := opened view b packet
  rw [hopen] at hopened
  unfold openFrameEffects
  cases hopened with
  | started hfirst hkey =>
    obtain ⟨hdropped, hsettles⟩ := h.dropWaiting false
    have hwaiting : b.dropWaiting.waitingFrame = none := waitingFrame_dropWaiting
    have hgo : ¬ (b.needKeyFrame && !(view.keyFrame packet && view.firstPacketOfFrame packet)) := by
      cases hneed : b.needKeyFrame with
      | false => simp
      | true => simp [hkey hneed, hfirst]
    rw [if_neg hgo, if_pos hfirst]
    refine ⟨hdropped.start hwaiting _, ?_⟩
    have hpackets := packets_start (b := b.dropWaiting) hwaiting (view.keyFrame packet)
    rw [← hpackets] at hsettles
    exact hsettles
  | continued _ hneed hfirst hwaiting =>
    rw [if_neg (by rw [hneed]; exact Bool.false_ne_true), if_neg (Bool.eq_false_iff.mp hfirst)]
    have hsame : { b with waitingFrame := some frame } = b := by rw [← hwaiting]
    rw [hsame]
    exact ⟨h, .nil _⟩

/-- The bytes of a packet that its frame refuses are counted and never taken off. -/
def refusedBytes (view : PacketView π) (frame : VideoFrame π) (packet : π) : Nat :=
  if frame.bucket.redlineBytes ≤ frame.bucket.totalBytes then view.size packet else 0

theorem Tally.fill (h : Tally view drift { b with waitingFrame := some frame }) (packet : π) :
    (b.fill view frame packet).Tally view (drift + refusedBytes view frame packet) ∧
      Settles (frame.bucket.pushEffects packet)
        (packets { b with waitingFrame := some frame } : Multiset π)
        (b.fill view frame packet).packets := by
  have hframe : frame.bucket.Ok view := h.bytes frame List.mem_cons_self
  have htotal := h.totalBytes
  have hcount := h.totalFrames
  simp only [held, Option.toList_some, List.cons_append, List.map_cons, List.sum_cons,
    List.nil_append] at htotal
  have hred : (frame.fill view packet).bucket.redlineBytes = baseRedlineBytes := by
    have hold := h.redline frame List.mem_cons_self
    unfold VideoFrame.fill BaseBucket.pushBackAddRef
    split <;> exact hold
  have hsum : frame.bucket.totalBytes + view.size packet =
      (frame.fill view packet).bucket.totalBytes + refusedBytes view frame packet := by
    unfold VideoFrame.fill refusedBytes BaseBucket.pushBackAddRef
    split <;> rfl
  refine ⟨⟨?_, hcount, ?_, ?_, h.filled, fun _ => h.synced (Option.some_ne_none frame)⟩, ?_⟩
  · simp only [held, VideoBucket.fill, Option.toList_some, List.cons_append, List.map_cons,
      List.sum_cons, List.nil_append]
    omega
  · intro other hother
    rcases List.mem_cons.mp hother with hnew | hold
    · rw [hnew]
      exact hframe.pushBackAddRef packet
    · exact h.bytes other (List.mem_cons_of_mem frame hold)
  · intro other hother
    rcases List.mem_cons.mp hother with hnew | hold
    · rw [hnew]
      exact hred
    · exact h.redline other (List.mem_cons_of_mem frame hold)
  · have hsettles : Settles (frame.bucket.pushEffects packet) (frame.bucket.packets : Multiset π)
        (frame.bucket.pushBackAddRef view packet).1.packets :=
      BaseBucket.pushBackAddRef_settles packet
    have hframed := hsettles.frame
      ((b.frames ++ b.sendingFrame.toList).flatMap fun frame => frame.bucket.packets : List π)
    simpa [packets, held, VideoBucket.fill, VideoFrame.fill] using hframed

theorem settles_flush {frames : List (VideoFrame π)} {totalBytes totalFrames : Nat}
    (rest : List π)
    (hbytes : (frames.map fun frame => frame.bucket.totalBytes).sum ≤ totalBytes)
    (hframes : frames.length ≤ totalFrames) :
    Settles (flushEffects frames totalBytes totalFrames)
      ((frames.flatMap fun frame => frame.bucket.packets) ++ rest : List π) (rest : Multiset π) := by
  induction frames generalizing totalBytes totalFrames with
  | nil => exact .nil _
  | cons frame frames ih =>
    simp only [List.map_cons, List.sum_cons, List.length_cons] at hbytes hframes
    unfold flushEffects
    rw [List.flatMap_cons, List.append_assoc]
    have hfirst : frame.bucket.totalBytes ≤ totalBytes := by omega
    have hone : 1 ≤ totalFrames := by omega
    have hdelete := settles_delete frame.bucket
      ((frames.flatMap fun frame => frame.bucket.packets) ++ rest) hfirst hone
    have hleft : (frames.map fun frame => frame.bucket.totalBytes).sum ≤
        totalBytes - frame.bucket.totalBytes := by omega
    have hfew : frames.length ≤ totalFrames - 1 := by omega
    have hall := hdelete.append (ih hleft hfew)
    simpa using hall

/-- The same frames in another order. -/
theorem Tally.of_perm (h : b.Tally view drift) (hperm : next.held.Perm b.held)
    (hbytes : next.totalBytes = b.totalBytes) (hframes : next.totalFrames = b.totalFrames)
    (hfilled : ∀ frame ∈ next.frames ++ next.sendingFrame.toList, frame.bucket.packets ≠ [])
    (hsynced : next.waitingFrame ≠ none → next.needKeyFrame = false) :
    next.Tally view drift where
  totalBytes := by rw [hbytes, h.totalBytes, (hperm.map _).sum_eq]
  totalFrames := by rw [hframes, h.totalFrames, hperm.length_eq]
  bytes := fun frame hframe => h.bytes frame (hperm.mem_iff.mp hframe)
  redline := fun frame hframe => h.redline frame (hperm.mem_iff.mp hframe)
  filled := hfilled
  synced := hsynced

theorem settles_of_perm (hperm : next.held.Perm b.held) :
    Settles [] (b.packets : Multiset π) next.packets := by
  have hpackets : (next.packets : Multiset π) = b.packets :=
    Multiset.coe_eq_coe.mpr (hperm.flatMap_right _)
  rw [hpackets]
  exact .nil _

theorem Tally.queue (h : b.Tally view drift) (hwaiting : b.waitingFrame = some frame)
    (hfilled : frame.bucket.packets ≠ []) :
    Tally view drift { b with frames := b.frames ++ [frame], waitingFrame := none } ∧
      Settles [] (b.packets : Multiset π)
        (packets { b with frames := b.frames ++ [frame], waitingFrame := none }) := by
  have hperm : (held { b with frames := b.frames ++ [frame], waitingFrame := none }).Perm
      b.held := by
    have hswap : (b.frames ++ [frame]).Perm ([frame] ++ b.frames) := List.perm_append_comm
    unfold held
    rw [hwaiting]
    exact hswap.append_right _
  refine ⟨h.of_perm hperm rfl rfl ?_ nofun, settles_of_perm hperm⟩
  intro other hother
  rcases List.mem_append.mp hother with hqueued | hsending
  · rcases List.mem_append.mp hqueued with hold | hnew
    · exact h.filled other (List.mem_append_left _ hold)
    · rw [List.mem_singleton.mp hnew]
      exact hfilled
  · exact h.filled other (List.mem_append_right _ hsending)

/-- Step 7, with the new key frame still waiting. -/
theorem Tally.flush (h : b.Tally view drift) (hwaiting : b.waitingFrame = some frame) :
    Tally view drift { b with
        totalBytes := b.totalBytes - (b.frames.map fun old => old.bucket.totalBytes).sum
        totalFrames := b.totalFrames - b.frames.length
        frames := [] } ∧
      Settles (flushEffects b.frames b.totalBytes b.totalFrames) (b.packets : Multiset π)
        (packets { b with
          totalBytes := b.totalBytes - (b.frames.map fun old => old.bucket.totalBytes).sum
          totalFrames := b.totalFrames - b.frames.length
          frames := [] }) := by
  have htotal := h.totalBytes
  have hcount := h.totalFrames
  simp only [held, hwaiting, Option.toList_some, List.map_append, List.sum_append,
    List.length_append] at htotal hcount
  have hkept : ∀ other ∈ b.waitingFrame.toList ++ [] ++ b.sendingFrame.toList, other ∈ b.held := by
    intro other hother
    simp only [held, List.mem_append, List.append_nil] at hother ⊢
    tauto
  refine ⟨⟨?_, ?_, fun other hother => h.bytes other (hkept other hother),
    fun other hother => h.redline other (hkept other hother), ?_, h.synced⟩, ?_⟩
  · simp only [held, hwaiting, Option.toList_some, List.map_append, List.sum_append,
      List.append_nil]
    omega
  · simp only [held, hwaiting, Option.toList_some, List.length_append, List.append_nil]
    omega
  · exact fun other hother => h.filled other (List.mem_append_right _ hother)
  · have hbytes : (b.frames.map fun old => old.bucket.totalBytes).sum ≤ b.totalBytes := by omega
    have hframes : b.frames.length ≤ b.totalFrames := by omega
    have hflush := settles_flush (packets { b with frames := [] }) hbytes hframes
    have hsplit : (b.packets : Multiset π) =
        ((b.frames.flatMap fun frame => frame.bucket.packets) ++
          packets { b with frames := [] } : List π) := by
      simp only [packets, held, List.flatMap_append, List.append_nil, ← Multiset.coe_add]
      rw [add_assoc, add_left_comm]
    rw [hsplit]
    exact hflush

theorem Tally.ended (h : b.Tally view drift) (hwaiting : b.waitingFrame = some frame)
    (hfilled : frame.bucket.packets ≠ []) {result : VideoBucket π × Bool}
    (hended : Ended view b frame packet result) :
    result.1.Tally view drift ∧ Settles (b.endEffects view frame packet) (b.packets : Multiset π)
      result.1.packets := by
  unfold endEffects closeFrameEffects
  cases hended with
  | unfinished hmarker hsize =>
    rw [if_neg (Bool.eq_false_iff.mp hmarker), if_neg (Nat.not_le.mpr hsize)]
    exact ⟨h, .nil _⟩
  | oversized hmarker hsize =>
    rw [if_neg (Bool.eq_false_iff.mp hmarker), if_pos hsize]
    exact h.dropWaiting true
  | overRedline hmarker hkey hroom =>
    rw [if_pos hmarker, if_pos (by rw [hkey]; rfl), if_neg (Bool.eq_false_iff.mp hroom)]
    exact h.dropWaiting true
  | queued hmarker hkey hroom =>
    rw [if_pos hmarker, if_pos (by rw [hkey]; rfl), if_pos hroom]
    exact h.queue hwaiting hfilled
  | flushed hmarker hkey =>
    rw [if_pos hmarker, if_neg (by rw [hkey]; exact Bool.false_ne_true)]
    obtain ⟨hempty, hsettles⟩ := h.flush hwaiting
    obtain ⟨hqueued, hsame⟩ := hempty.queue hwaiting hfilled
    exact ⟨hqueued, by simpa using hsettles.append hsame⟩

/-- What a push adds to the count beyond what is held. -/
def pushDrift (view : PacketView π) (b : VideoBucket π) (packet : π) : Nat :=
  match b.openFrame view packet with
  | (_, none) => 0
  | (_, some frame) => refusedBytes view frame packet

theorem fill_packets_ne_nil (hframe : frame.bucket.Ok view) (packet : π) :
    (frame.fill view packet).bucket.packets ≠ [] := by
  have hfront := hframe.push_front packet
  rw [(hframe.pushBackAddRef packet).getFront] at hfront
  intro hnil
  have hnone : (frame.bucket.pushBackAddRef view packet).1.packets = [] := hnil
  rw [hnone] at hfront
  exact absurd hfront Bool.false_ne_true

theorem Tally.pushBackAddRef (h : b.Tally view drift) (packet : π) :
    (b.pushBackAddRef view packet).1.Tally view (drift + b.pushDrift view packet) ∧
      Settles (b.pushEffects view packet) (b.packets : Multiset π)
        (b.pushBackAddRef view packet).1.packets := by
  unfold pushEffects pushDrift
  cases hopen : b.openFrame view packet with
  | mk next opened =>
    cases opened with
    | none =>
      rw [push_of_none hopen, List.append_nil]
      exact h.opened_none hopen
    | some frame =>
      obtain ⟨hopened, hfirst⟩ := h.opened_some hopen
      obtain ⟨hfilled, hpush⟩ := hopened.fill packet
      have hframe : frame.bucket.Ok view := hopened.bytes frame List.mem_cons_self
      obtain ⟨hended, hlast⟩ :=
        hfilled.ended rfl (fill_packets_ne_nil hframe packet) (push_of_some hopen)
      exact ⟨hended, hfirst.append (hpush.append hlast)⟩

theorem front_of_filled (hframe : frame.bucket.Ok view) (hfilled : frame.bucket.packets ≠ []) :
    ∃ packet, frame.bucket.getFront = some packet := by
  rw [hframe.getFront]
  exact ⟨_, List.head?_eq_some_head hfilled⟩

theorem Tally.nextFrame (h : b.Tally view drift) (hsending : b.sendingFrame = none) :
    b.nextFrame.1.Tally view drift ∧
      Settles b.nextFrameEffects (b.packets : Multiset π) b.nextFrame.1.packets := by
  unfold VideoBucket.nextFrame nextFrameEffects
  cases hframes : b.frames with
  | nil => exact ⟨h, .nil _⟩
  | cons frame frames =>
    have hperm : (held { b with frames := frames, sendingFrame := some frame }).Perm b.held := by
      have hswap : (frames ++ [frame]).Perm ([frame] ++ frames) := List.perm_append_comm
      unfold held
      rw [hsending, hframes, List.append_assoc, List.append_assoc]
      simpa using hswap.append_left b.waitingFrame.toList
    have hbytes : frame.bucket.Ok view := h.bytes frame (by simp [held, hframes])
    refine ⟨h.of_perm hperm rfl rfl ?_ h.synced, ?_⟩
    · intro other hother
      refine h.filled other ?_
      rw [hframes, hsending]
      simpa [or_comm] using hother
    · have hmoved := (hbytes.getFront_settles b.packets).append (settles_of_perm hperm)
      rw [List.append_nil] at hmoved
      exact hmoved

theorem Tally.getFront (h : b.Tally view drift) :
    b.getFront.1.Tally view drift ∧
      Settles b.getFrontEffects (b.packets : Multiset π) b.getFront.1.packets := by
  unfold VideoBucket.getFront getFrontEffects
  cases hsending : b.sendingFrame with
  | none => exact h.nextFrame hsending
  | some frame =>
    have hbytes : frame.bucket.Ok view := h.bytes frame (by simp [held, hsending])
    have hfilled := h.filled frame (by simp [hsending])
    obtain ⟨packet, hfront⟩ := front_of_filled hbytes hfilled
    simp only [hfront, List.append_nil]
    exact ⟨h, hbytes.getFront_settles _⟩

/-- `GetFront` finds a packet unless no frame is complete. -/
theorem Tally.getFront_eq_none_iff (h : b.Tally view drift) :
    b.getFront.2 = none ↔ b.frames = [] ∧ b.sendingFrame = none := by
  unfold VideoBucket.getFront VideoBucket.nextFrame
  cases hsending : b.sendingFrame with
  | none =>
    cases hframes : b.frames with
    | nil => simp
    | cons frame frames =>
      have hbytes : frame.bucket.Ok view := h.bytes frame (by simp [held, hframes])
      obtain ⟨packet, hfront⟩ := front_of_filled hbytes (h.filled frame (by simp [hframes]))
      simp [hfront]
  | some frame =>
    have hbytes : frame.bucket.Ok view := h.bytes frame (by simp [held, hsending])
    obtain ⟨packet, hfront⟩ := front_of_filled hbytes (h.filled frame (by simp [hsending]))
    simp [hfront]

theorem tally_reset (b : VideoBucket π) :
    b.reset.Tally view 0 ∧ Settles b.resetEffects (b.packets : Multiset π) b.reset.packets := by
  refine ⟨⟨rfl, rfl, nofun, nofun, nofun, nofun⟩, ?_⟩
  have hall := Settles.releaseAll b.packets 0
  have heffects : b.resetEffects = b.packets.map .release := by
    unfold resetEffects packets BaseBucket.resetEffects
    rw [List.map_flatMap]
  rw [heffects]
  simpa [packets, held, VideoBucket.reset] using hall

theorem Tally.setRedline (h : b.Tally view drift) (redlineBytes redlineFrames : Nat) :
    (b.setRedline redlineBytes redlineFrames).Tally view drift :=
  ⟨h.totalBytes, h.totalFrames, h.bytes, h.redline, h.filled, h.synced⟩

theorem Tally.sending (h : b.Tally view drift) (hsending : b.sendingFrame = some frame) :
    b.totalBytes = ((b.waitingFrame.toList ++ b.frames).map fun frame =>
        frame.bucket.totalBytes).sum + frame.bucket.totalBytes + drift ∧
      b.totalFrames = (b.waitingFrame.toList ++ b.frames).length + 1 ∧
      frame.bucket.Ok view ∧ frame.bucket.redlineBytes = baseRedlineBytes := by
  have htotal := h.totalBytes
  have hcount := h.totalFrames
  have hmem : frame ∈ b.held := by simp [held, hsending]
  refine ⟨?_, ?_, h.bytes frame hmem, h.redline frame hmem⟩
  · rw [htotal]
    simp only [held, hsending, Option.toList_some, List.map_append, List.sum_append,
      List.map_singleton, List.sum_singleton]
  · rw [hcount]
    simp only [held, hsending, Option.toList_some, List.length_append, List.length_singleton]

/-- Something of the frame is still to be sent. -/
theorem Tally.setSending (h : b.Tally view drift) (hsending : b.sendingFrame = some frame)
    {left : BaseBucket π} {amount : Nat} (hleft : left.Ok view)
    (hred : left.redlineBytes = baseRedlineBytes) (hfilled : left.packets ≠ [])
    (hsize : left.totalBytes + amount = frame.bucket.totalBytes) :
    Tally view drift { b with
      totalBytes := b.totalBytes - amount
      sendingFrame := some { frame with bucket := left } } := by
  obtain ⟨htotal, hcount, -, -⟩ := h.sending hsending
  have hmem : ∀ other ∈ held { b with sendingFrame := some { frame with bucket := left } },
      other ∈ b.held ∨ other = { frame with bucket := left } := by
    intro other hother
    rcases List.mem_append.mp hother with hold | hnew
    · exact Or.inl (List.mem_append_left _ hold)
    · exact Or.inr (List.mem_singleton.mp hnew)
  refine ⟨?_, ?_, ?_, ?_, ?_, h.synced⟩
  · simp only [held, Option.toList_some, List.map_append, List.sum_append, List.map_singleton,
      List.sum_singleton] at htotal ⊢
    omega
  · simpa [held, Nat.add_assoc] using hcount
  · intro other hother
    rcases hmem other hother with hold | hnew
    · exact h.bytes other hold
    · rw [hnew]
      exact hleft
  · intro other hother
    rcases hmem other hother with hold | hnew
    · exact h.redline other hold
    · rw [hnew]
      exact hred
  · intro other hother
    rcases List.mem_append.mp hother with hold | hnew
    · exact h.filled other (List.mem_append_left _ hold)
    · rw [List.mem_singleton.mp hnew]
      exact hfilled

theorem Tally.endSending (h : b.Tally view drift) (hsending : b.sendingFrame = some frame) :
    Tally view drift { b with
      totalBytes := b.totalBytes - frame.bucket.totalBytes
      totalFrames := b.totalFrames - 1
      sendingFrame := none } := by
  obtain ⟨htotal, hcount, -, -⟩ := h.sending hsending
  have hkept : ∀ other ∈ held { b with sendingFrame := none }, other ∈ b.held := by
    intro other hother
    simp only [held, Option.toList_none, List.append_nil] at hother
    exact List.mem_append_left _ hother
  refine ⟨?_, ?_, fun other hother => h.bytes other (hkept other hother),
    fun other hother => h.redline other (hkept other hother), ?_, h.synced⟩
  · simp only [held, Option.toList_none, List.append_nil] at htotal ⊢
    omega
  · simp only [held, Option.toList_none, List.append_nil]
    omega
  · intro other hother
    simp only [Option.toList_none, List.append_nil] at hother
    exact h.filled other (List.mem_append_left _ hother)

variable [DecidableEq π]

theorem popFrontRelease_of_front (view : PacketView π) {bucket : BaseBucket π}
    (hfront : bucket.getFront = some packet) :
    ∃ packets, bucket.packets = packet :: packets ∧
      (bucket.popFrontRelease view packet).1 =
        { bucket with packets := packets, totalBytes := bucket.totalBytes - view.size packet } := by
  unfold BaseBucket.getFront at hfront
  split at hfront
  · cases hfront
  · rename_i htotal
    obtain ⟨packets, hpackets⟩ := List.head?_eq_some_iff.mp hfront
    refine ⟨packets, hpackets, ?_⟩
    unfold BaseBucket.popFrontRelease
    simp [htotal, hpackets]

theorem Tally.popFrontRelease (h : b.Tally view drift) (packet : π) :
    (b.popFrontRelease view packet).1.Tally view drift ∧
      Settles (b.popEffects view packet) (b.packets : Multiset π)
        (b.popFrontRelease view packet).1.packets := by
  unfold VideoBucket.popFrontRelease popEffects
  cases hsending : b.sendingFrame with
  | none => exact ⟨h, .nil _⟩
  | some frame =>
    obtain ⟨htotal, hcount, hbytes, hred⟩ := h.sending hsending
    dsimp only
    split
    · rw [List.append_nil]
      exact ⟨h, hbytes.getFront_settles _⟩
    · rename_i hfront
      rw [not_not] at hfront
      obtain ⟨left, hpackets, hpopped⟩ := popFrontRelease_of_front view hfront
      have hleft := hbytes.popFrontRelease packet
      have hsize : view.size packet ≤ frame.bucket.totalBytes :=
        hbytes.size_le (by rw [hpackets]; exact List.mem_cons_self)
      have hcovered : view.size packet ≤ b.totalBytes := by omega
      have hone : 1 ≤ b.totalFrames := by omega
      have hbefore : (b.packets : Multiset π) = frame.bucket.packets +
          ((b.waitingFrame.toList ++ b.frames).flatMap fun frame => frame.bucket.packets : List π) := by
        simp only [packets, held, hsending, Option.toList_some, List.flatMap_append,
          List.flatMap_singleton, ← Multiset.coe_add]
        rw [add_comm]
      have hpop := (hbytes.popFrontRelease_settles packet).frame
        ((b.waitingFrame.toList ++ b.frames).flatMap fun frame => frame.bucket.packets : List π)
      rw [← hbefore, hpopped] at hpop
      rw [hpopped] at hleft ⊢
      have heffects := (hbytes.getFront_settles b.packets).append
        ((Settles.subtract hcovered _).append (hpop.append (hleft.getFront_settles _)))
      split
      · rename_i hempty
        rw [hleft.getFront, List.head?_eq_none_iff] at hempty
        dsimp only at hempty
        subst hempty
        have hwhole : view.size packet = frame.bucket.totalBytes := by
          rw [hbytes.total, hpackets]
          simp
        rw [hwhole]
        refine ⟨h.endSending hsending, ?_⟩
        have hall := heffects.append (Settles.subtract hone _)
        simpa [packets, held, BaseBucket.resetEffects, hwhole] using hall
      · rename_i hmore
        rw [hleft.getFront, List.head?_eq_none_iff] at hmore
        refine ⟨h.setSending hsending hleft hred hmore (Nat.sub_add_cancel hsize), ?_⟩
        have hafter : (packets { b with
              totalBytes := b.totalBytes - view.size packet
              sendingFrame := some { frame with bucket := { frame.bucket with
                packets := left
                totalBytes := frame.bucket.totalBytes - view.size packet } } } : Multiset π) =
            (left : Multiset π) + ((b.waitingFrame.toList ++ b.frames).flatMap
              fun frame => frame.bucket.packets : List π) := by
          simp only [packets, held, Option.toList_some, List.flatMap_append,
            List.flatMap_singleton, ← Multiset.coe_add]
          rw [add_comm]
        rw [hafter]
        simpa using heffects

omit [DecidableEq π] in
/-- A frame refuses a packet only behind its redline, which no new frame has reached. -/
theorem Tally.pushDrift_eq_zero_iff (h : b.Tally view drift) (packet : π) :
    b.pushDrift view packet = 0 ↔ ¬ b.Overfills view (.pushBackAddRef packet) := by
  have hopened := opened view b packet
  unfold pushDrift refusedBytes Overfills
  generalize b.openFrame view packet = result at hopened
  cases hopened with
  | unsynced hneed hstart =>
    have hwaiting : b.waitingFrame = none := by
      by_contra hsome
      rw [h.synced hsome] at hneed
      exact absurd hneed Bool.false_ne_true
    simp [hwaiting]
  | stray hneed hfirst hwaiting => simp [hwaiting]
  | started hfirst hkey =>
    have hnew : ¬ baseRedlineBytes ≤ 0 := Nat.not_le.mpr (Nat.two_pow_pos 20)
    simp [hfirst, BaseBucket.new, hnew]
  | continued frame hneed hfirst hwaiting =>
    have hred := h.redline frame (by simp [held, hwaiting])
    have hsize := view.size_pos packet
    simp only [hfirst, hwaiting, hred, Option.some.injEq, true_and, exists_eq_left']
    split
    · rename_i hfull
      simp only [hfull, not_true_eq_false, iff_false]
      exact Nat.ne_of_gt hsize
    · rename_i hroom
      simp [hroom]

theorem Tally.step (h : b.Tally view 0) (op : BucketOp π) (hroom : ¬ b.Overfills view op) :
    (b.step view op).1.Tally view 0 ∧
      Settles (b.step view op).2 (b.packets : Multiset π) (b.step view op).1.packets := by
  cases op with
  | getFront => exact h.getFront
  | pushBackAddRef packet =>
    have hpush := h.pushBackAddRef packet
    rw [(h.pushDrift_eq_zero_iff packet).mpr hroom] at hpush
    exact hpush
  | popFrontRelease packet =>
    cases packet with
    | none => exact ⟨h, .nil _⟩
    | some packet => exact h.popFrontRelease packet
  | reset => exact tally_reset b
  | setRedline redlineBytes redlineFrames => exact ⟨h.setRedline redlineBytes redlineFrames, .nil _⟩

omit [DecidableEq π] in
theorem Tally.balanced (h : b.Tally view 0) {effects : List (Effect π)}
    (hsettles : Settles effects 0 b.packets) : b.Balanced view effects where
  totalBytes := by rw [h.totalBytes, packets, size_packets_of h.bytes, Nat.add_zero]
  totalFrames := h.totalFrames
  sound := hsettles.sound
  refs := by simpa using hsettles.refs.symm
  front := h.getFront_eq_none_iff

theorem Tally.not_balanced (h : b.Tally view 0) {op : BucketOp π} (hover : b.Overfills view op)
    (effects : List (Effect π)) : ¬ (b.step view op).1.Balanced view effects := by
  intro hbooks
  cases op with
  | pushBackAddRef packet =>
    have hpush := (h.pushBackAddRef packet).1
    have hdrift : b.pushDrift view packet ≠ 0 :=
      fun hzero => (h.pushDrift_eq_zero_iff packet).mp hzero hover
    have hcounted := hpush.totalBytes
    have hheld : (b.pushBackAddRef view packet).1.totalBytes =
        ((b.pushBackAddRef view packet).1.packets.map view.size).sum := hbooks.totalBytes
    rw [packets, size_packets_of hpush.bytes] at hheld
    omega
  | getFront | popFrontRelease packet | reset | setRedline redlineBytes redlineFrames =>
    exact hover

end VideoBucket

/-- The books of the plain and of the audio bucket always balance. Those of the video
bucket do all along a run exactly if no frame in it is filled behind its redline. -/
theorem books_balance_iff [DecidableEq π] (view : PacketView π) (ops : List (BucketOp π)) :
    (play (BaseBucket.step view) .new ops).1.Balanced view
        (play (BaseBucket.step view) .new ops).2 ∧
      (play (audioStep view) newAudio ops).1.Balanced view (play (audioStep view) newAudio ops).2 ∧
      ((∀ earlier, earlier <+: ops → (play (VideoBucket.step view) .new earlier).1.Balanced view
          (play (VideoBucket.step view) .new earlier).2) ↔
        ∀ earlier op, earlier ++ [op] <+: ops →
          ¬ (play (VideoBucket.step view) .new earlier).1.Overfills view op) := by
  refine ⟨BaseBucket.play_balanced ops, play_audio_balanced view ops, ?_⟩
  have hstep : ∀ (b : VideoBucket π) (op : BucketOp π), b.Tally view 0 → ¬ b.Overfills view op →
      (b.step view op).1.Tally view 0 ∧
        Settles (b.step view op).2 (b.packets : Multiset π) (b.step view op).1.packets :=
    fun b op h hroom => h.step op hroom
  have hgood : ∀ (b : VideoBucket π) (effects : List (Effect π)), b.Tally view 0 →
      Settles effects ((VideoBucket.new : VideoBucket π).packets : Multiset π) b.packets →
      b.Balanced view effects := fun b effects h hsettles => h.balanced hsettles
  have hbad : ∀ (b : VideoBucket π) (op : BucketOp π) (effects : List (Effect π)),
      b.Tally view 0 → ¬ ¬ b.Overfills view op → ¬ (b.step view op).1.Balanced view effects :=
    fun b op effects h hover => h.not_balanced (not_not.mp hover) effects
  exact good_iff_guarded hstep hgood hbad VideoBucket.tally_new ops

/-- Packets of one key frame, all of the largest size. -/
def largePackets : PacketView Nat where
  size _ := 64512
  size_pos _ := by decide
  marker n := n = 17
  keyFrame _ := true
  firstPacketOfFrame n := n = 0

/-- Of 18 such packets the frame takes 17, and all 18 are counted. -/
theorem not_balanced_largeFrame :
    ¬ (play (VideoBucket.step largePackets) .new
        ((List.range 18).map .pushBackAddRef)).1.Balanced largePackets
      (play (VideoBucket.step largePackets) .new ((List.range 18).map .pushBackAddRef)).2 := by
  intro h
  exact absurd h.totalBytes (by decide +kernel)

end Pronet.Rtp
