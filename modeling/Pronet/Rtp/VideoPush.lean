import Pronet.Rtp.Bucket

/-! What a push into `CRtpVideoBucket` can do: find no frame for the packet, start one
or continue one, and then leave the frame waiting, drop it, queue it, or let it replace
the queue. -/
namespace Pronet.Rtp

variable {π : Type}

/-- The frame with one more packet, unless it refuses the packet. -/
def VideoFrame.fill (view : PacketView π) (frame : VideoFrame π) (packet : π) : VideoFrame π :=
  { frame with bucket := (frame.bucket.pushBackAddRef view packet).1 }

namespace VideoBucket

variable {view : PacketView π} {b : VideoBucket π} {packet : π}

/-- Steps 1 and 4. -/
inductive Opened (view : PacketView π) (b : VideoBucket π) (packet : π) :
    VideoBucket π × Option (VideoFrame π) → Prop
  | unsynced (hneed : b.needKeyFrame = true)
      (hstart : (view.keyFrame packet && view.firstPacketOfFrame packet) = false) :
      Opened view b packet (b, none)
  | stray (hneed : b.needKeyFrame = false) (hfirst : view.firstPacketOfFrame packet = false)
      (hwaiting : b.waitingFrame = none) :
      Opened view b packet ({ b with needKeyFrame := true }, none)
  | started (hfirst : view.firstPacketOfFrame packet = true)
      (hkey : b.needKeyFrame = true → view.keyFrame packet = true) :
      Opened view b packet
        ({ b.dropWaiting with totalFrames := b.dropWaiting.totalFrames + 1, needKeyFrame := false },
          some ⟨view.keyFrame packet, BaseBucket.new⟩)
  | continued (frame : VideoFrame π) (hneed : b.needKeyFrame = false)
      (hfirst : view.firstPacketOfFrame packet = false) (hwaiting : b.waitingFrame = some frame) :
      Opened view b packet (b, some frame)

theorem dropWaiting_withNeed (b : VideoBucket π) (needKeyFrame : Bool) :
    dropWaiting { b with needKeyFrame := needKeyFrame } =
      { b.dropWaiting with needKeyFrame := needKeyFrame } := by
  unfold dropWaiting
  dsimp only
  split <;> rfl

theorem opened (view : PacketView π) (b : VideoBucket π) (packet : π) :
    Opened view b packet (b.openFrame view packet) := by
  unfold openFrame
  dsimp only
  rw [dropWaiting_withNeed]
  split
  · rename_i hdropped
    rw [Bool.and_eq_true, Bool.not_eq_true'] at hdropped
    exact .unsynced hdropped.1 hdropped.2
  · rename_i hkept
    split
    · rename_i hfirst
      refine .started hfirst fun hneed => ?_
      rw [hneed, hfirst] at hkept
      simpa using hkept
    · rename_i hfirst
      have hfirst := Bool.eq_false_iff.mpr hfirst
      have hneed : b.needKeyFrame = false := by
        rw [hfirst] at hkept
        simpa using hkept
      split
      · rename_i hwaiting
        exact .stray hneed hfirst hwaiting
      · rename_i frame hwaiting
        rw [← hneed]
        exact .continued frame hneed hfirst hwaiting

/-- The packet is counted in any case. -/
def fill (view : PacketView π) (b : VideoBucket π) (frame : VideoFrame π) (packet : π) :
    VideoBucket π :=
  { b with
    waitingFrame := some (frame.fill view packet)
    totalBytes := b.totalBytes + view.size packet }

/-- Steps 5 to 8. -/
inductive Ended (view : PacketView π) (b : VideoBucket π) (frame : VideoFrame π) (packet : π) :
    VideoBucket π × Bool → Prop
  | unfinished (hmarker : view.marker packet = false)
      (hsize : frame.bucket.totalBytes < maxFrameBytes) : Ended view b frame packet (b, true)
  | oversized (hmarker : view.marker packet = false)
      (hsize : maxFrameBytes ≤ frame.bucket.totalBytes) :
      Ended view b frame packet ({ b.dropWaiting with needKeyFrame := true }, false)
  | queued (hmarker : view.marker packet = true) (hkey : frame.keyFrame = false)
      (hroom : (b.totalBytes ≤ b.redlineBytes && b.totalFrames ≤ b.redlineFrames) = true) :
      Ended view b frame packet
        ({ b with frames := b.frames ++ [frame], waitingFrame := none }, true)
  | overRedline (hmarker : view.marker packet = true) (hkey : frame.keyFrame = false)
      (hroom : (b.totalBytes ≤ b.redlineBytes && b.totalFrames ≤ b.redlineFrames) = false) :
      Ended view b frame packet ({ b.dropWaiting with needKeyFrame := true }, false)
  | flushed (hmarker : view.marker packet = true) (hkey : frame.keyFrame = true) :
      Ended view b frame packet
        ({ b with
            totalBytes := b.totalBytes - (b.frames.map fun old => old.bucket.totalBytes).sum
            totalFrames := b.totalFrames - b.frames.length
            frames := [frame]
            waitingFrame := none }, true)

theorem push_of_none {next : VideoBucket π} (h : b.openFrame view packet = (next, none)) :
    b.pushBackAddRef view packet = (next, false) := by
  unfold pushBackAddRef
  rw [h]

theorem push_of_some {next : VideoBucket π} {frame : VideoFrame π}
    (h : b.openFrame view packet = (next, some frame)) :
    Ended view (next.fill view frame packet) (frame.fill view packet) packet
      (b.pushBackAddRef view packet) := by
  unfold pushBackAddRef
  rw [h]
  change Ended _ _ _ _ (if view.marker packet then
      (next.fill view frame packet).closeFrame (frame.fill view packet)
    else if maxFrameBytes ≤ (frame.fill view packet).bucket.totalBytes then
      ({ (next.fill view frame packet).dropWaiting with needKeyFrame := true }, false)
    else (next.fill view frame packet, true))
  split
  · rename_i hmarker
    unfold closeFrame
    split
    · rename_i hkey
      rw [Bool.not_eq_true'] at hkey
      split
      · rename_i hroom
        exact .queued hmarker hkey hroom
      · rename_i hroom
        exact .overRedline hmarker hkey (Bool.eq_false_iff.mpr hroom)
    · rename_i hkey
      exact .flushed hmarker (by simpa using hkey)
  · rename_i hmarker
    have hmarker := Bool.eq_false_iff.mpr hmarker
    split
    · rename_i hsize
      exact .oversized hmarker hsize
    · rename_i hsize
      exact .unfinished hmarker (Nat.not_le.mp hsize)

end VideoBucket

end Pronet.Rtp
