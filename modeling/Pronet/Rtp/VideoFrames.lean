import Pronet.Rtp.VideoLedger
import Pronet.Library.Excerpts
import Pronet.Library.Runs

/-! Which frames come out of `CRtpVideoBucket`. The history since the construction or the
last reset has the packets pushed, those popped, and the frames that `GetFront` has begun
to send. The invariant reads the frames held and sent off the packets pushed. -/
namespace Pronet.Rtp

open Library.Excerpts Library.Runs

variable {π : Type}

namespace VideoBucket

/-- The frame that `GetFront` begins to send, if any. -/
def begun (b : VideoBucket π) : List (VideoFrame π) :=
  match b.sendingFrame with
  | none => b.frames.take 1
  | some frame => if frame.bucket.getFront.isSome then [] else b.frames.take 1

/-- What is left of the frame being sent. -/
def unsent (b : VideoBucket π) : List π :=
  b.sendingFrame.toList.flatMap fun frame => frame.bucket.packets

end VideoBucket

structure VideoRun (π : Type) where
  bucket : VideoBucket π
  pushed : List π
  popped : List π
  delivered : List (VideoFrame π)
  deriving DecidableEq

namespace VideoRun

def new : VideoRun π := ⟨.new, [], [], []⟩

def step [DecidableEq π] (view : PacketView π) (w : VideoRun π) :
    BucketOp π → Option (VideoRun π)
  | .getFront => some { w with
      bucket := w.bucket.getFront.1
      delivered := w.delivered ++ w.bucket.begun }
  | .pushBackAddRef packet => some { w with
      bucket := (w.bucket.pushBackAddRef view packet).1
      pushed := w.pushed ++ [packet] }
  | .popFrontRelease none => some w
  | .popFrontRelease (some packet) => some { w with
      bucket := (w.bucket.popFrontRelease view packet).1
      popped := w.popped ++ (w.bucket.popFrontRelease view packet).2.toList }
  | .reset => some { bucket := w.bucket.reset, pushed := [], popped := [], delivered := [] }
  | .setRedline redlineBytes redlineFrames => some { w with
      bucket := w.bucket.setRedline redlineBytes redlineFrames }

end VideoRun

/-- From a first packet up to the next marker. -/
structure FrameRun (view : PacketView π) (run : List π) : Prop where
  first : ∃ packet rest, run = packet :: rest ∧ view.firstPacketOfFrame packet = true ∧
    ∀ other ∈ rest, view.firstPacketOfFrame other = false
  last : ∃ rest packet, run = rest ++ [packet] ∧ view.marker packet = true ∧
    ∀ other ∈ rest, view.marker other = false

/-- What is popped are whole frames, the last perhaps not to its end: runs of packets
pushed, in the order in which they were pushed. -/
def VideoRun.DeliversWhole (view : PacketView π) (w : VideoRun π) : Prop :=
  ∃ runs read, w.popped ++ w.bucket.unsent = runs.flatten ∧
    (w.bucket.unsent = [] ∨ ∃ run, runs.getLast? = some run ∧ w.bucket.unsent <:+ run) ∧
    read <+: w.pushed ∧
    Excerpt (fun _ _ frame run => frame = run ∧ FrameRun view run) runs read

/-- The packets of the frame are among `run`, which is no more than one pushed frame. -/
structure VideoFrame.StartsIn (view : PacketView π) (frame : VideoFrame π) (run : List π) :
    Prop where
  first : ∃ packet rest, run = packet :: rest ∧ view.firstPacketOfFrame packet = true ∧
    frame.keyFrame = view.keyFrame packet ∧
    ∀ other ∈ rest, view.firstPacketOfFrame other = false
  packets : frame.bucket.packets.Sublist run

/-- A first packet that is no key frame's cuts off the frame being collected. -/
def VideoBucket.CutsOff (view : PacketView π) (b : VideoBucket π) : BucketOp π → Prop
  | .pushBackAddRef packet =>
      view.firstPacketOfFrame packet = true ∧ view.keyFrame packet = false ∧
        b.waitingFrame ≠ none
  | _ => False

section
variable (view : PacketView π) (whole linked : Prop)

/-- A frame that is still collected. With `whole`, no packet of it was refused. -/
structure Collects (frame : VideoFrame π) (run : List π) : Prop where
  starts : frame.StartsIn view run
  whole : whole → frame.bucket.packets = run

/-- With `linked`, a frame that is no key frame follows the one before it. -/
def Links (previous : Option (VideoFrame π)) (gap : List π) (frame : VideoFrame π) : Prop :=
  linked → frame.keyFrame = true ∨
    previous.isSome = true ∧ ∀ packet ∈ gap, view.firstPacketOfFrame packet = false

/-- A frame that is complete. -/
structure Fits (previous : Option (VideoFrame π)) (gap : List π) (frame : VideoFrame π)
    (run : List π) : Prop where
  collects : Collects view whole frame run
  frameRun : FrameRun view run
  links : Links view linked previous gap frame

/-- A frame in the middle of `run`, and the frames before it. -/
def Gathers (items : List (VideoFrame π)) (frame : VideoFrame π) (pushed run : List π) : Prop :=
  ∃ read gap, pushed = read ++ gap ++ run ∧ Excerpt (Fits view whole linked) items read ∧
    Collects view whole frame run ∧ Links view linked items.getLast? gap frame

/-- The frames of a bucket come from the packets pushed. Between two frames none is
missing unless the next has to be a key frame. -/
def Assembles (items : List (VideoFrame π)) (b : VideoBucket π) (pushed : List π) : Prop :=
  match b.waitingFrame with
  | none => ∃ read tail, pushed = read ++ tail ∧ Excerpt (Fits view whole linked) items read ∧
      (b.needKeyFrame = false → items ≠ [] ∧ tail = [])
  | some frame => ∃ run, Gathers view whole linked items frame pushed run ∧
      ∀ packet ∈ run, view.marker packet = false

end

variable {view : PacketView π} {whole linked : Prop} {b next : VideoBucket π}
  {items queued : List (VideoFrame π)} {frame : VideoFrame π} {packet : π}
  {pushed run : List π}

theorem Assembles.read (h : Assembles view whole linked items b pushed) :
    ∃ read, read <+: pushed ∧ Excerpt (Fits view whole linked) items read := by
  unfold Assembles at h
  split at h
  · obtain ⟨read, tail, hpushed, hread, -⟩ := h
    exact ⟨read, hpushed ▸ List.prefix_append _ _, hread⟩
  · obtain ⟨run, ⟨read, gap, hpushed, hread, -⟩, -⟩ := h
    refine ⟨read, ?_, hread⟩
    rw [hpushed, List.append_assoc]
    exact List.prefix_append _ _

/-- All but the frames read may be forgotten when a key frame is required next. -/
theorem assembles_of_read (hneed : b.needKeyFrame = true) (hwaiting : b.waitingFrame = none)
    {read : List π} (hpre : read <+: pushed) (hread : Excerpt (Fits view whole linked) items read) :
    Assembles view whole linked items b pushed := by
  obtain ⟨tail, htail⟩ := hpre
  unfold Assembles
  rw [hwaiting]
  exact ⟨read, tail, htail.symm, hread, fun hsynced => by rw [hneed] at hsynced; cases hsynced⟩

theorem Assembles.drop (h : Assembles view whole linked items b pushed) (packet : π) {drift : Nat}
    (htally : b.Tally view drift) (hneed : b.needKeyFrame = true) :
    Assembles view whole linked items b (pushed ++ [packet]) := by
  have hwaiting : b.waitingFrame = none := by
    by_contra hsome
    rw [htally.synced hsome] at hneed
    cases hneed
  obtain ⟨read, hpre, hread⟩ := h.read
  exact assembles_of_read hneed hwaiting (hpre.trans (List.prefix_append _ _)) hread

/-- What a frame has gathered when it takes a packet, or refuses it. -/
theorem Collects.fill (h : Collects view whole frame run) (packet : π)
    (hfirst : view.firstPacketOfFrame packet = false)
    (hroom : whole → frame.bucket.totalBytes < frame.bucket.redlineBytes) :
    Collects view whole (frame.fill view packet) (run ++ [packet]) := by
  obtain ⟨first, rest, hrun, hstart, hkey, hothers⟩ := h.starts.first
  refine ⟨⟨⟨first, rest ++ [packet], by rw [hrun]; rfl, hstart, hkey, ?_⟩, ?_⟩, ?_⟩
  · intro other hother
    rcases List.mem_append.mp hother with hold | hnew
    · exact hothers other hold
    · rw [List.mem_singleton.mp hnew]
      exact hfirst
  · unfold VideoFrame.fill BaseBucket.pushBackAddRef
    split
    · exact h.starts.packets.trans (List.sublist_append_left _ _)
    · exact h.starts.packets.append (List.Sublist.refl _)
  · intro hwhole
    have hnot : ¬ frame.bucket.redlineBytes ≤ frame.bucket.totalBytes :=
      Nat.not_le.mpr (hroom hwhole)
    unfold VideoFrame.fill BaseBucket.pushBackAddRef
    rw [if_neg hnot]
    exact congrArg (· ++ [packet]) (h.whole hwhole)

theorem collects_first (packet : π) (hfirst : view.firstPacketOfFrame packet = true) :
    Collects view whole
      (VideoFrame.fill view ⟨view.keyFrame packet, BaseBucket.new⟩ packet) [packet] := by
  have hroom : ¬ (BaseBucket.new : BaseBucket π).redlineBytes ≤ 0 :=
    Nat.not_le.mpr (Nat.two_pow_pos 20)
  have hpackets : (VideoFrame.fill view ⟨view.keyFrame packet, BaseBucket.new⟩
      packet).bucket.packets = [packet] := by
    have hpush : BaseBucket.new.pushBackAddRef view packet =
        ({ (BaseBucket.new : BaseBucket π) with
            packets := [] ++ [packet]
            totalBytes := 0 + view.size packet }, true) := if_neg hroom
    unfold VideoFrame.fill
    dsimp only
    rw [hpush]
    rfl
  exact ⟨⟨⟨packet, [], rfl, hfirst, rfl, nofun⟩, hpackets ▸ List.Sublist.refl _⟩,
    fun _ => hpackets⟩

theorem Gathers.read (h : Gathers view whole linked items frame pushed run) :
    ∃ read, read <+: pushed ∧ Excerpt (Fits view whole linked) items read := by
  obtain ⟨read, gap, hpushed, hread, -⟩ := h
  refine ⟨read, ?_, hread⟩
  rw [hpushed, List.append_assoc]
  exact List.prefix_append _ _

theorem Assembles.opened (h : Assembles view whole linked items b pushed) {drift : Nat}
    (htally : b.Tally view drift) (hopen : b.openFrame view packet = (next, some frame))
    (hwhole : whole → ¬ b.Overfills view (.pushBackAddRef packet))
    (hlinked : linked → ¬ b.CutsOff view (.pushBackAddRef packet)) :
    next.frames = b.frames ∧ ∃ before,
      Gathers view whole linked items (frame.fill view packet) (pushed ++ [packet])
        (before ++ [packet]) ∧
      ∀ other ∈ before, view.marker other = false := by
  have hopened := VideoBucket.opened view b packet
  rw [hopen] at hopened
  cases hopened with
  | started hfirst hkey =>
    refine ⟨VideoBucket.frames_dropWaiting, [], ?_, nofun⟩
    have hlast : ∃ read gap, read ++ gap = pushed ∧ Excerpt (Fits view whole linked) items read ∧
        Links view linked items.getLast? gap
          (VideoFrame.fill view ⟨view.keyFrame packet, BaseBucket.new⟩ packet) := by
      by_cases hfree : linked → view.keyFrame packet = true
      · obtain ⟨read, ⟨gap, hgap⟩, hread⟩ := h.read
        exact ⟨read, gap, hgap, hread, fun hl => Or.inl (hfree hl)⟩
      · -- A frame that has to be linked follows the last one at once.
        obtain ⟨hl, hnokey⟩ := Classical.not_imp.mp hfree
        have hneed : b.needKeyFrame = false := Bool.eq_false_iff.mpr fun hn => hnokey (hkey hn)
        have hwaiting : b.waitingFrame = none := by
          by_contra hsome
          exact hlinked hl ⟨hfirst, Bool.eq_false_iff.mpr hnokey, hsome⟩
        unfold Assembles at h
        rw [hwaiting] at h
        obtain ⟨read, tail, hpushed, hread, hsynced⟩ := h
        obtain ⟨hitems, htail⟩ := hsynced hneed
        refine ⟨read, tail, hpushed.symm, hread, fun _ => Or.inr ⟨?_, ?_⟩⟩
        · exact List.getLast?_isSome.mpr hitems
        · rw [htail]
          exact nofun
    obtain ⟨read, gap, hgap, hread, hlinks⟩ := hlast
    exact ⟨read, gap, by rw [hgap]; rfl, hread, collects_first packet hfirst, hlinks⟩
  | continued _ hneed hfirst hwaiting =>
    refine ⟨rfl, ?_⟩
    unfold Assembles at h
    rw [hwaiting] at h
    obtain ⟨run, ⟨read, gap, hpushed, hread, hcollects, hlinks⟩, hmarker⟩ := h
    have hroom : whole → frame.bucket.totalBytes < frame.bucket.redlineBytes := by
      intro hw
      have hred := htally.redline frame (by simp [VideoBucket.held, hwaiting])
      rw [hred]
      exact Nat.not_le.mp fun hfull => hwhole hw ⟨hfirst, frame, hwaiting, hfull⟩
    refine ⟨run, ⟨read, gap, ?_, hread, hcollects.fill packet hfirst hroom, hlinks⟩, hmarker⟩
    rw [hpushed, List.append_assoc]

theorem Collects.fits {before gap : List π} {previous : Option (VideoFrame π)}
    (h : Collects view whole frame (before ++ [packet]))
    (hbefore : ∀ other ∈ before, view.marker other = false)
    (hmarker : view.marker packet = true) (hlinks : Links view linked previous gap frame) :
    Fits view whole linked previous gap frame (before ++ [packet]) := by
  obtain ⟨first, rest, hrun, hfirst, -, hothers⟩ := h.starts.first
  exact ⟨h, ⟨⟨first, rest, hrun, hfirst, hothers⟩, ⟨before, packet, rfl, hmarker, hbefore⟩⟩,
    hlinks⟩

theorem assembles_of_complete {log : List π} (hwaiting : b.waitingFrame = none)
    (hlog : log = pushed) (hread : Excerpt (Fits view whole linked) (items ++ [frame]) log) :
    Assembles view whole linked (items ++ [frame]) b pushed := by
  unfold Assembles
  rw [hwaiting]
  exact ⟨log, [], by rw [hlog, List.append_nil], hread, fun _ => ⟨by simp, rfl⟩⟩

theorem Gathers.ended {delivered : List (VideoFrame π)} {before : List π}
    (h : Gathers view whole linked (delivered ++ b.frames) frame pushed (before ++ [packet]))
    (hbefore : ∀ other ∈ before, view.marker other = false)
    (hwaiting : b.waitingFrame = some frame) {result : VideoBucket π × Bool}
    (hended : VideoBucket.Ended view b frame packet result) :
    Assembles view whole linked (delivered ++ result.1.frames) result.1 pushed := by
  have hdropped : Assembles view whole linked
      (delivered ++ VideoBucket.frames { b.dropWaiting with needKeyFrame := true })
      { b.dropWaiting with needKeyFrame := true } pushed := by
    obtain ⟨read, hpre, hread⟩ := h.read
    have hframes : b.dropWaiting.frames = b.frames := VideoBucket.frames_dropWaiting
    dsimp only
    rw [hframes]
    exact assembles_of_read rfl VideoBucket.waitingFrame_dropWaiting hpre hread
  cases hended with
  | unfinished hmarker hsize =>
    unfold Assembles
    rw [hwaiting]
    refine ⟨before ++ [packet], h, ?_⟩
    intro other hother
    rcases List.mem_append.mp hother with hold | hnew
    · exact hbefore other hold
    · rw [List.mem_singleton.mp hnew]
      exact hmarker
  | oversized hmarker hsize => exact hdropped
  | overRedline hmarker hkey hroom => exact hdropped
  | queued hmarker hkey hroom =>
    obtain ⟨read, gap, hpushed, hread, hcollects, hlinks⟩ := h
    have hfits := hcollects.fits hbefore hmarker hlinks
    have hcomplete : Assembles view whole linked (delivered ++ b.frames ++ [frame])
        { b with frames := b.frames ++ [frame], waitingFrame := none } pushed :=
      assembles_of_complete rfl hpushed.symm (.snoc gap frame _ hread hfits)
    rw [List.append_assoc] at hcomplete
    exact hcomplete
  | flushed hmarker hkey =>
    obtain ⟨read, gap, hpushed, hread, hcollects, -⟩ := h
    obtain ⟨kept, ⟨flushed, hkept⟩, hdelivered⟩ := hread.take (List.prefix_append _ _)
    have hlinks : Links view linked delivered.getLast? (flushed ++ gap) frame :=
      fun _ => Or.inl hkey
    have hfits := hcollects.fits hbefore hmarker hlinks
    have hall : kept ++ (flushed ++ gap) ++ (before ++ [packet]) = pushed := by
      simp only [hpushed, ← hkept, List.append_assoc]
    exact assembles_of_complete rfl hall (.snoc (flushed ++ gap) frame _ hdelivered hfits)

theorem Assembles.pushBackAddRef {delivered : List (VideoFrame π)} {drift : Nat}
    (h : Assembles view whole linked (delivered ++ b.frames) b pushed)
    (htally : b.Tally view drift)
    (hwhole : whole → ¬ b.Overfills view (.pushBackAddRef packet))
    (hlinked : linked → ¬ b.CutsOff view (.pushBackAddRef packet)) :
    Assembles view whole linked (delivered ++ (b.pushBackAddRef view packet).1.frames)
      (b.pushBackAddRef view packet).1 (pushed ++ [packet]) := by
  cases hopen : b.openFrame view packet with
  | mk next opened =>
    cases opened with
    | none =>
      rw [VideoBucket.push_of_none hopen]
      have hopened := VideoBucket.opened view b packet
      rw [hopen] at hopened
      cases hopened with
      | unsynced hneed hstart => exact h.drop packet htally hneed
      | stray hneed hfirst hwaiting =>
        obtain ⟨read, hpre, hread⟩ := h.read
        exact assembles_of_read rfl hwaiting (hpre.trans (List.prefix_append _ _)) hread
    | some frame =>
      obtain ⟨hframes, before, hgathers, hbefore⟩ := h.opened htally hopen hwhole hlinked
      have hsame : (next.fill view frame packet).frames = b.frames := hframes
      rw [← hsame] at hgathers
      exact hgathers.ended hbefore rfl (VideoBucket.push_of_some hopen)

/-- Where the bucket differs only in what it does not read off the packets. -/
theorem Assembles.congr (h : Assembles view whole linked items b pushed)
    (hwaiting : next.waitingFrame = b.waitingFrame) (hneed : next.needKeyFrame = b.needKeyFrame) :
    Assembles view whole linked items next pushed := by
  unfold Assembles at h ⊢
  rw [hwaiting, hneed]
  exact h

namespace VideoBucket

theorem sendingFrame_dropWaiting (b : VideoBucket π) :
    b.dropWaiting.sendingFrame = b.sendingFrame := by
  unfold dropWaiting
  split <;> rfl

theorem sendingFrame_push (b : VideoBucket π) (packet : π) :
    (b.pushBackAddRef view packet).1.sendingFrame = b.sendingFrame := by
  have hopened := opened view b packet
  cases hopen : b.openFrame view packet with
  | mk next found =>
    rw [hopen] at hopened
    have hnext : next.sendingFrame = b.sendingFrame := by
      cases hopened with
      | unsynced | stray | continued => rfl
      | started => exact sendingFrame_dropWaiting b
    cases found with
    | none =>
      rw [push_of_none hopen]
      exact hnext
    | some frame =>
      have hended := push_of_some hopen
      have hfill : (next.fill view frame packet).sendingFrame = b.sendingFrame := hnext
      generalize b.pushBackAddRef view packet = result at hended ⊢
      rw [← hfill]
      cases hended with
      | unfinished | queued | flushed => rfl
      | oversized | overRedline => exact sendingFrame_dropWaiting _

/-- A pop takes the first packet that is unsent, or none. -/
theorem Tally.pop_unsent [DecidableEq π] {drift : Nat} (h : b.Tally view drift) (packet : π) :
    (b.popFrontRelease view packet).1.waitingFrame = b.waitingFrame ∧
      (b.popFrontRelease view packet).1.frames = b.frames ∧
      (b.popFrontRelease view packet).1.needKeyFrame = b.needKeyFrame ∧
      (b.popFrontRelease view packet).2.toList ++ (b.popFrontRelease view packet).1.unsent =
        b.unsent := by
  unfold VideoBucket.popFrontRelease
  cases hsending : b.sendingFrame with
  | none => exact ⟨rfl, rfl, rfl, rfl⟩
  | some frame =>
    obtain ⟨-, -, hbytes, -⟩ := h.sending hsending
    have hleft := hbytes.popFrontRelease packet
    dsimp only
    split
    · exact ⟨rfl, rfl, rfl, rfl⟩
    · rename_i hfront
      rw [not_not] at hfront
      obtain ⟨left, hpackets, hpopped⟩ := popFrontRelease_of_front view hfront
      rw [hpopped] at hleft ⊢
      rw [BaseBucket.pop_getFront hfront]
      have hunsent : b.unsent = packet :: left := by
        unfold unsent
        rw [hsending, ← hpackets]
        simp
      rw [hunsent]
      split
      · rename_i hempty
        rw [hleft.getFront, List.head?_eq_none_iff] at hempty
        dsimp only at hempty
        rw [hempty]
        exact ⟨rfl, rfl, rfl, rfl⟩
      · exact ⟨rfl, rfl, rfl, by simp [unsent]⟩

end VideoBucket

namespace VideoRun

variable {w : VideoRun π}

structure Inv (view : PacketView π) (whole linked : Prop) (w : VideoRun π) : Prop where
  tally : ∃ drift, w.bucket.Tally view drift
  assembles : Assembles view whole linked (w.delivered ++ w.bucket.frames) w.bucket w.pushed
  popped : w.popped ++ w.bucket.unsent = w.delivered.flatMap fun frame => frame.bucket.packets
  unsent : w.bucket.unsent = [] ∨ ∃ frame, w.delivered.getLast? = some frame ∧
    w.bucket.unsent <:+ frame.bucket.packets

theorem inv_new : Inv view whole linked (new : VideoRun π) := by
  refine ⟨⟨0, VideoBucket.tally_new⟩, ?_, rfl, Or.inl rfl⟩
  exact ⟨[], [], rfl, .nil, fun hneed => by cases hneed⟩

theorem Inv.getFront (h : w.Inv view whole linked) :
    Inv view whole linked { w with
      bucket := w.bucket.getFront.1
      delivered := w.delivered ++ w.bucket.begun } := by
  obtain ⟨drift, htally⟩ := h.tally
  have hnext := htally.getFront.1
  unfold VideoBucket.getFront at hnext ⊢
  unfold VideoBucket.begun
  cases hsending : w.bucket.sendingFrame with
  | some frame =>
    have hbytes : frame.bucket.Ok view := htally.bytes frame (by simp [VideoBucket.held, hsending])
    have hfilled := htally.filled frame (by simp [hsending])
    obtain ⟨packet, hfront⟩ := VideoBucket.front_of_filled hbytes hfilled
    simp only [hfront, Option.isSome_some, if_true, List.append_nil]
    exact h
  | none =>
    rw [hsending] at hnext
    unfold VideoBucket.nextFrame at hnext ⊢
    cases hframes : w.bucket.frames with
    | nil =>
      simp only [List.take_nil, List.append_nil]
      exact h
    | cons frame frames =>
      rw [hframes] at hnext
      have hunsent : w.bucket.unsent = [] := by
        unfold VideoBucket.unsent
        rw [hsending]
        rfl
      have hpopped := h.popped
      rw [hunsent, List.append_nil] at hpopped
      refine ⟨⟨drift, hnext⟩, ?_, ?_, Or.inr ⟨frame, List.getLast?_concat, ?_⟩⟩
      · have hassembles := h.assembles
        rw [hframes, List.append_cons] at hassembles
        exact hassembles.congr rfl rfl
      · simp [VideoBucket.unsent, hpopped]
      · simp [VideoBucket.unsent]

theorem Inv.of_frames (h : w.Inv view whole linked) {bucket : VideoBucket π} {popped : List π}
    {drift : Nat} (htally : bucket.Tally view drift)
    (hwaiting : bucket.waitingFrame = w.bucket.waitingFrame) (hframes : bucket.frames = w.bucket.frames)
    (hneed : bucket.needKeyFrame = w.bucket.needKeyFrame)
    (hunsent : popped ++ bucket.unsent = w.bucket.unsent) :
    Inv view whole linked { w with bucket := bucket, popped := w.popped ++ popped } := by
  refine ⟨⟨drift, htally⟩, ?_, ?_, ?_⟩
  · have hassembles := h.assembles.congr hwaiting hneed
    rw [← hframes] at hassembles
    exact hassembles
  · rw [List.append_assoc, hunsent]
    exact h.popped
  · rcases h.unsent with hnone | ⟨frame, hlast, hsuffix⟩
    · rw [hnone] at hunsent
      exact Or.inl (List.append_eq_nil_iff.mp hunsent).2
    · refine Or.inr ⟨frame, hlast, List.IsSuffix.trans ?_ hsuffix⟩
      rw [← hunsent]
      exact List.suffix_append _ _

variable [DecidableEq π]

theorem Inv.step {op : BucketOp π} {next : VideoRun π} (h : w.Inv view whole linked)
    (hwhole : whole → ¬ w.bucket.Overfills view op) (hlinked : linked → ¬ w.bucket.CutsOff view op)
    (hstep : w.step view op = some next) : next.Inv view whole linked := by
  obtain ⟨drift, htally⟩ := h.tally
  cases op with
  | getFront =>
    cases hstep
    exact h.getFront
  | pushBackAddRef packet =>
    cases hstep
    have hunsent : (w.bucket.pushBackAddRef view packet).1.unsent = w.bucket.unsent := by
      unfold VideoBucket.unsent
      rw [VideoBucket.sendingFrame_push]
    refine ⟨⟨_, (htally.pushBackAddRef packet).1⟩,
      h.assembles.pushBackAddRef htally hwhole hlinked, ?_, ?_⟩
    · rw [hunsent]
      exact h.popped
    · rw [hunsent]
      exact h.unsent
  | popFrontRelease packet =>
    cases packet with
    | none =>
      cases hstep
      exact h
    | some packet =>
      cases hstep
      obtain ⟨hwaiting, hframes, hneed, hunsent⟩ := htally.pop_unsent packet
      exact h.of_frames (htally.popFrontRelease packet).1 hwaiting hframes hneed hunsent
  | reset =>
    cases hstep
    exact ⟨⟨0, (VideoBucket.tally_reset w.bucket).1⟩,
      ⟨[], [], rfl, .nil, fun hneed => by cases hneed⟩, rfl, Or.inl rfl⟩
  | setRedline redlineBytes redlineFrames =>
    cases hstep
    exact ⟨⟨drift, htally.setRedline redlineBytes redlineFrames⟩,
      h.assembles.congr rfl rfl, h.popped, h.unsent⟩

/-- While no frame is filled behind its redline, frames are delivered whole. -/
theorem framesWhole_of_run {ops : List (BucketOp π)}
    (hguard : Guarded (step view) (fun w op => ¬ w.bucket.Overfills view op) new ops)
    (hrun : Library.Runs.run (step view) new ops = some w) : w.DeliversWhole view := by
  have hinv : w.Inv view True False := run_preserves
    (fun w op next h hroom hstep => h.step (fun _ => hroom) False.elim hstep) inv_new hguard hrun
  obtain ⟨read, hpre, hread⟩ := hinv.assembles.read
  obtain ⟨kept, hkept, hdelivered⟩ := hread.take (List.prefix_append _ _)
  refine ⟨w.delivered.map fun frame => frame.bucket.packets, kept, ?_, ?_, hkept.trans hpre, ?_⟩
  · rw [hinv.popped, List.flatMap_def]
  · rcases hinv.unsent with hnone | ⟨frame, hlast, hsuffix⟩
    · exact Or.inl hnone
    · refine Or.inr ⟨frame.bucket.packets, ?_, hsuffix⟩
      rw [List.getLast?_map, hlast]
      rfl
  · refine hdelivered.map _ ?_
    intro previous gap frame run hfits
    exact ⟨hfits.collects.whole trivial, hfits.frameRun⟩

end VideoRun

namespace VideoBucket

instance decidableOverfills (view : PacketView π) (b : VideoBucket π) :
    ∀ op, Decidable (b.Overfills view op)
  | .pushBackAddRef packet =>
      decidable_of_iff (view.firstPacketOfFrame packet = false ∧
        ∃ frame ∈ b.waitingFrame, baseRedlineBytes ≤ frame.bucket.totalBytes) Iff.rfl
  | .getFront | .popFrontRelease _ | .reset | .setRedline _ _ => isFalse id

instance decidableCutsOff (view : PacketView π) (b : VideoBucket π) :
    ∀ op, Decidable (b.CutsOff view op)
  | .pushBackAddRef packet =>
      decidable_of_iff (view.firstPacketOfFrame packet = true ∧
        view.keyFrame packet = false ∧ b.waitingFrame.isSome = true)
        (by rw [CutsOff, Option.isSome_iff_ne_none])
  | .getFront | .popFrontRelease _ | .reset | .setRedline _ _ => isFalse id

end VideoBucket

namespace VideoRun

/-- A key frame of the packets 0 and 1, and the frames 2 and 3 of one packet each. -/
def smallPackets : PacketView Nat where
  size _ := 1000
  size_pos _ := by decide
  marker n := n ≠ 0
  keyFrame n := n ≤ 1
  firstPacketOfFrame n := n ≠ 1

def halfSent : List (BucketOp Nat) :=
  [.pushBackAddRef 0, .pushBackAddRef 1, .getFront, .pushBackAddRef 2, .popFrontRelease (some 0)]

theorem framesWhole_of_run_halfSent :
    ∃ w, Library.Runs.run (step smallPackets) new halfSent = some w ∧ w.popped = [0] ∧
      w.DeliversWhole smallPackets := by
  have hrun : Library.Runs.run (step smallPackets) new halfSent = some _ := rfl
  exact ⟨_, hrun, by decide +kernel, framesWhole_of_run (by decide +kernel) hrun⟩

/-- The key frame of 18 large packets is pushed, and then popped as far as it goes. -/
def largeFrame : List (BucketOp Nat) :=
  (List.range 18).map .pushBackAddRef ++ .getFront ::
    (List.range 17).map fun packet => .popFrontRelease (some packet)

theorem not_whole_largeFrame :
    ∃ w, Library.Runs.run (step largePackets) new largeFrame = some w ∧
      ¬ w.DeliversWhole largePackets := by
  refine ⟨_, rfl, ?_⟩
  rintro ⟨runs, read, hpopped, -, -, hread⟩
  have hall : List.range 17 = runs.flatten := Eq.trans (by decide +kernel) hpopped
  cases hread with
  | nil => exact absurd hall (by decide)
  | snoc gap item run hread hfits =>
    obtain ⟨rfl, -, rest, packet, hrest, hmarker, -⟩ := hfits
    have hmem : packet ∈ List.range 17 := by
      rw [hall, hrest]
      simp
    have hlast : packet = 17 := of_decide_eq_true hmarker
    rw [hlast] at hmem
    exact absurd hmem (by decide)

end VideoRun

end Pronet.Rtp
