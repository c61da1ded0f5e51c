import Pronet.Rtp.Bucket
import Pronet.Library.Ledger

/-! The books of the output buckets: what an operation does besides changing the
bucket, and that the counters and the references agree with the packets held. -/
namespace Pronet.Rtp

open Library.Ledger

variable {π : Type}

inductive BucketOp (π : Type)
  | getFront
  | pushBackAddRef (packet : π)
  | popFrontRelease (packet : Option π)
  | reset
  | setRedline (redlineBytes redlineFrames : Nat)
  deriving DecidableEq, Repr

namespace BaseBucket

def getFrontEffects (b : BaseBucket π) : List (Effect π) :=
  if b.totalBytes = 0 then [] else [.front b.packets]

def pushEffects (b : BaseBucket π) (packet : π) : List (Effect π) :=
  if b.redlineBytes ≤ b.totalBytes then [] else [.addRef packet]

def popEffects [DecidableEq π] (view : PacketView π) (b : BaseBucket π) (packet : π) :
    List (Effect π) :=
  if b.totalBytes = 0 then []
  else if b.packets.head? ≠ some packet then [.front b.packets]
  else [.front b.packets, .subtract b.totalBytes (view.size packet), .release packet]

/-- `Reset`, which is also what the destructor does. -/
def resetEffects (b : BaseBucket π) : List (Effect π) := b.packets.map .release

def step [DecidableEq π] (view : PacketView π) (b : BaseBucket π) :
    BucketOp π → BaseBucket π × List (Effect π)
  | .getFront => (b, b.getFrontEffects)
  | .pushBackAddRef packet => ((b.pushBackAddRef view packet).1, b.pushEffects packet)
  | .popFrontRelease none => (b, [])
  | .popFrontRelease (some packet) =>
      ((b.popFrontRelease view packet).1, b.popEffects view packet)
  | .reset => (b.reset, b.resetEffects)
  | .setRedline redlineBytes _ => (b.setRedline redlineBytes, [])

/-- The bytes are those of the packets held, each of which is referenced once, and
`GetFront` finds one unless there is none. -/
structure Balanced (view : PacketView π) (b : BaseBucket π) (effects : List (Effect π)) : Prop where
  totalBytes : b.totalBytes = (b.packets.map view.size).sum
  sound : ∀ effect ∈ effects, effect.Sound
  refs : addRefs effects = releases effects + b.packets
  front : b.getFront = none ↔ b.packets = []

variable {view : PacketView π} {b : BaseBucket π}

theorem Ok.balanced (h : b.Ok view) {effects : List (Effect π)}
    (hsettles : Settles effects 0 b.packets) : b.Balanced view effects where
  totalBytes := h.total
  sound := hsettles.sound
  refs := by simpa using hsettles.refs.symm
  front := by rw [h.getFront, List.head?_eq_none_iff]

theorem Ok.packets_ne_nil (h : b.Ok view) (htotal : ¬ b.totalBytes = 0) : b.packets ≠ [] :=
  fun hnil => htotal (h.totalBytes_eq_zero.mpr hnil)

theorem Ok.size_le (h : b.Ok view) {packet : π} (hmem : packet ∈ b.packets) :
    view.size packet ≤ b.totalBytes := by
  rw [h.total]
  exact List.single_le_sum (fun _ _ => Nat.zero_le _) _ (List.mem_map_of_mem hmem)

theorem Ok.getFront_settles (h : b.Ok view) (held : Multiset π) :
    Settles b.getFrontEffects held held := by
  unfold getFrontEffects
  split
  · exact Settles.nil _
  · rename_i htotal
    exact Settles.front (h.packets_ne_nil htotal) _

theorem pushBackAddRef_settles (packet : π) :
    Settles (b.pushEffects packet) (b.packets : Multiset π)
      (b.pushBackAddRef view packet).1.packets := by
  unfold pushEffects BaseBucket.pushBackAddRef
  split
  · exact Settles.nil _
  · rw [← Multiset.coe_add, add_comm, Multiset.coe_singleton, Multiset.singleton_add]
    exact Settles.addRef packet _

variable [DecidableEq π]

theorem Ok.popFrontRelease_settles (h : b.Ok view) (packet : π) :
    Settles (b.popEffects view packet) (b.packets : Multiset π)
      (b.popFrontRelease view packet).1.packets := by
  unfold popEffects BaseBucket.popFrontRelease
  by_cases htotal : b.totalBytes = 0
  · simp only [htotal, if_true, decide_true, Bool.true_or]
    exact Settles.nil _
  · have hne := h.packets_ne_nil htotal
    by_cases hhead : b.packets.head? = some packet
    · obtain ⟨packets, hpackets⟩ := List.head?_eq_some_iff.mp hhead
      have hmem : packet ∈ b.packets := List.mem_of_mem_head? hhead
      have hsize := h.size_le hmem
      simp only [htotal, hhead, if_false, ne_eq, not_true_eq_false, decide_false, Bool.or_self]
      rw [if_neg Bool.false_ne_true, hpackets, List.tail_cons, ← Multiset.cons_coe]
      rw [hpackets] at hne
      exact (Settles.front hne _).append
        ((Settles.subtract hsize _).append (Settles.release packet _))
    · simp only [htotal, hhead, if_false, ne_eq, not_false_eq_true, if_true, decide_true,
        decide_false, Bool.or_true]
      exact Settles.front hne _

omit [DecidableEq π] in
theorem reset_settles : Settles b.resetEffects (b.packets : Multiset π) b.reset.packets := by
  have := Settles.releaseAll b.packets 0
  simpa [resetEffects, BaseBucket.reset] using this

/-- A step keeps the bucket as it should be, and its effects explain the change. -/
theorem Ok.step (h : b.Ok view) (op : BucketOp π) :
    (b.step view op).1.Ok view ∧
      Settles (b.step view op).2 (b.packets : Multiset π) (b.step view op).1.packets := by
  cases op with
  | getFront => exact ⟨h, h.getFront_settles _⟩
  | pushBackAddRef packet => exact ⟨h.pushBackAddRef packet, pushBackAddRef_settles packet⟩
  | popFrontRelease packet =>
    cases packet with
    | none => exact ⟨h, Settles.nil _⟩
    | some packet => exact ⟨h.popFrontRelease packet, h.popFrontRelease_settles packet⟩
  | reset => exact ⟨h.reset, reset_settles⟩
  | setRedline redlineBytes redlineFrames =>
    refine ⟨h.setRedline redlineBytes, ?_⟩
    have hpackets : (b.setRedline redlineBytes).packets = b.packets := by
      unfold BaseBucket.setRedline
      split <;> rfl
    change Settles [] _ ((b.setRedline redlineBytes).packets : Multiset π)
    rw [hpackets]
    exact Settles.nil _

theorem play_balanced (ops : List (BucketOp π)) :
    (play (BaseBucket.step view) .new ops).1.Balanced view
      (play (BaseBucket.step view) .new ops).2 := by
  have hrun := play_settles_all (fun b op (h : Ok view b) => h.step op) ok_new ops
  exact hrun.1.balanced hrun.2

end BaseBucket

/-! The audio bucket makes room in a loop. -/

def dropOldEffects (view : PacketView π) (redlineBytes : Nat) : List π → Nat → List (Effect π)
  | [], totalBytes => if redlineBytes ≤ totalBytes then [.front []] else []
  | packet :: packets, totalBytes =>
      if redlineBytes ≤ totalBytes then
        [.front (packet :: packets), .subtract totalBytes (view.size packet), .release packet] ++
          dropOldEffects view redlineBytes packets (totalBytes - view.size packet)
      else []

def audioStep [DecidableEq π] (view : PacketView π) (b : BaseBucket π) :
    BucketOp π → BaseBucket π × List (Effect π)
  | .pushBackAddRef packet =>
      ((audioPushBackAddRef view b packet).1,
        dropOldEffects view b.redlineBytes b.packets b.totalBytes ++ [.addRef packet])
  | op => b.step view op

theorem dropOld_settles (view : PacketView π) {redlineBytes : Nat} (hredline : 0 < redlineBytes)
    (packets : List π) :
    Settles (dropOldEffects view redlineBytes packets (packets.map view.size).sum)
      (packets : Multiset π) (dropOld view redlineBytes packets (packets.map view.size).sum).1 := by
  induction packets with
  | nil =>
    have hempty : ¬ redlineBytes ≤ 0 := Nat.not_le.mpr hredline
    simpa [dropOldEffects, dropOld, hempty] using Settles.nil (0 : Multiset π)
  | cons packet packets ih =>
    unfold dropOldEffects dropOld
    split
    · have hrest : ((packet :: packets).map view.size).sum - view.size packet =
          (packets.map view.size).sum := by simp
      have hsize : view.size packet ≤ ((packet :: packets).map view.size).sum := by simp
      rw [hrest, ← Multiset.cons_coe]
      exact ((Settles.front (List.cons_ne_nil packet packets) _).append
        ((Settles.subtract hsize _).append (Settles.release packet _))).append ih
    · exact Settles.nil _

theorem BaseBucket.Ok.audioPush_settles {view : PacketView π} {b : BaseBucket π} (h : b.Ok view)
    (packet : π) :
    Settles (dropOldEffects view b.redlineBytes b.packets b.totalBytes ++ [.addRef packet])
      (b.packets : Multiset π) (Rtp.audioPushBackAddRef view b packet).1.packets := by
  have hroom := dropOld_settles view h.redline b.packets
  rw [← h.total] at hroom
  refine hroom.append ?_
  unfold Rtp.audioPushBackAddRef
  rw [← Multiset.coe_add, add_comm, Multiset.coe_singleton, Multiset.singleton_add]
  exact Settles.addRef packet _

theorem audioStep_settles [DecidableEq π] {view : PacketView π} {b : BaseBucket π}
    (h : b.Ok view) (op : BucketOp π) :
    (audioStep view b op).1.Ok view ∧
      Settles (audioStep view b op).2 (b.packets : Multiset π) (audioStep view b op).1.packets := by
  cases op with
  | pushBackAddRef packet => exact ⟨h.audioPushBackAddRef packet, h.audioPush_settles packet⟩
  | getFront => exact h.step .getFront
  | popFrontRelease packet => exact h.step (.popFrontRelease packet)
  | reset => exact h.step .reset
  | setRedline redlineBytes redlineFrames => exact h.step (.setRedline redlineBytes redlineFrames)

/-- `CRtpAudioBucket` as it is constructed. -/
def newAudio : BaseBucket π := { BaseBucket.new with redlineBytes := audioRedlineBytes }

theorem play_audio_balanced [DecidableEq π] (view : PacketView π) (ops : List (BucketOp π)) :
    (play (audioStep view) newAudio ops).1.Balanced view (play (audioStep view) newAudio ops).2 := by
  have hnew : (newAudio : BaseBucket π).Ok view := ⟨rfl, Nat.two_pow_pos 13⟩
  have hrun := play_settles_all (fun b op (h : b.Ok view) => audioStep_settles h op) hnew ops
  exact hrun.1.balanced hrun.2

end Pronet.Rtp
