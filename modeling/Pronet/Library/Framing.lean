import Mathlib

/-! Length-prefixed framing of a byte stream. A framer looks at the bytes received
so far and either waits for more, consumes a frame, or rejects the stream. What
it finds does not depend on how the stream was cut into reads. -/
namespace Pronet.Library.Framing

variable {β π : Type*}

inductive Verdict (π : Type*)
  | wait
  | accept (size : Nat) (item : Option π)
  | reject (size : Nat)

/-- A framer consumes at least one byte and no more than there are, and does not
change its mind when more bytes follow. -/
structure Framer (β π : Type*) where
  next : List β → Verdict π
  accept_size : ∀ {bytes size item}, next bytes = .accept size item → 0 < size ∧ size ≤ bytes.length
  reject_size : ∀ {bytes size}, next bytes = .reject size → 0 < size ∧ size ≤ bytes.length
  stable : ∀ {bytes} (more), next bytes ≠ .wait → next (bytes ++ more) = next bytes

/-- The items found, the number of bytes consumed, and the bytes left over, or
none once the stream is rejected. -/
structure Progress (β π : Type*) where
  items : List π
  consumed : Nat
  rest : Option (List β)

namespace Framer

variable (f : Framer β π)

/-- Consume frames as long as there are any; every frame takes at least a byte. -/
def drain : Nat → List β → Progress β π
  | 0, bytes => ⟨[], 0, some bytes⟩
  | fuel + 1, bytes =>
      match f.next bytes with
      | .wait => ⟨[], 0, some bytes⟩
      | .accept size item =>
          let later := drain fuel (bytes.drop size)
          ⟨item.toList ++ later.items, size + later.consumed, later.rest⟩
      | .reject size => ⟨[], size, none⟩

def parse (bytes : List β) : Progress β π := f.drain bytes.length bytes

theorem next_nil : f.next [] = .wait := by
  cases h : f.next [] with
  | wait => rfl
  | accept size item =>
    have hsize := f.accept_size h
    simp only [List.length_nil] at hsize
    omega
  | reject size =>
    have hsize := f.reject_size h
    simp only [List.length_nil] at hsize
    omega

/-- More turns than bytes change nothing. -/
theorem drain_eq_parse : ∀ (fuel : Nat) (bytes : List β), bytes.length ≤ fuel →
    f.drain fuel bytes = f.parse bytes := by
  have hfuel : ∀ (n fuel fuel' : Nat) (bytes : List β), bytes.length ≤ n → bytes.length ≤ fuel →
      bytes.length ≤ fuel' → f.drain fuel bytes = f.drain fuel' bytes := by
    intro n
    induction n with
    | zero =>
      intro fuel fuel' bytes hn _ _
      rw [List.length_eq_zero_iff.mp (Nat.le_zero.mp hn)]
      cases fuel <;> cases fuel' <;> simp [drain, f.next_nil]
    | succ n ih =>
      intro fuel fuel' bytes hn hf hf'
      cases bytes with
      | nil => cases fuel <;> cases fuel' <;> simp [drain, f.next_nil]
      | cons b bytes =>
        obtain ⟨fuel, rfl⟩ := Nat.exists_eq_succ_of_ne_zero (n := fuel) (by
          simp only [List.length_cons] at hf
          omega)
        obtain ⟨fuel', rfl⟩ := Nat.exists_eq_succ_of_ne_zero (n := fuel') (by
          simp only [List.length_cons] at hf'
          omega)
        unfold drain
        split
        · rfl
        · rename_i size item hnext
          have hsize := f.accept_size hnext
          have hlength : ((b :: bytes).drop size).length = bytes.length + 1 - size := by simp
          simp only [List.length_cons] at hn hf hf'
          rw [ih fuel fuel' _ (by omega) (by omega) (by omega)]
        · rfl
  intro fuel bytes h
  exact hfuel bytes.length fuel bytes.length bytes (Nat.le_refl _) h (Nat.le_refl _)

theorem parse_of_wait {bytes : List β} (h : f.next bytes = .wait) :
    f.parse bytes = ⟨[], 0, some bytes⟩ := by
  rw [← f.drain_eq_parse (bytes.length + 1) bytes (by omega), drain, h]

theorem parse_of_accept {bytes : List β} {size : Nat} {item : Option π}
    (h : f.next bytes = .accept size item) :
    f.parse bytes = ⟨item.toList ++ (f.parse (bytes.drop size)).items,
      size + (f.parse (bytes.drop size)).consumed, (f.parse (bytes.drop size)).rest⟩ := by
  rw [← f.drain_eq_parse (bytes.length + 1) bytes (by omega), drain, h]
  dsimp only
  rw [f.drain_eq_parse bytes.length (bytes.drop size) (by simp)]

theorem parse_of_reject {bytes : List β} {size : Nat} (h : f.next bytes = .reject size) :
    f.parse bytes = ⟨[], size, none⟩ := by
  rw [← f.drain_eq_parse (bytes.length + 1) bytes (by omega), drain, h]

/-- What is left over is not yet a frame. -/
theorem next_rest {bytes rest : List β} (h : (f.parse bytes).rest = some rest) :
    f.next rest = .wait := by
  generalize hn : bytes.length = n
  induction n using Nat.strong_induction_on generalizing bytes with
  | _ n ih =>
    cases hnext : f.next bytes with
    | wait =>
      rw [f.parse_of_wait hnext] at h
      cases h
      exact hnext
    | accept size item =>
      have hsize := f.accept_size hnext
      rw [f.parse_of_accept hnext] at h
      apply ih (bytes.drop size).length _ h rfl
      rw [List.length_drop]
      omega
    | reject size =>
      rw [f.parse_of_reject hnext] at h
      cases h

/-- Go on with more bytes; a rejected stream stays as it is. -/
def feed (p : Progress β π) (more : List β) : Progress β π :=
  match p.rest with
  | none => p
  | some rest =>
      let later := f.parse (rest ++ more)
      ⟨p.items ++ later.items, p.consumed + later.consumed, later.rest⟩

/-- Parsing a longer stream is parsing its front and feeding the rest. -/
theorem parse_append (bytes more : List β) :
    f.parse (bytes ++ more) = f.feed (f.parse bytes) more := by
  generalize hn : bytes.length = n
  induction n using Nat.strong_induction_on generalizing bytes with
  | _ n ih =>
    cases h : f.next bytes with
    | wait =>
      rw [f.parse_of_wait h]
      simp [feed]
    | accept size item =>
      have hsize := f.accept_size h
      have happend := f.stable more (by rw [h]; simp)
      rw [h] at happend
      have hdrop : (bytes ++ more).drop size = bytes.drop size ++ more :=
        List.drop_append_of_le_length hsize.2
      have hlater := ih (bytes.drop size).length (by rw [List.length_drop]; omega)
        (bytes.drop size) rfl
      rw [f.parse_of_accept happend, hdrop, hlater, f.parse_of_accept h]
      unfold feed
      cases hrest : (f.parse (bytes.drop size)).rest with
      | none => simp [hrest]
      | some rest => simp [Nat.add_assoc]
    | reject size =>
      have happend := f.stable more (by rw [h]; simp)
      rw [h] at happend
      rw [f.parse_of_reject happend, f.parse_of_reject h]
      rfl

/-- Nothing has arrived yet. -/
def start : Progress β π := ⟨[], 0, some []⟩

theorem parse_nil : f.parse [] = start := f.parse_of_wait f.next_nil

/-- Reading on in pieces is parsing the longer stream. -/
theorem foldl_feed_parse (bytes : List β) (reads : List (List β)) :
    reads.foldl f.feed (f.parse bytes) = f.parse (bytes ++ reads.flatten) := by
  induction reads generalizing bytes with
  | nil => simp
  | cons read reads ih =>
    rw [List.foldl_cons, ← f.parse_append, ih, List.flatten_cons, List.append_assoc]

/-- Reading a stream in pieces is parsing it as a whole. -/
theorem foldl_feed (reads : List (List β)) :
    reads.foldl f.feed start = f.parse reads.flatten := by
  rw [← f.parse_nil, f.foldl_feed_parse, List.nil_append]

end Framer

/-! Frames that announce their size in a header of fixed size. -/
section Announced

variable (headerSize : Nat) (bodySize : List β → Nat) (take : List β → Option (Option π))

/-- The size of the first frame, of which at least the header has arrived. -/
def frameSize (bytes : List β) : Nat := headerSize + bodySize (bytes.take headerSize)

/-- Wait for the header and then for the frame; `take` accepts or rejects it. -/
def nextAnnounced (bytes : List β) : Verdict π :=
  if bytes.length < headerSize then .wait
  else if bytes.length < frameSize headerSize bodySize bytes then .wait
  else
    match take (bytes.take (frameSize headerSize bodySize bytes)) with
    | none => .reject (frameSize headerSize bodySize bytes)
    | some item => .accept (frameSize headerSize bodySize bytes) item

variable {headerSize bodySize take}

theorem length_lt_of_nextAnnounced_eq_wait {bytes : List β}
    (h : nextAnnounced headerSize bodySize take bytes = .wait) :
    bytes.length < frameSize headerSize bodySize bytes := by
  unfold nextAnnounced at h
  split at h
  · unfold frameSize
    omega
  · split at h
    · assumption
    · split at h <;> cases h

/-- A frame that has arrived is handed to `take`. -/
theorem nextAnnounced_of_arrived {bytes : List β}
    (h : frameSize headerSize bodySize bytes ≤ bytes.length) :
    nextAnnounced headerSize bodySize take bytes =
      match take (bytes.take (frameSize headerSize bodySize bytes)) with
      | none => .reject (frameSize headerSize bodySize bytes)
      | some item => .accept (frameSize headerSize bodySize bytes) item := by
  have hheader : headerSize ≤ frameSize headerSize bodySize bytes := Nat.le_add_right _ _
  unfold nextAnnounced
  rw [if_neg (by omega), if_neg (by omega)]

theorem frameSize_of_nextAnnounced {bytes : List β} {size : Nat} {item : Option π}
    (h : nextAnnounced headerSize bodySize take bytes = .accept size item ∨
      nextAnnounced headerSize bodySize take bytes = .reject size) :
    size = frameSize headerSize bodySize bytes ∧ size ≤ bytes.length := by
  unfold nextAnnounced at h
  split at h
  · simp at h
  · split at h
    · simp at h
    · split at h
      · simp only [reduceCtorEq, Verdict.reject.injEq, false_or] at h
        omega
      · simp only [reduceCtorEq, Verdict.accept.injEq, or_false] at h
        omega

theorem nextAnnounced_append {bytes : List β} (more : List β)
    (h : nextAnnounced headerSize bodySize take bytes ≠ .wait) :
    nextAnnounced headerSize bodySize take (bytes ++ more) =
      nextAnnounced headerSize bodySize take bytes := by
  unfold nextAnnounced at h
  split at h
  · simp at h
  · rename_i hheader
    split at h
    · simp at h
    · rename_i hframe
      have hsize : frameSize headerSize bodySize (bytes ++ more) =
          frameSize headerSize bodySize bytes := by
        unfold frameSize
        rw [List.take_append_of_le_length (by omega)]
      unfold nextAnnounced
      rw [hsize, List.take_append_of_le_length (by omega), List.length_append,
        if_neg (by omega), if_neg (by omega), if_neg hheader, if_neg hframe]

variable (headerSize bodySize take)

def announced (hheader : 0 < headerSize) : Framer β π where
  next := nextAnnounced headerSize bodySize take
  accept_size := by
    intro bytes size item h
    have hsize := frameSize_of_nextAnnounced (Or.inl h)
    unfold frameSize at hsize
    omega
  reject_size := by
    intro bytes size h
    have hsize := frameSize_of_nextAnnounced (Or.inr h : _ = Verdict.accept size none ∨ _)
    unfold frameSize at hsize
    omega
  stable := nextAnnounced_append

/-- A stream that is a single frame. -/
theorem parse_announced_single (hheader : 0 < headerSize) {bytes : List β}
    (h : frameSize headerSize bodySize bytes = bytes.length) :
    (announced headerSize bodySize take hheader).parse bytes =
      match take bytes with
      | none => ⟨[], bytes.length, none⟩
      | some item => ⟨item.toList, bytes.length, some []⟩ := by
  have hnext : (announced headerSize bodySize take hheader).next bytes = _ :=
    nextAnnounced_of_arrived (Nat.le_of_eq h)
  rw [h, List.take_length] at hnext
  cases htake : take bytes with
  | none =>
    rw [htake] at hnext
    exact Framer.parse_of_reject _ hnext
  | some item =>
    rw [htake] at hnext
    rw [Framer.parse_of_accept _ hnext, List.drop_length, Framer.parse_nil]
    simp [Framer.start]

end Announced

end Pronet.Library.Framing
