import Pronet.Util.Reorder

/-! Runs of the reorder buffer. The history since the last clearing says under which
numbers packets were accepted and popped; the invariant ties it to the buffer. -/
namespace Pronet.Util.Reorder

open Std Library Library.Runs Library.Tables

/-- What `PushBack` does with a packet. -/
inductive Verdict
  | restarted
  | stored (seq64 : Int)
  | dropped
  deriving DecidableEq

def verdict (r : Reorder) (packet : SeqPacket) (tick : Int) : Verdict :=
  let r := r.based packet tick
  let seq64 := seq64Of r.minSeq64 packet.seq
  if tick - r.lastValidTick > r.maxBrokenDuration * 1000 ∨ seq64 = -1 then .restarted
  else if r.minSeq64 ≤ seq64 ∧ seq64 ∉ r.seq64ToPacket then .stored seq64
  else .dropped

theorem pushBack_eq (r : Reorder) (packet : SeqPacket) (tick : Int) :
    r.pushBack packet tick =
      match r.verdict packet tick with
      | .restarted => (r.based packet tick).restart packet tick
      | .stored seq64 => (r.based packet tick).store seq64 packet tick
      | .dropped => r.based packet tick := by
  unfold pushBack verdict
  simp only
  split
  · rename_i hbroken
    simp only [hbroken, true_or, if_true]
  · rename_i hbroken
    simp only [hbroken, false_or]
    split
    · rfl
    · split
      · rename_i hforward
        split
        · rename_i hmem
          simp only [hmem, not_true_eq_false, and_false, if_false]
        · rename_i hmem
          simp only [hmem, not_false_eq_true, and_true, if_pos hforward]
      · rename_i hback
        simp only [ge_iff_le] at hback
        simp only [hback, false_and, if_false]

@[simp] theorem based_seq64ToPacket (r : Reorder) (packet : SeqPacket) (tick : Int) :
    (r.based packet tick).seq64ToPacket = r.seq64ToPacket := by
  unfold based
  split <;> rfl

@[simp] theorem based_refs (r : Reorder) (packet : SeqPacket) (tick : Int) :
    (r.based packet tick).refs = r.refs := by
  unfold based
  split <;> rfl

@[simp] theorem based_maxPacketCount (r : Reorder) (packet : SeqPacket) (tick : Int) :
    (r.based packet tick).maxPacketCount = r.maxPacketCount := by
  unfold based
  split <;> rfl

theorem based_of_started {r : Reorder} (h : r.minSeq64 ≠ -1) (packet : SeqPacket) (tick : Int) :
    r.based packet tick = r := if_neg h

/-- How many of the entries are one packet object. -/
def held (entries : List (Int × SeqPacket)) (packetId : Nat) : Nat :=
  (entries.map fun entry => entry.2.packetId).count packetId

theorem held_perm {left right : List (Int × SeqPacket)} (h : left.Perm right) (packetId : Nat) :
    held left packetId = held right packetId :=
  (h.map _).count_eq packetId

theorem held_cons (seq64 : Int) (packet : SeqPacket) (entries : List (Int × SeqPacket))
    (packetId : Nat) :
    held ((seq64, packet) :: entries) packetId =
      held entries packetId + if packet.packetId = packetId then 1 else 0 := by
  unfold held
  rw [List.map_cons, List.count_cons]
  simp only [beq_iff_eq]

theorem refs_release (r : Reorder) (released packetId : Nat) :
    (r.release released).refs packetId =
      r.refs packetId - if released = packetId then 1 else 0 := by
  unfold release
  by_cases h : packetId = released
  · simp [h]
  · simp [Function.update_of_ne h, Ne.symm h]

theorem refs_releaseAll (entries : List (Int × SeqPacket)) (r : Reorder) (packetId : Nat) :
    (entries.foldl (fun r entry => r.release entry.2.packetId) r).refs packetId =
      r.refs packetId - held entries packetId := by
  induction entries generalizing r with
  | nil => rfl
  | cons entry entries ih =>
    obtain ⟨seq64, packet⟩ := entry
    rw [List.foldl_cons, ih, held_cons, refs_release]
    simp only
    omega

theorem releaseAll_maxPacketCount (entries : List (Int × SeqPacket)) (r : Reorder) :
    (entries.foldl (fun r entry => r.release entry.2.packetId) r).maxPacketCount =
      r.maxPacketCount := by
  induction entries generalizing r with
  | nil => rfl
  | cons entry entries ih => exact ih _

theorem refs_clear (r : Reorder) (packetId : Nat) :
    r.clear.refs packetId = r.refs packetId - held r.seq64ToPacket.toList packetId :=
  refs_releaseAll _ r packetId

theorem clear_maxPacketCount (r : Reorder) : r.clear.maxPacketCount = r.maxPacketCount :=
  releaseAll_maxPacketCount _ r

theorem releaseAll_minSeq64 (entries : List (Int × SeqPacket)) (r : Reorder) :
    (entries.foldl (fun r entry => r.release entry.2.packetId) r).minSeq64 = r.minSeq64 := by
  induction entries generalizing r with
  | nil => rfl
  | cons entry entries ih => exact ih _

theorem minSeq64_clear (r : Reorder) : r.clear.minSeq64 = r.minSeq64 :=
  releaseAll_minSeq64 _ r

theorem refs_store (r : Reorder) (seq64 : Int) (packet : SeqPacket) (tick : Int) (packetId : Nat) :
    (r.store seq64 packet tick).refs packetId =
      r.refs packetId + if packet.packetId = packetId then 1 else 0 := by
  unfold store addRef
  by_cases h : packetId = packet.packetId
  · simp [h]
  · simp [Function.update_of_ne h, Ne.symm h]

theorem toList_store {r : Reorder} {seq64 : Int} (hnew : seq64 ∉ r.seq64ToPacket)
    (packet : SeqPacket) (tick : Int) :
    (r.store seq64 packet tick).seq64ToPacket.toList.Perm
      ((seq64, packet) :: r.seq64ToPacket.toList) := by
  have h := toList_insertIfNew_perm packet hnew
  rw [← insert_eq_insertIfNew packet hnew] at h
  exact h

/-- After a clearing the packet is the only one. -/
theorem toList_restart (r : Reorder) (packet : SeqPacket) (tick : Int) :
    (r.restart packet tick).seq64ToPacket.toList = [((packet.seq.toNat : Int), packet)] := by
  have hnew : (packet.seq.toNat : Int) ∉ r.clear.seq64ToPacket := ExtTreeMap.not_mem_empty
  have h : (r.clear.store packet.seq.toNat packet tick).seq64ToPacket.toList.Perm _ :=
    toList_store hnew packet tick
  have hempty : r.clear.seq64ToPacket.toList = [] := toList_empty
  rw [hempty] at h
  exact List.perm_singleton.mp h

theorem refs_restart (r : Reorder) (packet : SeqPacket) (tick : Int) (packetId : Nat) :
    (r.restart packet tick).refs packetId =
      r.refs packetId - held r.seq64ToPacket.toList packetId +
        if packet.packetId = packetId then 1 else 0 := by
  rw [← refs_clear]
  exact refs_store r.clear packet.seq.toNat packet tick packetId

/-- A pop takes the least entry, and one that takes nothing leaves less than the limit. -/
theorem popFront_spec (r : Reorder) (tick : Int) :
    (∃ seq64 packet rest, r.seq64ToPacket.toList = (seq64, packet) :: rest ∧
        r.popFront tick =
          ({ r with seq64ToPacket := r.seq64ToPacket.erase seq64, minSeq64 := seq64 + 1 },
            some packet)) ∨
      r.popFront tick = (r, none) ∧ (0 < r.maxPacketCount →
        r.seq64ToPacket.size < r.maxPacketCount) := by
  unfold popFront
  split
  · rename_i hnil
    right
    refine ⟨rfl, fun hpos => ?_⟩
    rw [← ExtTreeMap.length_toList, hnil]
    exact hpos
  · rename_i seq64 packet rest hcons
    split
    · left
      exact ⟨seq64, packet, rest, hcons, rfl⟩
    · rename_i hstay
      right
      refine ⟨rfl, fun _ => ?_⟩
      omega

/-- The rest of the table after its first entry, in order and all behind it. -/
theorem toList_erase_first {table : ExtTreeMap Int SeqPacket} {seq64 : Int} {packet : SeqPacket}
    {rest : List (Int × SeqPacket)} (h : table.toList = (seq64, packet) :: rest) :
    (table.erase seq64).toList.Perm rest ∧ ∀ entry ∈ rest, seq64 < entry.1 := by
  have hsorted := ExtTreeMap.ordered_keys_toList (t := table)
  rw [h, List.pairwise_cons] at hsorted
  have hget : table[seq64]? = some packet := by
    rw [← ExtTreeMap.mem_toList_iff_getElem?_eq_some, h]
    exact List.mem_cons_self
  have hperm := toList_perm_erase hget
  rw [h] at hperm
  refine ⟨(List.Perm.cons_inv hperm).symm, ?_⟩
  intro entry hentry
  exact Int.compare_eq_lt.mp (hsorted.1 entry hentry)

/-- Since the buffer was made or reset: the calls, and since the last clearing what
was accepted and popped under which number. `taken` is all that was ever popped. -/
structure History where
  pushes : Nat
  accepted : List (Int × SeqPacket)
  popped : List (Int × SeqPacket)
  taken : List SeqPacket

inductive Event
  | pushBack (packet : SeqPacket) (tick : Int)
  | popFront (tick : Int)
  | reset
  | setMaxPacketCount (maxPacketCount : UInt8)
  | setMaxWaitingDuration (seconds : UInt8)
  | setMaxBrokenDuration (seconds : UInt8)

def recordPush (h : History) (packet : SeqPacket) (verdict : Verdict) : History :=
  match verdict with
  | .restarted => ⟨h.pushes + 1, [((packet.seq.toNat : Int), packet)], [], h.taken⟩
  | .stored seq64 => { h with
      pushes := h.pushes + 1, accepted := h.accepted ++ [(seq64, packet)] }
  | .dropped => { h with pushes := h.pushes + 1 }

/-- The entry a pop takes is the first one. -/
def recordPop (h : History) (r : Reorder) (popped : Option SeqPacket) : History :=
  match popped with
  | none => h
  | some packet => { h with
      popped := h.popped ++ r.seq64ToPacket.toList.take 1, taken := h.taken ++ [packet] }

def step (s : Reorder × History) (e : Event) : Option (Reorder × History) :=
  let (r, h) := s
  match e with
  | .pushBack packet tick => some (r.pushBack packet tick, recordPush h packet (r.verdict packet tick))
  | .popFront tick => some ((r.popFront tick).1, recordPop h r (r.popFront tick).2)
  | .reset => some (r.reset, ⟨0, [], [], h.taken⟩)
  | .setMaxPacketCount maxPacketCount => some (r.setMaxPacketCount maxPacketCount, h)
  | .setMaxWaitingDuration seconds => some (r.setMaxWaitingDuration seconds, h)
  | .setMaxBrokenDuration seconds => some (r.setMaxBrokenDuration seconds, h)

def start (refs : Nat → Nat) : Reorder × History := (init refs, ⟨0, [], [], []⟩)

/-- A number that is neither a reset nor late. -/
theorem seq64Of_of_forward {minSeq64 : Int} {seq16 : UInt16} (hne : seq64Of minSeq64 seq16 ≠ -1)
    (hforward : minSeq64 ≤ seq64Of minSeq64 seq16) :
    seq64Of minSeq64 seq16 < minSeq64 + maxLossCount ∧
      seq64Of minSeq64 seq16 % 65536 = seq16.toNat := by
  have hseq := UInt16.toNat_lt seq16
  have heq := seq64Of_eq minSeq64 seq16
  unfold ahead maxLossCount at heq
  unfold maxLossCount
  split_ifs at heq <;> omega

/-- Before the first packet the buffer is empty, after it the base is not negative. -/
def Based (r : Reorder) (h : History) : Prop :=
  0 ≤ r.minSeq64 ∨ r.minSeq64 = -1 ∧ h = ⟨0, [], [], h.taken⟩ ∧ r.seq64ToPacket.toList = []

structure Inv (refs : Nat → Nat) (s : Reorder × History) : Prop where
  limit : 0 < s.1.maxPacketCount
  based : Based s.1 s.2
  window : ∀ entry ∈ s.1.seq64ToPacket.toList,
    s.1.minSeq64 ≤ entry.1 ∧ entry.1 < s.1.minSeq64 + maxLossCount ∧
      entry.1 % 65536 = entry.2.seq.toNat
  sorted : (s.2.popped.map Prod.fst).Pairwise (· < ·)
  behind : ∀ entry ∈ s.2.popped, entry.1 < s.1.minSeq64 ∧ entry.1 % 65536 = entry.2.seq.toNat
  kept : s.2.accepted.Perm (s.2.popped ++ s.1.seq64ToPacket.toList)
  owned : ∀ packetId, s.1.refs packetId = refs packetId +
    held s.1.seq64ToPacket.toList packetId + (s.2.taken.map SeqPacket.packetId).count packetId

namespace Inv

variable {refs : Nat → Nat} {r : Reorder} {h : History}

theorem init : Inv refs (start refs) where
  limit := Nat.succ_pos 4
  based := Or.inr ⟨rfl, rfl, toList_empty⟩
  window := by
    intro entry hentry
    have hempty : (start refs).1.seq64ToPacket.toList = [] := toList_empty
    rw [hempty] at hentry
    cases hentry
  sorted := List.Pairwise.nil
  behind := by
    intro entry hentry
    cases hentry
  kept := by
    have hempty : (start refs).1.seq64ToPacket.toList = [] := toList_empty
    rw [hempty]
    rfl
  owned := by
    intro packetId
    have hempty : (start refs).1.seq64ToPacket.toList = [] := toList_empty
    rw [hempty]
    rfl

theorem restart (hinv : Inv refs (r, h)) (packet : SeqPacket) (tick : Int) :
    Inv refs ((r.based packet tick).restart packet tick, recordPush h packet .restarted) := by
  have hlist := toList_restart (r.based packet tick) packet tick
  have hseq := UInt16.toNat_lt packet.seq
  have hmod : (packet.seq.toNat : Int) % 65536 = packet.seq.toNat := by omega
  refine ⟨?_, ?_, ?_, ?_, ?_, ?_, ?_⟩
  · have hsame : ((r.based packet tick).restart packet tick).maxPacketCount = r.maxPacketCount := by
      rw [← based_maxPacketCount r packet tick]
      exact clear_maxPacketCount _
    exact hsame ▸ hinv.limit
  · left
    exact Int.natCast_nonneg _
  · intro entry hentry
    have hentry : entry ∈ ((r.based packet tick).restart packet tick).seq64ToPacket.toList := hentry
    rw [hlist, List.mem_singleton] at hentry
    subst hentry
    exact ⟨Int.le_refl _, Int.lt_add_of_pos_right _ (by decide), hmod⟩
  · exact List.Pairwise.nil
  · intro entry hentry
    cases hentry
  · have hperm : [((packet.seq.toNat : Int), packet)].Perm
        ([] ++ ((r.based packet tick).restart packet tick).seq64ToPacket.toList) := by
      rw [hlist]
      rfl
    exact hperm
  · intro packetId
    have howned := hinv.owned packetId
    have hrefs := refs_restart (r.based packet tick) packet tick packetId
    simp only [based_refs, based_seq64ToPacket] at hrefs
    simp only [recordPush] at howned ⊢
    rw [hrefs, hlist, held_cons]
    have hnil : held [] packetId = 0 := rfl
    omega

/-- The first packet of an empty buffer sets the base, and any later one leaves it. -/
theorem push (hinv : Inv refs (r, h)) (packet : SeqPacket) (tick : Int) :
    0 ≤ (r.based packet tick).minSeq64 ∧
      Inv refs (r.based packet tick, { h with pushes := h.pushes + 1 }) := by
  obtain hstarted | ⟨hfresh, hempty, hlist⟩ : Based r h := hinv.based
  · have hsame : r.based packet tick = r := based_of_started (by omega) packet tick
    rw [hsame]
    exact ⟨hstarted, hinv.limit, Or.inl hstarted, hinv.window, hinv.sorted, hinv.behind, hinv.kept,
      hinv.owned⟩
  · have hmin : (r.based packet tick).minSeq64 = packet.seq.toNat := by
      unfold Reorder.based
      rw [if_pos hfresh]
    have hpopped : h.popped = [] := by
      rw [hempty]
    have hstarted : 0 ≤ (r.based packet tick).minSeq64 := hmin ▸ Int.natCast_nonneg _
    refine ⟨hstarted, ?_, Or.inl hstarted, ?_, hinv.sorted, ?_, ?_, ?_⟩
    · exact (based_maxPacketCount r packet tick).symm ▸ hinv.limit
    · intro entry hentry
      simp only [based_seq64ToPacket, hlist] at hentry
      cases hentry
    · intro entry hentry
      simp only [hpopped] at hentry
      cases hentry
    · simp only [based_seq64ToPacket]
      exact hinv.kept
    · intro packetId
      simp only [based_seq64ToPacket, based_refs]
      exact hinv.owned packetId

theorem store (hinv : Inv refs (r, h)) (hstarted : 0 ≤ r.minSeq64) {seq64 : Int}
    {packet : SeqPacket} (hnew : seq64 ∉ r.seq64ToPacket)
    (hwindow : r.minSeq64 ≤ seq64 ∧ seq64 < r.minSeq64 + maxLossCount ∧
      seq64 % 65536 = packet.seq.toNat) (tick : Int) :
    Inv refs (r.store seq64 packet tick, { h with accepted := h.accepted ++ [(seq64, packet)] }) := by
  have hlist := toList_store hnew packet tick
  refine ⟨hinv.limit, Or.inl hstarted, ?_, hinv.sorted, hinv.behind, ?_, ?_⟩
  · intro entry hentry
    rcases List.mem_cons.mp (hlist.mem_iff.mp hentry) with heq | hold
    · rw [heq]
      exact hwindow
    · exact hinv.window entry hold
  · have hkept := hinv.kept
    have hfirst : (h.accepted ++ [(seq64, packet)]).Perm ((seq64, packet) :: h.accepted) :=
      List.perm_append_singleton _ _
    have hlast : ((seq64, packet) :: (h.popped ++ r.seq64ToPacket.toList)).Perm
        (h.popped ++ (seq64, packet) :: r.seq64ToPacket.toList) :=
      List.perm_middle.symm
    exact hfirst.trans ((hkept.cons _).trans (hlast.trans (hlist.symm.append_left _)))
  · intro packetId
    have howned := hinv.owned packetId
    simp only at howned ⊢
    rw [refs_store, held_perm hlist, held_cons]
    omega

theorem pushBack (hinv : Inv refs (r, h)) (packet : SeqPacket) (tick : Int) :
    Inv refs (r.pushBack packet tick, recordPush h packet (r.verdict packet tick)) := by
  obtain ⟨hstarted, hbased⟩ := hinv.push packet tick
  rw [pushBack_eq]
  cases hverdict : r.verdict packet tick with
  | restarted => exact hinv.restart packet tick
  | dropped => exact hbased
  | stored seq64 =>
    have hwindow : seq64 ∉ (r.based packet tick).seq64ToPacket ∧
        (r.based packet tick).minSeq64 ≤ seq64 ∧
        seq64 < (r.based packet tick).minSeq64 + maxLossCount ∧
        seq64 % 65536 = packet.seq.toNat := by
      unfold verdict at hverdict
      simp only at hverdict
      split at hverdict
      · cases hverdict
      · rename_i hclear
        split at hverdict
        · rename_i hnew
          cases hverdict
          exact ⟨hnew.2, hnew.1, seq64Of_of_forward (fun h => hclear (Or.inr h)) hnew.1⟩
        · cases hverdict
    exact hbased.store hstarted hwindow.1 hwindow.2 tick

theorem popFront (hinv : Inv refs (r, h)) (tick : Int) :
    Inv refs ((r.popFront tick).1, recordPop h r (r.popFront tick).2) := by
  obtain ⟨seq64, packet, rest, hcons, heq⟩ | ⟨heq, -⟩ := popFront_spec r tick
  · rw [heq]
    obtain ⟨hrest, hbehind⟩ := toList_erase_first hcons
    have hfirst := hinv.window (seq64, packet) (by rw [hcons]; exact List.mem_cons_self)
    have hbased : Based r h := hinv.based
    simp only at hfirst
    have hstarted : 0 ≤ r.minSeq64 := by
      obtain hstarted | ⟨-, -, hempty⟩ := hbased
      · exact hstarted
      · rw [hcons] at hempty
        cases hempty
    have htake : r.seq64ToPacket.toList.take 1 = [(seq64, packet)] := by
      rw [hcons]
      rfl
    simp only [recordPop, htake]
    refine ⟨hinv.limit, Or.inl (by simp only; omega), ?_, ?_, ?_, ?_, ?_⟩
    · intro entry hentry
      have hmem := hrest.mem_iff.mp hentry
      have hlt := hbehind entry hmem
      have hold := hinv.window entry (by rw [hcons]; exact List.mem_cons_of_mem _ hmem)
      simp only at hold ⊢
      omega
    · rw [List.map_append, List.pairwise_append]
      refine ⟨hinv.sorted, List.pairwise_singleton _ _, ?_⟩
      intro old hold new hnew
      obtain ⟨entry, hentry, rfl⟩ := List.mem_map.mp hold
      rw [List.map_singleton, List.mem_singleton] at hnew
      have hlt := (hinv.behind entry hentry).1
      simp only at hlt
      omega
    · intro entry hentry
      rcases List.mem_append.mp hentry with hold | hnew
      · have hlt := hinv.behind entry hold
        simp only at hlt ⊢
        omega
      · rw [List.mem_singleton] at hnew
        subst hnew
        exact ⟨Int.lt_succ _, hfirst.2.2⟩
    · have hkept := hinv.kept
      simp only [hcons] at hkept
      have hsplit : h.popped ++ (seq64, packet) :: rest =
          (h.popped ++ [(seq64, packet)]) ++ rest := by simp
      rw [hsplit] at hkept
      exact hkept.trans (hrest.symm.append_left _)
    · intro packetId
      have howned := hinv.owned packetId
      simp only [hcons, held_cons] at howned
      simp only [List.map_append, List.map_singleton, List.count_append, List.count_singleton,
        beq_iff_eq, held_perm hrest]
      omega
  · rw [heq]
    exact hinv

theorem reset (hinv : Inv refs (r, h)) : Inv refs (r.reset, ⟨0, [], [], h.taken⟩) := by
  have hempty : r.reset.seq64ToPacket.toList = [] := toList_empty
  have hmin : r.reset.minSeq64 = -1 := minSeq64_clear _
  refine ⟨?_, Or.inr ⟨hmin, rfl, hempty⟩, ?_, List.Pairwise.nil, ?_, ?_, ?_⟩
  · have hsame : r.reset.maxPacketCount = r.maxPacketCount := clear_maxPacketCount _
    exact hsame.symm ▸ hinv.limit
  · intro entry hentry
    simp only [hempty] at hentry
    cases hentry
  · intro entry hentry
    cases hentry
  · simp only [hempty]
    rfl
  · intro packetId
    have howned := hinv.owned packetId
    have hrefs : r.reset.refs packetId = r.refs packetId - held r.seq64ToPacket.toList packetId :=
      refs_clear _ packetId
    have hnil : held [] packetId = 0 := rfl
    simp only at howned
    simp only [hempty, hrefs]
    omega

theorem step {s next : Reorder × History} {e : Event} (hinv : Inv refs s)
    (hstep : Reorder.step s e = some next) : Inv refs next := by
  obtain ⟨r, h⟩ := s
  cases e with
  | pushBack packet tick =>
    cases hstep
    exact hinv.pushBack packet tick
  | popFront tick =>
    cases hstep
    exact hinv.popFront tick
  | reset =>
    cases hstep
    exact hinv.reset
  | setMaxPacketCount maxPacketCount =>
    cases hstep
    unfold setMaxPacketCount
    split
    · exact hinv
    · rename_i hpos
      have hlimit : 0 < maxPacketCount.toNat :=
        Nat.pos_of_ne_zero (fun hzero => hpos (UInt8.toNat_inj.mp hzero))
      exact ⟨hlimit, hinv.based, hinv.window, hinv.sorted, hinv.behind, hinv.kept, hinv.owned⟩
  | setMaxWaitingDuration seconds =>
    cases hstep
    unfold setMaxWaitingDuration
    split
    · exact hinv
    · exact ⟨hinv.limit, hinv.based, hinv.window, hinv.sorted, hinv.behind, hinv.kept, hinv.owned⟩
  | setMaxBrokenDuration seconds =>
    cases hstep
    unfold setMaxBrokenDuration
    split
    · exact hinv
    · exact ⟨hinv.limit, hinv.based, hinv.window, hinv.sorted, hinv.behind, hinv.kept, hinv.owned⟩

/-- No number is given to two packets. -/
theorem accepted_nodup (hinv : Inv refs (r, h)) : (h.accepted.map Prod.fst).Nodup := by
  have hperm := hinv.kept.map Prod.fst
  rw [hperm.nodup_iff, List.map_append, List.nodup_append]
  refine ⟨?_, ?_, ?_⟩
  · exact hinv.sorted.imp (fun hlt => Int.ne_of_lt hlt)
  · simp only [ExtTreeMap.map_fst_toList_eq_keys]
    exact ExtTreeMap.nodup_keys
  · intro old hold new hnew heq
    obtain ⟨entry, hentry, rfl⟩ := List.mem_map.mp hold
    obtain ⟨entry', hentry', rfl⟩ := List.mem_map.mp hnew
    have hlt := (hinv.behind entry hentry).1
    have hle := (hinv.window entry' hentry').1
    simp only at hlt hle
    omega

theorem of_run {es : List Event} {final : Reorder × History}
    (hrun : run Reorder.step (start refs) es = some final) : Inv refs final :=
  run_preserves (fun _ _ _ hinv _ hstep => hinv.step hstep) Inv.init (guarded_true _ _) hrun

end Inv

theorem popFront_size {r : Reorder} {tick : Int} {packet : SeqPacket}
    (h : (r.popFront tick).2 = some packet) :
    (r.popFront tick).1.seq64ToPacket.size + 1 = r.seq64ToPacket.size ∧
      (r.popFront tick).1.maxPacketCount = r.maxPacketCount := by
  obtain ⟨seq64, first, rest, hcons, heq⟩ | ⟨heq, -⟩ := popFront_spec r tick
  · rw [heq]
    refine ⟨?_, rfl⟩
    have hperm := (toList_erase_first hcons).1.length_eq
    rw [← ExtTreeMap.length_toList, ← ExtTreeMap.length_toList, hperm, hcons, List.length_cons]
  · rw [heq] at h
    cases h

/-- The loop ends, and what it leaves is below the limit. -/
theorem drain_spec (ticks : Nat → Int) {fuel : Nat} {r : Reorder} (hlimit : 0 < r.maxPacketCount)
    (hfuel : r.seq64ToPacket.size < fuel) :
    (∃ tick, (r.drain ticks fuel).1.popFront tick = ((r.drain ticks fuel).1, none)) ∧
      (r.drain ticks fuel).1.seq64ToPacket.size < r.maxPacketCount := by
  induction fuel generalizing r with
  | zero => omega
  | succ fuel ih =>
    unfold drain
    split
    · rename_i next hpop
      obtain ⟨seq64, first, rest, -, heq⟩ | ⟨heq, hsmall⟩ := popFront_spec r (ticks fuel)
      · rw [heq] at hpop
        cases hpop
      · rw [heq] at hpop
        cases hpop
        exact ⟨⟨ticks fuel, heq⟩, hsmall hlimit⟩
    · rename_i next packet hpop
      have hsome : (r.popFront (ticks fuel)).2 = some packet := by rw [hpop]
      obtain ⟨hsize, hsame⟩ := popFront_size hsome
      rw [hpop] at hsize hsame
      simp only at hsize hsame
      have h := ih (r := next) (by omega) (by omega)
      rw [hsame] at h
      exact h

/-- Between two clearings the numbers popped rise and are those of the packets, an
accepted packet is popped or stored, each stored packet has one reference and each
popped one has taken its reference along, and a drained buffer is below its limit. -/
theorem reorder_of_run {refs : Nat → Nat} {es : List Event} {r : Reorder} {h : History}
    (hrun : run step (start refs) es = some (r, h)) :
    (h.popped.map Prod.fst).Pairwise (· < ·) ∧
      (∀ entry ∈ h.popped, entry.1 % 65536 = entry.2.seq.toNat) ∧
      h.accepted.Perm (h.popped ++ r.seq64ToPacket.toList) ∧
      (h.accepted.map Prod.fst).Nodup ∧
      (∀ packetId, r.refs packetId = refs packetId + held r.seq64ToPacket.toList packetId +
        (h.taken.map SeqPacket.packetId).count packetId) ∧
      (∀ seq64 ∈ r.seq64ToPacket, r.minSeq64 ≤ seq64 ∧ seq64 < r.minSeq64 + 15000) ∧
      (0 < h.pushes → 0 ≤ r.minSeq64) ∧
      ∀ ticks fuel, r.seq64ToPacket.size < fuel →
        (∃ tick, (r.drain ticks fuel).1.popFront tick = ((r.drain ticks fuel).1, none)) ∧
          (r.drain ticks fuel).1.seq64ToPacket.size < r.maxPacketCount := by
  have hinv := Inv.of_run hrun
  refine ⟨hinv.sorted, fun entry hentry => (hinv.behind entry hentry).2, hinv.kept, ?_, hinv.owned,
    ?_, ?_, fun ticks fuel hfuel => drain_spec ticks hinv.limit hfuel⟩
  · exact hinv.accepted_nodup
  · intro seq64 hmem
    have hget := ExtTreeMap.getElem?_eq_some_getElem hmem
    have hentry := hinv.window _ (ExtTreeMap.mem_toList_iff_getElem?_eq_some.mpr hget)
    exact ⟨hentry.1, hentry.2.1⟩
  · intro hpushes
    obtain hstarted | ⟨-, hempty, -⟩ : Based r h := hinv.based
    · exact hstarted
    · rw [hempty] at hpushes
      exact absurd hpushes (Nat.lt_irrefl 0)

/-- Packet 1 comes after packet 2, and the numbers run over the edge. -/
def acrossEdge : List Event :=
  [.pushBack ⟨0, 65535⟩ 0, .popFront 0, .pushBack ⟨2, 1⟩ 5, .popFront 5, .pushBack ⟨1, 0⟩ 9,
    .popFront 9, .popFront 9]

theorem reorder_of_run_acrossEdge :
    ∃ r h, run step (start fun _ => 0) acrossEdge = some (r, h) ∧
      h.popped.map Prod.fst = [65535, 65536, 65537] ∧ (h.popped.map Prod.fst).Pairwise (· < ·) :=
  ⟨_, _, rfl, by decide +kernel,
    (reorder_of_run (show run step (start fun _ => 0) acrossEdge = some _ from rfl)).1⟩

/-- A number behind the base unwraps to a number behind the base, and it is the
one that means a reset if it lies just before the first number of all. -/
theorem seq64Of_of_late {minSeq64 : Int} {seq16 : UInt16} (hstarted : 0 ≤ minSeq64)
    (hlate : 0 < (minSeq64 % 65536 - seq16.toNat) % 65536 ∧
      (minSeq64 % 65536 - seq16.toNat) % 65536 < 15000) :
    seq64Of minSeq64 seq16 < minSeq64 ∧
      (seq64Of minSeq64 seq16 = -1 ↔ seq16.toNat = 65535 ∧ minSeq64 < 14999) := by
  have hseq := UInt16.toNat_lt seq16
  have heq := seq64Of_eq minSeq64 seq16
  unfold ahead maxLossCount at heq
  split_ifs at heq <;> omega

/-- A late packet leaves everything as it is, unless it carries the number before the
first of all numbers while the base is still among the first 14999. -/
theorem late_push_unchanged_iff {refs : Nat → Nat} {es : List Event} {r : Reorder} {h : History}
    (hrun : run step (start refs) es = some (r, h)) (hstarted : r.minSeq64 ≠ -1)
    (packet : SeqPacket) (tick : Int)
    (hopen : tick - r.lastValidTick ≤ r.maxBrokenDuration * 1000)
    (hlate : 0 < (r.minSeq64 % 65536 - packet.seq.toNat) % 65536 ∧
      (r.minSeq64 % 65536 - packet.seq.toNat) % 65536 < 15000) :
    r.pushBack packet tick = r ↔ ¬(packet.seq.toNat = 65535 ∧ r.minSeq64 < 14999) := by
  have hnonneg : 0 ≤ r.minSeq64 := by
    obtain hnonneg | ⟨hfresh, -⟩ : Based r h := (Inv.of_run hrun).based
    · exact hnonneg
    · exact absurd hfresh hstarted
  obtain ⟨hbehind, hreset⟩ := seq64Of_of_late hnonneg hlate
  rw [← hreset]
  unfold pushBack
  simp only [based_of_started hstarted, gt_iff_lt, Int.not_lt.mpr hopen, if_false]
  by_cases hminus : seq64Of r.minSeq64 packet.seq = -1
  · simp only [hminus, if_true, not_true_eq_false, iff_false]
    intro hsame
    have hmin : (packet.seq.toNat : Int) = r.minSeq64 := congrArg minSeq64 hsame
    have hfirst := hreset.mp hminus
    omega
  · simp only [hminus, if_false, not_false_eq_true, ge_iff_le, Int.not_le.mpr hbehind]

/-- Packet 1 is missing and packet 2 is waiting for it. -/
def nearStart : List Event := [.pushBack ⟨0, 0⟩ 0, .popFront 0, .pushBack ⟨2, 2⟩ 5]

theorem late_push_unchanged_iff_nearStart :
    ∃ r h, run step (start fun _ => 0) nearStart = some (r, h) ∧ r.pushBack ⟨9, 0⟩ 6 = r :=
  ⟨_, _, rfl,
    (late_push_unchanged_iff (show run step (start fun _ => 0) nearStart = some _ from rfl)
      (by decide +kernel) ⟨9, 0⟩ 6 (by decide +kernel) (by decide +kernel)).mpr (by decide +kernel)⟩

/-- A packet that was sent before the first one throws packet 2 away. -/
theorem late_push_flushes :
    ¬ ∀ (refs : Nat → Nat) (es : List Event) (r : Reorder) (h : History),
      run step (start refs) es = some (r, h) → r.minSeq64 ≠ -1 →
      ∀ (packet : SeqPacket) (tick : Int),
        tick - r.lastValidTick ≤ r.maxBrokenDuration * 1000 →
        0 < (r.minSeq64 % 65536 - packet.seq.toNat) % 65536 ∧
          (r.minSeq64 % 65536 - packet.seq.toNat) % 65536 < 15000 →
        r.pushBack packet tick = r := by
  intro hclaim
  have hsame := hclaim (fun _ => 0) nearStart _ _ rfl (by decide +kernel) ⟨1, 65535⟩ 6
    (by decide +kernel) (by decide +kernel)
  have hkeys := congrArg (fun r => r.seq64ToPacket.keys) hsame
  revert hkeys
  decide +kernel

end Pronet.Util.Reorder
