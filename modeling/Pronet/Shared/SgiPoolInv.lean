import Pronet.Shared.SgiPool

/-! The layout of a pool: the blocks that are held, the free objects and the chunk
tails of both allocators share the chunks without overlap, and a block above the
size limit is a block of `malloc`. Every run of the three pool functions keeps the
layout as long as no reallocation crosses the upper end of the last size class. -/
namespace Pronet.Shared

open Library Library.Ranges SizeClass

namespace Block

/-- The block comes from a chunk. -/
def pooled (b : Block) : Bool := totalSize b.size ≤ maxBytes

/-- The memory set aside for the block, header included. -/
def extent (b : Block) : Range :=
  ⟨b.buf - headerSize, if b.pooled then roundUp (totalSize b.size) else totalSize b.size⟩

@[simp] theorem start_extent (b : Block) : b.extent.start = b.buf - headerSize := rfl

theorem size_extent (b : Block) : totalSize b.size ≤ b.extent.size := by
  unfold extent
  dsimp only
  split
  · rename_i h
    exact le_roundUp (by simpa [pooled] using h)
  · exact Nat.le_refl _

theorem totalSize_ge (size : Nat) : headerSize + size ≤ totalSize size := by
  unfold totalSize
  split <;> omega

theorem headerSize_lt_totalSize (size : Nat) : headerSize < totalSize size := by
  unfold totalSize
  split <;> omega

theorem start_mem_extent (b : Block) : b.buf - headerSize ∈ b.extent := by
  have hsize := b.size_extent
  have hheader := headerSize_lt_totalSize b.size
  rw [Range.mem_def, start_extent]
  omega

/-- The bytes of the caller lie in the extent. -/
theorem byte_mem_extent {b : Block} (hbuf : headerSize ≤ b.buf) {i : Nat} (hi : i < b.size) :
    b.buf + i ∈ b.extent := by
  have hsize := b.size_extent
  have htotal := totalSize_ge b.size
  rw [Range.mem_def, start_extent]
  omega

/-- The bytes of the header lie in the extent. -/
theorem header_mem_extent {b : Block} {k : Nat} (hk : k < 4) :
    b.buf - headerSize + k ∈ b.extent := by
  have hsize := b.size_extent
  have hheader := headerSize_lt_totalSize b.size
  have height : headerSize = 8 := rfl
  rw [Range.mem_def, start_extent]
  omega

end Block

namespace Pool

def pooledExtents (live : List Block) : List Range := (live.filter Block.pooled).map Block.extent

def directExtents (live : List Block) : List Range :=
  (live.filter fun b => !b.pooled).map Block.extent

theorem cover_extents (live : List Block) (x : Nat) :
    cover (live.map Block.extent) x =
      cover (pooledExtents live) x + cover (directExtents live) x := by
  induction live with
  | nil => rfl
  | cons b live ih =>
    cases hb : b.pooled <;>
      simp only [pooledExtents, directExtents, List.map_cons, cover_cons, List.filter_cons, hb,
        Bool.not_true, Bool.not_false, if_true, if_false, Bool.false_eq_true] at ih ⊢ <;>
      omega

/-- The memory on the free lists and in the tails of both allocators. -/
def reserves (s : Pool) : List Range := s.small.reserve ++ s.big.reserve

theorem cover_reserves_setAlloc (s : Pool) (bytes : Nat) (a : Alloc) (m : Process) (x : Nat) :
    cover (s.setAlloc bytes a m).reserves x + cover (s.alloc bytes).reserve x =
      cover s.reserves x + cover a.reserve x := by
  unfold setAlloc alloc reserves
  split
  · simp only [cover_append]
    omega
  · simp only [cover_append]
    omega

/-- An allocator that stays as it is. -/
theorem cover_reserves_setAlloc_self (s : Pool) (bytes : Nat) (m : Process) (x : Nat) :
    cover (s.setAlloc bytes (s.alloc bytes) m).reserves x = cover s.reserves x := by
  have hsum := s.cover_reserves_setAlloc bytes (s.alloc bytes) m x
  omega

theorem cover_alloc_le (s : Pool) (bytes x : Nat) :
    cover (s.alloc bytes).reserve x ≤ cover s.reserves x := by
  unfold alloc reserves
  rw [cover_append]
  split <;> omega

@[simp] theorem process_setAlloc (s : Pool) (bytes : Nat) (a : Alloc) (m : Process) :
    (s.setAlloc bytes a m).process = m := by
  unfold setAlloc
  split <;> rfl

@[simp] theorem live_setAlloc (s : Pool) (bytes : Nat) (a : Alloc) (m : Process) :
    (s.setAlloc bytes a m).live = s.live := by
  unfold setAlloc
  split <;> rfl

@[simp] theorem alloc_setAlloc (s : Pool) (bytes : Nat) (a : Alloc) (m : Process) :
    (s.setAlloc bytes a m).alloc bytes = a := by
  unfold setAlloc alloc
  split <;> simp_all

@[simp] theorem setAlloc_setAlloc (s : Pool) (bytes : Nat) (a a' : Alloc) (m m' : Process) :
    (s.setAlloc bytes a m).setAlloc bytes a' m' = s.setAlloc bytes a' m' := by
  unfold setAlloc
  split <;> rfl

theorem reserves_setAlloc_process (s : Pool) (bytes : Nat) (a : Alloc) (m m' : Process) :
    (s.setAlloc bytes a m).reserves = (s.setAlloc bytes a m').reserves := by
  unfold setAlloc reserves
  split <;> rfl

end Pool

open Pool

/-- The blocks in `live` and the free memory `reserves` fit together. -/
structure Layout (reserves : List Range) (m : Process) (live : List Block) : Prop where
  regular : m.Regular
  carved : ∀ x, cover (pooledExtents live) x + cover reserves x ≤ cover m.chunks x
  direct : m.direct.Perm (directExtents live)
  header_le : ∀ b ∈ live, headerSize ≤ b.buf

namespace Layout

variable {reserves : List Range} {m : Process} {live : List Block}

theorem cover_direct (h : Layout reserves m live) (x : Nat) :
    cover m.direct x = cover (directExtents live) x :=
  cover_perm h.direct x

/-- No address belongs to two held blocks, or to one and to the reserves. -/
theorem cover_le (h : Layout reserves m live) (x : Nat) :
    cover (live.map Block.extent) x + cover reserves x ≤ min x 1 := by
  have hregular := h.regular x
  have hcarved := h.carved x
  have hdirect := h.cover_direct x
  rw [cover_extents]
  omega

theorem start_pos (h : Layout reserves m live) {b : Block} (hb : b ∈ live) :
    0 < b.buf - headerSize := by
  have hcover := h.cover_le (b.buf - headerSize)
  have hpos := cover_pos.mpr ⟨b.extent, List.mem_map_of_mem hb, b.start_mem_extent⟩
  omega

/-- The memory of a held block is in no reserve. -/
theorem reserves_eq_zero (h : Layout reserves m live) {b : Block} (hb : b ∈ live) {x : Nat}
    (hx : x ∈ b.extent) : cover reserves x = 0 := by
  have hcover := h.cover_le x
  have hpos := cover_pos.mpr ⟨b.extent, List.mem_map_of_mem hb, hx⟩
  omega

theorem not_mem_extent {b b' : Block} (h : Layout reserves m (b :: live)) (hb' : b' ∈ live)
    {x : Nat} (hx : x ∈ b.extent) : x ∉ b'.extent := by
  intro hx'
  have hcover := h.cover_le x
  have hone := Range.count_pos.mpr hx
  have htwo := cover_pos.mpr ⟨b'.extent, List.mem_map_of_mem hb', hx'⟩
  rw [List.map_cons, cover_cons] at hcover
  omega

/-- The layout does not depend on the order or on the bytes. -/
theorem congr {m' : Process} {live' : List Block} (h : Layout reserves m live)
    (hchunks : m'.chunks = m.chunks) (hdirect : m'.direct = m.direct)
    (hlive : live'.Perm live) : Layout reserves m' live' := by
  have hextents : ∀ p : Block → Bool, ((live'.filter p).map Block.extent).Perm
      ((live.filter p).map Block.extent) := fun p => (hlive.filter p).map _
  constructor
  · intro x
    rw [hchunks, hdirect]
    exact h.regular x
  · intro x
    rw [hchunks, pooledExtents, cover_perm (hextents _) x]
    exact h.carved x
  · rw [hdirect]
    exact h.direct.trans (hextents _).symm
  · intro b hb
    exact h.header_le b (hlive.mem_iff.mp hb)

end Layout

theorem pooledExtents_cons (b : Block) (live : List Block) :
    pooledExtents (b :: live) = if b.pooled then b.extent :: pooledExtents live
      else pooledExtents live := by
  cases hb : b.pooled <;> simp [pooledExtents, hb]

theorem directExtents_cons (b : Block) (live : List Block) :
    directExtents (b :: live) = if b.pooled then directExtents live
      else b.extent :: directExtents live := by
  cases hb : b.pooled <;> simp [directExtents, hb]

/-- A block at `p` from a chunk has the whole object as its extent. -/
theorem extent_pooled {p size : Nat} (h : totalSize size ≤ maxBytes) :
    (⟨p + headerSize, size⟩ : Block).extent = ⟨p, roundUp (totalSize size)⟩ := by
  simp [Block.extent, Block.pooled, h]

theorem extent_direct {p size : Nat} (h : maxBytes < totalSize size) :
    (⟨p + headerSize, size⟩ : Block).extent = ⟨p, totalSize size⟩ := by
  simp [Block.extent, Block.pooled, Nat.not_le.mpr h]

/-- Allocating with any of the two allocators adds a block to the layout, or
nothing if there is no memory, and leaves the held blocks alone. -/
theorem Layout.take {s : Pool} (h : Layout s.reserves s.process s.live) (k : Nat) {size : Nat}
    {answers : MallocAnswers} (hchunks : answers.FreshChunks s.process)
    (hblock : ∀ q ∈ answers.block, s.process.Fresh ⟨q, totalSize size⟩) :
    ∃ result a m, (s.alloc k).allocate s.process (totalSize size) answers = some (result, a, m) ∧
      (∀ b ∈ s.live, ∀ x ∈ b.extent, m.mem x = s.process.mem x) ∧
      Layout (s.setAlloc k a m).reserves m
        ((result.toList.map fun p => ⟨p + headerSize, size⟩) ++ s.live) := by
  have htotal := Block.headerSize_lt_totalSize size
  by_cases hmax : totalSize size ≤ maxBytes
  · obtain ⟨result, a, m, halloc, hregular, hspends⟩ :=
      Alloc.allocate_spec (by omega) hmax answers (s.alloc k) s.process h.regular hchunks
    refine ⟨result, a, m, halloc, fun b hb x hx => ?_, hregular, fun x => ?_, ?_, ?_⟩
    · have hreserve := h.reserves_eq_zero hb hx
      have hle := s.cover_alloc_le k x
      have hpos := cover_pos.mpr ⟨b.extent, List.mem_map_of_mem hb, hx⟩
      have hcarved := h.carved x
      have hdirect := h.cover_direct x
      have hnew := hregular x
      have hgrows := hspends.grows x
      rw [cover_extents] at hpos
      rw [hspends.direct] at hnew
      exact hspends.frame x (by omega) (by omega)
    · have haccount := hspends.account x
      have hreserves := s.cover_reserves_setAlloc k a m x
      have hold := h.carved x
      cases result with
      | none =>
        simp only [Option.toList_none, List.map_nil, cover_nil, List.nil_append] at haccount ⊢
        omega
      | some p =>
        simp only [Option.toList_some, List.map_cons, List.map_nil, cover_cons, cover_nil,
          List.cons_append, List.nil_append, pooledExtents_cons, Block.pooled, hmax, decide_true,
          if_true, extent_pooled hmax] at haccount ⊢
        omega
    · rw [hspends.direct]
      cases result with
      | none => exact h.direct
      | some p =>
        simp only [Option.toList_some, List.map_cons, List.map_nil, List.cons_append,
          List.nil_append, directExtents_cons, Block.pooled, hmax, decide_true, if_true]
        exact h.direct
    · intro b hb
      rcases List.mem_append.mp hb with hb | hb
      · obtain ⟨p, -, rfl⟩ := List.mem_map.mp hb
        exact Nat.le_add_left _ _
      · exact h.header_le b hb
  · have hlt := Nat.lt_of_not_le hmax
    unfold Alloc.allocate
    rw [if_neg (by omega), if_pos hlt]
    cases hanswer : answers.block with
    | none =>
      refine ⟨none, s.alloc k, s.process, rfl, fun _ _ _ _ => rfl, h.regular, fun x => ?_,
        h.direct, h.header_le⟩
      rw [cover_reserves_setAlloc_self]
      exact h.carved x
    | some p =>
      refine ⟨some p, s.alloc k, _, rfl, fun _ _ _ _ => rfl,
        h.regular.addDirect (hblock p hanswer), fun x => ?_, ?_, fun b hb => ?_⟩
      · rw [cover_reserves_setAlloc_self]
        simp only [Option.toList_some, List.map_cons, List.map_nil, List.cons_append,
          List.nil_append, pooledExtents_cons, Block.pooled, hmax, decide_false,
          Bool.false_eq_true, if_false]
        exact h.carved x
      · simp only [Option.toList_some, List.map_cons, List.map_nil, List.cons_append,
          List.nil_append, directExtents_cons, Block.pooled, hmax, decide_false,
          Bool.false_eq_true, if_false, extent_direct hlt]
        exact h.direct.cons _
      · rcases List.mem_append.mp hb with hb | hb
        · obtain ⟨q, -, rfl⟩ := List.mem_map.mp hb
          exact Nat.le_add_left _ _
        · exact h.header_le b hb

/-- The block of `malloc` that starts where a held block does is its extent. -/
theorem Layout.find_direct {reserves : List Range} {m : Process} {b : Block} {rest : List Block}
    (h : Layout reserves m (b :: rest)) (hb : b.pooled = false) :
    m.direct.find? (fun r => r.start = b.buf - headerSize) = some b.extent ∧
      (m.direct.erase b.extent).Perm (directExtents rest) := by
  have hperm := h.direct
  rw [directExtents_cons, hb, if_neg (by simp)] at hperm
  constructor
  · cases hfind : m.direct.find? (fun r => r.start = b.buf - headerSize) with
    | none =>
      have hnone := List.find?_eq_none.mp hfind b.extent
        (hperm.mem_iff.mpr List.mem_cons_self)
      simp at hnone
    | some r =>
      have hstart : r.start = b.buf - headerSize := by simpa using List.find?_some hfind
      rcases List.mem_cons.mp (hperm.mem_iff.mp (List.mem_of_find?_eq_some hfind)) with hr | hr
      · rw [hr]
      · obtain ⟨b', hb', rfl⟩ := List.mem_map.mp hr
        rw [Block.start_extent] at hstart
        have hmem := b'.start_mem_extent
        rw [hstart] at hmem
        exact absurd hmem (h.not_mem_extent (List.mem_of_mem_filter hb') b.start_mem_extent)
  · have herase := hperm.erase b.extent
    rwa [List.erase_cons_head] at herase

/-- Deallocating a held block with any of the two allocators takes it out of the
layout. Its memory becomes a free object or goes back to the system. -/
theorem Layout.give {s : Pool} {b : Block} {rest : List Block}
    (h : Layout s.reserves s.process (b :: rest)) (k : Nat) :
    ∃ a m, (s.alloc k).deallocate s.process (b.buf - headerSize) (totalSize b.size) =
        some (a, m) ∧
      (∀ b' ∈ rest, ∀ x ∈ b'.extent, m.mem x = s.process.mem x) ∧
      Layout (s.setAlloc k a m).reserves m rest := by
  have htotal := Block.headerSize_lt_totalSize b.size
  have hstart := h.start_pos List.mem_cons_self
  have hheader : ∀ b' ∈ rest, headerSize ≤ b'.buf := fun b' hb' =>
    h.header_le b' (List.mem_cons_of_mem b hb')
  have hchecks : ¬ (decide (b.buf - headerSize = 0) || decide (totalSize b.size = 0)) = true := by
    simp only [Bool.or_eq_true, decide_eq_true_eq]
    omega
  unfold Alloc.deallocate
  rw [if_neg hchecks]
  cases hpooled : b.pooled with
  | true =>
    have hmax : totalSize b.size ≤ maxBytes := by simpa [Block.pooled] using hpooled
    have hextent : b.extent = ⟨b.buf - headerSize, roundUp (totalSize b.size)⟩ := by
      simp [Block.extent, hpooled]
    rw [if_neg (by omega)]
    refine ⟨((s.alloc k).push s.process (freelistIndex (totalSize b.size))
      (b.buf - headerSize)).1, ((s.alloc k).push s.process (freelistIndex (totalSize b.size))
      (b.buf - headerSize)).2, rfl, fun b' hb' x hx => ?_, h.regular, fun x => ?_, ?_, hheader⟩
    · apply Process.mem_storeLink_of_notMem (roundUp_pos (totalSize b.size))
      intro hx'
      rw [← hextent] at hx'
      exact h.not_mem_extent hb' hx' hx
    · have hold := h.carved x
      have hreserves := s.cover_reserves_setAlloc k ((s.alloc k).push s.process
        (freelistIndex (totalSize b.size)) (b.buf - headerSize)).1 ((s.alloc k).push s.process
        (freelistIndex (totalSize b.size)) (b.buf - headerSize)).2 x
      have hpush := Alloc.cover_reserve_push (s.alloc k) s.process
        (freelistIndex_lt (totalSize b.size)) (b.buf - headerSize) x
      rw [pooledExtents_cons, hpooled, if_pos rfl, cover_cons, hextent, roundUp] at hold
      rw [hpush] at hreserves
      have hchunks : ((s.alloc k).push s.process (freelistIndex (totalSize b.size))
        (b.buf - headerSize)).2.chunks = s.process.chunks := rfl
      rw [hchunks]
      omega
    · have hdirect := h.direct
      rw [directExtents_cons, hpooled, if_pos rfl] at hdirect
      exact hdirect
  | false =>
    have hmax : ¬ totalSize b.size ≤ maxBytes := by simpa [Block.pooled] using hpooled
    obtain ⟨hfind, hperm⟩ := h.find_direct hpooled
    rw [if_pos (Nat.lt_of_not_le hmax), Process.free, hfind]
    refine ⟨s.alloc k, { s.process with direct := s.process.direct.erase b.extent }, rfl,
      fun _ _ _ _ => rfl, fun x => ?_, fun x => ?_, hperm, hheader⟩
    · have hold := h.regular x
      have hmem : b.extent ∈ s.process.direct := List.mem_of_find?_eq_some hfind
      rw [cover_perm (List.perm_cons_erase hmem), cover_cons] at hold
      dsimp only
      omega
    · have hold := h.carved x
      rw [pooledExtents_cons, hpooled, if_neg (by simp)] at hold
      rw [cover_reserves_setAlloc_self]
      exact hold

theorem totalSize_of_ne_zero {size : Nat} (h : size ≠ 0) : totalSize size = headerSize + size :=
  if_neg h

/-- Sizes below the last class are rounded to less than the last class. -/
theorem roundUp_lt_of_not_topClass {bytes : Nat} (hmax : bytes ≤ maxBytes)
    (h : topClass bytes = false) : roundUp bytes < maxBytes := by
  have hle : bytes ≤ objSize (nFreeLists - 2) := by
    simp only [topClass, hmax, decide_true, Bool.and_true, decide_eq_false_iff_not] at h
    omega
  have hindex : freelistIndex bytes < nFreeLists - 1 := by
    by_contra hge
    have hbelow : objSize (nFreeLists - 2) < bytes := by
      apply objSize_lt_of_lt_freelistIndex
      have htwo : nFreeLists - 2 < nFreeLists - 1 := by decide
      omega
    omega
  rw [← objSize_last]
  exact objSize_strictMono (by decide) hindex

/-- Equal rounded sizes mean two sizes of one class, as long as neither of them
is beyond the last class and the other in it. -/
theorem le_maxBytes_of_roundUp_eq {bytes newBytes : Nat}
    (hboth : ¬ (maxBytes < bytes ∧ maxBytes < newBytes))
    (hclass : (topClass bytes && decide (maxBytes < newBytes) ||
      decide (maxBytes < bytes) && topClass newBytes) = false)
    (h : roundUp bytes = roundUp newBytes) : bytes ≤ maxBytes ∧ newBytes ≤ maxBytes := by
  simp only [Bool.or_eq_false_iff, Bool.and_eq_false_iff, decide_eq_false_iff_not] at hclass
  by_contra hnot
  rcases Nat.lt_or_ge maxBytes bytes with hold | hold
  · have hnew : newBytes ≤ maxBytes := by omega
    have htop : topClass newBytes = false := hclass.2.resolve_left (by omega)
    have hlt := roundUp_lt_of_not_topClass hnew htop
    rw [← h, roundUp_of_lt hold] at hlt
    omega
  · have hnew : maxBytes < newBytes := by omega
    have htop : topClass bytes = false := hclass.1.resolve_right (by omega)
    have hlt := roundUp_lt_of_not_topClass hold htop
    rw [h, roundUp_of_lt hnew] at hlt
    omega

theorem Process.mem_copy_of_notMem {m : Process} {dst src size x : Nat}
    (h : x ∉ (⟨dst, size⟩ : Range)) : (m.copy dst src size).mem x = m.mem x :=
  if_neg h

theorem Process.mem_copy {m : Process} {dst src size i : Nat} (h : i < size) :
    (m.copy dst src size).mem (dst + i) = m.mem (src + i) := by
  simp only [copy]
  rw [if_pos ⟨Nat.le_add_right dst i, by omega⟩, Nat.add_sub_cancel_left]

/-- `realloc` of a block of `malloc`. -/
theorem Layout.realloc {reserves : List Range} {m : Process} {b : Block} {rest : List Block}
    (h : Layout reserves m (b :: rest)) (hold : maxBytes < totalSize b.size) {newSize : Nat}
    (hnew : maxBytes < totalSize newSize) {answers : MallocAnswers}
    (hfresh : ∀ q ∈ answers.block, { m with direct := m.direct.filter fun r =>
      r.start ≠ b.buf - headerSize }.Fresh ⟨q, totalSize newSize⟩) :
    ∃ result m', m.realloc (b.buf - headerSize) (totalSize newSize) answers = some (result, m') ∧
      (result = none → m' = m) ∧
      ∀ q ∈ result, Layout reserves m' (⟨q + headerSize, newSize⟩ :: rest) ∧
        (∀ b' ∈ rest, ∀ x ∈ b'.extent, m'.mem x = m.mem x) ∧
        ∀ i < min (totalSize b.size) (totalSize newSize),
          m'.mem (q + i) = m.mem (b.buf - headerSize + i) := by
  have hpooled : b.pooled = false := by simp [Block.pooled, hold]
  have hpooledNew : ∀ q, (⟨q + headerSize, newSize⟩ : Block).pooled = false := fun q => by
    simp [Block.pooled, hnew]
  obtain ⟨hfind, hperm⟩ := h.find_direct hpooled
  have hsize : b.extent.size = totalSize b.size := by simp [Block.extent, hpooled]
  unfold Process.realloc
  rw [hfind, Option.map_some]
  cases hanswer : answers.block with
  | none => exact ⟨none, m, rfl, fun _ => rfl, by simp⟩
  | some q =>
    have hothers : ∀ r ∈ m.direct.erase b.extent, r ∈ m.direct.filter fun r =>
        r.start ≠ b.buf - headerSize := by
      intro r hr
      rw [List.mem_filter]
      refine ⟨List.mem_of_mem_erase hr, ?_⟩
      obtain ⟨b', hb', rfl⟩ := List.mem_map.mp (hperm.mem_iff.mp hr)
      rw [Block.start_extent, decide_eq_true_iff]
      intro heq
      have hmem := b'.start_mem_extent
      rw [heq] at hmem
      exact h.not_mem_extent (List.mem_of_mem_filter hb') b.start_mem_extent hmem
    have hlayout : Layout reserves
        { m.copy q (b.buf - headerSize) (min b.extent.size (totalSize newSize)) with
          direct := ⟨q, totalSize newSize⟩ :: m.direct.erase b.extent }
        (⟨q + headerSize, newSize⟩ :: rest) := by
      obtain ⟨hpos, hdisjoint⟩ := hfresh q hanswer
      refine ⟨fun x => ?_, fun x => ?_, ?_, fun b' hb' => ?_⟩
      · have hregular := h.regular x
        have hmem : b.extent ∈ m.direct := List.mem_of_find?_eq_some hfind
        rw [cover_perm (List.perm_cons_erase hmem), cover_cons] at hregular
        change cover m.chunks x + cover (⟨q, totalSize newSize⟩ :: m.direct.erase b.extent) x ≤ _
        rw [cover_cons]
        by_cases hx : x ∈ (⟨q, totalSize newSize⟩ : Range)
        · have hzero : cover (m.chunks ++ m.direct.erase b.extent) x = 0 := by
            apply cover_eq_zero_of_disjoint _ hx
            intro r hr
            apply hdisjoint
            rcases List.mem_append.mp hr with hr | hr
            · exact List.mem_append_left _ hr
            · exact List.mem_append_right _ (hothers r hr)
          have hone := Range.count_le_one ⟨q, totalSize newSize⟩ x
          have hxpos : 0 < x := Nat.lt_of_lt_of_le hpos hx.1
          rw [cover_append] at hzero
          omega
        · rw [Range.count_eq_zero.mpr hx]
          omega
      · have hcarved := h.carved x
        rw [pooledExtents_cons, hpooled, if_neg (by simp)] at hcarved
        rw [pooledExtents_cons, hpooledNew, if_neg (by simp)]
        exact hcarved
      · rw [directExtents_cons, hpooledNew, if_neg (by simp), extent_direct hnew]
        exact hperm.cons _
      · rcases List.mem_cons.mp hb' with rfl | hb'
        · exact Nat.le_add_left _ _
        · exact h.header_le b' (List.mem_cons_of_mem b hb')
    refine ⟨some q, _, rfl, by simp, fun q' hq' => ?_⟩
    cases Option.some.inj hq'
    refine ⟨hlayout, fun b' hb' x hx => ?_, fun i hi => ?_⟩
    · apply Process.mem_copy_of_notMem
      intro hx'
      refine hlayout.not_mem_extent hb' ?_ hx
      rw [extent_direct hnew, Range.mem_def]
      rw [Range.mem_def] at hx'
      dsimp only at hx' ⊢
      omega
    · rw [← hsize] at hi
      exact Process.mem_copy hi

/-- Reallocating a held block with any of the two allocators replaces it in the
layout, with its bytes, or leaves everything as it is. -/
theorem Layout.reallocate {s : Pool} {b : Block} {rest : List Block}
    (h : Layout s.reserves s.process (b :: rest)) (hlive : s.live.Perm (b :: rest)) (k : Nat)
    {newSize : Nat} {answers : MallocAnswers}
    (hchunks : answers.FreshChunks s.process)
    (hblock : ∀ q ∈ answers.block,
      if maxBytes < totalSize b.size ∧ maxBytes < totalSize newSize then
        { s.process with direct := s.process.direct.filter fun r =>
          r.start ≠ b.buf - headerSize }.Fresh ⟨q, totalSize newSize⟩
      else s.process.Fresh ⟨q, totalSize newSize⟩)
    (hclass : (topClass (totalSize b.size) && decide (maxBytes < totalSize newSize) ||
      decide (maxBytes < totalSize b.size) && topClass (totalSize newSize)) = false) :
    ∃ result a m, (s.alloc k).reallocate s.process (b.buf - headerSize) (totalSize b.size)
        (totalSize newSize) answers = some (result, a, m) ∧
      (result = none → Layout (s.setAlloc k a m).reserves m (b :: rest) ∧
        ∀ b' ∈ b :: rest, ∀ x ∈ b'.extent, m.mem x = s.process.mem x) ∧
      ∀ q ∈ result, Layout (s.setAlloc k a m).reserves m (⟨q + headerSize, newSize⟩ :: rest) ∧
        (∀ b' ∈ rest, ∀ x ∈ b'.extent, m.mem x = s.process.mem x) ∧
        ∀ i < min (totalSize b.size) (totalSize newSize),
          m.mem (q + i) = s.process.mem (b.buf - headerSize + i) := by
  have htotal := Block.headerSize_lt_totalSize b.size
  have htotalNew := Block.headerSize_lt_totalSize newSize
  have hstart := h.start_pos List.mem_cons_self
  have hself : ∀ m : Process, ∀ live, Layout s.reserves m live →
      Layout (s.setAlloc k (s.alloc k) m).reserves m live := by
    intro m live hlayout
    refine ⟨hlayout.regular, fun x => ?_, hlayout.direct, hlayout.header_le⟩
    rw [cover_reserves_setAlloc_self]
    exact hlayout.carved x
  unfold Alloc.reallocate
  rw [if_neg (by simp only [Bool.or_eq_true, decide_eq_true_eq]; omega), if_neg (by omega)]
  split
  · rename_i hboth
    simp only [Bool.and_eq_true, decide_eq_true_eq] at hboth
    obtain ⟨result, m, hrealloc, hnone, hsome⟩ := h.realloc hboth.1 hboth.2
      (fun q hq => by simpa [hboth] using hblock q hq)
    refine ⟨result, s.alloc k, m, by rw [hrealloc]; rfl, fun hresult => ?_, fun q hq => ?_⟩
    · rw [hnone hresult]
      exact ⟨hself _ _ h, fun _ _ _ _ => rfl⟩
    · obtain ⟨hlayout, hkept, hmoved⟩ := hsome q hq
      exact ⟨hself _ _ hlayout, hkept, hmoved⟩
  · rename_i hboth
    simp only [Bool.and_eq_true, decide_eq_true_eq] at hboth
    split
    · rename_i hround
      obtain ⟨hold, hnew⟩ := le_maxBytes_of_roundUp_eq hboth hclass hround
      refine ⟨some (b.buf - headerSize), s.alloc k, s.process, rfl, by simp, fun q hq => ?_⟩
      cases Option.some.inj hq
      refine ⟨hself _ _ ?_, fun _ _ _ _ => rfl, fun _ _ => rfl⟩
      have hpooled : b.pooled = true := by simp [Block.pooled, hold]
      have hpooledNew : (⟨b.buf - headerSize + headerSize, newSize⟩ : Block).pooled = true := by
        simp [Block.pooled, hnew]
      have hextent : (⟨b.buf - headerSize + headerSize, newSize⟩ : Block).extent = b.extent := by
        rw [extent_pooled hnew]
        simp [Block.extent, hpooled, hround]
      refine ⟨h.regular, fun x => ?_, ?_, fun b' hb' => ?_⟩
      · have hcarved := h.carved x
        rw [pooledExtents_cons, hpooled] at hcarved
        rw [pooledExtents_cons, hpooledNew, hextent]
        exact hcarved
      · have hdirect := h.direct
        rw [directExtents_cons, hpooled] at hdirect
        rw [directExtents_cons, hpooledNew]
        exact hdirect
      · rcases List.mem_cons.mp hb' with rfl | hb'
        · exact Nat.le_add_left _ _
        · exact h.header_le b' (List.mem_cons_of_mem b hb')
    · obtain ⟨result, a, m, halloc, hkept, hlayout⟩ := (h.congr rfl rfl hlive).take k hchunks
        (fun q hq => by simpa [hboth] using hblock q hq)
      rw [halloc]
      simp only [Option.bind_eq_bind, Option.bind_some]
      cases result with
      | none =>
        refine ⟨none, a, m, rfl, fun _ => ⟨?_, fun b' hb' => ?_⟩, by simp⟩
        · exact hlayout.congr rfl rfl hlive.symm
        · exact hkept b' (hlive.mem_iff.mpr hb')
      | some q =>
        -- The copy goes into the new block only, so that the old one can be given back.
        have hcopied : Layout (s.setAlloc k a (m.copy q (b.buf - headerSize)
            (min (totalSize b.size) (totalSize newSize)))).reserves
            (s.setAlloc k a (m.copy q (b.buf - headerSize)
              (min (totalSize b.size) (totalSize newSize)))).process
            (b :: ⟨q + headerSize, newSize⟩ :: rest) := by
          rw [reserves_setAlloc_process s k a _ m]
          apply hlayout.congr
          · rw [process_setAlloc]
            rfl
          · rw [process_setAlloc]
            rfl
          · exact (List.Perm.swap _ _ _).trans (hlive.symm.cons _)
        obtain ⟨a', m', hdealloc, hkept', hlayout'⟩ := hcopied.give k
        rw [alloc_setAlloc, process_setAlloc] at hdealloc
        rw [setAlloc_setAlloc] at hlayout'
        rw [process_setAlloc] at hkept'
        simp only [hdealloc, Option.bind_some]
        refine ⟨some q, a', m', rfl, by simp, fun q' hq' => ?_⟩
        cases Option.some.inj hq'
        refine ⟨hlayout', fun b' hb' x hx => ?_, fun i hi => ?_⟩
        · rw [hkept' b' (List.mem_cons_of_mem _ hb') x hx, Process.mem_copy_of_notMem,
            hkept b' (hlive.mem_iff.mpr (List.mem_cons_of_mem b hb')) x hx]
          intro hx'
          refine hlayout'.not_mem_extent hb' ?_ hx
          have hsize := (⟨q + headerSize, newSize⟩ : Block).size_extent
          rw [Range.mem_def] at hx' ⊢
          rw [Block.start_extent, Nat.add_sub_cancel]
          dsimp only at hx' hsize
          omega
        · have hnew : q + i ∈ (⟨q + headerSize, newSize⟩ : Block).extent := by
            have hsize := (⟨q + headerSize, newSize⟩ : Block).size_extent
            rw [Range.mem_def, Block.start_extent, Nat.add_sub_cancel]
            dsimp only at hsize
            omega
          have hold : b.buf - headerSize + i ∈ b.extent := by
            have hsize := b.size_extent
            rw [Range.mem_def, Block.start_extent]
            omega
          rw [hkept' _ List.mem_cons_self _ hnew, Process.mem_copy hi,
            hkept b (hlive.mem_iff.mpr List.mem_cons_self) _ hold]

end Pronet.Shared
