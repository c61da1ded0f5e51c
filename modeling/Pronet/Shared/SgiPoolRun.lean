import Pronet.Shared.SgiPoolInv

/-! Every run of a pool. A pool is sound when each held block has memory of its
own and all free memory comes from chunks; each call keeps the bytes of the
blocks it does not give back. -/
namespace Pronet.Shared

open Library Library.Ranges SizeClass

namespace Process

theorem load32_congr {m m' : Process} {p : Nat} (h : ∀ k < 4, m'.mem (p + k) = m.mem (p + k)) :
    m'.load32 p = m.load32 p := by
  unfold load32
  rw [h 3 (by decide), h 2 (by decide), h 1 (by decide), ← Nat.add_zero p, h 0 (by decide)]

theorem mem_store32 {m : Process} {p value k : Nat} (hk : k < 4) :
    (m.store32 p value).mem (p + k) = UInt8.ofNat (value / 256 ^ k) := by
  have hlength : (wordBytes 4 value).length = 4 := length_wordBytes 4 value
  simp only [store32, store, hlength]
  rw [if_pos ⟨Nat.le_add_right p k, by omega⟩, Nat.add_sub_cancel_left,
    List.getD_eq_getElem _ _ (by omega)]
  simp [wordBytes]

theorem load32_store32 {m : Process} {p value : Nat} (h : value < 2 ^ 32) :
    (m.store32 p value).load32 p = value := by
  have hzero : (m.store32 p value).mem p = UInt8.ofNat (value / 256 ^ 0) :=
    mem_store32 (by decide : 0 < 4)
  unfold load32
  rw [mem_store32 (by decide : 3 < 4), mem_store32 (by decide : 2 < 4),
    mem_store32 (by decide : 1 < 4), hzero]
  simp only [UInt8.toNat_ofNat']
  omega

end Process

namespace Pool

structure PoolInv (s : Pool) : Prop where
  layout : Layout s.reserves s.process s.live
  header : ∀ b ∈ s.live, s.process.load32 (b.buf - headerSize) = totalSize b.size

/-- The block is still held, with the same bytes. -/
def Kept (s next : Pool) (b : Block) : Prop :=
  b ∈ next.live ∧ ∀ i < b.size, next.process.mem (b.buf + i) = s.process.mem (b.buf + i)

/-- What a call does to the blocks of its callers. -/
def Preserves (s : Pool) (result : Option Nat) (next : Pool) : PoolEvent → Prop
  | .allocate size _ =>
      (∀ b ∈ s.live, s.Kept next b) ∧ ∀ buf ∈ result, ⟨buf, size⟩ ∈ next.live
  | .reallocate buf newSize _ =>
      (∀ b ∈ s.live, b.buf ≠ buf → s.Kept next b) ∧
      (∀ b ∈ s.live, b.buf = buf → newSize ≠ 0 → result = none → s.Kept next b) ∧
      ∀ newBuf ∈ result, ⟨newBuf, newSize⟩ ∈ next.live ∧ ∀ b ∈ s.live, b.buf = buf →
        ∀ i < min b.size newSize, next.process.mem (newBuf + i) = s.process.mem (buf + i)
  | .deallocate buf => ∀ b ∈ s.live, b.buf ≠ buf → s.Kept next b
  | .write buf offset value => ∀ b ∈ s.live, b ∈ next.live ∧ ∀ i < b.size,
      next.process.mem (b.buf + i) =
        if b.buf = buf ∧ i = offset then value else s.process.mem (b.buf + i)

/-- Bytes of held blocks that do not change. -/
theorem kept_of_mem {s next : Pool} {b : Block} (hbuf : headerSize ≤ b.buf)
    (hlive : b ∈ next.live) (h : ∀ x ∈ b.extent, next.process.mem x = s.process.mem x) :
    s.Kept next b :=
  ⟨hlive, fun _ hi => h _ (Block.byte_mem_extent hbuf hi)⟩

theorem header_of_mem {m m' : Process} {b : Block}
    (h : ∀ x ∈ b.extent, m'.mem x = m.mem x) :
    m'.load32 (b.buf - headerSize) = m.load32 (b.buf - headerSize) :=
  Process.load32_congr fun _ hk => h _ (Block.header_mem_extent hk)

/-- Writing the header of a new block completes the invariant and touches no
other block. -/
theorem poolInv_hand {s : Pool} {p size : Nat} (hsize : totalSize size < 2 ^ 32)
    (h : Layout s.reserves s.process (⟨p + headerSize, size⟩ :: s.live))
    (hheader : ∀ b ∈ s.live, s.process.load32 (b.buf - headerSize) = totalSize b.size) :
    (s.hand p (totalSize size) size).PoolInv ∧
      ∀ b ∈ s.live, ∀ x ∈ b.extent,
        (s.hand p (totalSize size) size).process.mem x = s.process.mem x := by
  have hothers : ∀ b ∈ s.live, ∀ x ∈ b.extent,
      (s.hand p (totalSize size) size).process.mem x = s.process.mem x := by
    intro b hb x hx
    apply Process.mem_store_of_notMem
    rw [Process.length_wordBytes]
    intro hx'
    refine h.not_mem_extent hb ?_ hx
    have hextent := (⟨p + headerSize, size⟩ : Block).size_extent
    have hlt := Block.headerSize_lt_totalSize size
    have height : headerSize = 8 := rfl
    rw [Range.mem_def] at hx' ⊢
    rw [Block.start_extent, Nat.add_sub_cancel]
    dsimp only at hx' hextent
    omega
  refine ⟨⟨h.congr rfl rfl (List.Perm.refl _), fun b hb => ?_⟩, hothers⟩
  rcases List.mem_cons.mp hb with rfl | hb
  · simp only [hand, Nat.add_sub_cancel]
    exact Process.load32_store32 hsize
  · rw [header_of_mem (hothers b hb)]
    exact hheader b hb

theorem proAllocate_spec {s : Pool} (h : s.PoolInv) {size : Nat} {answers : MallocAnswers}
    (hsize : totalSize size < 2 ^ 32) (hfresh : s.FreshAnswers 0 (totalSize size) answers) :
    ∃ result next, s.proAllocateSgiPoolBuffer size answers = some (result, next) ∧
      next.PoolInv ∧ (∀ b ∈ s.live, s.Kept next b) ∧ ∀ buf ∈ result, ⟨buf, size⟩ ∈ next.live := by
  have hblock : ∀ q ∈ answers.block, s.process.Fresh ⟨q, totalSize size⟩ := by
    intro q hq
    simpa [inUse] using hfresh.2 q hq
  obtain ⟨result, a, m, halloc, hkept, hlayout⟩ := h.layout.take (totalSize size) hfresh.1 hblock
  have hheader : ∀ b ∈ s.live, m.load32 (b.buf - headerSize) = totalSize b.size := by
    intro b hb
    rw [header_of_mem (hkept b hb)]
    exact h.header b hb
  unfold proAllocateSgiPoolBuffer
  simp only [halloc, Option.bind_eq_bind, Option.bind_some]
  cases result with
  | none =>
    refine ⟨none, _, rfl, ⟨?_, ?_⟩, fun b hb => ?_, by simp⟩
    · simpa using hlayout
    · simpa using hheader
    · apply kept_of_mem (h.layout.header_le b hb)
      · simpa using hb
      · simpa using hkept b hb
  | some p =>
    have hhand := poolInv_hand (s := s.setAlloc (totalSize size) a m) (p := p) hsize
      (by simpa using hlayout) (by simpa using hheader)
    refine ⟨some (p + headerSize), _, rfl, hhand.1, fun b hb => ?_, fun buf hbuf => ?_⟩
    · have hlive : b ∈ (s.setAlloc (totalSize size) a m).live := by simpa using hb
      apply kept_of_mem (h.layout.header_le b hb)
      · exact List.mem_cons_of_mem _ hlive
      · intro x hx
        rw [hhand.2 b hlive x hx, process_setAlloc]
        exact hkept b hb x hx
    · cases Option.some.inj hbuf
      exact List.mem_cons_self

/-- The held block at a pointer, and the blocks that stay if it is given back. -/
theorem PoolInv.split {s : Pool} {buf : Nat} (hbuf : s.Holds buf) :
    ∃ b, b.buf = buf ∧ s.live.Perm (b :: s.live.eraseP fun b => b.buf = buf) := by
  obtain ⟨b, hb, hbeq⟩ := hbuf
  obtain ⟨b', l₁, l₂, -, hb', hlive, herase⟩ :=
    List.exists_of_eraseP (p := fun b : Block => decide (b.buf = buf)) hb (by simpa using hbeq)
  refine ⟨b', by simpa using hb', ?_⟩
  rw [herase, hlive]
  exact List.perm_middle

/-- Only one held block has a given pointer. -/
theorem PoolInv.eq_of_buf {s : Pool} (h : s.PoolInv) {b b' : Block} {rest : List Block}
    (hperm : s.live.Perm (b :: rest)) (hb' : b' ∈ s.live) (heq : b'.buf = b.buf) : b' = b := by
  rcases List.mem_cons.mp (hperm.mem_iff.mp hb') with hb' | hb'
  · exact hb'
  · have hlayout := h.layout.congr rfl rfl hperm.symm
    have hmem := b'.start_mem_extent
    rw [heq] at hmem
    exact absurd hmem (hlayout.not_mem_extent hb' b.start_mem_extent)

theorem proDeallocate_spec {s : Pool} (h : s.PoolInv) {buf : Nat}
    (hbuf : buf = 0 ∨ s.Holds buf) :
    ∃ next, s.proDeallocateSgiPoolBuffer buf = some next ∧ next.PoolInv ∧
      ∀ b ∈ s.live, b.buf ≠ buf → s.Kept next b := by
  unfold proDeallocateSgiPoolBuffer
  by_cases hnull : buf = 0
  · rw [if_pos hnull]
    exact ⟨s, rfl, h, fun b hb _ => ⟨hb, fun _ _ => rfl⟩⟩
  · obtain ⟨b, rfl, hperm⟩ := PoolInv.split (hbuf.resolve_left hnull)
    have hb : b ∈ s.live := hperm.mem_iff.mpr List.mem_cons_self
    have hheader := h.header b hb
    have htotal := Block.headerSize_lt_totalSize b.size
    obtain ⟨a, m, hdealloc, hkept, hlayout⟩ :=
      (h.layout.congr rfl rfl hperm.symm).give (totalSize b.size)
    have hrest : ∀ b' ∈ s.live.eraseP (fun b' => b'.buf = b.buf), b' ∈ s.live := fun b' hb' =>
      hperm.mem_iff.mpr (List.mem_cons_of_mem b hb')
    rw [if_neg hnull]
    dsimp only
    rw [hheader, if_neg (by omega), hdealloc]
    refine ⟨_, rfl, ⟨?_, fun b' hb' => ?_⟩, fun b' hb' hne => ?_⟩
    · simpa [release, reserves] using hlayout
    · have hb' : b' ∈ s.live.eraseP (fun b' => b'.buf = b.buf) := by simpa [release] using hb'
      simp only [release, process_setAlloc]
      rw [header_of_mem (hkept b' hb')]
      exact h.header b' (hrest b' hb')
    · have hb'' : b' ∈ s.live.eraseP (fun b' => b'.buf = b.buf) := by
        rcases List.mem_cons.mp (hperm.mem_iff.mp hb') with rfl | hb''
        · exact absurd rfl hne
        · exact hb''
      apply kept_of_mem (h.layout.header_le b' hb')
      · simpa [release] using hb''
      · simpa [release] using hkept b' hb''

theorem proReallocate_spec {s : Pool} (h : s.PoolInv) {buf newSize : Nat}
    {answers : MallocAnswers} (hbuf : buf = 0 ∨ s.Holds buf)
    (hsize : totalSize newSize < 2 ^ 32)
    (hfresh : s.FreshAnswers buf (totalSize newSize) answers)
    (hclass : s.withinClasses (.reallocate buf newSize answers) = true) :
    ∃ result next, s.proReallocateSgiPoolBuffer buf newSize answers = some (result, next) ∧
      next.PoolInv ∧ s.Preserves result next (.reallocate buf newSize answers) := by
  unfold proReallocateSgiPoolBuffer
  by_cases hnull : buf = 0
  · subst hnull
    obtain ⟨result, next, hallocate, hinv, hkept, hnew⟩ := proAllocate_spec h hsize hfresh
    simp only [if_true, hallocate, Option.bind_eq_bind]
    have hnot : ∀ b ∈ s.live, b.buf ≠ 0 := by
      intro b hb heq
      have hle := h.layout.header_le b hb
      have height : headerSize = 8 := rfl
      omega
    exact ⟨result, next, rfl, hinv, fun b hb _ => hkept b hb,
      fun b hb heq => absurd heq (hnot b hb),
      fun buf hresult => ⟨hnew buf hresult, fun b hb heq => absurd heq (hnot b hb)⟩⟩
  · rw [if_neg hnull]
    by_cases hzero : newSize = 0
    · obtain ⟨next, hdeallocate, hinv, hkept⟩ := proDeallocate_spec h hbuf
      simp only [if_pos hzero, hdeallocate, Option.bind_eq_bind, Option.bind_some]
      exact ⟨none, next, rfl, hinv, hkept, fun b hb _ hne => absurd hzero hne, by simp⟩
    · rw [if_neg hzero]
      obtain ⟨b, rfl, hperm⟩ := PoolInv.split (hbuf.resolve_left hnull)
      have hb : b ∈ s.live := hperm.mem_iff.mpr List.mem_cons_self
      have hheader := h.header b hb
      have htotal := Block.headerSize_lt_totalSize b.size
      have hnewBytes : headerSize + newSize = totalSize newSize :=
        (totalSize_of_ne_zero hzero).symm
      have hle := h.layout.header_le b hb
      simp only [withinClasses, hheader, hnewBytes, Bool.or_eq_true, decide_eq_true_eq, hnull,
        hzero, false_or, Bool.not_eq_true'] at hclass
      obtain ⟨result, a, m, hrealloc, hnone, hsome⟩ :=
        (h.layout.congr rfl rfl hperm.symm).reallocate hperm (totalSize b.size) hfresh.1
          (fun q hq => by
            have := hfresh.2 q hq
            unfold inUse at this
            simp only [ne_eq, hnull, not_false_eq_true, hheader, true_and] at this
            split at this
            · rename_i hboth
              rw [if_pos hboth]
              exact this
            · rename_i hboth
              rw [if_neg hboth]
              exact this) hclass
      have hrest : ∀ b' ∈ s.live.eraseP (fun b' => b'.buf = b.buf), b' ∈ s.live := fun b' hb' =>
        hperm.mem_iff.mpr (List.mem_cons_of_mem b hb')
      dsimp only
      rw [hheader, if_neg (by omega), hnewBytes]
      simp only [hrealloc, Option.bind_eq_bind, Option.bind_some]
      cases result with
      | none =>
        obtain ⟨hlayout, hkept⟩ := hnone rfl
        have hkeep : ∀ b' ∈ s.live, s.Kept (s.setAlloc (totalSize b.size) a m) b' := by
          intro b' hb'
          apply kept_of_mem (h.layout.header_le b' hb')
          · simpa using hb'
          · simpa using hkept b' (hperm.mem_iff.mp hb')
        refine ⟨none, _, rfl, ⟨?_, fun b' hb' => ?_⟩, fun b' hb' _ => hkeep b' hb',
          fun b' hb' _ _ _ => hkeep b' hb', by simp⟩
        · rw [process_setAlloc, live_setAlloc]
          exact hlayout.congr rfl rfl hperm
        · have hb' : b' ∈ s.live := by simpa using hb'
          rw [process_setAlloc, header_of_mem (hkept b' (hperm.mem_iff.mp hb'))]
          exact h.header b' hb'
      | some q =>
        obtain ⟨hlayout, hkept, hmoved⟩ := hsome q rfl
        have hhand := poolInv_hand (s := (s.setAlloc (totalSize b.size) a m).release b.buf)
          (p := q) hsize (by simpa [release, reserves] using hlayout) (by
            intro b' hb'
            have hb' : b' ∈ s.live.eraseP (fun b' => b'.buf = b.buf) := by
              simpa [release] using hb'
            simp only [release, process_setAlloc]
            rw [header_of_mem (hkept b' hb')]
            exact h.header b' (hrest b' hb'))
        refine ⟨some (q + headerSize), _, rfl, hhand.1, fun b' hb' hne => ?_,
          fun _ _ _ _ hnone => absurd hnone (by simp), fun newBuf hresult => ?_⟩
        · have hb'' : b' ∈ s.live.eraseP (fun b' => b'.buf = b.buf) := by
            rcases List.mem_cons.mp (hperm.mem_iff.mp hb') with rfl | hb''
            · exact absurd rfl hne
            · exact hb''
          have hlive : b' ∈ ((s.setAlloc (totalSize b.size) a m).release b.buf).live := by
            simpa [release] using hb''
          apply kept_of_mem (h.layout.header_le b' hb')
          · exact List.mem_cons_of_mem _ hlive
          · intro x hx
            rw [hhand.2 b' hlive x hx]
            simpa [release] using hkept b' hb'' x hx
        · cases Option.some.inj hresult
          refine ⟨List.mem_cons_self, fun b' hb' heq i hi => ?_⟩
          cases h.eq_of_buf hperm hb' heq
          -- The header store hits the four bytes in front of the data only.
          have hstored : ∀ x, q + headerSize ≤ x →
              (((s.setAlloc (totalSize b.size) a m).release b.buf).hand q (totalSize newSize)
                newSize).process.mem x = m.mem x := by
            intro x hx
            simp only [hand, release, process_setAlloc]
            apply Process.mem_store_of_notMem
            rw [Process.length_wordBytes, Range.mem_def]
            have height : headerSize = 8 := rfl
            dsimp only
            omega
          have hmin : headerSize + i < min (totalSize b.size) (totalSize newSize) := by
            have hold := Block.totalSize_ge b.size
            have hnew := Block.totalSize_ge newSize
            omega
          have hbytes := hmoved (headerSize + i) hmin
          have haddr : b.buf - headerSize + (headerSize + i) = b.buf + i := by omega
          rw [hstored _ (by omega), Nat.add_assoc, hbytes, haddr]

/-- A caller writes a byte of its block. -/
theorem write_spec {s : Pool} (h : s.PoolInv) {buf offset : Nat} (value : UInt8)
    (hwrite : ∃ b ∈ s.live, b.buf = buf ∧ offset < b.size) :
    { s with process := s.process.store (buf + offset) [value] }.PoolInv ∧
      s.Preserves none { s with process := s.process.store (buf + offset) [value] }
        (.write buf offset value) := by
  obtain ⟨b, hb, rfl, hoffset⟩ := hwrite
  have hperm := List.perm_cons_erase hb
  have hlayout := h.layout.congr rfl rfl hperm.symm
  have hwritten := Block.byte_mem_extent (h.layout.header_le b hb) hoffset
  have hothers : ∀ x, x ≠ b.buf + offset →
      (s.process.store (b.buf + offset) [value]).mem x = s.process.mem x := by
    intro x hne
    apply Process.mem_store_of_notMem
    rw [Range.mem_def]
    simp only [List.length_singleton]
    omega
  have hbyte : (s.process.store (b.buf + offset) [value]).mem (b.buf + offset) = value := by
    simp [Process.store]
  refine ⟨⟨h.layout.congr rfl rfl (List.Perm.refl _), fun b' hb' => ?_⟩, fun b' hb' =>
    ⟨hb', fun i hi => ?_⟩⟩
  · rw [← h.header b' hb']
    apply Process.load32_congr
    intro k hk
    apply hothers
    intro heq
    rcases List.mem_cons.mp (hperm.mem_iff.mp hb') with rfl | hb'
    · have hle := h.layout.header_le b' hb
      have height : headerSize = 8 := rfl
      omega
    · rw [← heq] at hwritten
      exact hlayout.not_mem_extent hb' hwritten (Block.header_mem_extent hk)
  · by_cases hcase : b'.buf = b.buf ∧ i = offset
    · rw [if_pos hcase, hcase.1, hcase.2]
      exact hbyte
    · rw [if_neg hcase]
      apply hothers
      intro heq
      rcases List.mem_cons.mp (hperm.mem_iff.mp hb') with rfl | hb''
      · omega
      · have hmem := Block.byte_mem_extent (h.layout.header_le b' hb') hi
        rw [heq] at hmem
        exact hlayout.not_mem_extent hb'' hwritten hmem

theorem PoolInv.perform {s : Pool} (h : s.PoolInv) (event : PoolEvent) (hallowed : s.Allowed event)
    (hclass : s.withinClasses event = true) :
    ∃ result next, s.perform event = some (result, next) ∧ next.PoolInv ∧
      s.Preserves result next event := by
  cases event with
  | allocate size answers => exact proAllocate_spec h hallowed.1 hallowed.2
  | reallocate buf newSize answers =>
    exact proReallocate_spec h hallowed.1 hallowed.2.1 hallowed.2.2 hclass
  | deallocate buf =>
    obtain ⟨next, hdeallocate, hinv, hkept⟩ := proDeallocate_spec h hallowed
    exact ⟨none, next, by simp [Pool.perform, hdeallocate], hinv, hkept⟩
  | write buf offset value => exact ⟨none, _, rfl, write_spec h value hallowed⟩

/-- The memory of the callers and the free memory. -/
def ranges (s : Pool) : List Range :=
  s.live.map Block.extent ++ (s.small.freeCells ++ s.big.freeCells ++ [s.small.tail, s.big.tail])

/-- Held blocks are large enough and overlap nothing else; those above the limit
are blocks of `malloc`, and all other memory in use or free is memory of chunks,
which `malloc` has given for carving. -/
structure Sound (s : Pool) : Prop where
  capacity : ∀ b ∈ s.live, b.extent.start + headerSize = b.buf ∧
    headerSize + b.size ≤ b.extent.size
  disjoint : s.ranges.Pairwise Range.Disjoint
  malloced : ∀ b ∈ s.live, maxBytes < totalSize b.size → b.extent ∈ s.process.direct
  carved : ∀ b ∈ s.live, totalSize b.size ≤ maxBytes →
    ∀ x ∈ b.extent, ∃ chunk ∈ s.process.chunks, x ∈ chunk
  free_carved : ∀ r ∈ s.small.freeCells ++ s.big.freeCells ++ [s.small.tail, s.big.tail],
    ∀ x ∈ r, ∃ chunk ∈ s.process.chunks, x ∈ chunk
  regions : (s.process.chunks ++ s.process.direct).Pairwise Range.Disjoint

theorem cover_reserves (s : Pool) (x : Nat) :
    cover s.reserves x =
      cover (s.small.freeCells ++ s.big.freeCells ++ [s.small.tail, s.big.tail]) x := by
  simp only [reserves, Alloc.reserve, cover_append, cover_cons, cover_nil]
  omega

theorem PoolInv.sound {s : Pool} (h : s.PoolInv) : s.Sound := by
  constructor
  · intro b hb
    have hle := h.layout.header_le b hb
    have hextent := b.size_extent
    have htotal := Block.totalSize_ge b.size
    rw [Block.start_extent]
    omega
  · apply pairwise_disjoint_of_cover_le_one
    intro x
    have hcover := h.layout.cover_le x
    rw [ranges, cover_append, ← cover_reserves]
    omega
  · intro b hb hlarge
    rw [h.layout.direct.mem_iff]
    apply List.mem_map_of_mem
    rw [List.mem_filter]
    exact ⟨hb, by simp [Block.pooled, hlarge]⟩
  · intro b hb hsmall x hx
    apply cover_pos.mp
    have hcarved := h.layout.carved x
    have hmem : b.extent ∈ pooledExtents s.live := by
      apply List.mem_map_of_mem
      rw [List.mem_filter]
      exact ⟨hb, by simp [Block.pooled, hsmall]⟩
    have hpos := cover_pos.mpr ⟨b.extent, hmem, hx⟩
    omega
  · intro r hr x hx
    apply cover_pos.mp
    have hcarved := h.layout.carved x
    have hpos := cover_pos.mpr ⟨r, hr, hx⟩
    rw [← cover_reserves] at hpos
    omega
  · apply pairwise_disjoint_of_cover_le_one
    intro x
    have hregular := h.layout.regular x
    rw [cover_append]
    omega

theorem poolInv_init (mem : Nat → UInt8) : (init mem).PoolInv := by
  have hempty : ∀ x, cover (init mem).reserves x = 0 := by
    intro x
    simp [reserves, init, Alloc.init, Alloc.reserve, Alloc.tail, Alloc.bytesLeft,
      Alloc.cover_freeCells, Alloc.cells]
  refine ⟨⟨fun x => ?_, fun x => ?_, ?_, by simp [init]⟩, by simp [init]⟩
  · simp [init]
  · rw [hempty]
    simp [init, pooledExtents]
  · simp [init, directExtents]

/-- On every run in which the callers follow the rules and no reallocation crosses
the upper end of the last size class, the pool is sound, no call ends in undefined
behaviour, and the next call preserves the bytes of the callers. -/
theorem sound_of_run (mem : Nat → UInt8) (events : List PoolEvent)
    (hguard : Runs.Guarded step (fun s event => s.Allowed event ∧ s.withinClasses event = true)
      (init mem) events) :
    ∃ s, Runs.run step (init mem) events = some s ∧ s.Sound ∧
      ∀ event, s.Allowed event → s.withinClasses event = true →
        ∃ result next, s.perform event = some (result, next) ∧ next.Sound ∧
          s.Preserves result next event := by
  have hstep : ∀ (s : Pool) (event : PoolEvent), s.PoolInv →
      s.Allowed event ∧ s.withinClasses event = true →
      ∃ next, s.step event = some next ∧ next.PoolInv := by
    intro s event h hg
    obtain ⟨result, next, hperform, hinv, -⟩ := h.perform event hg.1 hg.2
    exact ⟨next, by simp [step, hperform], hinv⟩
  obtain ⟨s, hrun, hinv⟩ := Runs.run_progress hstep (poolInv_init mem) hguard
  refine ⟨s, hrun, hinv.sound, fun event hallowed hclass => ?_⟩
  obtain ⟨result, next, hperform, hnext, hpreserves⟩ := hinv.perform event hallowed hclass
  exact ⟨result, next, hperform, hnext.sound, hpreserves⟩

/-- A block moves from the small allocator to a class above it and on to `malloc`,
and is freed. -/
def growingBlock : List PoolEvent :=
  [.allocate 1000 ⟨some 4096, none, none⟩,
    .write 4104 999 7,
    .reallocate 4104 5000 ⟨none, none, none⟩,
    .reallocate 8200 200000 ⟨none, none, some 4000000⟩,
    .deallocate 4000008]

theorem sound_of_run_growingBlock :
    Runs.Guarded step (fun s event => s.Allowed event ∧ s.withinClasses event = true)
      (init fun _ => 0) growingBlock ∧
    ∃ s, Runs.run step (init fun _ => 0) growingBlock = some s ∧ s.Sound := by
  have hguard : Runs.Guarded step (fun s event => s.Allowed event ∧ s.withinClasses event = true)
      (init fun _ => 0) growingBlock := by decide +kernel
  obtain ⟨s, hrun, hsound, -⟩ := sound_of_run (fun _ => 0) growingBlock hguard
  exact ⟨hguard, s, hrun, hsound⟩

/-- The largest block that still comes from a chunk grows by one byte. -/
def crossingBlock : List PoolEvent :=
  [.allocate 131064 ⟨some 4096, none, none⟩, .reallocate 4104 131065 ⟨none, none, none⟩]

/-- The callers follow the rules, and the block they get overlaps the chunk tail. -/
theorem not_sound_crossingBlock :
    Runs.Guarded step Allowed (init fun _ => 0) crossingBlock ∧
    ∃ s, Runs.run step (init fun _ => 0) crossingBlock = some s ∧
      ⟨4104, 131065⟩ ∈ s.live ∧ ¬ s.Sound := by
  have hoverlap : (Runs.run step (init fun _ => 0) crossingBlock).any (fun s =>
      decide (⟨4104, 131065⟩ ∈ s.live) && !decide (s.ranges.Pairwise Range.Disjoint)) = true := by
    decide +kernel
  obtain ⟨s, hrun, hs⟩ := (Option.any_eq_true _ _).mp hoverlap
  simp only [Bool.and_eq_true, decide_eq_true_eq, Bool.not_eq_true', decide_eq_false_iff_not] at hs
  exact ⟨by decide +kernel, s, hrun, hs.1, fun h => hs.2 h.disjoint⟩

end Pool

end Pronet.Shared
