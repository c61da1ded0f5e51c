import Pronet.Shared.SgiAlloc

/-! What the allocator does to memory, as accounting. The reserve of an allocator
is the memory on its free lists and its unused chunk tail. Every operation turns
coverage by the reserve, or by a new chunk, into coverage by the block it returns,
and stores only into memory of the reserve. -/
namespace Pronet.Shared

open Library.Ranges SizeClass

namespace Alloc

/-- The objects on list `i`. -/
def cells (i : Nat) (list : List Nat) : List Range := list.map fun p => ⟨p, objSize i⟩

def freeCells (a : Alloc) : List Range :=
  (List.range nFreeLists).flatMap fun i => cells i (a.freeList i)

def tail (a : Alloc) : Range := ⟨a.startFree, a.bytesLeft⟩

def reserve (a : Alloc) : List Range := a.tail :: a.freeCells

theorem cover_freeCells (a : Alloc) (x : Nat) :
    cover a.freeCells x = ∑ i ∈ Finset.range nFreeLists, cover (cells i (a.freeList i)) x := by
  have hsum : ∀ n, cover ((List.range n).flatMap fun i => cells i (a.freeList i)) x =
      ∑ i ∈ Finset.range n, cover (cells i (a.freeList i)) x := by
    intro n
    induction n with
    | zero => rfl
    | succ n ih => simp [List.range_succ, Finset.sum_range_succ, ih]
  exact hsum nFreeLists

/-- Replacing one free list changes the coverage by the difference of the lists. -/
theorem cover_freeCells_update (a : Alloc) {i : Nat} (hi : i < nFreeLists) (list : List Nat)
    (x : Nat) :
    cover { a with freeList := Function.update a.freeList i list }.freeCells x +
        cover (cells i (a.freeList i)) x =
      cover a.freeCells x + cover (cells i list) x := by
  have hmem : i ∈ Finset.range nFreeLists := Finset.mem_range.mpr hi
  rw [cover_freeCells, cover_freeCells, ← Finset.add_sum_erase _ _ hmem,
    ← Finset.add_sum_erase (f := fun j => cover (cells j (a.freeList j)) x) _ hmem]
  have hothers : ∀ j ∈ (Finset.range nFreeLists).erase i,
      cover (cells j (Function.update a.freeList i list j)) x =
        cover (cells j (a.freeList j)) x := by
    intro j hj
    rw [Function.update_of_ne (Finset.ne_of_mem_erase hj)]
  rw [Finset.sum_congr rfl hothers]
  dsimp only
  rw [Function.update_self]
  omega

end Alloc

namespace Process

theorem mem_store_of_notMem {m : Process} {p : Nat} {bytes : List UInt8} {x : Nat}
    (h : x ∉ (⟨p, bytes.length⟩ : Range)) : (m.store p bytes).mem x = m.mem x :=
  if_neg h

@[simp] theorem length_wordBytes (width value : Nat) :
    (wordBytes width value).length = width := by
  simp [wordBytes]

@[simp] theorem chunks_storeLink (m : Process) (p link : Nat) :
    (m.storeLink p link).chunks = m.chunks := rfl

@[simp] theorem direct_storeLink (m : Process) (p link : Nat) :
    (m.storeLink p link).direct = m.direct := rfl

theorem mem_storeLink_of_notMem {m : Process} {p link x : Nat} {size : Nat} (hsize : 8 ≤ size)
    (h : x ∉ (⟨p, size⟩ : Range)) : (m.storeLink p link).mem x = m.mem x := by
  apply mem_store_of_notMem
  rw [length_wordBytes]
  intro hx
  apply h
  rw [Range.mem_def] at hx ⊢
  dsimp only at hx ⊢
  omega

end Process

/-- The regions obtained from the system do not overlap, and none has the null
address. -/
def Process.Regular (m : Process) : Prop := ∀ x, cover m.chunks x + cover m.direct x ≤ min x 1

/-- From `a, m` to `a', m'` the memory `got` has been taken out of the reserve or
of new chunks, and only memory of the reserve or of new chunks was written. -/
structure Spends (a : Alloc) (m : Process) (a' : Alloc) (m' : Process) (got : List Range) :
    Prop where
  account : ∀ x, cover a'.reserve x + cover got x + cover m.chunks x ≤
    cover a.reserve x + cover m'.chunks x
  frame : ∀ x, cover a.reserve x = 0 → cover m'.chunks x = cover m.chunks x →
    m'.mem x = m.mem x
  grows : ∀ x, cover m.chunks x ≤ cover m'.chunks x
  direct : m'.direct = m.direct

namespace Spends

theorem rfl' (a : Alloc) (m : Process) : Spends a m a m [] :=
  ⟨fun _ => by simp, fun _ _ _ => rfl, fun _ => Nat.le_refl _, rfl⟩

theorem trans {a a₁ a₂ : Alloc} {m m₁ m₂ : Process} {got : List Range}
    (h : Spends a m a₁ m₁ []) (h' : Spends a₁ m₁ a₂ m₂ got) : Spends a m a₂ m₂ got := by
  constructor
  · intro x
    have := h.account x
    have := h'.account x
    simp only [cover_nil] at *
    omega
  · intro x hreserve hchunks
    have hfirst := h.account x
    have hgrows := h.grows x
    have hgrows' := h'.grows x
    simp only [cover_nil] at hfirst
    rw [h'.frame x (by omega) (by omega), h.frame x hreserve (by omega)]
  · intro x
    exact Nat.le_trans (h.grows x) (h'.grows x)
  · exact h'.direct.trans h.direct

/-- Memory may also be forgotten. -/
theorem mono {a a' : Alloc} {m m' : Process} {got got' : List Range}
    (h : Spends a m a' m' got) (hle : ∀ x, cover got' x ≤ cover got x) :
    Spends a m a' m' got' := by
  refine ⟨fun x => ?_, h.frame, h.grows, h.direct⟩
  have := h.account x
  have := hle x
  omega

/-- Only the bookkeeping of the allocator changes. -/
theorem of_alloc {a a' : Alloc} {m : Process} {got : List Range}
    (h : ∀ x, cover a'.reserve x + cover got x ≤ cover a.reserve x) : Spends a m a' m got :=
  ⟨fun x => Nat.add_le_add_right (h x) _, fun _ _ _ => rfl, fun _ => Nat.le_refl _, rfl⟩

end Spends

namespace Alloc

theorem cover_reserve_push (a : Alloc) (m : Process) {i : Nat} (hi : i < nFreeLists) (p : Nat)
    (x : Nat) : cover (a.push m i p).1.reserve x =
      (⟨p, objSize i⟩ : Range).count x + cover a.reserve x := by
  have hupdate := cover_freeCells_update a hi (p :: a.freeList i) x
  have htail : (a.push m i p).1.tail = a.tail := rfl
  simp only [reserve, cover_cons, htail]
  simp only [push, cells, List.map_cons, cover_cons] at hupdate ⊢
  omega

/-- Moving the front of the tail to a free list. -/
theorem spends_pushTail (a : Alloc) (m : Process) {i : Nat} (hi : i < nFreeLists)
    (hleft : objSize i ≤ a.bytesLeft) :
    Spends a m { (a.push m i a.startFree).1 with startFree := a.startFree + objSize i }
      (a.push m i a.startFree).2 [] := by
  have hsize : a.bytesLeft = objSize i + (a.endFree - (a.startFree + objSize i)) := by
    unfold bytesLeft at *
    omega
  have hcut : ∀ x, a.tail.count x = (⟨a.startFree, objSize i⟩ : Range).count x +
      (⟨a.startFree + objSize i, a.endFree - (a.startFree + objSize i)⟩ : Range).count x := by
    intro x
    rw [tail, hsize, Range.count_split]
  constructor
  · intro x
    have hupdate := cover_freeCells_update a hi (a.startFree :: a.freeList i) x
    have hcutx := hcut x
    simp only [reserve, push, cells, List.map_cons, cover_cons, cover_nil, tail, bytesLeft,
      Process.chunks_storeLink, freeCells] at hupdate hcutx ⊢
    omega
  · intro x hreserve _
    apply Process.mem_storeLink_of_notMem (objSize_pos i hi)
    rw [← Range.count_eq_zero]
    have hcutx := hcut x
    simp only [reserve, cover_cons] at hreserve
    omega
  · intro x
    exact Nat.le_refl _
  · rfl

theorem spends_threadTail {i : Nat} (hi : i < nFreeLists) :
    ∀ (fuel : Nat) (a : Alloc) (m : Process),
      Spends a m (threadTail i fuel a m).1 (threadTail i fuel a m).2 [] ∧
        (threadTail i fuel a m).2.chunks = m.chunks := by
  intro fuel
  induction fuel with
  | zero =>
    intro a m
    exact ⟨Spends.rfl' a m, rfl⟩
  | succ fuel ih =>
    intro a m
    unfold threadTail
    split
    · rename_i hleft
      obtain ⟨hspends, hchunks⟩ := ih { (a.push m i a.startFree).1 with
        startFree := a.startFree + objSize i } (a.push m i a.startFree).2
      exact ⟨(spends_pushTail a m hi hleft).trans hspends, hchunks⟩
    · exact ⟨Spends.rfl' a m, rfl⟩

theorem spends_threadTails : ∀ (n : Nat), n ≤ nFreeLists → ∀ (a : Alloc) (m : Process),
    Spends a m (threadTails n a m).1 (threadTails n a m).2 [] ∧
      (threadTails n a m).2.chunks = m.chunks := by
  intro n
  induction n with
  | zero =>
    intro _ a m
    exact ⟨Spends.rfl' a m, rfl⟩
  | succ i ih =>
    intro hn a m
    unfold threadTails
    split
    · exact ⟨Spends.rfl' a m, rfl⟩
    · obtain ⟨hinner, hinnerChunks⟩ := spends_threadTail (i := i) (by omega) a.bytesLeft a m
      obtain ⟨houter, houterChunks⟩ := ih (by omega) (threadTail i a.bytesLeft a m).1
        (threadTail i a.bytesLeft a m).2
      exact ⟨hinner.trans houter, houterChunks.trans hinnerChunks⟩

theorem spends_advance (a : Alloc) (m : Process) {size : Nat} (h : size ≤ a.bytesLeft) :
    Spends a m { a with startFree := a.startFree + size } m [⟨a.startFree, size⟩] := by
  apply Spends.of_alloc
  intro x
  have hsize : a.bytesLeft = size + (a.endFree - (a.startFree + size)) := by
    unfold bytesLeft at *
    omega
  have hcut : a.tail.count x = (⟨a.startFree, size⟩ : Range).count x +
      (⟨a.startFree + size, a.endFree - (a.startFree + size)⟩ : Range).count x := by
    rw [tail, hsize, Range.count_split]
  simp only [reserve, cover_cons, cover_nil, tail, bytesLeft, freeCells] at hcut ⊢
  omega

theorem objCount_pos {size nobjs : Nat} (hsize : 0 < size) (hnobjs : 0 < nobjs) :
    0 < objCount size nobjs := by
  unfold objCount
  split
  · exact Nat.one_pos
  · split
    · rw [Nat.div_pos_iff]
      omega
    · exact hnobjs

/-- With room for one object `_S_chunk_alloc` carves it from the tail. -/
theorem chunkAlloc_of_le {size : Nat} (hsize : 0 < size) (answers : MallocAnswers) (fuel : Nat)
    {nobjs : Nat} (hnobjs : 0 < nobjs) (a : Alloc) (m : Process) (h : size ≤ a.bytesLeft) :
    ∃ n, 1 ≤ n ∧ size * n ≤ a.bytesLeft ∧ chunkAlloc size answers (fuel + 1) nobjs a m =
      some ⟨some a.startFree, n, { a with startFree := a.startFree + size * n }, m⟩ := by
  unfold chunkAlloc
  dsimp only
  split
  · rename_i hfits
    exact ⟨_, objCount_pos hsize hnobjs, hfits, rfl⟩
  · exact ⟨_, (Nat.one_le_div_iff hsize).mpr h, Nat.mul_div_le a.bytesLeft size, rfl⟩

theorem spends_carveFrom_chunk (a : Alloc) (m : Process) (p size heapSize : Nat) :
    Spends a m { a.carveFrom p size with heapSize := heapSize }
      { m with chunks := ⟨p, size⟩ :: m.chunks } [] := by
  constructor
  · intro x
    simp only [reserve, cover_cons, cover_nil, tail, bytesLeft, carveFrom, freeCells]
    have hsame : p + size - p = size := by omega
    rw [hsame]
    omega
  · intro x _ _
    rfl
  · intro x
    rw [cover_cons]
    omega
  · rfl

theorem spends_carveFrom_nothing (a : Alloc) (m : Process) : Spends a m (a.carveFrom 0 0) m [] := by
  apply Spends.of_alloc
  intro x
  simp [reserve, tail, bytesLeft, carveFrom, freeCells]

/-- An object taken off a free list becomes the tail. -/
theorem spends_carveFrom_object (a : Alloc) (m : Process) {j : Nat} (hj : j < nFreeLists)
    {p : Nat} {rest : List Nat} (hlist : a.freeList j = p :: rest) :
    Spends a m ({ a with freeList := Function.update a.freeList j rest }.carveFrom p (objSize j))
      m [] := by
  apply Spends.of_alloc
  intro x
  have hupdate := cover_freeCells_update a hj rest x
  have hsame : p + objSize j - p = objSize j := Nat.add_sub_cancel_left p (objSize j)
  simp only [hlist, cells, List.map_cons, cover_cons] at hupdate
  simp only [reserve, cover_cons, cover_nil, tail, bytesLeft, carveFrom, hsame, freeCells]
    at hupdate ⊢
  omega

end Alloc

/-- A region that `malloc` may return: it overlaps nothing that is in use. -/
def Process.Fresh (m : Process) (r : Range) : Prop :=
  0 < r.start ∧ ∀ r' ∈ m.chunks ++ m.direct, r.Disjoint r'

instance (m : Process) (r : Range) : Decidable (m.Fresh r) :=
  inferInstanceAs (Decidable (0 < r.start ∧ ∀ r' ∈ m.chunks ++ m.direct, r.Disjoint r'))

/-- The answers for chunks are fresh regions. -/
def MallocAnswers.FreshChunks (answers : MallocAnswers) (m : Process) : Prop :=
  (∀ p ∈ answers.chunk, m.Fresh ⟨p, chunkSize⟩) ∧
    ∀ p ∈ answers.halfChunk, m.Fresh ⟨p, chunkSize / 2⟩

instance (answers : MallocAnswers) (m : Process) : Decidable (answers.FreshChunks m) :=
  inferInstanceAs (Decidable ((∀ p ∈ answers.chunk, m.Fresh ⟨p, chunkSize⟩) ∧
    ∀ p ∈ answers.halfChunk, m.Fresh ⟨p, chunkSize / 2⟩))

theorem Process.Regular.addChunk {m : Process} (h : m.Regular) {r : Range} (hfresh : m.Fresh r) :
    { m with chunks := r :: m.chunks }.Regular := by
  intro x
  have hold := h x
  by_cases hx : x ∈ r
  · have hzero := cover_eq_zero_of_disjoint hfresh.2 hx
    have hone := r.count_le_one x
    have hpos := Nat.lt_of_lt_of_le hfresh.1 hx.1
    simp only [cover_append, cover_cons] at hzero ⊢
    omega
  · simp only [cover_cons, Range.count_eq_zero.mpr hx]
    omega

theorem Process.Regular.addDirect {m : Process} (h : m.Regular) {r : Range} (hfresh : m.Fresh r) :
    { m with direct := r :: m.direct }.Regular := by
  intro x
  have hold := h x
  by_cases hx : x ∈ r
  · have hzero := cover_eq_zero_of_disjoint hfresh.2 hx
    have hone := r.count_le_one x
    have hpos := Nat.lt_of_lt_of_le hfresh.1 hx.1
    simp only [cover_append, cover_cons] at hzero ⊢
    omega
  · simp only [cover_cons, Range.count_eq_zero.mpr hx]
    omega

namespace Alloc

/-- `_S_chunk_alloc` for a class size: it returns, having spent memory of the
reserve or of a fresh chunk on the objects it hands out. -/
theorem chunkAlloc_spec {size : Nat} (hsize : 8 ≤ size) (hmax : size ≤ maxBytes)
    (answers : MallocAnswers) {nobjs : Nat} (hnobjs : 0 < nobjs) (a : Alloc) (m : Process)
    (hregular : m.Regular) (hfresh : answers.FreshChunks m) :
    ∃ c, chunkAlloc size answers 2 nobjs a m = some c ∧ c.process.Regular ∧
      Spends a m c.alloc c.process (c.result.toList.map fun p => ⟨p, size * c.nobjs⟩) ∧
      (c.result.isSome = true → 1 ≤ c.nobjs) := by
  have hcarve : ∀ (fuel : Nat) {n : Nat} (hn : 0 < n) (a' : Alloc) (m' : Process), m'.Regular →
      Spends a m a' m' [] → size ≤ a'.bytesLeft →
      ∃ c, chunkAlloc size answers (fuel + 1) n a' m' = some c ∧ c.process.Regular ∧
        Spends a m c.alloc c.process (c.result.toList.map fun p => ⟨p, size * c.nobjs⟩) ∧
        (c.result.isSome = true → 1 ≤ c.nobjs) := by
    intro fuel n hn a' m' hregular' hspends hleft
    obtain ⟨k, hk, hfits, heq⟩ := chunkAlloc_of_le (by omega) answers fuel hn a' m' hleft
    exact ⟨_, heq, hregular', hspends.trans (spends_advance a' m' hfits), fun _ => hk⟩
  by_cases hleft : size ≤ a.bytesLeft
  · exact hcarve 1 hnobjs a m hregular (Spends.rfl' a m) hleft
  · have hindex := freelistIndex_lt a.bytesLeft
    obtain ⟨hthread, hchunks⟩ := spends_threadTails (freelistIndex a.bytesLeft + 1) hindex a m
    have hcount : 0 < objCount size nobjs := objCount_pos (by omega) hnobjs
    have htoo : ¬ size * objCount size nobjs ≤ a.bytesLeft := by
      intro hfits
      have hmul := Nat.le_mul_of_pos_right size hcount
      omega
    unfold chunkAlloc
    dsimp only
    rw [if_neg htoo, if_neg hleft]
    generalize hr : threadTails (freelistIndex a.bytesLeft + 1) a m = r at hthread hchunks
    obtain ⟨a', m'⟩ := r
    dsimp only at hthread hchunks ⊢
    have hregular' : m'.Regular := by
      unfold Process.Regular
      rw [hchunks, hthread.direct]
      exact hregular
    have hfresh' : ∀ r, m.Fresh r → m'.Fresh r := by
      intro r hr
      unfold Process.Fresh
      rw [hchunks, hthread.direct]
      exact hr
    split
    · rename_i p hchunk
      apply hcarve 0 hcount
      · exact hregular'.addChunk (hfresh' _ (hfresh.1 p (by rw [hchunk]; rfl)))
      · exact hthread.trans (spends_carveFrom_chunk a' m' p chunkSize _)
      · have hroom : maxBytes ≤ chunkSize := by decide
        simp only [bytesLeft, carveFrom]
        omega
    · rename_i p hchunk hhalf
      apply hcarve 0 hcount
      · exact hregular'.addChunk (hfresh' _ (hfresh.2 p (by rw [hhalf]; rfl)))
      · exact hthread.trans (spends_carveFrom_chunk a' m' p (chunkSize / 2) _)
      · have hroom : maxBytes ≤ chunkSize / 2 := by decide
        simp only [bytesLeft, carveFrom]
        omega
    · have hnothing := hthread.trans (spends_carveFrom_nothing a' m')
      split
      · exact ⟨_, rfl, hregular', hnothing, fun h => by cases h⟩
      · rename_i j larger hlarger
        have hj : j ∈ (List.range nFreeLists).filter fun j =>
            decide (freelistIndex size ≤ j) && !((a'.carveFrom 0 0).freeList j).isEmpty := by
          rw [hlarger]
          exact List.mem_cons_self
        simp only [List.mem_filter, List.mem_range, Bool.and_eq_true, decide_eq_true_eq] at hj
        split
        · exact ⟨_, rfl, hregular', hnothing, fun h => by cases h⟩
        · rename_i p rest hlist
          apply hcarve 0 hcount
          · exact hregular'
          · exact hnothing.trans (spends_carveFrom_object _ m' hj.1 hlist)
          · have hclass : roundUp size ≤ objSize j := objSize_mono hj.1 hj.2.1
            have hround := le_roundUp hmax
            simp only [bytesLeft, carveFrom]
            omega

/-- A run of objects is the first of them and the others behind it. -/
theorem count_objects (p : Nat) (size n x : Nat) :
    (⟨p, size * (n + 1)⟩ : Range).count x = (⟨p, size⟩ : Range).count x +
      cover ((laterObjs p size n).map fun q => (⟨q, size⟩ : Range)) x := by
  induction n with
  | zero => simp [laterObjs]
  | succ n ih =>
    have hsize : size * (n + 1 + 1) = size * (n + 1) + size := by ring
    have hsucc : laterObjs p size (n + 1) = laterObjs p size n ++ [p + size * (n + 1)] := by
      simp [laterObjs, List.range_succ]
    rw [hsize, Range.count_split, ih, hsucc, List.map_append, cover_append]
    simp only [List.map_cons, List.map_nil, cover_cons, cover_nil]
    omega

theorem chunks_storeLinks (objs : List Nat) (m : Process) :
    (storeLinks m objs).chunks = m.chunks ∧ (storeLinks m objs).direct = m.direct := by
  induction objs generalizing m with
  | nil => exact ⟨rfl, rfl⟩
  | cons p rest ih => exact ih (m.storeLink p (rest.headD 0))

theorem mem_storeLinks {size x : Nat} (hsize : 8 ≤ size) (objs : List Nat) (m : Process)
    (h : cover (objs.map fun p => (⟨p, size⟩ : Range)) x = 0) :
    (storeLinks m objs).mem x = m.mem x := by
  induction objs generalizing m with
  | nil => rfl
  | cons p rest ih =>
    simp only [List.map_cons, cover_cons] at h
    rw [storeLinks, ih (m.storeLink p (rest.headD 0)) (by omega)]
    apply Process.mem_storeLink_of_notMem hsize
    exact Range.count_eq_zero.mp (by omega)

/-- `_S_refill` for a class size: the first object is handed out and the others
go to the free list of the class. -/
theorem refill_spec {size : Nat} (hclass : roundUp size = size) (answers : MallocAnswers)
    (a : Alloc) (m : Process) (hregular : m.Regular) (hfresh : answers.FreshChunks m) :
    ∃ result a' m', a.refill m size answers = some (result, a', m') ∧ m'.Regular ∧
      Spends a m a' m' (result.toList.map fun p => ⟨p, size⟩) := by
  have hsize : 8 ≤ size := hclass ▸ roundUp_pos size
  obtain ⟨⟨result, nobjs, b, mb⟩, hchunk, hregular', hspends, hone⟩ :=
    chunkAlloc_spec hsize (hclass ▸ roundUp_le size) answers (by decide : 0 < 20) a m
      hregular hfresh
  dsimp only at hregular' hspends hone
  unfold refill
  rw [hchunk]
  simp only [Option.bind_eq_bind, Option.bind_some]
  cases result with
  | none => exact ⟨none, b, mb, rfl, hregular', hspends⟩
  | some p =>
    simp only [Option.toList_some, List.map_cons, List.map_nil] at hspends ⊢
    have hpos : 1 ≤ nobjs := hone rfl
    split
    · rename_i heq
      rw [heq, Nat.mul_one] at hspends
      exact ⟨some p, b, mb, rfl, hregular', hspends⟩
    · obtain ⟨hchunks, hdirect⟩ := chunks_storeLinks (laterObjs p size (nobjs - 1)) mb
      have hobjects := count_objects p size (nobjs - 1)
      rw [Nat.sub_add_cancel hpos] at hobjects
      refine ⟨some p, _, _, rfl, ?_, ?_⟩
      · unfold Process.Regular
        rw [hchunks, hdirect]
        exact hregular'
      · have hindex := freelistIndex_lt size
        have hobj : objSize (freelistIndex size) = size := hclass
        refine ⟨fun x => ?_, fun x hreserve hsame => ?_, fun x => ?_, hdirect.trans hspends.direct⟩
        · have haccount := hspends.account x
          have hupdate := cover_freeCells_update b hindex (laterObjs p size (nobjs - 1)) x
          have hsum := hobjects x
          rw [hchunks]
          simp only [cells, hobj] at hupdate
          simp only [reserve, cover_cons, cover_nil, tail, bytesLeft, freeCells,
            Option.toList_some, List.map_cons, List.map_nil] at haccount hupdate ⊢
          omega
        · rw [hchunks] at hsame
          have haccount := hspends.account x
          have hsum := hobjects x
          simp only [cover_cons, cover_nil] at haccount
          rw [mem_storeLinks hsize]
          · exact hspends.frame x hreserve hsame
          · omega
        · rw [hchunks]
          exact hspends.grows x

/-- A request up to the limit is served with a whole object of its class. -/
theorem allocate_spec {n : Nat} (hpos : 0 < n) (hmax : n ≤ maxBytes) (answers : MallocAnswers)
    (a : Alloc) (m : Process) (hregular : m.Regular) (hfresh : answers.FreshChunks m) :
    ∃ result a' m', a.allocate m n answers = some (result, a', m') ∧ m'.Regular ∧
      Spends a m a' m' (result.toList.map fun p => ⟨p, roundUp n⟩) := by
  unfold allocate
  rw [if_neg (by omega), if_neg (by omega)]
  have hindex := freelistIndex_lt n
  split
  · apply refill_spec _ answers a m hregular hfresh
    rw [roundUp, freelistIndex_roundUp, ← roundUp]
  · rename_i p rest hlist
    refine ⟨some p, _, m, rfl, hregular, Spends.of_alloc fun x => ?_⟩
    have hupdate := cover_freeCells_update a hindex rest x
    simp only [hlist, cells, List.map_cons, cover_cons] at hupdate
    simp only [reserve, cover_cons, cover_nil, tail, bytesLeft, freeCells, Option.toList_some,
      List.map_cons, List.map_nil, roundUp] at hupdate ⊢
    omega

end Alloc

end Pronet.Shared
