import Pronet.Util.ConfigText

/-! The scanner on positions reads what the reader on lists reads. Between a position
and a limit stands a segment of the buffer; each loop of the scanner is a list
function on it. -/
namespace Pronet.Util.ConfigStream

/-- The bytes from `p` up to `limit`. -/
def segment (buf : Bytes) (p limit : Nat) : Bytes := (buf.take limit).drop p

@[simp] theorem ok_bind {α β : Type} (a : α) (f : α → Except Fault β) :
    ((.ok a : Except Fault α) >>= f) = f a := rfl

@[simp] theorem error_bind {α β : Type} (e : Fault) (f : α → Except Fault β) :
    ((.error e : Except Fault α) >>= f) = .error e := rfl

variable {buf : Bytes} {p limit : Nat}

theorem segment_nil (h : limit ≤ p) : segment buf p limit = [] := by
  unfold segment
  rw [List.drop_eq_nil_iff, List.length_take]
  omega

theorem length_segment (hlimit : limit ≤ buf.length) : (segment buf p limit).length = limit - p := by
  unfold segment
  rw [List.length_drop, List.length_take]
  omega

/-- A position before the limit can be read, and its byte is the first of the segment. -/
theorem read_segment (h : p < limit) (hlimit : limit ≤ buf.length) :
    ∃ b, read buf p = .ok b ∧ segment buf p limit = b :: segment buf (p + 1) limit := by
  have hp : p < buf.length := by omega
  refine ⟨buf[p], ?_, ?_⟩
  · unfold read
    rw [List.getElem?_eq_getElem hp]
  · unfold segment
    rw [List.drop_eq_getElem_cons (by rw [List.length_take]; omega), List.getElem_take]

theorem segment_append {r : Nat} (hp : p ≤ r) (hr : r ≤ limit) (hlimit : limit ≤ buf.length) :
    segment buf p limit = segment buf p r ++ segment buf r limit := by
  have hsplit : buf.take limit = buf.take r ++ (buf.take limit).drop r := by
    have htake : (buf.take limit).take r = buf.take r := by rw [List.take_take, Nat.min_eq_left hr]
    rw [← htake, List.take_append_drop]
  unfold segment
  conv_lhs => rw [hsplit]
  rw [List.drop_append_of_le_length (by rw [List.length_take]; omega)]

theorem scan_spec (stop : UInt8 → Bool) (n : Nat) {p : Nat} (h : p + n = limit)
    (hlimit : limit ≤ buf.length) :
    ∃ r, scan stop buf n p = .ok r ∧ p ≤ r ∧ r ≤ limit ∧
      segment buf p r = (segment buf p limit).takeWhile (fun b => !stop b) ∧
      segment buf r limit = (segment buf p limit).dropWhile (fun b => !stop b) := by
  induction n generalizing p with
  | zero =>
    refine ⟨p, rfl, by omega, by omega, ?_, ?_⟩
    · rw [segment_nil (by omega), segment_nil (by omega)]
      rfl
    · rw [segment_nil (by omega)]
      rfl
  | succ n ih =>
    obtain ⟨b, hread, hcons⟩ := read_segment (show p < limit by omega) hlimit
    unfold scan
    rw [hread]
    by_cases hstop : stop b
    · refine ⟨p, ?_, Nat.le_refl p, by omega, ?_, ?_⟩
      · exact if_pos hstop
      · rw [segment_nil (Nat.le_refl p), hcons, List.takeWhile_cons_of_neg (by simp [hstop])]
      · rw [hcons, List.dropWhile_cons_of_neg (by simp [hstop])]
    · obtain ⟨r, hscan, hle, hr, htake, hdrop⟩ := ih (p := p + 1) (by omega)
      refine ⟨r, ?_, by omega, hr, ?_, ?_⟩
      · exact (if_neg hstop).trans hscan
      · obtain ⟨b', hread', hcons'⟩ : ∃ b, read buf p = .ok b ∧
            segment buf p r = b :: segment buf (p + 1) r := read_segment (by omega) (by omega)
        rw [hread, Except.ok.injEq] at hread'
        rw [hcons', ← hread', htake, hcons, List.takeWhile_cons_of_pos (by simp [hstop])]
      · rw [hdrop, hcons, List.dropWhile_cons_of_pos (by simp [hstop])]

theorem trimBack_spec (hp : p ≤ limit) (hlimit : limit ≤ buf.length) :
    ∃ l, trimBack buf p limit = .ok l ∧ p ≤ l ∧ l ≤ limit ∧
      segment buf p l = (segment buf p limit).rdropWhile isBlank := by
  induction limit with
  | zero =>
    refine ⟨0, rfl, hp, Nat.le_refl 0, ?_⟩
    rw [segment_nil (by omega)]
    rfl
  | succ limit ih =>
    unfold trimBack
    by_cases hle : p ≤ limit
    · rw [if_pos hle]
      obtain ⟨b, hread, hcons⟩ := read_segment (Nat.lt_succ_self limit) hlimit
      have hlast : segment buf p (limit + 1) = segment buf p limit ++ [b] := by
        rw [segment_append hle (Nat.le_succ limit) hlimit, hcons, segment_nil (Nat.le_refl _)]
      rw [hread, hlast]
      by_cases hblank : isBlank b
      · obtain ⟨l, htrim, hl, hlt, hsegment⟩ := ih hle (by omega)
        refine ⟨l, ?_, hl, by omega, ?_⟩
        · exact (if_pos hblank).trans htrim
        · rw [hsegment, List.rdropWhile_concat_pos _ _ _ hblank]
      · refine ⟨limit + 1, ?_, by omega, Nat.le_refl _, ?_⟩
        · exact if_neg hblank
        · rw [hlast, List.rdropWhile_concat_neg _ _ _ hblank]
    · rw [if_neg hle]
      refine ⟨limit + 1, rfl, hp, Nat.le_refl _, ?_⟩
      rw [segment_nil (by omega)]
      rfl

theorem startsSlashes_eq (h : p < limit) (hlimit : limit ≤ buf.length) {b : UInt8} {bs : Bytes}
    (hcons : segment buf p limit = b :: bs) :
    startsSlashes buf p limit = .ok (b == 47 && bs.head? == some 47) := by
  obtain ⟨b0, hread, hcons0⟩ := read_segment h hlimit
  rw [hcons, List.cons.injEq] at hcons0
  obtain ⟨rfl, rfl⟩ := hcons0
  unfold startsSlashes
  split
  · rename_i hnext
    obtain ⟨b1, hread1, hcons1⟩ := read_segment hnext hlimit
    rw [hread, hcons1]
    simp only [bind, Except.bind, hread1, List.head?_cons]
    by_cases hslash : b == 47
    · simp [hslash]
    · simp [hslash]
  · rw [segment_nil (by omega)]
    simp

theorem startsComment_eq (h : p < limit) (hlimit : limit ≤ buf.length) :
    startsComment buf p limit = .ok (isComment (segment buf p limit)) := by
  obtain ⟨b, hread, hcons⟩ := read_segment h hlimit
  unfold startsComment
  rw [startsSlashes_eq h hlimit hcons, hcons]
  unfold isComment
  simp only [bind, Except.bind, hread]
  split
  · rename_i hslashes
    rw [hslashes]
    rfl
  · rename_i hslashes
    rw [Bool.not_eq_true] at hslashes
    rw [hslashes, Bool.false_or]

theorem closed_eq (hlimit : limit ≤ buf.length) :
    closed buf p limit = .ok (isClosed (segment buf p limit)) := by
  unfold closed isClosed
  split
  · rename_i hend
    rw [segment_nil hend]
    rfl
  · obtain ⟨b, -, hcons⟩ := read_segment (show p < limit by omega) hlimit
    rw [startsComment_eq (by omega) hlimit, hcons]
    rfl

theorem int32_le (n : Nat) : int32 n ≤ n := by
  unfold int32
  rw [Int.bmod_def]
  split <;> omega

/-- A text that is copied, or the fault of its copy. -/
def copyOf (text : Bytes) : Except Fault Bytes :=
  if int32 text.length < 0 then .error .lengthError else .ok (cut text)

theorem assign_eq {r : Nat} (hr : r ≤ buf.length) : assign buf p r = copyOf (segment buf p r) := by
  have hle : (int32 (r - p)).toNat ≤ r - p := by
    have h := int32_le (r - p)
    omega
  unfold assign copyOf cut
  rw [length_segment hr]
  split
  · rfl
  · unfold segment
    rw [List.drop_take, List.take_take, Nat.min_eq_left hle]

theorem splitQuoted_of_ne {b : UInt8} (h : ¬(b == quote) = true) (bs : Bytes) :
    splitQuoted (b :: bs) = none := if_neg h

theorem splitQuoted_of_open {b : UInt8} (h : (b == quote) = true) {bs : Bytes}
    (hopen : bs.dropWhile (· != quote) = []) : splitQuoted (b :: bs) = none := by
  unfold splitQuoted
  simp only
  rw [if_pos h, hopen]

theorem splitQuoted_of_closed {b q : UInt8} (h : (b == quote) = true) {bs rest : Bytes}
    (hclosed : bs.dropWhile (· != quote) = q :: rest) :
    splitQuoted (b :: bs) = some (bs.takeWhile (· != quote), rest.dropWhile isGap) := by
  unfold splitQuoted
  simp only
  rw [if_pos h, hclosed]

/-- A round of the scanner copies what stands between the quotes. -/
theorem quoted_spec (h : p < limit) (hlimit : limit ≤ buf.length) :
    (splitQuoted (segment buf p limit) = none ∧ quoted buf p limit = .ok none) ∨
      ∃ text rest next, splitQuoted (segment buf p limit) = some (text, rest) ∧ p < next ∧
        next ≤ limit ∧ segment buf next limit = rest ∧
        quoted buf p limit = (copyOf text).map fun text => some (text, next) := by
  obtain ⟨b, hread, hcons⟩ := read_segment h hlimit
  unfold quoted
  rw [hread, hcons, ok_bind]
  by_cases hquote : (b == quote) = true
  · rw [if_pos hquote]
    by_cases hend : limit ≤ p + 1
    · left
      rw [segment_nil hend, if_pos hend]
      exact ⟨splitQuoted_of_open hquote rfl, rfl⟩
    · obtain ⟨r, hscan, hle, hr, htake, hdrop⟩ := scan_spec (· == quote) (limit - (p + 1))
        (show p + 1 + (limit - (p + 1)) = limit by omega) hlimit
      rw [if_neg hend, hscan, ok_bind]
      by_cases hopen : limit ≤ r
      · left
        rw [if_pos hopen]
        refine ⟨splitQuoted_of_open hquote ?_, rfl⟩
        rw [segment_nil hopen] at hdrop
        exact hdrop.symm
      · right
        obtain ⟨q, -, hconsr⟩ := read_segment (show r < limit by omega) hlimit
        obtain ⟨next, hnext, hlenext, hnextle, -, hgap⟩ := scan_spec (fun b => !isGap b)
          (limit - (r + 1)) (show r + 1 + (limit - (r + 1)) = limit by omega) hlimit
        rw [hconsr] at hdrop
        simp only [Bool.not_not] at hgap
        refine ⟨segment buf (p + 1) r, segment buf next limit, next, ?_, by omega, hnextle, rfl, ?_⟩
        · rw [splitQuoted_of_closed hquote hdrop.symm, hgap, htake]
          rfl
        · rw [if_neg hopen, assign_eq (by omega)]
          cases copyOf (segment buf (p + 1) r) with
          | error fault => rfl
          | ok text =>
            rw [ok_bind, hnext]
            rfl
  · left
    rw [if_neg hquote]
    exact ⟨splitQuoted_of_ne hquote _, rfl⟩

@[simp] theorem cut_nil : cut [] = [] := List.take_nil

theorem Line.cut_item (name value : Bytes) : (Line.item ⟨name, value⟩).cut =
    .item ⟨ConfigStream.cut name, ConfigStream.cut value⟩ := rfl

theorem copied_of_neg {texts : List Bytes} {text : Bytes} (hmem : text ∈ texts)
    (hneg : int32 text.length < 0) (line : Line) : copied (texts, line) = .error .lengthError := by
  have hall : ¬(texts.all fun text => decide (0 ≤ int32 text.length)) = true := by
    intro hall
    have hfits := of_decide_eq_true (List.all_eq_true.mp hall text hmem)
    omega
  exact if_neg hall

theorem copied_of_fits {texts : List Bytes} (hfits : ∀ text ∈ texts, ¬int32 text.length < 0)
    (line : Line) : copied (texts, line) = .ok line.cut := by
  apply if_pos
  rw [List.all_eq_true]
  intro text hmem
  have h := hfits text hmem
  exact decide_eq_true (by omega)

theorem copyOf_of_neg {text : Bytes} (h : int32 text.length < 0) :
    copyOf text = .error .lengthError := if_pos h

theorem copyOf_of_fits {text : Bytes} (h : ¬int32 text.length < 0) : copyOf text = .ok (cut text) :=
  if_neg h

/-- The two rounds of the loop over name and value. -/
theorem scanItem_eq (h : p < limit) (hlimit : limit ≤ buf.length) :
    scanItem buf p limit = copied (itemOf (segment buf p limit)) := by
  unfold scanItem itemOf
  obtain ⟨hnone, hquoted⟩ | ⟨name, rest, next, hsome, hlt, hle, hrest, hquoted⟩ :=
    quoted_spec h hlimit
  · rw [hnone, hquoted, ok_bind]
    exact (copied_of_fits (fun text hmem => by cases hmem) .corrupt).symm
  · rw [hsome, hquoted]
    dsimp only
    by_cases hname : int32 name.length < 0
    · rw [copyOf_of_neg hname]
      have hfault : ∀ line, copied ([name], line) = .error .lengthError :=
        fun line => copied_of_neg (List.mem_singleton_self _) hname line
      by_cases hclosed : isClosed rest = true
      · rw [if_pos hclosed, hfault]
        rfl
      · rw [if_neg hclosed]
        cases hvalue : splitQuoted rest with
        | none =>
          rw [hfault]
          rfl
        | some split =>
          rw [copied_of_neg List.mem_cons_self hname]
          rfl
    · have hsingle : ∀ text ∈ [name], ¬int32 text.length < 0 := by
        intro text hmem
        rw [List.mem_singleton] at hmem
        exact hmem ▸ hname
      have hmap : (Except.map (fun text => some (text, next)) (Except.ok (cut name)) :
          Except Fault _) = .ok (some (cut name, next)) := rfl
      rw [copyOf_of_fits hname, hmap, ok_bind]
      dsimp only
      rw [closed_eq hlimit, hrest, ok_bind]
      by_cases hclosed : isClosed rest = true
      · rw [if_pos hclosed, if_pos hclosed, copied_of_fits hsingle]
        rw [Line.cut_item, cut_nil]
      · rw [if_neg hclosed, if_neg hclosed]
        have hopen : next < limit := by
          by_contra hend
          rw [← hrest, segment_nil (by omega)] at hclosed
          exact hclosed rfl
        obtain ⟨hnone, hquoted'⟩ | ⟨value, rest', next', hsome', hlt', hle', hrest', hquoted'⟩ :=
          quoted_spec hopen hlimit
        · rw [hrest] at hnone
          rw [hnone, hquoted', ok_bind, copied_of_fits hsingle]
          rfl
        · rw [hrest] at hsome'
          rw [hsome', hquoted']
          dsimp only
          by_cases hvalue : int32 value.length < 0
          · rw [copyOf_of_neg hvalue, copied_of_neg (List.mem_cons_of_mem _ (List.mem_singleton_self _)) hvalue]
            rfl
          · have hmap' : (Except.map (fun text => some (text, next')) (Except.ok (cut value)) :
                Except Fault _) = .ok (some (cut value, next')) := rfl
            rw [copyOf_of_fits hvalue, hmap', ok_bind]
            dsimp only
            rw [closed_eq hlimit, hrest', ok_bind, copied_of_fits]
            · split <;> rfl
            · intro text hmem
              rcases List.mem_cons.mp hmem with rfl | hmem
              · exact hname
              · rw [List.mem_singleton] at hmem
                exact hmem ▸ hvalue

/-- A line behind the byte order mark. -/
theorem scanLine_true (hp : p ≤ limit) (hlimit : limit ≤ buf.length) (charSigned : Bool) :
    scanLine charSigned true buf p limit = copied (lineOf (segment buf p limit)) := by
  obtain ⟨start, hscan, hle, hstart, -, hdrop⟩ := scan_spec (fun b => !isBlank b) (limit - p)
    (show p + (limit - p) = limit by omega) hlimit
  obtain ⟨finish, htrim, hfinish, hfinishLe, hback⟩ := trimBack_spec hstart hlimit
  have hstrip : segment buf start finish = strip (segment buf p limit) := by
    unfold strip
    rw [hback, hdrop]
    simp only [Bool.not_not]
  have hfinishLimit : finish ≤ buf.length := by omega
  unfold scanLine lineOf
  rw [if_pos rfl, ok_bind]
  dsimp only
  rw [hscan, ok_bind, htrim, ok_bind, ← hstrip]
  unfold isClosed
  by_cases hempty : finish ≤ start
  · rw [if_pos hempty, segment_nil hempty]
    exact (copied_of_fits (fun text hmem => by cases hmem) .skipped).symm
  · have hlt : start < finish := by omega
    obtain ⟨b, -, hcons⟩ := read_segment hlt hfinishLimit
    rw [if_neg hempty, startsComment_eq hlt hfinishLimit, ok_bind]
    have hsome : (segment buf start finish).isEmpty = false := by rw [hcons]; rfl
    rw [hsome, Bool.false_or]
    split
    · exact (copied_of_fits (fun text hmem => by cases hmem) .skipped).symm
    · exact scanItem_eq hlt hfinishLimit

theorem scanLine_false {charSigned : Bool} {start : Nat}
    (hskip : skipBom charSigned buf p limit = .ok start) :
    scanLine charSigned false buf p limit = scanLine charSigned true buf start limit := by
  unfold scanLine
  rw [if_neg Bool.false_ne_true, hskip]
  rfl

def bomBytes : Bytes := [0xEF, 0xBB, 0xBF]

theorem promote_signed (b : UInt8) : promote true b < 128 := by
  have h := b.toNat_lt
  unfold promote
  simp only [Bool.true_and, decide_eq_true_eq]
  split <;> omega

theorem promote_unsigned (b : UInt8) : promote false b = b.toNat := rfl

theorem skipBom_signed (hlimit : limit ≤ buf.length) (p : Nat) :
    skipBom true buf p limit = .ok p := by
  unfold skipBom
  split
  · obtain ⟨b, hread, -⟩ : ∃ b, read buf p = .ok b ∧
        segment buf p limit = b :: segment buf (p + 1) limit := read_segment (by omega) hlimit
    have hb := promote_signed b
    rw [hread, ok_bind, if_neg (by omega)]
  · rfl

theorem promote_eq_iff (b c : UInt8) : promote false b = c.toNat ↔ b = c := by
  rw [promote_unsigned, Int.natCast_inj, UInt8.toNat_inj]

theorem skipBom_unsigned (hlimit : limit ≤ buf.length) (p : Nat) :
    skipBom false buf p limit =
      .ok (if bomBytes <+: segment buf p limit then p + 3 else p) := by
  have h0 : ∀ b, promote false b = 0xEF ↔ b = 0xEF := fun b => promote_eq_iff b 0xEF
  have h1 : ∀ b, promote false b = 0xBB ↔ b = 0xBB := fun b => promote_eq_iff b 0xBB
  have h2 : ∀ b, promote false b = 0xBF ↔ b = 0xBF := fun b => promote_eq_iff b 0xBF
  unfold skipBom
  simp only [h0, h1, h2]
  by_cases hlong : p + 2 < limit
  · obtain ⟨b0, hread0, hcons0⟩ := read_segment (show p < limit by omega) hlimit
    obtain ⟨b1, hread1, hcons1⟩ := read_segment (show p + 1 < limit by omega) hlimit
    obtain ⟨b2, hread2, hcons2⟩ := read_segment (show p + 1 + 1 < limit by omega) hlimit
    have hpre : bomBytes <+: segment buf p limit ↔ b0 = 0xEF ∧ b1 = 0xBB ∧ b2 = 0xBF := by
      unfold bomBytes
      rw [hcons0, hcons1, hcons2]
      simp [List.cons_prefix_cons, eq_comm]
    rw [if_pos hlong, hread0, ok_bind]
    simp only [hpre]
    by_cases hb0 : b0 = 0xEF
    · by_cases hb1 : b1 = 0xBB
      · rw [if_pos hb0, hread1, ok_bind, if_pos hb1, hread2, ok_bind]
        simp only [hb0, hb1, true_and]
      · rw [if_pos hb0, hread1, ok_bind, if_neg hb1, if_neg (fun h => hb1 h.2.1)]
    · rw [if_neg hb0, if_neg (fun h => hb0 h.1)]
  · have hshort : ¬ bomBytes <+: segment buf p limit := by
      intro hpre
      have hlength := hpre.length_le
      rw [length_segment hlimit] at hlength
      have hthree : bomBytes.length = 3 := rfl
      omega
    rw [if_neg hlong, if_neg hshort]

end Pronet.Util.ConfigStream
