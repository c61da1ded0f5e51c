import Pronet.Util.ConfigScan

/-! The scanner reads the lines of its text. A line feed that the scanner takes for the
end of the line before it would have been an empty line. -/
namespace Pronet.Util.ConfigStream

/-- What ends a line, in front of the rest of the text. -/
inductive Terminator : Bytes → Bytes → Prop
  | crlf (rest : Bytes) : Terminator [13, 10] rest
  | lf (rest : Bytes) : Terminator [10] rest
  | lflf (rest : Bytes) : Terminator [10, 10] rest
  | cr {rest : Bytes} (h : rest.head? ≠ some 10) : Terminator [13] rest
  | stop : Terminator [] []

theorem textLines_eol {b : UInt8} (hb : isEol b = true) {bs : Bytes}
    (hnot : b = 13 → bs.head? ≠ some 10) : textLines (b :: bs) = [] :: textLines bs := by
  conv_lhs => unfold textLines
  split
  · rename_i heq
    cases heq
  · rename_i rest heq
    cases heq
    exact absurd rfl (hnot rfl)
  · rename_i b' bs' _ heq
    cases heq
    exact if_pos hb

theorem textLines_cons {b : UInt8} (hb : isEol b = false) (bs : Bytes) :
    textLines (b :: bs) =
      match textLines bs with
      | [] => [[b]]
      | line :: lines => (b :: line) :: lines := by
  conv_lhs => unfold textLines
  split
  · rename_i heq
    cases heq
  · rename_i rest heq
    cases heq
    cases hb
  · rename_i b' bs' _ heq
    cases heq
    rw [hb]
    rfl

theorem textLines_free {b : UInt8} {content : Bytes} (h : ∀ c ∈ b :: content, isEol c = false) :
    textLines (b :: content) = [b :: content] := by
  induction content generalizing b with
  | nil =>
    rw [textLines_cons (h b List.mem_cons_self)]
    rfl
  | cons c content ih =>
    rw [textLines_cons (h b List.mem_cons_self), ih (fun c hc => h c (List.mem_cons_of_mem _ hc))]

theorem textLines_append {content tail line : Bytes} {lines : List Bytes}
    (hcontent : ∀ b ∈ content, isEol b = false) (htail : textLines tail = line :: lines) :
    textLines (content ++ tail) = (content ++ line) :: lines := by
  induction content with
  | nil => exact htail
  | cons b content ih =>
    rw [List.cons_append, textLines_cons (hcontent b List.mem_cons_self),
      ih (fun b hb => hcontent b (List.mem_cons_of_mem _ hb))]
    rfl

theorem readLines_empty (lines : List Bytes) : readLines ([] :: lines) = readLines lines := rfl

/-- The lines of a text whose first line is known, up to empty lines. -/
theorem readLines_textLines {content term rest : Bytes} (hcontent : ∀ b ∈ content, isEol b = false)
    (hterm : Terminator term rest) :
    readLines (textLines (content ++ (term ++ rest))) = readLines (content :: textLines rest) := by
  have hstart : textLines (term ++ rest) = textLines rest ∧ term = [] ∧ rest = [] ∨
      textLines (term ++ rest) = [] :: textLines rest ∨
      textLines (term ++ rest) = [] :: [] :: textLines rest := by
    cases hterm with
    | crlf => exact Or.inr (Or.inl rfl)
    | lf => exact Or.inr (Or.inl (textLines_eol rfl (fun h => by cases h)))
    | lflf =>
      right
      right
      have h1 : textLines (10 :: 10 :: rest) = [] :: textLines (10 :: rest) :=
        textLines_eol rfl (fun h => by cases h)
      have h2 : textLines (10 :: rest) = [] :: textLines rest :=
        textLines_eol rfl (fun h => by cases h)
      rw [h2] at h1
      exact h1
    | cr hnot => exact Or.inr (Or.inl (textLines_eol rfl (fun _ => hnot)))
    | stop => exact Or.inl ⟨rfl, rfl, rfl⟩
  obtain ⟨-, rfl, rfl⟩ | hone | htwo := hstart
  · rw [List.append_nil, List.append_nil]
    cases content with
    | nil => rfl
    | cons b content =>
      rw [textLines_free hcontent]
      rfl
  · rw [textLines_append hcontent hone, List.append_nil]
  · rw [textLines_append hcontent htwo, List.append_nil]
    unfold readLines
    rw [readLines_empty]

theorem segment_length (buf : Bytes) (p : Nat) : segment buf p buf.length = buf.drop p := by
  unfold segment
  rw [List.take_length]

theorem eq_of_isEol {b : UInt8} (h : isEol b = true) : b = 13 ∨ b = 10 := by
  unfold isEol at h
  rw [Bool.or_eq_true, beq_iff_eq, beq_iff_eq] at h
  exact h

theorem Terminator.single {b : UInt8} (h : isEol b = true) {rest : Bytes}
    (hnot : rest.head? ≠ some 10) : Terminator [b] rest := by
  rcases eq_of_isEol h with rfl | rfl
  · exact .cr hnot
  · exact .lf rest

theorem Terminator.pair {b : UInt8} (h : isEol b = true) (rest : Bytes) :
    Terminator [b, 10] rest := by
  rcases eq_of_isEol h with rfl | rfl
  · exact .crlf rest
  · exact .lflf rest

theorem segment_single {buf : Bytes} {r : Nat} {b : UInt8} (h : r < buf.length)
    (hread : read buf r = .ok b) : segment buf r (r + 1) = [b] := by
  obtain ⟨b', hread', hcons⟩ := read_segment (Nat.lt_succ_self r) h
  rw [hread, Except.ok.injEq] at hread'
  rw [hcons, ← hread', segment_nil (Nat.le_refl _)]

/-- The scanner finds the end of a line behind its terminator. -/
theorem lineEnd_spec {buf : Bytes} {p : Nat} (h : p < buf.length) :
    ∃ limit content term, lineEnd buf p = .ok limit ∧ p < limit ∧ limit ≤ buf.length ∧
      segment buf p limit = content ++ term ∧ (∀ b ∈ content, isEol b = false) ∧
      Terminator term (buf.drop limit) := by
  obtain ⟨r, hscan, hle, hr, htake, hdrop⟩ := scan_spec isEol (buf.length - p)
    (show p + (buf.length - p) = buf.length by omega) (Nat.le_refl _)
  have hfree : ∀ b ∈ segment buf p r, isEol b = false := by
    intro b hb
    rw [htake] at hb
    have hnot := List.mem_takeWhile_imp hb
    simpa using hnot
  unfold lineEnd
  rw [hscan, ok_bind]
  by_cases hend : r < buf.length
  · rw [if_pos hend]
    obtain ⟨b, hread, hcons⟩ := read_segment hend (Nat.le_refl _)
    have heol : isEol b = true := by
      have hnot := List.head?_dropWhile_not (fun b => !isEol b) (segment buf p buf.length)
      rw [← hdrop, hcons] at hnot
      simpa using hnot
    have hsplit : ∀ l, r ≤ l → l ≤ buf.length →
        segment buf p l = segment buf p r ++ segment buf r l :=
      fun l hrl hl => segment_append hle hrl hl
    by_cases hnext : r + 1 < buf.length
    · obtain ⟨c, hread', hcons'⟩ := read_segment hnext (Nat.le_refl _)
      rw [if_pos hnext, hread', ok_bind]
      by_cases hfeed : (c == 10) = true
      · rw [if_pos hfeed]
        have hterm : segment buf r (r + 2) = [b, 10] := by
          rw [segment_append (Nat.le_succ r) (Nat.le_succ (r + 1)) (by omega),
            segment_single hend hread, segment_single hnext hread', beq_iff_eq.mp hfeed]
          rfl
        exact ⟨r + 2, segment buf p r, [b, 10], rfl, by omega, by omega,
          hterm ▸ hsplit (r + 2) (by omega) (by omega), hfree, .pair heol _⟩
      · rw [if_neg hfeed]
        have hhead : (buf.drop (r + 1)).head? ≠ some 10 := by
          rw [← segment_length, hcons', List.head?_cons, ne_eq, Option.some.injEq]
          exact fun heq => hfeed (beq_iff_eq.mpr heq)
        exact ⟨r + 1, segment buf p r, [b], rfl, by omega, by omega,
          segment_single hend hread ▸ hsplit (r + 1) (by omega) (by omega), hfree, .single heol hhead⟩
    · rw [if_neg hnext]
      have hhead : (buf.drop (r + 1)).head? ≠ some 10 := by
        rw [List.drop_eq_nil_of_le (by omega)]
        simp
      exact ⟨r + 1, segment buf p r, [b], rfl, by omega, by omega,
        segment_single hend hread ▸ hsplit (r + 1) (by omega) (by omega), hfree, .single heol hhead⟩
  · rw [if_neg hend]
    have hsame : r = buf.length := by omega
    refine ⟨buf.length, segment buf p r, [], rfl, h, Nat.le_refl _, ?_, hfree, ?_⟩
    · rw [hsame, List.append_nil]
    · rw [List.drop_length]
      exact .stop

theorem rdropWhile_append_of_all {p : UInt8 → Bool} (bs : Bytes) {blanks : Bytes}
    (h : ∀ b ∈ blanks, p b = true) : (bs ++ blanks).rdropWhile p = bs.rdropWhile p := by
  have hnil : blanks.reverse.dropWhile p = [] := by
    rw [List.dropWhile_eq_nil_iff]
    exact fun b hb => h b (List.mem_reverse.mp hb)
  unfold List.rdropWhile
  rw [List.reverse_append, List.dropWhile_append, hnil]
  rfl

theorem strip_append_blanks (bs : Bytes) {blanks : Bytes} (h : ∀ b ∈ blanks, isBlank b = true) :
    strip (bs ++ blanks) = strip bs := by
  unfold strip
  rw [List.dropWhile_append]
  split
  · rename_i hempty
    rw [List.isEmpty_iff.mp hempty, List.dropWhile_eq_nil_iff.mpr h]
  · exact rdropWhile_append_of_all _ h

theorem Terminator.blank {term rest : Bytes} (h : Terminator term rest) :
    ∀ b ∈ term, isBlank b = true := by
  have h13 : isBlank 13 = true := rfl
  have h10 : isBlank 10 = true := rfl
  intro b hb
  cases h <;> simp only [List.mem_cons, List.not_mem_nil, or_false] at hb <;>
    rcases hb with rfl | rfl <;> assumption

theorem lineOf_append_term (content : Bytes) {term rest : Bytes} (h : Terminator term rest) :
    lineOf (content ++ term) = lineOf content := by
  unfold lineOf
  rw [strip_append_blanks content h.blank]

/-- Put items in front of those of a result. -/
def behind (configs : List ConfigItem) (r : Except Fault (Bool × List ConfigItem)) :
    Except Fault (Bool × List ConfigItem) :=
  r.map fun r => (r.1, configs ++ r.2)

theorem drop_eq {buf : Bytes} {p limit : Nat} (hp : p ≤ limit) (hlimit : limit ≤ buf.length)
    {content term : Bytes} (h : segment buf p limit = content ++ term) :
    buf.drop p = content ++ (term ++ buf.drop limit) := by
  rw [← segment_length, segment_append hp hlimit (Nat.le_refl _), h, segment_length,
    List.append_assoc]

/-- What the loop goes on with after a line. -/
theorem readLines_cons (line : Bytes) (lines : List Bytes) (configs : List ConfigItem) :
    behind configs (readLines (line :: lines)) =
      (copied (lineOf line) >>= fun
        | .skipped => behind configs (readLines lines)
        | .corrupt => .ok (false, configs)
        | .item item => behind (configs ++ [item]) (readLines lines)) := by
  conv_lhs => unfold readLines
  cases copied (lineOf line) with
  | error fault => rfl
  | ok outcome =>
    rw [ok_bind, ok_bind]
    cases outcome with
    | skipped => rfl
    | corrupt =>
      unfold behind
      simp [Except.map]
    | item item =>
      unfold behind
      cases readLines lines with
      | error fault => rfl
      | ok r => simp [Except.map]

theorem scanLines_eq (charSigned : Bool) (buf : Bytes) (fuel : Nat) {itr : Nat}
    (configs : List ConfigItem) (hfuel : buf.length - itr < fuel) :
    scanLines charSigned buf fuel true itr configs =
      behind configs (readLines (textLines (buf.drop itr))) := by
  induction fuel generalizing itr configs with
  | zero => omega
  | succ fuel ih =>
    unfold scanLines
    by_cases hend : buf.length ≤ itr
    · rw [if_pos hend, List.drop_eq_nil_of_le hend]
      unfold behind textLines readLines
      simp [Except.map]
    · obtain ⟨limit, content, term, hline, hlt, hle, hsegment, hfree, hterm⟩ :=
        lineEnd_spec (show itr < buf.length by omega)
      rw [if_neg hend, hline, ok_bind, scanLine_true (Nat.le_of_lt hlt) hle, hsegment,
        lineOf_append_term content hterm, drop_eq (Nat.le_of_lt hlt) hle hsegment]
      have hread := readLines_textLines hfree hterm
      rw [hread, readLines_cons]
      congr 1
      funext outcome
      cases outcome with
      | skipped => exact ih configs (by omega)
      | corrupt => rfl
      | item item => exact ih (configs ++ [item]) (by omega)

@[simp] theorem behind_nil (r : Except Fault (Bool × List ConfigItem)) : behind [] r = r := by
  cases r <;> rfl

/-- The text behind the byte order mark, where the platform can see the mark. -/
def textOf (charSigned : Bool) (buf : Bytes) : Bytes :=
  if charSigned = false ∧ bomBytes <+: buf then buf.drop 3 else buf

/-- The mark lies within the first line. -/
theorem bom_prefix_iff {content term rest : Bytes} (h : Terminator term rest) :
    bomBytes <+: content ++ term ↔ bomBytes <+: content ++ (term ++ rest) := by
  constructor
  · intro hpre
    rw [← List.append_assoc]
    exact hpre.trans (List.prefix_append _ _)
  · intro hpre
    unfold bomBytes at hpre ⊢
    match content with
    | [] => cases h <;> simp [List.cons_prefix_cons] at hpre
    | [a] => cases h <;> simp [List.cons_prefix_cons] at hpre
    | [a, b] => cases h <;> simp [List.cons_prefix_cons] at hpre
    | a :: b :: c :: content => simpa [List.cons_prefix_cons] using hpre

theorem drop_three {content term rest : Bytes} (h : Terminator term rest)
    (hpre : bomBytes <+: content ++ term) : 3 ≤ content.length := by
  unfold bomBytes at hpre
  match content with
  | [] => cases h <;> simp [List.cons_prefix_cons] at hpre
  | [a] => cases h <;> simp [List.cons_prefix_cons] at hpre
  | [a, b] => cases h <;> simp [List.cons_prefix_cons] at hpre
  | a :: b :: c :: content =>
    simp only [List.length_cons]
    omega

/-- The first line, from where the scanner starts to read it. -/
theorem scanFirst_eq {charSigned : Bool} {buf : Bytes} {start limit fuel : Nat}
    (hskip : skipBom charSigned buf 0 limit = .ok start) (hline : lineEnd buf 0 = .ok limit)
    (hstart : start ≤ limit) (hpos : 0 < limit) (hle : limit ≤ buf.length) (hfuel : buf.length ≤ fuel)
    {content term : Bytes} (hsegment : segment buf start limit = content ++ term)
    (hfree : ∀ b ∈ content, isEol b = false) (hterm : Terminator term (buf.drop limit)) :
    scanLines charSigned buf (fuel + 1) false 0 [] = readLines (textLines (buf.drop start)) := by
  unfold scanLines
  rw [if_neg (by omega), hline, ok_bind, scanLine_false hskip, scanLine_true hstart hle, hsegment,
    lineOf_append_term content hterm, drop_eq hstart hle hsegment, readLines_textLines hfree hterm,
    ← behind_nil (readLines (content :: textLines (buf.drop limit))), readLines_cons]
  congr 1
  funext outcome
  cases outcome with
  | skipped => exact scanLines_eq charSigned buf fuel [] (by omega)
  | corrupt => rfl
  | item item => exact scanLines_eq charSigned buf fuel [item] (by omega)

/-- The scanner reads the lines of the text, and never reads outside the buffer. -/
theorem bufToConfigs_eq (charSigned : Bool) (buf : Bytes) :
    bufToConfigs charSigned buf = readLines (textLines (textOf charSigned buf)) := by
  unfold bufToConfigs
  by_cases hempty : buf = []
  · subst hempty
    cases charSigned <;> rfl
  · have hpos : 0 < buf.length := List.length_pos_iff.mpr hempty
    have hnot : ¬buf.isEmpty = true := fun h => hempty (List.isEmpty_iff.mp h)
    obtain ⟨limit, content, term, hline, hlt, hle, hsegment, hfree, hterm⟩ := lineEnd_spec hpos
    have hbuf : buf = content ++ (term ++ buf.drop limit) := by
      rw [← drop_eq (Nat.zero_le limit) hle hsegment, List.drop_zero]
    rw [if_neg hnot]
    unfold textOf
    by_cases hmark : charSigned = false ∧ bomBytes <+: buf
    · obtain ⟨rfl, hpre⟩ := hmark
      rw [if_pos ⟨rfl, hpre⟩]
      rw [hbuf, ← bom_prefix_iff hterm] at hpre
      have hthree := drop_three hterm hpre
      have hskip := skipBom_unsigned hle 0
      rw [hsegment, if_pos hpre] at hskip
      have hlong : 3 ≤ limit := by
        have hlength := congrArg List.length hsegment
        rw [length_segment hle, List.length_append] at hlength
        omega
      have hrest : segment buf 3 limit = content.drop 3 ++ term := by
        have hsplit := congrArg (List.drop 3) hsegment
        unfold segment at hsplit ⊢
        rw [List.drop_zero, List.drop_append_of_le_length hthree] at hsplit
        exact hsplit
      exact scanFirst_eq hskip hline hlong hlt hle (Nat.le_refl _) hrest
        (fun b hb => hfree b (List.mem_of_mem_drop hb)) hterm
    · rw [if_neg hmark]
      have hskip : skipBom charSigned buf 0 limit = .ok 0 := by
        cases charSigned with
        | true => exact skipBom_signed hle 0
        | false =>
          rw [skipBom_unsigned hle 0, if_neg]
          intro hpre
          rw [hsegment, bom_prefix_iff hterm, ← hbuf] at hpre
          exact hmark ⟨rfl, hpre⟩
      have hfirst := scanFirst_eq hskip hline (Nat.zero_le _) hlt hle (Nat.le_refl _) hsegment hfree hterm
      rw [List.drop_zero] at hfirst
      exact hfirst

end Pronet.Util.ConfigStream
