import Pronet.Util.ConfigLines

/-! The reader against the grammar. On a line without terminators the reader tells the
three kinds of lines apart, and its copies are exact up to the lengths of an `int`. -/
namespace Pronet.Util.ConfigStream

theorem dropWhile_append_gaps {gaps : Bytes} (h : Gaps gaps) (rest : Bytes) :
    (gaps ++ rest).dropWhile isGap = rest.dropWhile isGap :=
  List.dropWhile_append_of_pos h

theorem isComment_iff (bs : Bytes) : isComment bs = true ↔ Comment bs := by
  unfold isComment Comment
  match bs with
  | [] => simp
  | [b] => simp
  | b :: c :: bs => simp [or_assoc]

theorem isClosed_iff (bs : Bytes) : isClosed bs = true ↔ bs = [] ∨ Comment bs := by
  unfold isClosed
  rw [Bool.or_eq_true, List.isEmpty_iff, isComment_iff]

theorem Comment.dropWhile {bs : Bytes} (h : Comment bs) : bs.dropWhile isGap = bs := by
  rcases h with ⟨rest, rfl⟩ | ⟨rest, rfl⟩ | ⟨rest, rfl⟩ <;> rfl

theorem closing_iff (bs : Bytes) : Closing bs ↔ isClosed (bs.dropWhile isGap) = true := by
  rw [isClosed_iff]
  constructor
  · rintro ⟨gaps, rest, hgaps, rfl, rfl | hcomment⟩
    · left
      rw [dropWhile_append_gaps hgaps]
      rfl
    · right
      rw [dropWhile_append_gaps hgaps, hcomment.dropWhile]
      exact hcomment
  · intro hclosed
    refine ⟨bs.takeWhile isGap, bs.dropWhile isGap, fun b hb => List.mem_takeWhile_imp hb,
      List.takeWhile_append_dropWhile.symm, hclosed⟩

theorem splitQuoted_eq {text rest : Bytes} (h : quote ∉ text) :
    splitQuoted (quote :: (text ++ quote :: rest)) = some (text, rest.dropWhile isGap) := by
  have hall : ∀ b ∈ text, (b != quote) = true := by
    intro b hb
    rw [bne_iff_ne]
    exact fun heq => h (heq ▸ hb)
  have hstop : ¬(quote != quote) = true := by simp
  have hdrop : (text ++ quote :: rest).dropWhile (· != quote) = quote :: rest := by
    rw [List.dropWhile_append_of_pos hall,
      List.dropWhile_cons_of_neg (p := fun b : UInt8 => b != quote) hstop]
  have htake : (text ++ quote :: rest).takeWhile (· != quote) = text := by
    rw [List.takeWhile_append_of_pos hall,
      List.takeWhile_cons_of_neg (p := fun b : UInt8 => b != quote) hstop, List.append_nil]
  rw [splitQuoted_of_closed (beq_self_eq_true quote) hdrop, htake]

theorem exists_of_splitQuoted {bs text after : Bytes} (h : splitQuoted bs = some (text, after)) :
    ∃ rest, bs = quote :: (text ++ quote :: rest) ∧ quote ∉ text ∧ after = rest.dropWhile isGap := by
  cases bs with
  | nil => cases h
  | cons b bs =>
    by_cases hquote : (b == quote) = true
    · cases hdrop : bs.dropWhile (· != quote) with
      | nil =>
        rw [splitQuoted_of_open hquote hdrop] at h
        cases h
      | cons q rest =>
        rw [splitQuoted_of_closed hquote hdrop] at h
        cases h
        have hq : q = quote := by
          have hnot := List.head?_dropWhile_not (· != quote) bs
          rw [hdrop] at hnot
          simpa using hnot
        refine ⟨rest, ?_, ?_, rfl⟩
        · have hsplit : bs = bs.takeWhile (· != quote) ++ quote :: rest := by
            have hboth := List.takeWhile_append_dropWhile (p := fun b : UInt8 => b != quote) (l := bs)
            rw [hdrop, hq] at hboth
            exact hboth.symm
          rw [beq_iff_eq.mp hquote, ← hsplit]
        · intro hmem
          have hne := List.mem_takeWhile_imp hmem
          simp at hne
    · rw [splitQuoted_of_ne hquote] at h
      cases h

theorem Quoted.split {bs text rest : Bytes} (h : Quoted bs text rest) :
    splitQuoted (bs.dropWhile isGap) = some (text, rest.dropWhile isGap) := by
  obtain ⟨gaps, hgaps, htext, rfl⟩ := h
  rw [dropWhile_append_gaps hgaps]
  exact splitQuoted_eq htext

theorem quoted_of_split {bs text after : Bytes} (h : splitQuoted (bs.dropWhile isGap) = some (text, after)) :
    ∃ rest, Quoted bs text rest ∧ after = rest.dropWhile isGap := by
  obtain ⟨rest, heq, htext, hafter⟩ := exists_of_splitQuoted h
  refine ⟨rest, ⟨bs.takeWhile isGap, fun b hb => List.mem_takeWhile_imp hb, htext, ?_⟩, hafter⟩
  rw [← heq, List.takeWhile_append_dropWhile]

/-- What begins with a quote is not a comment. -/
theorem not_closed_of_split {bs : Bytes} {r : Bytes × Bytes} (h : splitQuoted bs = some r) :
    isClosed bs = false := by
  obtain ⟨rest, rfl, -, -⟩ := exists_of_splitQuoted (show splitQuoted bs = some (r.1, r.2) from h)
  rfl

/-- The item of a line, without its leading blanks. -/
theorem itemLine_iff (line : Bytes) (item : ConfigItem) :
    ItemLine line item ↔ isClosed (line.dropWhile isGap) = false ∧
      (itemOf (line.dropWhile isGap)).2 = .item item := by
  unfold itemOf
  constructor
  · rintro ⟨rest, hname, ⟨hvalue, hclosing⟩ | ⟨rest', hvalue, hclosing⟩⟩
    · rw [closing_iff] at hclosing
      refine ⟨not_closed_of_split hname.split, ?_⟩
      rw [hname.split]
      dsimp only
      rw [if_pos hclosing, ← hvalue]
    · rw [closing_iff] at hclosing
      have hopen := not_closed_of_split hvalue.split
      refine ⟨not_closed_of_split hname.split, ?_⟩
      rw [hname.split]
      dsimp only
      rw [if_neg (by rw [hopen]; exact Bool.false_ne_true), hvalue.split]
      dsimp only
      rw [if_pos hclosing]
  · rintro ⟨-, hitem⟩
    cases hname : splitQuoted (line.dropWhile isGap) with
    | none =>
      rw [hname] at hitem
      cases hitem
    | some split =>
      obtain ⟨name, after⟩ := split
      obtain ⟨rest, hquoted, rfl⟩ := quoted_of_split hname
      rw [hname] at hitem
      dsimp only at hitem
      split at hitem
      · rename_i hclosed
        cases hitem
        exact ⟨rest, hquoted, Or.inl ⟨rfl, (closing_iff rest).mpr hclosed⟩⟩
      · cases hvalue : splitQuoted (rest.dropWhile isGap) with
        | none =>
          rw [hvalue] at hitem
          cases hitem
        | some split =>
          obtain ⟨value, after'⟩ := split
          obtain ⟨rest', hquoted', rfl⟩ := quoted_of_split hvalue
          rw [hvalue] at hitem
          dsimp only at hitem
          split at hitem
          · rename_i hclosed
            cases hitem
            exact ⟨rest, hquoted, Or.inr ⟨rest', hquoted', (closing_iff rest').mpr hclosed⟩⟩
          · cases hitem

/-- Blanks behind a remainder that is not empty. -/
def withGaps (rest gaps : Bytes) : Bytes := if rest.isEmpty then [] else rest ++ gaps

theorem isClosed_withGaps (rest : Bytes) {gaps : Bytes} (h : Gaps gaps) :
    isClosed (withGaps rest gaps) = isClosed rest := by
  unfold withGaps isClosed isComment
  match rest with
  | [] => rfl
  | [b] =>
    match gaps with
    | [] => rfl
    | g :: gaps =>
      have hg : (g == 47) = false := by
        rw [beq_eq_false_iff_ne]
        intro heq
        have hgap := h g List.mem_cons_self
        rw [heq] at hgap
        cases hgap
      simp [hg]
  | b :: c :: rest => rfl

theorem dropWhile_append_withGaps (rest : Bytes) {gaps : Bytes} (h : Gaps gaps) :
    (rest ++ gaps).dropWhile isGap = withGaps (rest.dropWhile isGap) gaps := by
  unfold withGaps
  rw [List.dropWhile_append, List.dropWhile_eq_nil_iff.mpr h]

theorem splitQuoted_append_gaps (b : UInt8) (bs : Bytes) {gaps : Bytes} (h : Gaps gaps) :
    splitQuoted (b :: bs ++ gaps) =
      (splitQuoted (b :: bs)).map fun split => (split.1, withGaps split.2 gaps) := by
  have hother : ∀ g ∈ gaps, (g != quote) = true := by
    intro g hg
    rw [bne_iff_ne]
    intro heq
    have hgap := h g hg
    rw [heq] at hgap
    cases hgap
  rw [List.cons_append]
  by_cases hquote : (b == quote) = true
  · cases hdrop : bs.dropWhile (· != quote) with
    | nil =>
      rw [splitQuoted_of_open hquote hdrop, splitQuoted_of_open hquote]
      · rfl
      · rw [List.dropWhile_append, hdrop]
        exact List.dropWhile_eq_nil_iff.mpr hother
    | cons q rest =>
      have hlong : (bs ++ gaps).dropWhile (· != quote) = q :: (rest ++ gaps) := by
        rw [List.dropWhile_append, hdrop]
        rfl
      have htake : (bs ++ gaps).takeWhile (· != quote) = bs.takeWhile (· != quote) := by
        rw [List.takeWhile_append, if_neg]
        intro hlength
        have hall := List.takeWhile_eq_self_iff.mp
          (List.takeWhile_sublist (p := fun b : UInt8 => b != quote) |>.eq_of_length hlength)
        rw [List.dropWhile_eq_nil_iff.mpr hall] at hdrop
        cases hdrop
      rw [splitQuoted_of_closed hquote hdrop, splitQuoted_of_closed hquote hlong, htake,
        dropWhile_append_withGaps rest h]
      rfl
  · rw [splitQuoted_of_ne hquote, splitQuoted_of_ne hquote]
    rfl

theorem splitQuoted_withGaps (rest : Bytes) {gaps : Bytes} (h : Gaps gaps) :
    splitQuoted (withGaps rest gaps) =
      (splitQuoted rest).map fun split => (split.1, withGaps split.2 gaps) := by
  cases rest with
  | nil => rfl
  | cons b rest => exact splitQuoted_append_gaps b rest h

/-- Blanks behind a line do not change what it says. -/
theorem itemOf_withGaps (rest : Bytes) {gaps : Bytes} (h : Gaps gaps) :
    itemOf (withGaps rest gaps) = itemOf rest := by
  unfold itemOf
  rw [splitQuoted_withGaps rest h]
  cases splitQuoted rest with
  | none => rfl
  | some split =>
    rw [Option.map_some]
    dsimp only
    rw [isClosed_withGaps split.2 h, splitQuoted_withGaps split.2 h]
    split
    · rfl
    · cases splitQuoted split.2 with
      | none => rfl
      | some split' =>
        rw [Option.map_some]
        dsimp only
        rw [isClosed_withGaps split'.2 h]

/-- A line without terminators. -/
def Free (line : Bytes) : Prop := ∀ b ∈ line, isEol b = false

theorem isBlank_of_free {b : UInt8} (h : isEol b = false) : isBlank b = isGap b := by
  unfold isBlank
  rw [h, Bool.or_false]

theorem dropWhile_of_free {line : Bytes} (h : Free line) :
    line.dropWhile isBlank = line.dropWhile isGap := by
  induction line with
  | nil => rfl
  | cons b line ih =>
    rw [List.dropWhile_cons, List.dropWhile_cons, isBlank_of_free (h b List.mem_cons_self),
      ih (fun b hb => h b (List.mem_cons_of_mem _ hb))]

/-- Stripping at the end takes only blanks away, and never all that is left. -/
theorem dropWhile_eq_withGaps {line : Bytes} (h : Free line) :
    ∃ gaps, Gaps gaps ∧ line.dropWhile isGap = withGaps (strip line) gaps := by
  have hfree : Free (line.dropWhile isGap) :=
    fun b hb => h b ((List.dropWhile_suffix _).subset hb)
  have hgaps : Gaps ((line.dropWhile isGap).rtakeWhile isBlank) := by
    intro b hb
    have hmem := (List.rtakeWhile_suffix isBlank (line.dropWhile isGap)).subset hb
    rw [← isBlank_of_free (hfree b hmem)]
    exact List.mem_rtakeWhile_imp hb
  refine ⟨(line.dropWhile isGap).rtakeWhile isBlank, hgaps, ?_⟩
  unfold strip withGaps
  rw [dropWhile_of_free h]
  split
  · rename_i hempty
    have hall := List.rdropWhile_eq_nil_iff.mp (List.isEmpty_iff.mp hempty)
    cases hline : line.dropWhile isGap with
    | nil => rfl
    | cons b rest =>
      have hnot := List.head?_dropWhile_not isGap line
      rw [hline] at hnot hall hfree
      have hblank := hall b List.mem_cons_self
      rw [isBlank_of_free (hfree b List.mem_cons_self)] at hblank
      rw [List.head?_cons] at hnot
      dsimp only at hnot
      rw [hblank] at hnot
      cases hnot
  · exact List.rdropWhile_append_rtakeWhile.symm

theorem lineOf_free {line : Bytes} (h : Free line) :
    lineOf line = if isClosed (line.dropWhile isGap) then ([], .skipped)
      else itemOf (line.dropWhile isGap) := by
  obtain ⟨gaps, hgaps, heq⟩ := dropWhile_eq_withGaps h
  unfold lineOf
  rw [heq, isClosed_withGaps _ hgaps, itemOf_withGaps _ hgaps]

theorem itemOf_ne_skipped (bs : Bytes) : (itemOf bs).2 ≠ .skipped := by
  unfold itemOf
  split
  · exact Line.noConfusion
  · split
    · exact Line.noConfusion
    · split
      · exact Line.noConfusion
      · dsimp only
        split <;> exact Line.noConfusion

theorem lineOf_skipped_iff {line : Bytes} (h : Free line) :
    (lineOf line).2 = .skipped ↔ Closing line := by
  rw [lineOf_free h, closing_iff]
  split
  · rename_i hclosed
    simp [hclosed]
  · rename_i hopen
    simp [hopen, itemOf_ne_skipped]

theorem lineOf_item_iff {line : Bytes} (h : Free line) (item : ConfigItem) :
    (lineOf line).2 = .item item ↔ ItemLine line item := by
  rw [lineOf_free h, itemLine_iff]
  split
  · rename_i hclosed
    simp [hclosed]
  · rename_i hopen
    simp [hopen]

/-- The strings that the scanner copies from a line. -/
def copies (line : Bytes) : List Bytes := (lineOf line).1

theorem free_nil : Free [] := fun b hb => by cases hb

theorem free_textLines (bs : Bytes) : ∀ line ∈ textLines bs, Free line := by
  fun_induction textLines bs with
  | case1 =>
    intro line hline
    cases hline
  | case2 bs ih =>
    intro line hline
    rcases List.mem_cons.mp hline with rfl | hline
    · exact free_nil
    · exact ih line hline
  | case3 b bs hnot heol ih =>
    intro line hline
    rcases List.mem_cons.mp hline with rfl | hline
    · exact free_nil
    · exact ih line hline
  | case4 b bs hnot heol hnone ih =>
    intro line hline
    rw [List.mem_singleton] at hline
    subst hline
    intro c hc
    rw [List.mem_singleton] at hc
    rw [hc]
    exact Bool.not_eq_true _ ▸ heol
  | case5 b bs hnot heol first lines hsome ih =>
    rw [hsome] at ih
    intro line hline
    rcases List.mem_cons.mp hline with rfl | hline
    · intro c hc
      rcases List.mem_cons.mp hc with rfl | hc
      · exact Bool.not_eq_true _ ▸ heol
      · exact ih first List.mem_cons_self c hc
    · exact ih line (List.mem_cons_of_mem _ hline)

/-- The lengths that the scanner copies well: every name and value up to the first line
that is not in the grammar, and from there what is copied before it is rejected. -/
inductive Fits : List Bytes → Prop
  | done : Fits []
  | skip {line lines} (hline : Closing line) (hrest : Fits lines) : Fits (line :: lines)
  | item {line lines item} (hline : ItemLine line item) (hname : item.configName.length < 2 ^ 31)
      (hvalue : item.configValue.length < 2 ^ 31) (hrest : Fits lines) : Fits (line :: lines)
  | corrupt {line lines} (hskip : ¬Closing line) (hitem : ∀ item, ¬ItemLine line item)
      (hcopies : ∀ text ∈ copies line, ¬int32 text.length < 0) : Fits (line :: lines)

theorem cut_eq_iff (text : Bytes) :
    (¬int32 text.length < 0 ∧ cut text = text) ↔ text.length < 2 ^ 31 := by
  unfold cut
  rw [List.take_eq_self_iff]
  unfold int32
  rw [Int.bmod_def]
  split <;> omega

theorem copied_ok_iff (line : List Bytes × Line) (outcome : Line) :
    copied line = .ok outcome ↔
      (∀ text ∈ line.1, ¬int32 text.length < 0) ∧ line.2.cut = outcome := by
  obtain ⟨texts, said⟩ := line
  by_cases hall : ∀ text ∈ texts, ¬int32 text.length < 0
  · rw [copied_of_fits hall, Except.ok.injEq]
    exact ⟨fun h => ⟨hall, h⟩, fun h => h.2⟩
  · have hneg : ∃ text ∈ texts, int32 text.length < 0 := by
      by_contra hnone
      exact hall (fun text hmem hneg => hnone ⟨text, hmem, hneg⟩)
    obtain ⟨text, hmem, hneg⟩ := hneg
    rw [copied_of_neg hmem hneg]
    constructor
    · intro h
      cases h
    · intro h
      exact absurd h.1 hall

/-- The copies of an item are its name, and its value unless it is absent. -/
theorem texts_of_item {bs : Bytes} {item : ConfigItem} (h : (itemOf bs).2 = .item item) :
    (itemOf bs).1 = [item.configName] ∧ item.configValue = [] ∨
      (itemOf bs).1 = [item.configName, item.configValue] := by
  unfold itemOf at h ⊢
  cases hname : splitQuoted bs with
  | none =>
    rw [hname] at h
    cases h
  | some split =>
    rw [hname] at h
    dsimp only at h ⊢
    split at h
    · rename_i hclosed
      cases h
      rw [if_pos hclosed]
      exact Or.inl ⟨rfl, rfl⟩
    · rename_i hopen
      rw [if_neg hopen]
      cases hvalue : splitQuoted split.2 with
      | none =>
        rw [hvalue] at h
        cases h
      | some split' =>
        rw [hvalue] at h
        dsimp only at h ⊢
        split at h
        · cases h
          exact Or.inr rfl
        · cases h

/-- An item is copied as it is exactly if its name and its value are short enough. -/
theorem copied_item_iff {line : Bytes} {item : ConfigItem} (h : (lineOf line).2 = .item item) :
    copied (lineOf line) = .ok (.item item) ↔
      item.configName.length < 2 ^ 31 ∧ item.configValue.length < 2 ^ 31 := by
  have htexts : (lineOf line).1 = [item.configName] ∧ item.configValue = [] ∨
      (lineOf line).1 = [item.configName, item.configValue] := by
    unfold lineOf at h ⊢
    split at h
    · cases h
    · rename_i hopen
      rw [if_neg hopen]
      exact texts_of_item h
  obtain ⟨name, value⟩ := item
  have hname := cut_eq_iff name
  have hvalue := cut_eq_iff value
  have hcut : (Line.item ⟨name, value⟩).cut = .item ⟨name, value⟩ ↔
      cut name = name ∧ cut value = value := by
    rw [Line.cut_item, Line.item.injEq, ConfigItem.mk.injEq]
  rw [copied_ok_iff, h, hcut]
  dsimp only at htexts ⊢
  rcases htexts with ⟨htexts, rfl⟩ | htexts
  · rw [htexts]
    constructor
    · intro hgood
      exact ⟨hname.mp ⟨hgood.1 name (List.mem_singleton_self _), hgood.2.1⟩, Nat.pow_pos Nat.two_pos⟩
    · intro hshort
      obtain ⟨hfits, hsame⟩ := hname.mpr hshort.1
      refine ⟨?_, hsame, cut_nil⟩
      intro text hmem
      rw [List.mem_singleton] at hmem
      exact hmem ▸ hfits
  · rw [htexts]
    constructor
    · intro hgood
      exact ⟨hname.mp ⟨hgood.1 name List.mem_cons_self, hgood.2.1⟩,
        hvalue.mp ⟨hgood.1 value (List.mem_cons_of_mem _ (List.mem_singleton_self _)), hgood.2.2⟩⟩
    · intro hshort
      obtain ⟨hfits, hsame⟩ := hname.mpr hshort.1
      obtain ⟨hfits', hsame'⟩ := hvalue.mpr hshort.2
      refine ⟨?_, hsame, hsame'⟩
      intro text hmem
      rcases List.mem_cons.mp hmem with heq | hmem
      · exact heq ▸ hfits
      · rw [List.mem_singleton] at hmem
        exact hmem ▸ hfits'

theorem copied_skipped {line : Bytes} (h : (lineOf line).2 = .skipped) :
    copied (lineOf line) = .ok .skipped := by
  have heq : lineOf line = ([], .skipped) := by
    unfold lineOf at h ⊢
    split at h
    · rename_i hclosed
      rw [if_pos hclosed]
    · exact absurd h (itemOf_ne_skipped _)
  rw [heq]
  exact copied_of_fits (fun text hmem => by cases hmem) .skipped

theorem not_item_of_closing {line : Bytes} (h : Closing line) (item : ConfigItem) :
    ¬ItemLine line item := by
  rw [closing_iff] at h
  rw [itemLine_iff, h]
  exact fun hboth => by cases hboth.1

theorem item_unique {line : Bytes} {item item' : ConfigItem} (h : ItemLine line item)
    (h' : ItemLine line item') : item = item' := by
  rw [itemLine_iff] at h h'
  exact Line.item.inj (h.2.symm.trans h'.2)

section cases

variable {line : Bytes} {lines : List Bytes} {ok : Bool} {items : List ConfigItem}

theorem Reads.of_closing (h : Reads (line :: lines) ok items) (hline : Closing line) :
    Reads lines ok items := by
  cases h with
  | skip _ hrest => exact hrest
  | item hitem _ => exact absurd hitem (not_item_of_closing hline _)
  | corrupt hskip _ => exact absurd hline hskip

theorem Reads.of_item (h : Reads (line :: lines) ok items) {item : ConfigItem}
    (hline : ItemLine line item) : ∃ rest, items = item :: rest ∧ Reads lines ok rest := by
  cases h with
  | skip hskip _ => exact absurd hline (not_item_of_closing hskip _)
  | item hitem hrest =>
    cases item_unique hline hitem
    exact ⟨_, rfl, hrest⟩
  | corrupt _ hitem => exact absurd hline (hitem _)

theorem Reads.of_corrupt (h : Reads (line :: lines) ok items) (hskip : ¬Closing line)
    (hitem : ∀ item, ¬ItemLine line item) : ok = false ∧ items = [] := by
  cases h with
  | skip hline _ => exact absurd hline hskip
  | item hline _ => exact absurd hline (hitem _)
  | corrupt _ _ => exact ⟨rfl, rfl⟩

theorem Fits.of_closing (h : Fits (line :: lines)) (hline : Closing line) : Fits lines := by
  cases h with
  | skip _ hrest => exact hrest
  | item hitem _ _ _ => exact absurd hitem (not_item_of_closing hline _)
  | corrupt hskip _ _ => exact absurd hline hskip

theorem Fits.of_item (h : Fits (line :: lines)) {item : ConfigItem} (hline : ItemLine line item) :
    (item.configName.length < 2 ^ 31 ∧ item.configValue.length < 2 ^ 31) ∧ Fits lines := by
  cases h with
  | skip hskip _ => exact absurd hline (not_item_of_closing hskip _)
  | item hitem hname hvalue hrest =>
    cases item_unique hline hitem
    exact ⟨⟨hname, hvalue⟩, hrest⟩
  | corrupt _ hitem _ => exact absurd hline (hitem _)

theorem Fits.of_corrupt (h : Fits (line :: lines)) (hskip : ¬Closing line)
    (hitem : ∀ item, ¬ItemLine line item) : ∀ text ∈ copies line, ¬int32 text.length < 0 := by
  cases h with
  | skip hline _ => exact absurd hline hskip
  | item hline _ _ _ => exact absurd hline (hitem _)
  | corrupt _ _ hcopies => exact hcopies

end cases

/-- What the reader returns is what the grammar says exactly if the copies fit. -/
theorem readLines_reads_iff (lines : List Bytes) (hfree : ∀ line ∈ lines, Free line) :
    (∃ ok configs, readLines lines = .ok (ok, configs) ∧ Reads lines ok configs) ↔ Fits lines := by
  induction lines with
  | nil => exact ⟨fun _ => .done, fun _ => ⟨true, [], rfl, .done⟩⟩
  | cons line lines ih =>
    have ih := ih (fun line hline => hfree line (List.mem_cons_of_mem _ hline))
    have hskipped := lineOf_skipped_iff (hfree line List.mem_cons_self)
    have hitem := lineOf_item_iff (hfree line List.mem_cons_self)
    have hcons := readLines_cons line lines []
    rw [behind_nil] at hcons
    rw [hcons]
    cases hsaid : (lineOf line).2 with
    | skipped =>
      have hclosing := hskipped.mp hsaid
      rw [copied_skipped hsaid, ok_bind]
      dsimp only
      rw [behind_nil]
      constructor
      · rintro ⟨ok, configs, hread, hreads⟩
        exact .skip hclosing (ih.mp ⟨ok, configs, hread, hreads.of_closing hclosing⟩)
      · intro hfits
        obtain ⟨ok, configs, hread, hreads⟩ := ih.mpr (hfits.of_closing hclosing)
        exact ⟨ok, configs, hread, .skip hclosing hreads⟩
    | corrupt =>
      have hskip : ¬Closing line := by
        rw [← hskipped, hsaid]
        exact Line.noConfusion
      have hnone : ∀ item, ¬ItemLine line item := by
        intro item
        rw [← hitem item, hsaid]
        exact Line.noConfusion
      constructor
      · rintro ⟨ok, configs, hread, -⟩
        refine .corrupt hskip hnone ?_
        cases hcopied : copied (lineOf line) with
        | error fault =>
          rw [hcopied] at hread
          cases hread
        | ok outcome => exact ((copied_ok_iff _ _).mp hcopied).1
      · intro hfits
        have hcopied : copied (lineOf line) = .ok .corrupt :=
          (copied_ok_iff _ _).mpr ⟨hfits.of_corrupt hskip hnone, by rw [hsaid]; rfl⟩
        rw [hcopied]
        exact ⟨false, [], rfl, .corrupt hskip hnone⟩
    | item item =>
      have hline := (hitem item).mp hsaid
      constructor
      · rintro ⟨ok, configs, hread, hreads⟩
        obtain ⟨rest, rfl, hrest⟩ := hreads.of_item hline
        cases hcopied : copied (lineOf line) with
        | error fault =>
          rw [hcopied] at hread
          cases hread
        | ok outcome =>
          obtain ⟨hfits, hcut⟩ := (copied_ok_iff _ _).mp hcopied
          rw [hcopied, ← hcut, hsaid, ok_bind] at hread
          unfold behind at hread
          dsimp only [Line.cut] at hread
          cases hlines : readLines lines with
          | error fault =>
            rw [hlines] at hread
            cases hread
          | ok result =>
            obtain ⟨ok', configs'⟩ := result
            rw [hlines] at hread
            simp only [Except.map, List.nil_append, List.singleton_append, Except.ok.injEq,
              Prod.mk.injEq, List.cons.injEq] at hread
            obtain ⟨rfl, hsame, rfl⟩ := hread
            have hsameCut : (Line.item item).cut = .item item := congrArg Line.item hsame
            have hshort := (copied_item_iff hsaid).mp (by rw [hcopied, ← hcut, hsaid, hsameCut])
            exact .item hline hshort.1 hshort.2 (ih.mp ⟨_, _, hlines, hrest⟩)
      · intro hfits
        obtain ⟨hshort, hrest⟩ := hfits.of_item hline
        obtain ⟨ok, configs, hlines, hreads⟩ := ih.mpr hrest
        rw [(copied_item_iff hsaid).mpr hshort, ok_bind]
        dsimp only
        rw [hlines]
        exact ⟨ok, item :: configs, rfl, .item hline hreads⟩

/-- The text of a buffer, without the byte order mark. -/
def unmarked (buf : Bytes) : Bytes := if bomBytes <+: buf then buf.drop 3 else buf

/-- A platform with signed characters does not see the mark. It rejects the first line,
which is right only if nothing comes before a line that is to be rejected. -/
def Readable (charSigned : Bool) (buf : Bytes) : Prop :=
  if charSigned = true ∧ bomBytes <+: buf then Reads (textLines (unmarked buf)) false []
  else Fits (textLines (unmarked buf))

theorem readLines_marked {buf : Bytes} (h : bomBytes <+: buf) :
    readLines (textLines buf) = .ok (false, []) := by
  obtain ⟨rest, rfl⟩ := h
  have hlines : ∃ line lines, textLines (bomBytes ++ rest) = (0xEF :: line) :: lines := by
    unfold bomBytes
    rw [List.cons_append, textLines_cons rfl]
    cases textLines ([0xBB, 0xBF] ++ rest) with
    | nil => exact ⟨[], [], rfl⟩
    | cons line lines => exact ⟨line, lines, rfl⟩
  obtain ⟨line, lines, heq⟩ := hlines
  have hstrip : ∃ body, strip (0xEF :: line) = 0xEF :: body := by
    have hpre : strip (0xEF :: line) <+: 0xEF :: line := List.rdropWhile_prefix isBlank _
    have hne : strip (0xEF :: line) ≠ [] := by
      intro hnil
      have hblank := List.rdropWhile_eq_nil_iff.mp hnil 0xEF List.mem_cons_self
      cases hblank
    cases hstrip : strip (0xEF :: line) with
    | nil => exact absurd hstrip hne
    | cons b body =>
      rw [hstrip] at hpre
      exact ⟨body, by rw [(List.cons_prefix_cons.mp hpre).1]⟩
  obtain ⟨body, hbody⟩ := hstrip
  have hline : lineOf (0xEF :: line) = ([], .corrupt) := by
    unfold lineOf
    rw [hbody]
    rfl
  rw [heq, ← behind_nil (readLines _), readLines_cons, hline]
  rfl

/-- The only fault of the reader is a copy of negative length. -/
theorem fault_readLines {lines : List Bytes} {fault : Fault} (h : readLines lines = .error fault) :
    fault = .lengthError := by
  induction lines with
  | nil => cases h
  | cons line lines ih =>
    rw [← behind_nil (readLines _), readLines_cons] at h
    cases hcopied : copied (lineOf line) with
    | error fault' =>
      rw [hcopied] at h
      cases h
      unfold copied at hcopied
      split at hcopied
      · cases hcopied
      · cases hcopied
        rfl
    | ok outcome =>
      rw [hcopied, ok_bind] at h
      have hrest : ∀ configs, behind configs (readLines lines) = .error fault →
          readLines lines = .error fault := by
        intro configs hbehind
        cases hlines : readLines lines with
        | error fault' =>
          rw [hlines] at hbehind
          cases hbehind
          rfl
        | ok result =>
          rw [hlines] at hbehind
          cases hbehind
      cases outcome with
      | skipped => exact ih (hrest _ h)
      | corrupt => cases h
      | item item => exact ih (hrest _ h)

/-- The scanner stays inside its buffer and ends, and it reads what the grammar says of
the text exactly if the buffer is readable. -/
theorem bufToConfigs_grammar_iff (charSigned : Bool) (buf : Bytes) :
    (bufToConfigs charSigned buf ≠ .error .outOfBounds ∧ bufToConfigs charSigned buf ≠ .error .fuel) ∧
      ((∃ ok configs, bufToConfigs charSigned buf = .ok (ok, configs) ∧
          Reads (textLines (unmarked buf)) ok configs) ↔ Readable charSigned buf) := by
  rw [bufToConfigs_eq]
  refine ⟨⟨?_, ?_⟩, ?_⟩
  · intro hfault
    cases fault_readLines hfault
  · intro hfault
    cases fault_readLines hfault
  · unfold Readable textOf unmarked
    by_cases hmark : bomBytes <+: buf
    · cases charSigned with
      | true =>
        rw [if_neg (fun h => by cases h.1), if_pos hmark, if_pos ⟨rfl, hmark⟩, readLines_marked hmark]
        constructor
        · rintro ⟨ok, configs, hread, hreads⟩
          cases hread
          exact hreads
        · intro hreads
          exact ⟨false, [], rfl, hreads⟩
      | false =>
        rw [if_pos ⟨rfl, hmark⟩, if_pos hmark, if_neg (fun h => by cases h.1)]
        exact readLines_reads_iff _ (free_textLines _)
    · rw [if_neg (fun h => hmark h.2), if_neg hmark, if_neg (fun h => hmark h.2)]
      exact readLines_reads_iff _ (free_textLines _)

/-- The text `"a"` behind a byte order mark. -/
def markedName : Bytes := bomBytes ++ [34, 97, 34]

theorem bufToConfigs_rejects_marked :
    ¬ ∀ (charSigned : Bool) (buf : Bytes), ∃ ok configs,
      bufToConfigs charSigned buf = .ok (ok, configs) ∧ Reads (textLines (unmarked buf)) ok configs := by
  intro hclaim
  obtain ⟨ok, configs, hread, hreads⟩ := hclaim true markedName
  have hresult : bufToConfigs true markedName = .ok (false, []) := rfl
  have hlines : textLines (unmarked markedName) = [[34, 97, 34]] := rfl
  have hitem : ItemLine [34, 97, 34] ⟨[97], []⟩ := (itemLine_iff _ _).mpr ⟨rfl, rfl⟩
  rw [hresult] at hread
  cases hread
  rw [hlines] at hreads
  obtain ⟨rest, hnil, -⟩ := hreads.of_item hitem
  cases hnil

end Pronet.Util.ConfigStream
