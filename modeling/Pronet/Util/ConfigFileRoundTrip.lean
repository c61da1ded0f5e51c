import Pronet.Util.ConfigFile

/-! Writing a file and reading it again. An item is one line of the file, and comes back
if the line goes into the buffer of the reader and has no quote, line feed or terminator
of its own; a longer line is read as two. -/
namespace Pronet.Util.ConfigFile

open ConfigStream

/-- What a quoted string of the file can hold. -/
def Clean (bs : Bytes) : Prop := quote ∉ bs ∧ 10 ∉ bs ∧ 0 ∉ bs

def CleanItem (config : ConfigItem) : Prop := Clean config.configName ∧ Clean config.configValue

/-- A quoted value behind blanks. -/
def valueLine (gaps : Nat) (value : Bytes) : Bytes :=
  List.replicate gaps 32 ++ quote :: (value ++ [quote])

def itemLine (config : ConfigItem) : Bytes :=
  quote :: (config.configName ++ quote :: valueLine 4 config.configValue)

theorem length_valueLine (gaps : Nat) (value : Bytes) :
    (valueLine gaps value).length = gaps + value.length + 2 := by
  unfold valueLine
  simp
  omega

theorem length_itemLine (config : ConfigItem) :
    (itemLine config).length = config.configName.length + config.configValue.length + 8 := by
  unfold itemLine
  rw [List.length_cons, List.length_append, List.length_cons, length_valueLine]
  omega

theorem not_mem_valueLine {b : UInt8} {value : Bytes} (h : b ∉ value) (hblank : b ≠ 32) (hquote : b ≠ quote)
    (gaps : Nat) : b ∉ valueLine gaps value := by
  unfold valueLine
  intro hmem
  simp only [List.mem_append, List.mem_cons, List.not_mem_nil, or_false] at hmem
  rcases hmem with hmem | heq | hmem | heq
  · exact hblank (List.eq_of_mem_replicate hmem)
  · exact hquote heq
  · exact h hmem
  · exact hquote heq

theorem not_mem_itemLine {b : UInt8} {config : ConfigItem} (hname : b ∉ config.configName)
    (hvalue : b ∉ config.configValue) (hblank : b ≠ 32) (hquote : b ≠ quote) : b ∉ itemLine config := by
  unfold itemLine
  intro hmem
  simp only [List.mem_append, List.mem_cons] at hmem
  rcases hmem with heq | hmem | heq | hmem
  · exact hquote heq
  · exact hname hmem
  · exact hquote heq
  · exact not_mem_valueLine hvalue hblank hquote 4 hmem

theorem itemText_eq {config : ConfigItem} (h : CleanItem config) : itemText config = itemLine config := by
  unfold itemText
  rw [cString_eq_self h.1.2.2, cString_eq_self h.2.2.2]
  rfl

/-- Trimming ends at a quote. -/
theorem rdropWhile_quote (before bs : Bytes) :
    (before ++ quote :: bs).rdropWhile isBlank = before ++ quote :: bs.rdropWhile isBlank := by
  have hquote : ¬isBlank quote = true := by decide
  induction bs using List.reverseRecOn with
  | nil => exact List.rdropWhile_concat_neg _ _ _ hquote
  | append_singleton bs b ih =>
    have hend : before ++ quote :: (bs ++ [b]) = (before ++ quote :: bs) ++ [b] := by simp
    rw [hend]
    by_cases hblank : isBlank b = true
    · rw [List.rdropWhile_concat_pos _ _ _ hblank, List.rdropWhile_concat_pos _ _ _ hblank, ih]
    · rw [List.rdropWhile_concat_neg _ _ _ hblank, List.rdropWhile_concat_neg _ _ _ hblank, hend]

theorem lineOf_quote (bs : Bytes) : lineOf (quote :: bs) = itemOf (quote :: bs.rdropWhile isBlank) := by
  have hquote : ¬isBlank quote = true := by decide
  have hstrip : strip (quote :: bs) = quote :: bs.rdropWhile isBlank := by
    unfold strip
    rw [List.dropWhile_cons_of_neg hquote]
    exact rdropWhile_quote [] bs
  unfold lineOf
  rw [hstrip]
  rfl

theorem not_isClosed_quote (bs : Bytes) : ¬isClosed (quote :: bs) = true := by
  intro h
  cases h

theorem not_mem_rdropWhile {b : UInt8} {bs : Bytes} (h : b ∉ bs) (p : UInt8 → Bool) : b ∉ bs.rdropWhile p :=
  fun hmem => h ((List.rdropWhile_prefix p bs).subset hmem)

theorem splitQuoted_unclosed {bs : Bytes} (h : quote ∉ bs) : splitQuoted (quote :: bs) = none := by
  apply splitQuoted_of_open (beq_self_eq_true quote)
  rw [List.dropWhile_eq_nil_iff]
  intro b hb
  rw [bne_iff_ne]
  exact fun heq => h (heq ▸ hb)

theorem rdropWhile_append_quote (bs : Bytes) : (bs ++ [quote]).rdropWhile isBlank = bs ++ [quote] :=
  List.rdropWhile_concat_neg _ _ _ (by decide)

theorem dropWhile_gaps (gaps : Nat) (bs : Bytes) :
    (List.replicate gaps 32 ++ quote :: bs).dropWhile isGap = quote :: bs := by
  rw [List.dropWhile_append_of_pos]
  · rfl
  · intro b hb
    rw [List.eq_of_mem_replicate hb]
    rfl

/-- The line of an item says the item. -/
theorem lineOf_itemLine {config : ConfigItem} (h : CleanItem config) :
    lineOf (itemLine config) = ([config.configName, config.configValue], .item config) := by
  have hline : itemLine config = quote :: ((config.configName ++ quote ::
      (List.replicate 4 32 ++ quote :: config.configValue)) ++ [quote]) := by
    unfold itemLine valueLine
    simp
  have hvalue : splitQuoted (quote :: (config.configValue ++ [quote])) = some (config.configValue, []) :=
    splitQuoted_eq h.2.1
  rw [hline, lineOf_quote, rdropWhile_append_quote, ← hline]
  unfold itemOf itemLine valueLine
  rw [splitQuoted_eq h.1.1, dropWhile_gaps]
  dsimp only
  rw [if_neg (not_isClosed_quote _), hvalue]
  rfl

theorem lineOf_unclosed {bs : Bytes} (h : quote ∉ bs) : lineOf (quote :: bs) = ([], .corrupt) := by
  rw [lineOf_quote]
  unfold itemOf
  rw [splitQuoted_unclosed (not_mem_rdropWhile h _)]

/-- Blanks in front of a line say nothing. -/
theorem lineOf_gaps (gaps : Nat) (bs : Bytes) : lineOf (List.replicate gaps 32 ++ bs) = lineOf bs := by
  have hblank : ∀ b ∈ List.replicate gaps (32 : UInt8), isBlank b = true := by
    intro b hb
    rw [List.eq_of_mem_replicate hb]
    rfl
  unfold lineOf strip
  rw [List.dropWhile_append_of_pos hblank]

/-- A quoted string alone is an item without a value. -/
theorem lineOf_name {name : Bytes} (h : quote ∉ name) (gaps : Nat) :
    lineOf (quote :: (name ++ quote :: List.replicate gaps 32)) = ([name], .item ⟨name, []⟩) := by
  have hblank : ∀ b ∈ List.replicate gaps (32 : UInt8), isBlank b = true := by
    intro b hb
    rw [List.eq_of_mem_replicate hb]
    rfl
  have hsplit : quote :: (name ++ quote :: List.replicate gaps 32) =
      (quote :: (name ++ [quote])) ++ List.replicate gaps 32 := by simp
  have hline : lineOf (quote :: (name ++ quote :: List.replicate gaps 32)) =
      lineOf (quote :: (name ++ [quote])) := by
    rw [hsplit]
    unfold lineOf
    rw [strip_append_blanks _ hblank]
  have hquoted : splitQuoted (quote :: (name ++ [quote])) = some (name, []) := splitQuoted_eq h
  rw [hline, lineOf_quote, rdropWhile_append_quote]
  unfold itemOf
  rw [hquoted]
  rfl

theorem lineOf_valueLine {value : Bytes} (h : quote ∉ value) (gaps : Nat) :
    lineOf (valueLine gaps value) = ([value], .item ⟨value, []⟩) := by
  unfold valueLine
  rw [lineOf_gaps]
  exact lineOf_name h 0

/-- A name with an unclosed value behind it. -/
theorem lineOf_half {name bs : Bytes} (hname : quote ∉ name) (h : quote ∉ bs) (gaps : Nat) :
    lineOf (quote :: (name ++ quote :: (List.replicate gaps 32 ++ quote :: bs))) = ([name], .corrupt) := by
  have hback := rdropWhile_quote (name ++ quote :: List.replicate gaps 32) bs
  rw [List.append_assoc, List.cons_append] at hback
  rw [lineOf_quote, hback, List.append_assoc, List.cons_append]
  unfold itemOf
  rw [splitQuoted_eq hname, dropWhile_gaps]
  dsimp only
  rw [if_neg (not_isClosed_quote _), splitQuoted_unclosed (not_mem_rdropWhile h _)]

theorem room_lt : room < 2 ^ 31 := by decide

theorem copied_corrupt {line name : Bytes} (h : lineOf line = ([name], .corrupt))
    (hname : name.length < 2 ^ 31) : copied (lineOf line) = .ok .corrupt := by
  rw [h]
  apply copied_of_fits
  intro text hmem
  rw [List.mem_singleton] at hmem
  exact hmem ▸ ((cut_eq_iff name).mpr hname).1

theorem copied_item {line : Bytes} {item : ConfigItem} (h : (lineOf line).2 = .item item)
    (hname : item.configName.length < 2 ^ 31) (hvalue : item.configValue.length < 2 ^ 31) :
    copied (lineOf line) = .ok (.item item) :=
  (copied_item_iff h).mpr ⟨hname, hvalue⟩

/-- What the beginning of the line of an item says: nothing valid, or the name alone. -/
theorem copied_take_itemLine {config : ConfigItem} (h : CleanItem config) {n : Nat} (hpos : 0 < n)
    (hlong : n < (itemLine config).length) (hn : n < 2 ^ 31) :
    copied (lineOf ((itemLine config).take n)) = .ok .corrupt ∨
      ∃ gaps, gaps ≤ 4 ∧ (itemLine config).drop n = valueLine gaps config.configValue ∧
        copied (lineOf ((itemLine config).take n)) = .ok (.item ⟨config.configName, []⟩) := by
  obtain ⟨name, value⟩ := config
  rw [length_itemLine] at hlong
  dsimp only at hlong
  rcases Nat.lt_or_ge n (name.length + 2) with hname | hname
  · -- the quotes of the name are not closed
    left
    have hsplit : itemLine ⟨name, value⟩ = (quote :: name.take (n - 1)) ++
        (name.drop (n - 1) ++ quote :: valueLine 4 value) := by
      unfold itemLine
      rw [List.cons_append, ← List.append_assoc, List.take_append_drop]
    have hlength : (quote :: name.take (n - 1)).length = n := by
      rw [List.length_cons, List.length_take]
      omega
    have hopen : quote ∉ name.take (n - 1) := fun hmem => h.1.1 (List.mem_of_mem_take hmem)
    rw [hsplit, List.take_left' hlength, lineOf_unclosed hopen]
    exact copied_of_fits (fun text hmem => by cases hmem) .corrupt
  · rcases Nat.lt_or_ge n (name.length + 7) with hgaps | hgaps
    · -- the name is complete, and blanks behind it at most
      right
      obtain ⟨k, rfl⟩ := Nat.exists_eq_add_of_le hname
      have hblanks : List.replicate 4 (32 : UInt8) = List.replicate k 32 ++ List.replicate (4 - k) 32 := by
        rw [List.replicate_append_replicate]
        congr 1
        omega
      have hsplit : itemLine ⟨name, value⟩ = (quote :: (name ++ quote :: List.replicate k 32)) ++
          valueLine (4 - k) value := by
        unfold itemLine valueLine
        rw [hblanks]
        simp only [List.cons_append, List.append_assoc]
      have hlength : (quote :: (name ++ quote :: List.replicate k (32 : UInt8))).length = name.length + 2 + k := by
        simp
        omega
      refine ⟨4 - k, Nat.sub_le 4 k, ?_, ?_⟩
      · rw [hsplit, List.drop_left' hlength]
      · rw [hsplit, List.take_left' hlength]
        apply copied_item
        · rw [lineOf_name h.1.1]
        · dsimp only
          omega
        · exact Nat.pow_pos Nat.two_pos
    · -- the quotes of the value are not closed
      left
      obtain ⟨m, rfl⟩ := Nat.exists_eq_add_of_le hgaps
      have hvalue : value ++ [quote] = value.take m ++ (value.drop m ++ [quote]) := by
        rw [← List.append_assoc, List.take_append_drop]
      have hsplit : itemLine ⟨name, value⟩ =
          (quote :: (name ++ quote :: (List.replicate 4 32 ++ quote :: value.take m))) ++
            (value.drop m ++ [quote]) := by
        unfold itemLine valueLine
        rw [hvalue]
        simp only [List.cons_append, List.append_assoc]
      have hlength : (quote :: (name ++ quote :: (List.replicate 4 32 ++ quote :: value.take m))).length =
          name.length + 7 + m := by
        simp
        omega
      have hopen : quote ∉ value.take m := fun hmem => h.2.1 (List.mem_of_mem_take hmem)
      have hshort : name.length < 2 ^ 31 := by omega
      rw [hsplit, List.take_left' hlength]
      exact copied_corrupt (lineOf_half h.1.1 hopen 4) hshort

theorem copied_take_valueLine {value : Bytes} (h : Clean value) {gaps n : Nat} (hgaps : gaps < n)
    (hlong : n < (valueLine gaps value).length) :
    copied (lineOf ((valueLine gaps value).take n)) = .ok .corrupt := by
  rw [length_valueLine] at hlong
  obtain ⟨m, rfl⟩ := Nat.exists_eq_add_of_lt hgaps
  have hvalue : value ++ [quote] = value.take m ++ (value.drop m ++ [quote]) := by
    rw [← List.append_assoc, List.take_append_drop]
  have hsplit : valueLine gaps value = (List.replicate gaps 32 ++ quote :: value.take m) ++
      (value.drop m ++ [quote]) := by
    unfold valueLine
    rw [hvalue]
    simp only [List.cons_append, List.append_assoc]
  have hlength : (List.replicate gaps 32 ++ quote :: value.take m).length = gaps + m + 1 := by
    simp
    omega
  have hopen : quote ∉ value.take m := fun hmem => h.1 (List.mem_of_mem_take hmem)
  rw [hsplit, List.take_left' hlength, lineOf_gaps, lineOf_unclosed hopen]
  exact copied_of_fits (fun text hmem => by cases hmem) .corrupt

theorem readLines_corrupt {line : Bytes} (h : copied (lineOf line) = .ok .corrupt) (lines : List Bytes) :
    readLines (line :: lines) = .ok (false, []) := by
  unfold readLines
  rw [h]
  rfl

theorem readLines_item {line : Bytes} {item : ConfigItem} (h : copied (lineOf line) = .ok (.item item))
    {lines : List Bytes} {items : List ConfigItem} :
    readLines (line :: lines) = .ok (true, items) ↔
      ∃ rest, items = item :: rest ∧ readLines lines = .ok (true, rest) := by
  conv_lhs => unfold readLines
  rw [h, ok_bind]
  cases readLines lines with
  | error fault => simp
  | ok r =>
    obtain ⟨ok, rest⟩ := r
    dsimp only
    rw [ok_bind]
    dsimp only
    constructor
    · intro heq
      cases heq
      exact ⟨rest, rfl, rfl⟩
    · rintro ⟨rest', rfl, hrest⟩
      cases hrest
      rfl

/-- A line that does not fit comes in two parts, the second with the line feed. -/
theorem chunkLines_long {line : Bytes} (hfeed : 10 ∉ line) (hnul : 0 ∉ line) (hlong : room < line.length)
    (rest : Bytes) :
    chunkLines (line ++ 10 :: rest) = line.take room :: chunkLines (line.drop room ++ 10 :: rest) := by
  have hlength : (line.take room).length = room := by
    rw [List.length_take]
    omega
  have hpart : 10 ∉ line.take room := fun hmem => hfeed (List.mem_of_mem_take hmem)
  have hfull := fgets_full hpart (line.drop room ++ 10 :: rest)
  rw [hlength] at hfull
  have hsplit : line ++ 10 :: rest = line.take room ++ (line.drop room ++ 10 :: rest) := by
    rw [← List.append_assoc, List.take_append_drop]
  have hsome : line.take room ++ (line.drop room ++ 10 :: rest) ≠ [] := by simp
  rw [hsplit, chunkLines_of_ne hsome, hfull, cString_eq_self fun hmem => hnul (List.mem_of_mem_take hmem)]

def textOfItems (configs : List ConfigItem) : Bytes := configs.flatMap fun config => itemText config ++ [10]

theorem textOfItems_cons {config : ConfigItem} (h : CleanItem config) (configs : List ConfigItem) :
    textOfItems (config :: configs) = itemLine config ++ 10 :: textOfItems configs := by
  unfold textOfItems
  rw [List.flatMap_cons, itemText_eq h, List.append_assoc, List.singleton_append]

theorem CleanItem.line {config : ConfigItem} (h : CleanItem config) :
    10 ∉ itemLine config ∧ 0 ∉ itemLine config :=
  ⟨not_mem_itemLine h.1.2.1 h.2.2.1 (by decide) (by decide),
    not_mem_itemLine h.1.2.2 h.2.2.2 (by decide) (by decide)⟩

def Fitting (config : ConfigItem) : Prop := (itemLine config).length ≤ room

theorem copied_itemLine {config : ConfigItem} (h : CleanItem config) (hfit : Fitting config) :
    copied (lineOf (itemLine config)) = .ok (.item config) := by
  unfold Fitting at hfit
  have hlt := room_lt
  rw [length_itemLine] at hfit
  apply copied_item
  · rw [lineOf_itemLine h]
  · omega
  · omega

/-- Short items come back. -/
theorem readLines_of_fitting {configs : List ConfigItem} (h : ∀ config ∈ configs, CleanItem config)
    (hfit : ∀ config ∈ configs, Fitting config) :
    readLines (chunkLines (textOfItems configs)) = .ok (true, configs) := by
  induction configs with
  | nil =>
    unfold textOfItems
    rw [List.flatMap_nil, chunkLines_nil]
    rfl
  | cons config configs ih =>
    have hclean := h config List.mem_cons_self
    have hfirst := hfit config List.mem_cons_self
    rw [textOfItems_cons hclean, readLines_line hclean.line.1 hclean.line.2 hfirst,
      readLines_item (copied_itemLine hclean hfirst)]
    exact ⟨configs, rfl, ih (fun config hmem => h config (List.mem_cons_of_mem _ hmem))
      (fun config hmem => hfit config (List.mem_cons_of_mem _ hmem))⟩

/-- The second part of a long line is an item of its own if it is valid. -/
theorem readLines_valueLine {value : Bytes} (h : Clean value) {gaps : Nat} (hgaps : gaps < room) {rest : Bytes}
    {items : List ConfigItem}
    (hread : readLines (chunkLines (valueLine gaps value ++ 10 :: rest)) = .ok (true, items)) :
    ∃ items', items = ⟨value, []⟩ :: items' ∧ readLines (chunkLines rest) = .ok (true, items') := by
  have hfeed := not_mem_valueLine h.2.1 (by decide) (by decide) gaps
  have hnul := not_mem_valueLine h.2.2 (by decide) (by decide) gaps
  rcases Nat.lt_or_ge room (valueLine gaps value).length with hlong | hshort
  · rw [chunkLines_long hfeed hnul hlong, readLines_corrupt (copied_take_valueLine h hgaps hlong)] at hread
    cases hread
  · have hvalue : value.length < 2 ^ 31 := by
      have hlt := room_lt
      rw [length_valueLine] at hshort
      omega
    have hitem : copied (lineOf (valueLine gaps value)) = .ok (.item ⟨value, []⟩) := by
      apply copied_item
      · rw [lineOf_valueLine h.1]
      · exact hvalue
      · exact Nat.pow_pos Nat.two_pos
    rw [readLines_line hfeed hnul hshort, readLines_item hitem] at hread
    exact hread

/-- Nothing is lost of valid items: a line that is too long gives two items or is not valid. -/
theorem length_readLines {configs items : List ConfigItem} (h : ∀ config ∈ configs, CleanItem config)
    (hread : readLines (chunkLines (textOfItems configs)) = .ok (true, items)) :
    configs.length ≤ items.length ∧
      (items.length = configs.length → ∀ config ∈ configs, Fitting config) := by
  induction configs generalizing items with
  | nil => exact ⟨Nat.zero_le _, fun _ config hmem => by cases hmem⟩
  | cons config configs ih =>
    have hclean := h config List.mem_cons_self
    have hrest := fun config hmem => h config (List.mem_cons_of_mem _ hmem)
    obtain ⟨hfeed, hnul⟩ := hclean.line
    rw [textOfItems_cons hclean] at hread
    by_cases hfit : Fitting config
    · rw [readLines_line hfeed hnul hfit, readLines_item (copied_itemLine hclean hfit)] at hread
      obtain ⟨items', rfl, hread⟩ := hread
      obtain ⟨hle, hall⟩ := ih hrest hread
      refine ⟨Nat.succ_le_succ hle, ?_⟩
      intro hlength other hmem
      rcases List.mem_cons.mp hmem with rfl | hmem
      · exact hfit
      · exact hall (Nat.succ.inj hlength) other hmem
    · have hlong : room < (itemLine config).length := Nat.lt_of_not_le hfit
      rw [chunkLines_long hfeed hnul hlong] at hread
      rcases copied_take_itemLine hclean room_pos hlong room_lt with hcorrupt | ⟨gaps, hgaps, hdrop, hitem⟩
      · rw [readLines_corrupt hcorrupt] at hread
        cases hread
      · rw [readLines_item hitem] at hread
        obtain ⟨items1, rfl, hread⟩ := hread
        rw [hdrop] at hread
        obtain ⟨items2, rfl, hread'⟩ :=
          readLines_valueLine hclean.2 (Nat.lt_of_le_of_lt hgaps (by decide)) hread
        have hle := (ih hrest hread').1
        simp only [List.length_cons]
        exact ⟨by omega, fun hlength => by omega⟩

/-- A line feed at the end at most, and no terminator. -/
def Single (line : Bytes) : Prop := ∃ body, 10 ∉ body ∧ 0 ∉ body ∧ (line = body ∨ line = body ++ [10])

theorem single_chunk (n : Nat) (file : Bytes) : Single (cString (fgets n file).1) := by
  obtain ⟨line, hfeed, hfirst⟩ := fgets_feed n file
  have hbody : 10 ∉ cString line := fun hmem => hfeed ((List.takeWhile_prefix _).subset hmem)
  refine ⟨cString line, hbody, not_mem_cString line, ?_⟩
  rcases hfirst with hfirst | hfirst
  · exact .inl (by rw [hfirst])
  · rw [hfirst]
    unfold cString
    rw [List.takeWhile_append]
    split
    · rename_i hall
      right
      rw [(List.takeWhile_prefix _).eq_of_length hall]
      rfl
    · exact .inl rfl

theorem single_chunkLines (file : Bytes) : ∀ line ∈ chunkLines file, Single line := by
  fun_induction chunkLines file with
  | case1 =>
    intro line hmem
    cases hmem
  | case2 b bs ih =>
    intro line hmem
    rcases List.mem_cons.mp hmem with rfl | hmem
    · exact single_chunk room (b :: bs)
    · exact ih line hmem

theorem clean_of_split {bs text after : Bytes} (h : splitQuoted bs = some (text, after))
    (hfeed : 10 ∉ bs) (hnul : 0 ∉ bs) : Clean text ∧ 10 ∉ after ∧ 0 ∉ after := by
  obtain ⟨rest, rfl, hquote, rfl⟩ := exists_of_splitQuoted h
  have hafter : ∀ b, b ∈ rest.dropWhile isGap → b ∈ quote :: (text ++ quote :: rest) := by
    intro b hmem
    have hrest := (List.dropWhile_suffix isGap).subset hmem
    simp [hrest]
  have htext : ∀ b, b ∈ text → b ∈ quote :: (text ++ quote :: rest) := by
    intro b hmem
    simp [hmem]
  exact ⟨⟨hquote, fun hmem => hfeed (htext _ hmem), fun hmem => hnul (htext _ hmem)⟩,
    fun hmem => hfeed (hafter _ hmem), fun hmem => hnul (hafter _ hmem)⟩

theorem clean_of_itemOf {bs : Bytes} {item : ConfigItem} (h : (itemOf bs).2 = .item item)
    (hfeed : 10 ∉ bs) (hnul : 0 ∉ bs) : CleanItem item := by
  have hempty : Clean [] := ⟨by simp, by simp, by simp⟩
  unfold itemOf at h
  cases hname : splitQuoted bs with
  | none =>
    rw [hname] at h
    cases h
  | some split =>
    obtain ⟨hclean, hfeed', hnul'⟩ := clean_of_split hname hfeed hnul
    rw [hname] at h
    dsimp only at h
    split at h
    · cases h
      exact ⟨hclean, hempty⟩
    · cases hvalue : splitQuoted split.2 with
      | none =>
        rw [hvalue] at h
        cases h
      | some split' =>
        obtain ⟨hclean', -, -⟩ := clean_of_split hvalue hfeed' hnul'
        rw [hvalue] at h
        dsimp only at h
        split at h
        · cases h
          exact ⟨hclean, hclean'⟩
        · cases h

theorem Clean.cut {bs : Bytes} (h : Clean bs) : Clean (ConfigStream.cut bs) :=
  ⟨fun hmem => h.1 (List.mem_of_mem_take hmem), fun hmem => h.2.1 (List.mem_of_mem_take hmem),
    fun hmem => h.2.2 (List.mem_of_mem_take hmem)⟩

theorem clean_of_single {line : Bytes} (h : Single line) {item : ConfigItem}
    (hitem : copied (lineOf line) = .ok (.item item)) : CleanItem item := by
  obtain ⟨body, hfeed, hnul, hline⟩ := h
  have hbody : lineOf line = lineOf body := by
    rcases hline with rfl | rfl
    · rfl
    · exact lineOf_feed body
  have hstrip : ∀ b, b ∈ strip body → b ∈ body := fun b hmem =>
    (List.dropWhile_suffix isBlank).subset ((List.rdropWhile_prefix isBlank _).subset hmem)
  rw [hbody, copied_ok_iff] at hitem
  obtain ⟨-, hcut⟩ := hitem
  unfold lineOf at hcut
  split at hcut
  · cases hcut
  · cases hsaid : (itemOf (strip body)).2 with
    | skipped =>
      rw [hsaid] at hcut
      cases hcut
    | corrupt =>
      rw [hsaid] at hcut
      cases hcut
    | item said =>
      have hclean := clean_of_itemOf hsaid (fun hmem => hfeed (hstrip _ hmem)) (fun hmem => hnul (hstrip _ hmem))
      obtain ⟨name, value⟩ := said
      rw [hsaid, Line.cut_item, Line.item.injEq] at hcut
      unfold CleanItem at hclean ⊢
      rw [← hcut]
      dsimp only at hclean ⊢
      exact ⟨hclean.1.cut, hclean.2.cut⟩

/-- Whatever the file holds, the items that are read have no quote, line feed or terminator. -/
theorem clean_of_readLines {lines : List Bytes} (h : ∀ line ∈ lines, Single line) {items : List ConfigItem}
    (hread : readLines lines = .ok (true, items)) : ∀ item ∈ items, CleanItem item := by
  induction lines generalizing items with
  | nil =>
    cases hread
    intro item hmem
    cases hmem
  | cons line lines ih =>
    have hrest := fun line hmem => h line (List.mem_cons_of_mem _ hmem)
    cases hsaid : copied (lineOf line) with
    | error fault =>
      unfold readLines at hread
      rw [hsaid] at hread
      cases hread
    | ok outcome =>
      cases outcome with
      | skipped =>
        unfold readLines at hread
        rw [hsaid] at hread
        exact ih hrest hread
      | corrupt =>
        rw [readLines_corrupt hsaid] at hread
        cases hread
      | item first =>
        obtain ⟨items, rfl, hread'⟩ := (readLines_item hsaid).mp hread
        intro item hmem
        rcases List.mem_cons.mp hmem with rfl | hmem
        · exact clean_of_single (h line List.mem_cons_self) hsaid
        · exact ih hrest hread' item hmem

theorem writeItems_text {printed : Nat → Bool} {i : Nat} {configs : List ConfigItem} {text : Bytes}
    (h : writeItems printed i configs = (true, text)) : text = textOfItems configs := by
  induction configs generalizing i text with
  | nil =>
    cases h
    rfl
  | cons config configs ih =>
    unfold writeItems at h
    split at h
    · cases h
    · cases hrest : writeItems printed (i + 1) configs with
      | mk ok rest =>
        rw [hrest] at h
        cases h
        rw [ih hrest]
        unfold textOfItems
        rw [List.flatMap_cons]

/-- The file that `Write` leaves if it succeeds. -/
theorem file_of_write {fileName : Bytes} {opened : Bool} {printed : Nat → Bool} {configs : List ConfigItem}
    {file : Bytes} (h : write fileName opened printed configs = (true, some file)) :
    fileName ≠ [] ∧ file = headerLine ++ 10 :: 10 :: textOfItems (written configs) := by
  unfold write at h
  split at h
  · cases h
  · rename_i hopen
    split at h
    · cases h
    · cases hitems : writeItems printed 1 (configs.take (int32 configs.length).toNat) with
      | mk ok text =>
        rw [hitems] at h
        cases h
        refine ⟨fun hempty => hopen (by rw [hempty]; rfl), ?_⟩
        rw [writeItems_text hitems]
        rfl

/-- The comment at the head of the file is skipped. -/
theorem readLines_header (charSigned : Bool) (text : Bytes) :
    readLines (unmark charSigned (chunkLines (headerLine ++ 10 :: 10 :: text))) =
      readLines (chunkLines text) := by
  have hmark : ¬bomBytes <+: headerLine ++ [10] := by decide
  have hskip : copied (lineOf (headerLine ++ [10])) = .ok .skipped := by decide +kernel
  have hnul : 0 ∉ headerLine ++ [10] := by decide
  have hline : chunkLines (headerLine ++ 10 :: 10 :: text) = (headerLine ++ [10]) :: chunkLines (10 :: text) := by
    rw [chunkLines_of_ne (by simp), fgets_line (by decide) (by decide), cString_eq_self hnul]
  have htext : textOf charSigned (headerLine ++ [10]) = headerLine ++ [10] := if_neg fun h => hmark h.2
  have hempty : readLines (chunkLines ([] ++ 10 :: text)) = readLines ([] :: chunkLines text) :=
    readLines_line (by simp) (by simp) (Nat.zero_le _) text
  rw [hline, unmark_cons, htext]
  conv_lhs => unfold readLines
  rw [hskip, ok_bind]
  exact hempty

/-- What `Write` leaves is read as it was written exactly if every name and value is without
quote, line feed and terminator, and every line goes into the buffer of the reader. -/
theorem read_write_iff (charSigned : Bool) {fileName : Bytes} {opened : Bool} {printed : Nat → Bool}
    {configs : List ConfigItem} {file : Bytes}
    (hwrite : write fileName opened printed configs = (true, some file)) (hlength : configs.length < 2 ^ 31) :
    read charSigned fileName (some file) true true = .ok (true, configs) ↔
      ∀ config ∈ configs, CleanItem config ∧
        config.configName.length + config.configValue.length + 9 ≤ lineBufSize := by
  obtain ⟨hname, rfl⟩ := file_of_write hwrite
  have hroom : lineBufSize = room + 1 := rfl
  have hfit : ∀ config, Fitting config ↔
      config.configName.length + config.configValue.length + 9 ≤ lineBufSize := by
    intro config
    unfold Fitting
    rw [length_itemLine, hroom]
    omega
  rw [read_eq charSigned hname, readLines_header, (written_eq_iff configs).mpr hlength]
  constructor
  · intro hread
    have hclean := clean_of_readLines (single_chunkLines _) hread
    have hall := (length_readLines hclean hread).2 rfl
    exact fun config hmem => ⟨hclean config hmem, (hfit config).mp (hall config hmem)⟩
  · intro hgood
    exact readLines_of_fitting (fun config hmem => (hgood config hmem).1)
      (fun config hmem => (hfit config).mpr (hgood config hmem).2)

/-- A name with a carriage return, and a value that looks like a comment. -/
def returned : List ConfigItem := [⟨[97, 13], [47, 47]⟩]

theorem read_write_iff_returned :
    read true [99] (write [99] true (fun _ => true) returned).2 true true = .ok (true, returned) := by
  have hwrite : write [99] true (fun _ => true) returned =
      (true, some (headerLine ++ 10 :: 10 :: textOfItems returned)) := by decide +kernel
  rw [hwrite]
  refine (read_write_iff true hwrite (by decide)).mpr ?_
  unfold returned CleanItem Clean
  decide

end Pronet.Util.ConfigFile
