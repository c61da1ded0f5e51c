import Pronet.Util.ConfigRoundTrip

/-! `CProConfigFile`. Its reader takes lines of a limited length from the file, each up to
a line feed, and scans them as `CProConfigStream` scans the lines of a buffer. -/
namespace Pronet.Util.ConfigFile

open ConfigStream

def lineBufSize : Nat := 1024 * 63

/-- The bytes of a line that go into the buffer, in front of the terminator. -/
def room : Nat := lineBufSize - 1

/-- `fgets` with room for `n` bytes: the bytes up to a line feed, and what is left. -/
def fgets : Nat → Bytes → Bytes × Bytes
  | 0, bs => ([], bs)
  | _ + 1, [] => ([], [])
  | n + 1, b :: bs => if b == 10 then ([b], bs) else (b :: (fgets n bs).1, (fgets n bs).2)

/-- The bytes up to the terminator. -/
def cString (bs : Bytes) : Bytes := bs.takeWhile (· != 0)

/-- The loop of `Read`; `eof` is what `feof` says once no more bytes come. -/
def readChunks (charSigned eof : Bool) :
    Nat → Bool → Bytes → List ConfigItem → Except Fault (Bool × List ConfigItem)
  | 0, _, _, _ => .error .fuel
  | fuel + 1, bom, file, configs =>
      if file.isEmpty then .ok (eof, configs)
      else do
        let (chunk, rest) := fgets room file
        let line := cString chunk
        match ← scanLine charSigned bom line 0 line.length with
        | .skipped => readChunks charSigned eof fuel true rest configs
        | .corrupt => .ok (false, configs)
        | .item item => readChunks charSigned eof fuel true rest (configs ++ [item])

/-- `file` is missing where `fopen` fails, and `allocated` says whether the line buffer is there. -/
def read (charSigned : Bool) (fileName : Bytes) (file : Option Bytes) (allocated eof : Bool) :
    Except Fault (Bool × List ConfigItem) :=
  if fileName.isEmpty then .ok (false, [])
  else
    match file with
    | none => .ok (false, [])
    | some content =>
        if !allocated then .ok (false, [])
        else readChunks charSigned eof (content.length + 1) false content []

/-- The comment `//#; "config_name"    "config_value"`. -/
def headerLine : Bytes :=
  [47, 47, 35, 59, 32, 34, 99, 111, 110, 102, 105, 103, 95, 110, 97, 109, 101, 34, 32, 32, 32, 32, 34,
    99, 111, 110, 102, 105, 103, 95, 118, 97, 108, 117, 101, 34]

/-- `"%s"    "%s"` with the C strings of name and value. -/
def itemText (config : ConfigItem) : Bytes :=
  quote :: (cString config.configName ++ quote :: ([32, 32, 32, 32] ++
    quote :: (cString config.configValue ++ [quote])))

/-- The loop of `Write`; `printed i` says whether the call of `fprintf` succeeds. -/
def writeItems (printed : Nat → Bool) : Nat → List ConfigItem → Bool × Bytes
  | _, [] => (true, [])
  | i, config :: configs =>
      if !printed i then (false, [])
      else
        let (ok, text) := writeItems printed (i + 1) configs
        (ok, itemText config ++ [10] ++ text)

/-- What `Write` returns, and the file that it leaves if it has opened one. -/
def write (fileName : Bytes) (opened : Bool) (printed : Nat → Bool) (configs : List ConfigItem) :
    Bool × Option Bytes :=
  if fileName.isEmpty || !opened then (false, none)
  else if !printed 0 then (false, some [])
  else
    let (ok, text) := writeItems printed 1 (configs.take (int32 configs.length).toNat)
    (ok, some (headerLine ++ 10 :: 10 :: text))

theorem fgets_append (n : Nat) (bs : Bytes) : (fgets n bs).1 ++ (fgets n bs).2 = bs := by
  induction n generalizing bs with
  | zero => rfl
  | succ n ih =>
    cases bs with
    | nil => rfl
    | cons b bs =>
      unfold fgets
      split
      · rfl
      · exact congrArg (b :: ·) (ih bs)

theorem fgets_shorter {n : Nat} (hn : 0 < n) (b : UInt8) (bs : Bytes) :
    (fgets n (b :: bs)).2.length < (b :: bs).length := by
  have hboth := congrArg List.length (fgets_append n (b :: bs))
  have hsome : (fgets n (b :: bs)).1 ≠ [] := by
    obtain ⟨n, rfl⟩ := Nat.exists_eq_succ_of_ne_zero (Nat.ne_of_gt hn)
    unfold fgets
    split <;> simp
  have hpos := List.length_pos_iff.mpr hsome
  rw [List.length_append] at hboth
  omega

/-- A line that is short enough comes whole. -/
theorem fgets_line {n : Nat} {line : Bytes} (hline : 10 ∉ line) (hlength : line.length < n) (rest : Bytes) :
    fgets n (line ++ 10 :: rest) = (line ++ [10], rest) := by
  induction line generalizing n with
  | nil =>
    obtain ⟨n, rfl⟩ := Nat.exists_eq_succ_of_ne_zero (Nat.ne_of_gt hlength)
    rfl
  | cons b line ih =>
    obtain ⟨n, rfl⟩ := Nat.exists_eq_succ_of_ne_zero (show n ≠ 0 by simp at hlength; omega)
    have hb : ¬(b == 10) = true := fun h => hline (beq_iff_eq.mp h ▸ List.mem_cons_self)
    simp only [List.cons_append, fgets, if_neg hb]
    rw [ih (fun h => hline (List.mem_cons_of_mem _ h)) (by simpa using hlength)]

/-- A longer one comes up to the end of the buffer. -/
theorem fgets_full {line : Bytes} (hline : 10 ∉ line) (rest : Bytes) :
    fgets line.length (line ++ rest) = (line, rest) := by
  induction line with
  | nil => rfl
  | cons b line ih =>
    have hb : ¬(b == 10) = true := fun h => hline (beq_iff_eq.mp h ▸ List.mem_cons_self)
    simp only [List.cons_append, List.length_cons, fgets, if_neg hb]
    rw [ih (fun h => hline (List.mem_cons_of_mem _ h))]

theorem fgets_last {n : Nat} {line : Bytes} (hline : 10 ∉ line) (hlength : line.length ≤ n) :
    fgets n line = (line, []) := by
  induction line generalizing n with
  | nil => cases n <;> rfl
  | cons b line ih =>
    obtain ⟨n, rfl⟩ := Nat.exists_eq_succ_of_ne_zero (show n ≠ 0 by simp at hlength; omega)
    have hb : ¬(b == 10) = true := fun h => hline (beq_iff_eq.mp h ▸ List.mem_cons_self)
    simp only [fgets, if_neg hb]
    rw [ih (fun h => hline (List.mem_cons_of_mem _ h)) (by simpa using hlength)]

/-- A line feed can only be the last byte of what comes. -/
theorem fgets_feed (n : Nat) (bs : Bytes) :
    ∃ line, 10 ∉ line ∧ ((fgets n bs).1 = line ∨ (fgets n bs).1 = line ++ [10]) := by
  induction n generalizing bs with
  | zero => exact ⟨[], by simp, .inl rfl⟩
  | succ n ih =>
    cases bs with
    | nil => exact ⟨[], by simp, .inl rfl⟩
    | cons b bs =>
      by_cases hb : (b == 10) = true
      · refine ⟨[], by simp, .inr ?_⟩
        simp only [fgets, if_pos hb]
        rw [beq_iff_eq.mp hb]
        rfl
      · obtain ⟨line, hline, hfirst⟩ := ih bs
        refine ⟨b :: line, ?_, ?_⟩
        · intro hmem
          rcases List.mem_cons.mp hmem with rfl | hmem
          · exact hb rfl
          · exact hline hmem
        · simp only [fgets, if_neg hb]
          rcases hfirst with h | h <;> simp [h]

theorem cString_eq_self {bs : Bytes} (h : 0 ∉ bs) : cString bs = bs := by
  unfold cString
  rw [List.takeWhile_eq_self_iff]
  intro b hb
  rw [bne_iff_ne]
  exact fun heq => h (heq ▸ hb)

theorem not_mem_cString (bs : Bytes) : 0 ∉ cString bs := by
  intro hmem
  have hne := List.mem_takeWhile_imp hmem
  simp at hne

theorem room_pos : 0 < room := by decide

/-- The strings that `Read` scans one after the other. -/
def chunkLines : Bytes → List Bytes
  | [] => []
  | b :: bs => cString (fgets room (b :: bs)).1 :: chunkLines (fgets room (b :: bs)).2
termination_by file => file.length
decreasing_by exact fgets_shorter room_pos b bs

theorem segment_zero (line : Bytes) : segment line 0 line.length = line := by
  rw [segment_length, List.drop_zero]

/-- Behind the first line the loop reads the lines that `fgets` cuts off. -/
theorem readChunks_eq (charSigned : Bool) (fuel : Nat) (file : Bytes) (configs : List ConfigItem)
    (hfuel : file.length < fuel) :
    readChunks charSigned true fuel true file configs = behind configs (readLines (chunkLines file)) := by
  induction fuel generalizing file configs with
  | zero => omega
  | succ fuel ih =>
    unfold readChunks
    cases file with
    | nil =>
      unfold chunkLines readLines behind
      simp [Except.map]
    | cons b bs =>
      have hshorter := fgets_shorter room_pos b bs
      unfold chunkLines
      rw [if_neg (by simp)]
      dsimp only
      rw [scanLine_true (Nat.zero_le _) (Nat.le_refl _), segment_zero, readLines_cons]
      congr 1
      funext outcome
      cases outcome with
      | skipped => exact ih _ configs (by omega)
      | corrupt => rfl
      | item item => exact ih _ (configs ++ [item]) (by omega)

theorem chunkLines_of_ne {file : Bytes} (h : file ≠ []) :
    chunkLines file = cString (fgets room file).1 :: chunkLines (fgets room file).2 := by
  cases file with
  | nil => exact absurd rfl h
  | cons b bs =>
    conv_lhs => unfold chunkLines

theorem readLines_congr {line line' : Bytes} (h : lineOf line = lineOf line') (lines : List Bytes) :
    readLines (line :: lines) = readLines (line' :: lines) := by
  unfold readLines
  rw [h]

theorem lineOf_feed (line : Bytes) : lineOf (line ++ [10]) = lineOf line :=
  lineOf_append_term line (.lf [])

theorem lineOf_return (content : Bytes) : lineOf (content ++ [13]) = lineOf content := by
  have hterm : Terminator [13] [] := .cr (by simp)
  exact lineOf_append_term content hterm

theorem readLines_feed (lines : List Bytes) : readLines ([10] :: lines) = readLines lines :=
  readLines_congr (lineOf_feed []) lines

/-- A line that fits into the buffer comes whole; its line feed may come apart from it. -/
theorem chunkLines_line {line : Bytes} (hfeed : 10 ∉ line) (hnul : 0 ∉ line)
    (hlength : line.length ≤ room) (rest : Bytes) :
    chunkLines (line ++ 10 :: rest) = (line ++ [10]) :: chunkLines rest ∨
      chunkLines (line ++ 10 :: rest) = line :: [10] :: chunkLines rest := by
  have hnul' : 0 ∉ line ++ [10] := by simpa using hnul
  rw [chunkLines_of_ne (by simp)]
  rcases Nat.lt_or_eq_of_le hlength with hlt | heq
  · left
    rw [fgets_line hfeed hlt, cString_eq_self hnul']
  · right
    have hempty : 0 ∉ ([] ++ [10] : Bytes) := by simp
    have hrest : chunkLines (10 :: rest) = [10] :: chunkLines rest := by
      rw [chunkLines_of_ne (by simp), ← List.nil_append (10 :: rest),
        fgets_line (by simp) room_pos, cString_eq_self hempty]
      rfl
    rw [← heq, fgets_full hfeed, cString_eq_self hnul, hrest]

theorem chunkLines_last {line : Bytes} (hfeed : 10 ∉ line) (hnul : 0 ∉ line)
    (hlength : line.length ≤ room) (hsome : line ≠ []) : chunkLines line = [line] := by
  rw [chunkLines_of_ne hsome, fgets_last hfeed hlength, cString_eq_self hnul]
  unfold chunkLines
  rfl

theorem readLines_line {line : Bytes} (hfeed : 10 ∉ line) (hnul : 0 ∉ line)
    (hlength : line.length ≤ room) (rest : Bytes) :
    readLines (chunkLines (line ++ 10 :: rest)) = readLines (line :: chunkLines rest) := by
  rcases chunkLines_line hfeed hnul hlength rest with hlines | hlines
  · rw [hlines, readLines_congr (lineOf_feed line)]
  · rw [hlines]
    unfold readLines
    rw [readLines_feed]

theorem chunkLines_nil : chunkLines [] = [] := by
  unfold chunkLines
  rfl

theorem readLines_last {line : Bytes} (hfeed : 10 ∉ line) (hnul : 0 ∉ line)
    (hlength : line.length ≤ room) : readLines (chunkLines line) = readLines [line] := by
  by_cases hempty : line = []
  · rw [hempty, chunkLines_nil]
    rfl
  · rw [chunkLines_last hfeed hnul hlength hempty]

/-- A file in which the two readers see the same lines: no terminator, each carriage return
in front of a line feed or at the end, and no line too long for the buffer. -/
structure Regular (file : Bytes) : Prop where
  noNul : 0 ∉ file
  returns : ∀ pre post, file = pre ++ 13 :: post → post = [] ∨ post.head? = some 10
  short : ∀ pre line post, file = pre ++ (line ++ post) → 10 ∉ line → line.length ≤ room

theorem Regular.drop {pre rest : Bytes} (h : Regular (pre ++ rest)) : Regular rest where
  noNul hmem := h.noNul (List.mem_append_right _ hmem)
  returns a b heq := h.returns (pre ++ a) b (by rw [heq, List.append_assoc])
  short a line b heq hline := h.short (pre ++ a) line b (by rw [heq, List.append_assoc]) hline

/-- A stretch without line feeds has a carriage return at its end at most. -/
theorem Regular.line {line rest : Bytes} (h : Regular (line ++ rest)) (hline : 10 ∉ line) :
    ∃ content, Free content ∧ (line = content ∨ line = content ++ [13]) := by
  have hfree : ∀ content : Bytes, 10 ∉ content → 13 ∉ content → Free content := by
    intro content h10 h13 b hb
    have hb10 : b ≠ 10 := fun heq => h10 (heq ▸ hb)
    have hb13 : b ≠ 13 := fun heq => h13 (heq ▸ hb)
    unfold isEol
    simp [hb10, hb13]
  by_cases hmem : 13 ∈ line
  · obtain ⟨content, tail, hsplit, hfirst⟩ := List.eq_append_cons_of_mem hmem
    have h10 : 10 ∉ content := fun hb => hline (hsplit ▸ List.mem_append_left _ hb)
    refine ⟨content, hfree content h10 hfirst, .inr ?_⟩
    have hpost := h.returns content (tail ++ rest) (by rw [hsplit]; simp)
    have htail : tail = [] := by
      by_contra hne
      obtain ⟨b, tail, rfl⟩ := List.exists_cons_of_ne_nil hne
      have hb : b = 10 := by simpa using hpost
      exact hline (by rw [hsplit, hb]; simp)
    rw [hsplit, htail]
  · exact ⟨line, hfree line hline hmem, .inl rfl⟩

/-- The first line of a regular file, for both readers. -/
theorem Regular.first {file : Bytes} (h : Regular file) :
    (∃ content term rest, file = content ++ (term ++ rest) ∧ Free content ∧ Terminator term rest ∧
      readLines (chunkLines file) = readLines (content :: chunkLines rest) ∧
      (file = [] ∨ rest.length < file.length)) := by
  by_cases hmem : 10 ∈ file
  · obtain ⟨line, rest, rfl, hline⟩ := List.eq_append_cons_of_mem hmem
    obtain ⟨content, hfree, hcontent⟩ := h.line hline
    have hnul : 0 ∉ line := fun hb => h.noNul (List.mem_append_left _ hb)
    have hread := readLines_line hline hnul (h.short [] line _ rfl hline) rest
    rcases hcontent with rfl | rfl
    · exact ⟨line, [10], rest, by simp, hfree, .lf rest, hread, .inr (by simp; omega)⟩
    · refine ⟨content, [13, 10], rest, by simp, hfree, .crlf rest, ?_, .inr (by simp; omega)⟩
      rw [hread, readLines_congr (lineOf_return content)]
  · have h' := h
    rw [← List.append_nil file] at h'
    obtain ⟨content, hfree, hcontent⟩ := h'.line hmem
    have hshort : file.length ≤ room := h.short [] file [] (by simp) hmem
    have hread := readLines_last hmem h.noNul hshort
    have hrest : file = [] ∨ ([] : Bytes).length < file.length := by
      rw [List.length_nil, List.length_pos_iff]
      exact Classical.em _
    rcases hcontent with rfl | rfl
    · exact ⟨file, [], [], by simp, hfree, .stop, by rw [hread, chunkLines_nil], hrest⟩
    · refine ⟨content, [13], [], by simp, hfree, .cr (by simp), ?_, hrest⟩
      rw [hread, chunkLines_nil, readLines_congr (lineOf_return content)]

/-- The lines of a regular file are those that a buffer with its bytes has. -/
theorem readLines_regular {file : Bytes} (h : Regular file) :
    readLines (chunkLines file) = readLines (textLines file) := by
  generalize hn : file.length = n
  induction n using Nat.strong_induction_on generalizing file with
  | _ n ih =>
    obtain ⟨content, term, rest, hfile, hfree, hterm, hread, hshorter⟩ := h.first
    rcases hshorter with hempty | hshorter
    · rw [hempty]
      unfold chunkLines textLines
      rfl
    · have hrest : Regular rest := by
        rw [hfile, ← List.append_assoc] at h
        exact h.drop
      rw [hread]
      conv_rhs => rw [hfile, readLines_textLines hfree hterm]
      unfold readLines
      rw [ih rest.length (by omega) hrest rfl]

/-- The first line is read behind the byte order mark. -/
def unmark (charSigned : Bool) : List Bytes → List Bytes
  | [] => []
  | line :: lines => textOf charSigned line :: lines

@[simp] theorem unmark_cons (charSigned : Bool) (line : Bytes) (lines : List Bytes) :
    unmark charSigned (line :: lines) = textOf charSigned line :: lines := rfl

theorem scanLine_first (charSigned : Bool) (line : Bytes) :
    scanLine charSigned false line 0 line.length = copied (lineOf (textOf charSigned line)) := by
  unfold textOf
  by_cases hmark : charSigned = false ∧ bomBytes <+: line
  · obtain ⟨rfl, hpre⟩ := hmark
    have hskip := skipBom_unsigned (Nat.le_refl line.length) 0
    have hlength : 3 ≤ line.length := hpre.length_le
    rw [segment_zero, if_pos hpre] at hskip
    rw [if_pos ⟨rfl, hpre⟩, scanLine_false hskip, scanLine_true hlength (Nat.le_refl _), segment_length]
  · rw [if_neg hmark]
    have hskip : skipBom charSigned line 0 line.length = .ok 0 := by
      cases charSigned with
      | true => exact skipBom_signed (Nat.le_refl _) 0
      | false =>
        rw [skipBom_unsigned (Nat.le_refl _) 0, segment_zero, if_neg fun hpre => hmark ⟨rfl, hpre⟩]
    rw [scanLine_false hskip, scanLine_true (Nat.zero_le _) (Nat.le_refl _), segment_zero]

theorem read_eq (charSigned : Bool) {fileName : Bytes} (hname : fileName ≠ []) (file : Bytes) :
    read charSigned fileName (some file) true true = readLines (unmark charSigned (chunkLines file)) := by
  unfold read
  rw [if_neg (by simpa using hname)]
  dsimp only
  rw [if_neg (by simp)]
  cases file with
  | nil =>
    rw [chunkLines_nil]
    rfl
  | cons b bs =>
    have hshorter := fgets_shorter room_pos b bs
    unfold readChunks
    rw [if_neg (by simp), chunkLines_of_ne (by simp)]
    dsimp only
    rw [scanLine_first, unmark_cons, ← behind_nil (readLines _), readLines_cons]
    congr 1
    funext outcome
    cases outcome with
    | skipped => exact readChunks_eq charSigned _ _ _ hshorter
    | corrupt => rfl
    | item item => exact readChunks_eq charSigned _ _ _ hshorter

theorem cString_fgets_of_file (n : Nat) (file : Bytes) : cString (fgets n file).1 <+: file := by
  have hfirst : (fgets n file).1 <+: file := ⟨_, fgets_append n file⟩
  exact (List.takeWhile_prefix _).trans hfirst

theorem textOf_of_marked {rest : Bytes} : textOf false (bomBytes ++ rest) = rest :=
  if_pos ⟨rfl, List.prefix_append _ _⟩

/-- The mark is within the first line. -/
theorem readLines_marked_file {file : Bytes} (h : Regular (bomBytes ++ file)) :
    readLines (unmark false (chunkLines (bomBytes ++ file))) = readLines (chunkLines file) := by
  have hbom : 10 ∉ bomBytes := by decide
  by_cases hmem : 10 ∈ file
  · obtain ⟨line, rest, rfl, hline⟩ := List.eq_append_cons_of_mem hmem
    have hnul : 0 ∉ bomBytes ++ line := fun hb => h.noNul (by
      rw [← List.append_assoc]
      exact List.mem_append_left _ hb)
    have hfeed : 10 ∉ bomBytes ++ line := by simp [hbom, hline]
    have hshort : (bomBytes ++ line).length ≤ room := h.short [] (bomBytes ++ line) (10 :: rest) (by simp) hfeed
    have hshort' : line.length ≤ room := by
      rw [List.length_append] at hshort
      omega
    rw [readLines_line hline (fun hb => hnul (List.mem_append_right _ hb)) hshort', ← List.append_assoc]
    rcases chunkLines_line hfeed hnul hshort rest with hlines | hlines
    · rw [hlines, List.append_assoc, unmark_cons, textOf_of_marked, readLines_congr (lineOf_feed line)]
    · rw [hlines, unmark_cons, textOf_of_marked]
      unfold readLines
      rw [readLines_feed]
  · have hfeed : 10 ∉ bomBytes ++ file := by simp [hbom, hmem]
    have hshort : (bomBytes ++ file).length ≤ room := h.short [] (bomBytes ++ file) [] (by simp) hfeed
    have hshort' : file.length ≤ room := by
      rw [List.length_append] at hshort
      omega
    rw [readLines_last hmem h.drop.noNul hshort', chunkLines_last hfeed h.noNul hshort (by simp [bomBytes]),
      unmark_cons, textOf_of_marked]

/-- The two readers agree on a regular file. -/
theorem read_eq_bufToConfigs (charSigned : Bool) {fileName : Bytes} (hname : fileName ≠ []) {file : Bytes}
    (h : Regular file) :
    read charSigned fileName (some file) true true = bufToConfigs charSigned file := by
  rw [read_eq charSigned hname, bufToConfigs_eq]
  by_cases hmark : charSigned = false ∧ bomBytes <+: file
  · obtain ⟨rfl, rest, rfl⟩ := hmark
    rw [readLines_marked_file h, textOf_of_marked, readLines_regular h.drop]
  · have htext : textOf charSigned file = file := if_neg hmark
    rw [htext, ← readLines_regular h]
    cases file with
    | nil =>
      rw [chunkLines_nil]
      rfl
    | cons b bs =>
      have hchunk : textOf charSigned (cString (fgets room (b :: bs)).1) = cString (fgets room (b :: bs)).1 :=
        if_neg fun hpre => hmark ⟨hpre.1, hpre.2.trans (cString_fgets_of_file room (b :: bs))⟩
      rw [chunkLines_of_ne (by simp), unmark_cons, hchunk]

/-- A marked name, and a line end of two bytes. -/
def markedFile : Bytes := bomBytes ++ [34, 97, 34, 13, 10]

theorem regular_markedFile : Regular markedFile := by
  refine ⟨by decide, ?_, ?_⟩
  · intro pre post heq
    have hlength : pre.length < 8 := by
      have hboth := congrArg List.length heq
      rw [List.length_append, List.length_cons] at hboth
      have height : markedFile.length = 8 := rfl
      omega
    have hbyte : markedFile[pre.length]? = some 13 := by
      rw [heq]
      simp
    have hrest : post = markedFile.drop (pre.length + 1) := by
      rw [heq]
      simp
    right
    rw [hrest]
    generalize pre.length = n at hlength hbyte
    revert n
    decide
  · intro pre line post heq _
    have hboth := congrArg List.length heq
    rw [List.length_append, List.length_append] at hboth
    have height : markedFile.length = 8 := rfl
    have hroom : 8 ≤ room := by decide
    omega

theorem read_eq_bufToConfigs_markedFile :
    read false [99] (some markedFile) true true = .ok (true, [⟨[97], []⟩]) :=
  (read_eq_bufToConfigs false (by simp) regular_markedFile).trans (by decide +kernel)

end Pronet.Util.ConfigFile
