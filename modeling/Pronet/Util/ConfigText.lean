import Pronet.Util.ConfigStream

/-! The grammar of a configuration text, and a reader of its lines on lists of bytes.
The copies are listed beside what a line says, so that their casts can be judged apart. -/
namespace Pronet.Util.ConfigStream

abbrev Bytes := List UInt8

/-- The lines of a text: each ends with CR, LF, CRLF or the end of the text. -/
def textLines : Bytes → List Bytes
  | [] => []
  | 13 :: 10 :: bs => [] :: textLines bs
  | b :: bs =>
      if isEol b then [] :: textLines bs
      else
        match textLines bs with
        | [] => [[b]]
        | line :: lines => (b :: line) :: lines

/-- Spaces and tabs. -/
def Gaps (bs : Bytes) : Prop := ∀ b ∈ bs, isGap b = true

def Comment (bs : Bytes) : Prop :=
  (∃ rest, bs = 47 :: 47 :: rest) ∨ (∃ rest, bs = 35 :: rest) ∨ ∃ rest, bs = 59 :: rest

/-- Nothing but blanks, or a comment behind them. -/
def Closing (bs : Bytes) : Prop :=
  ∃ gaps rest, Gaps gaps ∧ bs = gaps ++ rest ∧ (rest = [] ∨ Comment rest)

/-- Quoted bytes behind blanks, and what follows. -/
def Quoted (bs text rest : Bytes) : Prop :=
  ∃ gaps, Gaps gaps ∧ quote ∉ text ∧ bs = gaps ++ quote :: (text ++ quote :: rest)

/-- A quoted name, and perhaps a quoted value. -/
def ItemLine (line : Bytes) (item : ConfigItem) : Prop :=
  ∃ rest, Quoted line item.configName rest ∧
    (item.configValue = [] ∧ Closing rest ∨
      ∃ rest', Quoted rest item.configValue rest' ∧ Closing rest')

/-- What the lines say: the items up to the first line that is not in the grammar. -/
inductive Reads : List Bytes → Bool → List ConfigItem → Prop
  | done : Reads [] true []
  | skip {line lines ok items} (hline : Closing line) (hrest : Reads lines ok items) :
      Reads (line :: lines) ok items
  | item {line lines item ok items} (hline : ItemLine line item) (hrest : Reads lines ok items) :
      Reads (line :: lines) ok (item :: items)
  | corrupt {line lines} (hskip : ¬Closing line) (hitem : ∀ item, ¬ItemLine line item) :
      Reads (line :: lines) false []

/-- Without blanks at both ends. -/
def strip (bs : Bytes) : Bytes := (bs.dropWhile isBlank).rdropWhile isBlank

def isComment : Bytes → Bool
  | [] => false
  | b :: bs => b == 47 && bs.head? == some 47 || b == 35 || b == 59

def isClosed (bs : Bytes) : Bool := bs.isEmpty || isComment bs

/-- The bytes between two quotes, and what follows them and the blanks behind. -/
def splitQuoted : Bytes → Option (Bytes × Bytes)
  | [] => none
  | b :: bs =>
      if b == quote then
        match bs.dropWhile (· != quote) with
        | [] => none
        | _ :: rest => some (bs.takeWhile (· != quote), rest.dropWhile isGap)
      else none

/-- What is copied from a line that begins with a quote, and what the line says. -/
def itemOf (bs : Bytes) : List Bytes × Line :=
  match splitQuoted bs with
  | none => ([], .corrupt)
  | some (name, rest) =>
      if isClosed rest then ([name], .item ⟨name, []⟩)
      else
        match splitQuoted rest with
        | none => ([name], .corrupt)
        | some (value, rest) =>
            ([name, value], if isClosed rest then .item ⟨name, value⟩ else .corrupt)

def lineOf (line : Bytes) : List Bytes × Line :=
  if isClosed (strip line) then ([], .skipped) else itemOf (strip line)

/-- A copy up to its length as an `int`. -/
def cut (text : Bytes) : Bytes := text.take (int32 text.length).toNat

def Line.cut : Line → Line
  | .item config => .item ⟨ConfigStream.cut config.configName, ConfigStream.cut config.configValue⟩
  | line => line

/-- The copies of the scanner fail if a length is negative as an `int`. -/
def copied (line : List Bytes × Line) : Except Fault Line :=
  if line.1.all fun text => decide (0 ≤ int32 text.length) then .ok line.2.cut
  else .error .lengthError

def readLines : List Bytes → Except Fault (Bool × List ConfigItem)
  | [] => .ok (true, [])
  | line :: lines => do
      match ← copied (lineOf line) with
      | .skipped => readLines lines
      | .corrupt => .ok (false, [])
      | .item item => do
          let (ok, items) ← readLines lines
          .ok (ok, item :: items)

end Pronet.Util.ConfigStream
