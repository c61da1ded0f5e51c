import Mathlib

/-! The scanner of `CProConfigStream`. Bounds are exclusive where the source has inclusive
end pointers. A read behind the buffer is a fault, as is a length that turns negative. -/
namespace Pronet.Util

structure ConfigItem where
  configName : List UInt8
  configValue : List UInt8
  deriving DecidableEq, Repr

namespace ConfigStream

inductive Fault
  | outOfBounds
  | lengthError
  | fuel
  deriving DecidableEq, Repr

/-- The outcome of a line. -/
inductive Line
  | skipped
  | corrupt
  | item (item : ConfigItem)
  deriving DecidableEq, Repr

def quote : UInt8 := 34

def isEol (b : UInt8) : Bool := b == 13 || b == 10

def isGap (b : UInt8) : Bool := b == 32 || b == 9

def isBlank (b : UInt8) : Bool := isGap b || isEol b

/-- `(int)length`. -/
def int32 (length : Nat) : Int := (length : Int).bmod (2 ^ 32)

/-- A `char` in a comparison; whether it is signed depends on the platform. -/
def promote (charSigned : Bool) (b : UInt8) : Int :=
  if charSigned && 128 ≤ b.toNat then b.toNat - 256 else b.toNat

def read (buf : List UInt8) (p : Nat) : Except Fault UInt8 :=
  match buf[p]? with
  | none => .error .outOfBounds
  | some b => .ok b

/-- `for (; p < limit; ++p)` up to a byte that stops it, with `n` bytes left. -/
def scan (stop : UInt8 → Bool) (buf : List UInt8) : Nat → Nat → Except Fault Nat
  | 0, p => .ok p
  | n + 1, p => do
      let b ← read buf p
      if stop b then .ok p else scan stop buf n (p + 1)

/-- Trim from behind: the limit after the last byte that is not blank. -/
def trimBack (buf : List UInt8) (p : Nat) : Nat → Except Fault Nat
  | 0 => .ok 0
  | limit + 1 =>
      if p ≤ limit then do
        let b ← read buf limit
        if isBlank b then trimBack buf p limit else .ok (limit + 1)
      else .ok (limit + 1)

/-- Where the line that begins at `p` ends, its terminator included. -/
def lineEnd (buf : List UInt8) (p : Nat) : Except Fault Nat := do
  let r ← scan isEol buf (buf.length - p) p
  if r < buf.length then
    if r + 1 < buf.length then do
      let next ← read buf (r + 1)
      .ok (if next == 10 then r + 2 else r + 1)
    else .ok (r + 1)
  else .ok buf.length

/-- Behind the byte order mark. -/
def skipBom (charSigned : Bool) (buf : List UInt8) (p limit : Nat) : Except Fault Nat :=
  if p + 2 < limit then do
    let b0 ← read buf p
    if promote charSigned b0 = 0xEF then do
      let b1 ← read buf (p + 1)
      if promote charSigned b1 = 0xBB then do
        let b2 ← read buf (p + 2)
        .ok (if promote charSigned b2 = 0xBF then p + 3 else p)
      else .ok p
    else .ok p
  else .ok p

def startsSlashes (buf : List UInt8) (p limit : Nat) : Except Fault Bool :=
  if p + 1 < limit then do
    let b0 ← read buf p
    if b0 == 47 then do
      let b1 ← read buf (p + 1)
      .ok (b1 == 47)
    else .ok false
  else .ok false

/-- A comment begins at `p`. -/
def startsComment (buf : List UInt8) (p limit : Nat) : Except Fault Bool := do
  if ← startsSlashes buf p limit then .ok true
  else do
    let b ← read buf p
    .ok (b == 35 || b == 59)

/-- `assign(p, (int)(r - p))`. -/
def assign (buf : List UInt8) (p r : Nat) : Except Fault (List UInt8) :=
  if int32 (r - p) < 0 then .error .lengthError
  else .ok ((buf.drop p).take (int32 (r - p)).toNat)

/-- A round of the loop over name and value: the quoted bytes, and where the blanks
behind them end. -/
def quoted (buf : List UInt8) (p limit : Nat) : Except Fault (Option (List UInt8 × Nat)) := do
  let b ← read buf p
  if b == quote then
    let p := p + 1
    if limit ≤ p then .ok none
    else do
      let r ← scan (· == quote) buf (limit - p) p
      if limit ≤ r then .ok none
      else do
        let text ← assign buf p r
        let next ← scan (fun b => !isGap b) buf (limit - (r + 1)) (r + 1)
        .ok (some (text, next))
  else .ok none

/-- Nothing, or a comment, is behind what was quoted. -/
def closed (buf : List UInt8) (p limit : Nat) : Except Fault Bool :=
  if limit ≤ p then .ok true else startsComment buf p limit

def scanItem (buf : List UInt8) (p limit : Nat) : Except Fault Line := do
  match ← quoted buf p limit with
  | none => .ok .corrupt
  | some (name, p) =>
      if ← closed buf p limit then .ok (.item ⟨name, []⟩)
      else
        match ← quoted buf p limit with
        | none => .ok .corrupt
        | some (value, p) =>
            if ← closed buf p limit then .ok (.item ⟨name, value⟩) else .ok .corrupt

def scanLine (charSigned bom : Bool) (buf : List UInt8) (p limit : Nat) : Except Fault Line := do
  let p ← if bom then .ok p else skipBom charSigned buf p limit
  let p ← scan (fun b => !isBlank b) buf (limit - p) p
  let limit ← trimBack buf p limit
  if limit ≤ p then .ok .skipped
  else do
    if ← startsComment buf p limit then .ok .skipped else scanItem buf p limit

/-- The loop over the lines. -/
def scanLines (charSigned : Bool) (buf : List UInt8) :
    Nat → Bool → Nat → List ConfigItem → Except Fault (Bool × List ConfigItem)
  | 0, _, _, _ => .error .fuel
  | fuel + 1, bom, itr, configs =>
      if buf.length ≤ itr then .ok (true, configs)
      else do
        let limit ← lineEnd buf itr
        match ← scanLine charSigned bom buf itr limit with
        | .skipped => scanLines charSigned buf fuel true limit configs
        | .corrupt => .ok (false, configs)
        | .item item => scanLines charSigned buf fuel true limit (configs ++ [item])

def bufToConfigs (charSigned : Bool) (buf : List UInt8) : Except Fault (Bool × List ConfigItem) :=
  if buf.isEmpty then .ok (true, []) else scanLines charSigned buf (buf.length + 1) false 0 []

def stringToConfigs (charSigned : Bool) (str : List UInt8) :
    Except Fault (Bool × List ConfigItem) :=
  if str.isEmpty then .ok (true, []) else bufToConfigs charSigned str

def itemToString (config : ConfigItem) : List UInt8 :=
  [quote] ++ config.configName ++ [quote, quote] ++ config.configValue ++ [quote, 10]

/-- The count of the loop is an `int`. -/
def configsToString (configs : List ConfigItem) : List UInt8 :=
  (configs.take (int32 configs.length).toNat).flatMap itemToString

end ConfigStream

end Pronet.Util
