import Pronet.Msg.Server
import Pronet.Msg.UserText
import Pronet.Util.ConfigFields

/-! The texts of `client_login`, `client_login_ok` and `client_login_error`, where `unsigned
long` has 64 bits. -/
namespace Pronet.Msg

open Library Numerals Util ConfigStream

/-- `ProMakeTimerId` returns `g_s_nextTimerId` and goes on. -/
def makeTimerId (nextTimerId : UInt64) : UInt64 × UInt64 := (nextTimerId, nextTimerId + 2)

/-- `g_s_nextTimerId` behind a number of calls. -/
def nextTimerId : Nat → UInt64
  | 0 => 1
  | calls + 1 => (makeTimerId (nextTimerId calls)).2

/-- The bytes that `SendMsg` takes of a text whose length is cast to 16 bits. -/
def sentBytes (theString : List UInt8) : Option (List UInt8) :=
  let size := theString.length % 2 ^ 16
  if size = 0 then none else some (theString.take size)

/-- The text of a message as a stream. -/
def readMsg (charSigned : Bool) (bytes : List UInt8) : Option ConfigStream :=
  match stringToConfigs charSigned bytes with
  | .ok (true, theConfigs) => some (ConfigStream.init.addConfigs 64 theConfigs)
  | _ => none

/-- What the c2s node has read when it looks for the pending entry. -/
inductive LoginAnswer
  | ok (clientIndex : UInt32) (user : MsgUser)
  | error (clientIndex : UInt32)
  deriving DecidableEq, Repr

/-- The key that the c2s node looks for in `m_timerId2Info`. -/
def LoginAnswer.key : LoginAnswer → UInt64
  | .ok clientIndex _ => clientIndex.toUInt64
  | .error clientIndex => clientIndex.toUInt64

theorem sentBytes_of_short {text : List UInt8} (hpos : text ≠ []) (hshort : text.length < 2 ^ 16) :
    sentBytes text = some text := by
  have hlength : text.length ≠ 0 := fun hzero => hpos (List.length_eq_zero_iff.mp hzero)
  have hsize : text.length % 2 ^ 16 = text.length := Nat.mod_eq_of_lt hshort
  unfold sentBytes
  simp only [hsize, hlength, if_false, List.take_length]

/-- Items with different plain names and plain values go through a message. -/
structure Sendable (items : List ConfigItem) : Prop where
  names : (items.map ConfigItem.configName).Nodup
  plain : ∀ item ∈ items, PlainItem item
  count : items.length < 2 ^ 31
  nonempty : items ≠ []
  short : (configsToString items).length < 2 ^ 16

theorem Sendable.sent {items : List ConfigItem} (h : Sendable items) :
    sentBytes (ConfigStream.init.addEach 64 items).toString = some (configsToString items) := by
  have hcount := h.count
  rw [toString_addEach h.names (by omega)]
  apply sentBytes_of_short _ h.short
  obtain ⟨item, hitem⟩ := List.exists_mem_of_ne_nil items h.nonempty
  have hle := le_length_configsToString h.count hitem
  intro hnil
  rw [hnil, List.length_nil] at hle
  omega

theorem readMsg_of_items {charSigned : Bool} {text : List UInt8} {items : List ConfigItem}
    (hcount : items.length < 2 ^ 31) (h : stringToConfigs charSigned text = .ok (true, items)) :
    readMsg charSigned text = some (ConfigStream.init.addEach 64 items) := by
  unfold readMsg
  rw [h, ← @addConfigs_eq 64 ConfigStream.init items hcount]

theorem Sendable.read {items : List ConfigItem} (h : Sendable items) (charSigned : Bool) :
    readMsg charSigned (configsToString items) = some (ConfigStream.init.addEach 64 items) := by
  apply readMsg_of_items h.count
  apply stringToConfigs_of_short charSigned h.plain h.count
  intro item hitem
  have hle := le_length_configsToString h.count hitem
  have hshort := h.short
  constructor <;> omega

/-- Every item is found under its name. -/
theorem Sendable.get {items : List ConfigItem} (h : Sendable items) : ∀ item ∈ items,
    (ConfigStream.init.addEach 64 items).get item.configName = item.configValue :=
  fun _ hmem => get_addEach_of_mem h.names hmem

/-! The three messages. -/

end Pronet.Msg
