import Pronet.Library.OrderedMultimap
import Pronet.Library.Tables
import Pronet.Util.ConfigStream

/-! The items in a `CProConfigStream`. An `unsigned long` has `bits` bits. -/
namespace Pronet.Util

open Std Library ConfigStream
open OrderedMultimap (addCount valuesOf firstAdd)

structure ConfigStream where
  name2Configs : ExtTreeMap (List UInt8) (List ConfigItem)
  name2Index : ExtTreeMap (List UInt8) Nat
  nextIndex : Nat

namespace ConfigStream

abbrev Op := MultimapOp (List UInt8) (List UInt8)

abbrev Items := OrderedMultimap (List UInt8) (List UInt8)

def init : ConfigStream := ⟨∅, ∅, 0⟩

def add (bits : Nat) (s : ConfigStream) (configName configValue : List UInt8) : ConfigStream :=
  let configs := s.name2Configs.getD configName []
  let s := { s with
    name2Configs := s.name2Configs.insert configName (configs ++ [⟨configName, configValue⟩]) }
  if configName ∈ s.name2Index then s
  else
    { s with
      name2Index := s.name2Index.insert configName s.nextIndex
      nextIndex := (s.nextIndex + 1) % 2 ^ bits }

/-- `Add` of a vector of items, whose count is an `int`. -/
def addConfigs (bits : Nat) (s : ConfigStream) (configs : List ConfigItem) : ConfigStream :=
  (configs.take (int32 configs.length).toNat).foldl
    (fun s config => s.add bits config.configName config.configValue) s

def remove (s : ConfigStream) (configName : List UInt8) : ConfigStream :=
  { s with
    name2Configs := s.name2Configs.erase configName
    name2Index := s.name2Index.erase configName }

/-- The counter goes on. -/
def clear (s : ConfigStream) : ConfigStream := { s with name2Configs := ∅, name2Index := ∅ }

def get_i (s : ConfigStream) (configName : List UInt8) : List ConfigItem :=
  s.name2Configs.getD configName []

def get (s : ConfigStream) (configName : List UInt8) : List UInt8 :=
  match s.get_i configName with
  | [] => []
  | config :: _ => config.configValue

/-- `Get` of all values of a name; the count is an `int`. -/
def getValues (s : ConfigStream) (configName : List UInt8) : List (List UInt8) :=
  let configs := s.get_i configName
  (configs.take (int32 configs.length).toNat).map ConfigItem.configValue

def index2Name (s : ConfigStream) : ExtTreeMap Nat (List UInt8) :=
  s.name2Index.foldl (fun table name index => table.insert index name) ∅

/-- `Get` of all items. -/
def getAll (s : ConfigStream) : List ConfigItem :=
  s.index2Name.foldl
    (fun configs _ name =>
      match s.name2Configs[name]? with
      | none => configs
      | some configs2 => configs ++ configs2) []

def toString (s : ConfigStream) : List UInt8 := configsToString s.getAll

def apply (bits : Nat) (s : ConfigStream) : Op → ConfigStream
  | .add name value => s.add bits name value
  | .remove name => s.remove name
  | .clear => s.clear

def run (bits : Nat) (s : ConfigStream) (ops : List Op) : ConfigStream := ops.foldl (apply bits) s

/-- Items added one by one. -/
def addEach (bits : Nat) (s : ConfigStream) (configs : List ConfigItem) : ConfigStream :=
  configs.foldl (fun s config => s.add bits config.configName config.configValue) s

/-- The stream holds the items of the multimap, and its indices follow the order of the keys. -/
structure Represents (s : ConfigStream) (m : Items) : Prop where
  configs : ∀ name : List UInt8, s.name2Configs[name]? =
    if name ∈ m.keys then some ((m.get name).map (⟨name, ·⟩)) else none
  known : ∀ name : List UInt8, name ∈ s.name2Index ↔ name ∈ m.keys
  ordered : m.keys.Pairwise fun a b =>
    ∃ i j, s.name2Index[a]? = some i ∧ s.name2Index[b]? = some j ∧ i < j
  below : ∀ (name : List UInt8) (i : Nat), s.name2Index[name]? = some i → i < s.nextIndex

variable {bits : Nat} {s : ConfigStream} {m : Items}

theorem represents_init : Represents init .empty := by
  refine ⟨?_, ?_, List.Pairwise.nil, ?_⟩
  · intro name
    simp [init, OrderedMultimap.empty]
  · intro name
    simp [init, OrderedMultimap.empty]
  · intro name i h
    simp [init] at h

theorem Represents.getD (h : Represents s m) (name : List UInt8) :
    s.name2Configs.getD name [] = (m.get name).map (⟨name, ·⟩) := by
  rw [ExtTreeMap.getD_eq_getD_getElem?, h.configs]
  split
  · rfl
  · rename_i hnew
    rw [OrderedMultimap.get_eq_nil hnew]
    rfl

theorem Represents.add (h : Represents s m) (hroom : s.nextIndex + 1 < 2 ^ bits)
    (name value : List UInt8) :
    Represents (s.add bits name value) (m.add name value) ∧
      (s.add bits name value).nextIndex ≤ s.nextIndex + 1 := by
  have hconfigs : ∀ other, (s.name2Configs.insert name
      (s.name2Configs.getD name [] ++ [⟨name, value⟩]))[other]? =
      if other ∈ (m.add name value).keys then
        some (((m.add name value).get other).map (⟨other, ·⟩)) else none := by
    intro other
    rw [Tables.getElem?_insert_if, h.getD, OrderedMultimap.get_add, h.configs]
    simp only [OrderedMultimap.mem_keys_add]
    by_cases hother : other = name
    · rw [hother]
      simp
    · simp only [hother, false_or, if_false]
  unfold ConfigStream.add
  dsimp only
  split
  · rename_i hknown
    have hmem := (h.known name).mp hknown
    refine ⟨⟨hconfigs, ?_, ?_, h.below⟩, Nat.le_succ _⟩
    · intro other
      rw [OrderedMultimap.mem_keys_add, h.known]
      exact (or_iff_right_of_imp fun hsame => hsame ▸ hmem).symm
    · rw [OrderedMultimap.keys_add, if_pos hmem]
      exact h.ordered
  · rename_i hnew
    have hmem : name ∉ m.keys := fun hmem => hnew ((h.known name).mpr hmem)
    have hindex : ∀ other, (s.name2Index.insert name s.nextIndex)[other]? =
        if other = name then some s.nextIndex else s.name2Index[other]? :=
      fun other => Tables.getElem?_insert_if _ name _ other
    refine ⟨⟨hconfigs, ?_, ?_, ?_⟩, ?_⟩
    · intro other
      rw [OrderedMultimap.mem_keys_add, ExtTreeMap.mem_insert, Std.compare_eq_iff_eq, h.known,
        eq_comm]
    · rw [OrderedMultimap.keys_add, if_neg hmem, List.pairwise_append]
      have hold : ∀ other ∈ m.keys, other ≠ name := fun other hother heq => hmem (heq ▸ hother)
      refine ⟨?_, List.pairwise_singleton _ _, ?_⟩
      · refine h.ordered.imp_of_mem ?_
        rintro a b ha hb ⟨i, j, hi, hj, hlt⟩
        exact ⟨i, j, by rw [hindex, if_neg (hold a ha), hi], by rw [hindex, if_neg (hold b hb), hj], hlt⟩
      · intro a ha b hb
        obtain rfl := List.mem_singleton.mp hb
        obtain ⟨i, hi⟩ : ∃ i, s.name2Index[a]? = some i :=
          Option.isSome_iff_exists.mp (by
            rw [ExtTreeMap.isSome_getElem?_iff_mem]
            exact (h.known a).mpr ha)
        exact ⟨i, s.nextIndex, by rw [hindex, if_neg (hold a ha), hi], by rw [hindex, if_pos rfl],
          h.below a i hi⟩
    · intro other i hi
      dsimp only at hi ⊢
      rw [hindex] at hi
      rw [Nat.mod_eq_of_lt hroom]
      split at hi
      · have := Option.some.inj hi
        omega
      · have := h.below other i hi
        omega
    · exact Nat.mod_le _ _

theorem Represents.remove (h : Represents s m) (name : List UInt8) :
    Represents (s.remove name) (m.remove name) := by
  have hmem : ∀ other, other ∈ (m.remove name).keys ↔ other ≠ name ∧ other ∈ m.keys := by
    intro other
    rw [OrderedMultimap.keys_remove]
    simp [and_comm]
  have hkept : ∀ other, other ≠ name → (s.name2Index.erase name)[other]? = s.name2Index[other]? := by
    intro other hother
    rw [Tables.getElem?_erase_if, if_neg hother]
  refine ⟨?_, ?_, ?_, ?_⟩
  · intro other
    rw [OrderedMultimap.get_remove]
    simp only [hmem]
    show (s.name2Configs.erase name)[other]? = _
    rw [Tables.getElem?_erase_if, h.configs]
    by_cases hother : other = name
    · rw [hother]
      simp
    · simp only [hother, ne_eq, not_false_eq_true, true_and, if_false]
  · intro other
    rw [hmem, ← h.known]
    show other ∈ s.name2Index.erase name ↔ _
    rw [ExtTreeMap.mem_erase, ne_eq, Std.compare_eq_iff_eq, eq_comm]
  · rw [OrderedMultimap.keys_remove, List.pairwise_filter]
    refine h.ordered.imp ?_
    rintro a b ⟨i, j, hi, hj, hlt⟩ hne hne'
    exact ⟨i, j, (hkept a (by simpa using hne)).trans hi, (hkept b (by simpa using hne')).trans hj, hlt⟩
  · intro other i hi
    by_cases hother : other = name
    · have hi : (s.name2Index.erase name)[other]? = some i := hi
      rw [hother, ExtTreeMap.getElem?_erase_self] at hi
      cases hi
    · exact h.below other i ((hkept other hother).symm.trans hi)

theorem represents_clear (s : ConfigStream) : Represents s.clear .empty := by
  refine ⟨?_, ?_, List.Pairwise.nil, ?_⟩
  · intro name
    simp [clear, OrderedMultimap.empty]
  · intro name
    simp [clear, OrderedMultimap.empty]
  · intro name i h
    simp [clear] at h

/-- One operation, with room for one more index. -/
theorem Represents.apply (h : Represents s m) {op : Op}
    (hroom : s.nextIndex + addCount [op] < 2 ^ bits) :
    Represents (s.apply bits op) (m.apply op) ∧
      (s.apply bits op).nextIndex ≤ s.nextIndex + addCount [op] := by
  cases op with
  | add name value => exact h.add hroom name value
  | remove name => exact ⟨h.remove name, le_rfl⟩
  | clear => exact ⟨represents_clear s, le_rfl⟩

/-- A run of operations, as long as no index wraps. -/
theorem Represents.run (h : Represents s m) {ops : List Op}
    (hroom : s.nextIndex + addCount ops < 2 ^ bits) :
    Represents (s.run bits ops) (m.run ops) ∧
      (s.run bits ops).nextIndex ≤ s.nextIndex + addCount ops := by
  induction ops generalizing s m with
  | nil => exact ⟨h, le_rfl⟩
  | cons op ops ih =>
    have hcount : addCount (op :: ops) = addCount [op] + addCount ops := by
      rw [← List.singleton_append]
      exact List.countP_append
    obtain ⟨hnext, hle⟩ := @Represents.apply bits _ _ h op (by omega)
    obtain ⟨hlast, hle'⟩ := ih hnext (by omega)
    exact ⟨hlast, by rw [hcount]; exact hle'.trans (by omega)⟩

/-! Reading the whole stream. -/

theorem Represents.ordered_index (h : Represents s m) :
    m.keys.Pairwise fun a b => s.name2Index.getD a 0 < s.name2Index.getD b 0 := by
  refine h.ordered.imp ?_
  rintro a b ⟨i, j, hi, hj, hlt⟩
  rwa [ExtTreeMap.getD_eq_getD_getElem?, ExtTreeMap.getD_eq_getD_getElem?, hi, hj]

theorem Represents.getElem?_index (h : Represents s m) {name : List UInt8} (hname : name ∈ m.keys) :
    s.name2Index[name]? = some (s.name2Index.getD name 0) := by
  have hmem := (h.known name).mpr hname
  rw [← ExtTreeMap.isSome_getElem?_iff_mem, Option.isSome_iff_exists] at hmem
  obtain ⟨i, hi⟩ := hmem
  rw [ExtTreeMap.getD_eq_getD_getElem?, hi, Option.getD_some]

/-- No two names have the same index. -/
theorem Represents.index_inj (h : Represents s m) (a b : List UInt8) (i : Nat)
    (ha : s.name2Index[a]? = some i) (hb : s.name2Index[b]? = some i) : a = b := by
  have hmem : ∀ name, s.name2Index[name]? = some i → name ∈ m.keys ∧ s.name2Index.getD name 0 = i := by
    intro name hname
    refine ⟨(h.known name).mp ?_, ?_⟩
    · rw [← ExtTreeMap.isSome_getElem?_iff_mem, hname]
      rfl
    · rw [ExtTreeMap.getD_eq_getD_getElem?, hname, Option.getD_some]
  have hnodup : (m.keys.map fun name => s.name2Index.getD name 0).Nodup := by
    apply List.Pairwise.map _ _ h.ordered_index
    intro a b hlt
    exact Nat.ne_of_lt hlt
  apply List.inj_on_of_nodup_map hnodup (hmem a ha).1 (hmem b hb).1
  exact (hmem a ha).2.trans (hmem b hb).2.symm

theorem Represents.toList_index2Name (h : Represents s m) :
    s.index2Name.toList = m.keys.map fun name => (s.name2Index.getD name 0, name) := by
  apply Tables.toList_eq_of_pairwise
  · apply List.Pairwise.map _ _ h.ordered_index
    intro a b hlt
    exact Nat.compare_eq_lt.mpr hlt
  · intro i name
    have hinverse : s.index2Name[i]? = some name ↔ s.name2Index[name]? = some i :=
      Tables.getElem?_inverse h.index_inj i name
    rw [hinverse, List.mem_map]
    constructor
    · rintro ⟨other, hother, heq⟩
      rw [← (Prod.mk.inj heq).1, ← (Prod.mk.inj heq).2]
      exact h.getElem?_index hother
    · intro hname
      refine ⟨name, (h.known name).mp ?_, ?_⟩
      · rw [← ExtTreeMap.isSome_getElem?_iff_mem, hname]
        rfl
      · rw [ExtTreeMap.getD_eq_getD_getElem?, hname, Option.getD_some]

theorem Represents.getAll (h : Represents s m) :
    s.getAll = m.items.map fun item => ⟨item.1, item.2⟩ := by
  have hnames : ∀ (names : List (List UInt8)) (configs : List ConfigItem), (∀ name ∈ names, name ∈ m.keys) →
      names.foldl (fun configs name =>
        match s.name2Configs[name]? with
        | none => configs
        | some configs2 => configs ++ configs2) configs =
      configs ++ names.flatMap fun name => (m.get name).map (⟨name, ·⟩) := by
    intro names
    induction names with
    | nil => simp
    | cons name names ih =>
      intro configs hmem
      rw [List.foldl_cons, h.configs, if_pos (hmem name List.mem_cons_self)]
      dsimp only
      rw [ih _ (fun other hother => hmem other (List.mem_cons_of_mem _ hother)), List.flatMap_cons,
        List.append_assoc]
  unfold ConfigStream.getAll OrderedMultimap.items
  rw [ExtTreeMap.foldl_eq_foldl_toList, h.toList_index2Name, List.foldl_map,
    hnames _ _ (fun _ hname => hname), List.map_flatMap]
  simp only [List.nil_append, List.map_map]
  rfl

/-- Two streams that no reading tells apart. -/
structure Alike (s t : ConfigStream) : Prop where
  get_i : ∀ name, s.get_i name = t.get_i name
  get : ∀ name, s.get name = t.get name
  getValues : ∀ name, s.getValues name = t.getValues name
  getAll : s.getAll = t.getAll
  toString : s.toString = t.toString

theorem Represents.alike {t : ConfigStream} (hs : Represents s m) (ht : Represents t m) :
    Alike s t := by
  have hget_i : ∀ name, s.get_i name = t.get_i name := by
    intro name
    exact (hs.getD name).trans (ht.getD name).symm
  have hall : s.getAll = t.getAll := hs.getAll.trans ht.getAll.symm
  apply Alike.mk hget_i
  · intro name
    simp only [ConfigStream.get, hget_i]
  · intro name
    simp only [ConfigStream.getValues, hget_i]
  · exact hall
  · simp only [ConfigStream.toString, hall]

theorem addEach_eq_run (configs : List ConfigItem) (s : ConfigStream) :
    s.addEach bits configs =
      s.run bits (configs.map fun config => .add config.configName config.configValue) := by
  unfold ConfigStream.addEach ConfigStream.run
  rw [List.foldl_map]
  rfl

/-- Items added one by one to an empty stream. -/
theorem represents_addEach {configs : List ConfigItem} (hroom : configs.length < 2 ^ bits) :
    Represents (init.addEach bits configs)
        (OrderedMultimap.empty.addAll (configs.map fun config =>
          (config.configName, config.configValue))) ∧
      (init.addEach bits configs).nextIndex ≤ configs.length := by
  have hcount : init.nextIndex + addCount (configs.map fun config =>
      MultimapOp.add config.configName config.configValue) = configs.length := by
    rw [OrderedMultimap.addCount_adds]
    exact Nat.zero_add _
  obtain ⟨h, hle⟩ := @Represents.run bits _ _ represents_init _ (hcount ▸ hroom)
  rw [← addEach_eq_run, OrderedMultimap.run_adds] at h
  rw [← addEach_eq_run, hcount] at hle
  exact ⟨h, hle⟩

/-- A copy made of the items holds the same multimap. -/
theorem Represents.copy (h : Represents s m) (hroom : m.items.length < 2 ^ bits) :
    Represents (init.addEach bits s.getAll) m ∧
      (init.addEach bits s.getAll).nextIndex ≤ m.items.length := by
  have hlength : s.getAll.length = m.items.length := by rw [h.getAll, List.length_map]
  have hitems : (s.getAll.map fun config => (config.configName, config.configValue)) = m.items := by
    rw [h.getAll, List.map_map]
    exact List.map_id _
  have hcopy := @represents_addEach bits s.getAll (hlength ▸ hroom)
  rwa [hitems, m.addAll_items, hlength] at hcopy

/-- The stream is an ordered multimap, whatever its history. -/
theorem run_orderedMultimap (bits : Nat) (ops further : List Op)
    (hroom : addCount (ops ++ further) < 2 ^ bits) :
    let s := init.run bits ops
    (∀ name : List UInt8, name ∈ s.name2Index ↔ name ∈ s.name2Configs) ∧
    (∀ (a b : List UInt8) (i : Nat), s.name2Index[a]? = some i → s.name2Index[b]? = some i → a = b) ∧
    (∀ (name : List UInt8) (i : Nat), s.name2Index[name]? = some i → i < s.nextIndex) ∧
    (∃ names : List (List UInt8), names.Nodup ∧ (∀ name, name ∈ names ↔ valuesOf ops name ≠ []) ∧
      names.Pairwise (fun a b =>
        ∃ i j, firstAdd ops a = some i ∧ firstAdd ops b = some j ∧ i < j) ∧
      s.getAll = names.flatMap fun name => (valuesOf ops name).map (⟨name, ·⟩)) ∧
    Alike (s.run bits further) ((init.addEach bits s.getAll).run bits further) := by
  have hsum : addCount (ops ++ further) = addCount ops + addCount further := List.countP_append
  obtain ⟨h, hle⟩ := @Represents.run bits _ _ represents_init ops (by
    show 0 + _ < _
    omega)
  have hle : (init.run bits ops).nextIndex ≤ addCount ops := hle.trans (Nat.zero_add _).le
  have hlength := OrderedMultimap.length_items_run ops
  obtain ⟨hcopy, hcopied⟩ := @Represents.copy bits _ _ h (by omega)
  refine ⟨?_, h.index_inj, h.below, ⟨_, (OrderedMultimap.empty.run ops).nodup, ?_,
    OrderedMultimap.keys_run_pairwise ops, ?_⟩, ?_⟩
  · intro name
    rw [h.known, ← ExtTreeMap.isSome_getElem?_iff_mem, h.configs]
    split <;> simp_all
  · intro name
    rw [OrderedMultimap.mem_keys, OrderedMultimap.get_run]
  · rw [h.getAll, OrderedMultimap.items, List.map_flatMap]
    simp only [List.map_map, OrderedMultimap.get_run]
    rfl
  · apply Represents.alike
    · exact (h.run (by omega)).1
    · exact (hcopy.run (by omega)).1

/-- A name added again after its removal comes last. -/
def reAdded : List Op := [.add [97] [1], .add [98] [2], .add [97] [3], .remove [97], .add [97] [4]]

example : (init.run 32 reAdded).getAll = [⟨[98], [2]⟩, ⟨[97], [4]⟩] := by decide +kernel

theorem run_orderedMultimap_reAdded :
    Alike ((init.run 32 reAdded).run 32 [.clear, .add [97] [5]])
      ((init.addEach 32 (init.run 32 reAdded).getAll).run 32 [.clear, .add [97] [5]]) :=
  (run_orderedMultimap 32 reAdded [.clear, .add [97] [5]] (by decide)).2.2.2.2

end ConfigStream

end Pronet.Util
