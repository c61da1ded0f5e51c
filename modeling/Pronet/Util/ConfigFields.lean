import Pronet.Util.ConfigGrammar
import Pronet.Util.ConfigRoundTrip
import Pronet.Util.ConfigStore
import Pronet.Util.Scanf

/-! Numbers in a `CProConfigStream`, and items that are written out, read back and looked up
by their names. -/
namespace Pronet.Util.ConfigStream

open Std Library

variable {bits : Nat} {s : ConfigStream}

theorem get_i_add (s : ConfigStream) (configName configValue name : List UInt8) :
    (s.add bits configName configValue).get_i name =
      if name = configName then s.get_i name ++ [⟨configName, configValue⟩] else s.get_i name := by
  have hconfigs : (s.add bits configName configValue).name2Configs = s.name2Configs.insert configName
      (s.name2Configs.getD configName [] ++ [⟨configName, configValue⟩]) := by
    unfold ConfigStream.add
    dsimp only
    split <;> rfl
  unfold ConfigStream.get_i
  rw [hconfigs, ExtTreeMap.getD_eq_getD_getElem?, Tables.getElem?_insert_if]
  split
  · rename_i hname
    rw [hname, Option.getD_some]
  · exact ExtTreeMap.getD_eq_getD_getElem?.symm

/-- The items with a name are those that were added under it. -/
theorem get_i_addEach (configs : List ConfigItem) (name : List UInt8) :
    (init.addEach bits configs).get_i name = configs.filter fun config => config.configName = name := by
  induction configs using List.reverseRecOn with
  | nil => rfl
  | append_singleton configs config ih =>
    have hlast : init.addEach bits (configs ++ [config]) =
        (init.addEach bits configs).add bits config.configName config.configValue := List.foldl_append
    rw [hlast, get_i_add, ih, List.filter_append]
    by_cases hname : name = config.configName
    · simp [hname]
    · simp [hname, Ne.symm hname]

theorem get_addEach (configs : List ConfigItem) (name : List UInt8) :
    (init.addEach bits configs).get name =
      match configs.find? fun config => config.configName = name with
      | none => []
      | some config => config.configValue := by
  unfold ConfigStream.get
  rw [get_i_addEach, ← List.head?_filter]
  cases configs.filter _ <;> rfl

/-- Among different names each one has its own value. -/
theorem get_addEach_of_mem {configs : List ConfigItem}
    (hnodup : (configs.map ConfigItem.configName).Nodup) {config : ConfigItem}
    (hmem : config ∈ configs) :
    (init.addEach bits configs).get config.configName = config.configValue := by
  rw [get_addEach]
  cases hfind : configs.find? fun other => other.configName = config.configName with
  | none =>
    have hnone := List.find?_eq_none.mp hfind config hmem
    simp at hnone
  | some other =>
    have hname : other.configName = config.configName := by simpa using List.find?_some hfind
    have hsame := List.inj_on_of_nodup_map hnodup (List.mem_of_find?_eq_some hfind) hmem hname
    rw [hsame]

theorem addConfigs_eq (s : ConfigStream) {configs : List ConfigItem} (h : configs.length < 2 ^ 31) :
    s.addConfigs bits configs = s.addEach bits configs := by
  have hall : configs.take (int32 configs.length).toNat = configs := (written_eq_iff configs).mpr h
  unfold ConfigStream.addConfigs ConfigStream.addEach
  rw [hall]

/-! Written out. -/

/-- Items with different names are written in the order in which they were added. -/
theorem getAll_addEach {configs : List ConfigItem} (hnodup : (configs.map ConfigItem.configName).Nodup)
    (hroom : configs.length < 2 ^ bits) : (init.addEach bits configs).getAll = configs := by
  have hnames : ((configs.map fun config => (config.configName, config.configValue)).map
      Prod.fst).Nodup := by
    rw [List.map_map]
    exact hnodup
  rw [(represents_addEach hroom).1.getAll, (OrderedMultimap.items_addAll hnames).2, List.map_map]
  exact List.map_id configs

theorem toString_addEach {configs : List ConfigItem}
    (hnodup : (configs.map ConfigItem.configName).Nodup) (hroom : configs.length < 2 ^ bits) :
    (init.addEach bits configs).toString = configsToString configs := by
  unfold ConfigStream.toString
  rw [getAll_addEach hnodup hroom]

/-- An item takes five bytes beside its name and its value. -/
theorem length_itemToString (config : ConfigItem) : (itemToString config).length =
    config.configName.length + config.configValue.length + 5 := by
  unfold itemToString
  simp only [List.length_append, List.length_cons, List.length_nil]
  omega

theorem length_configsToString {configs : List ConfigItem} (h : configs.length < 2 ^ 31) :
    (configsToString configs).length =
      (configs.map fun config => config.configName.length + config.configValue.length + 5).sum := by
  have hall : written configs = configs := (written_eq_iff configs).mpr h
  show ((written configs).flatMap itemToString).length = _
  rw [hall, List.length_flatMap]
  simp only [length_itemToString]

theorem le_length_configsToString {configs : List ConfigItem} (h : configs.length < 2 ^ 31)
    {config : ConfigItem} (hmem : config ∈ configs) :
    config.configName.length + config.configValue.length + 5 ≤ (configsToString configs).length := by
  rw [length_configsToString h]
  apply List.le_sum_of_mem
  exact List.mem_map_of_mem hmem

/-! Read back. -/

theorem Quoted.length_le {bs text rest : Bytes} (h : Quoted bs text rest) :
    text.length ≤ bs.length ∧ rest.length ≤ bs.length := by
  obtain ⟨gaps, -, -, heq⟩ := h
  have hlength := congrArg List.length heq
  simp only [List.length_append, List.length_cons] at hlength
  omega

theorem ItemLine.length_le {line : Bytes} {item : ConfigItem} (h : ItemLine line item) :
    item.configValue.length ≤ line.length := by
  obtain ⟨rest, hname, ⟨hnone, -⟩ | ⟨rest', hvalue, -⟩⟩ := h
  · rw [hnone]
    exact Nat.zero_le _
  · exact hvalue.length_le.1.trans hname.length_le.2

end Pronet.Util.ConfigStream
