import Pronet.Util.ConfigGrammar

/-! Writing items and reading them again. Each item is one line, and the reader copies
its name and its value up to the length of an `int`. -/
namespace Pronet.Util.ConfigStream

/-- Neither a quote nor a terminator. -/
def Plain (bs : Bytes) : Prop := ∀ b ∈ bs, b ≠ quote ∧ isEol b = false

def PlainItem (item : ConfigItem) : Prop := Plain item.configName ∧ Plain item.configValue

/-- The line of an item, without its line feed. -/
def lineText (item : ConfigItem) : Bytes :=
  quote :: (item.configName ++ quote :: (quote :: (item.configValue ++ [quote])))

theorem itemToString_eq (item : ConfigItem) : itemToString item = lineText item ++ [10] := by
  unfold itemToString lineText
  simp

theorem free_lineText {item : ConfigItem} (h : PlainItem item) : Free (lineText item) := by
  have hquote : isEol quote = false := rfl
  intro b hb
  unfold lineText at hb
  simp only [List.mem_cons, List.mem_append, List.not_mem_nil, or_false] at hb
  rcases hb with rfl | hb | rfl | rfl | hb | rfl
  · exact hquote
  · exact (h.1 b hb).2
  · exact hquote
  · exact hquote
  · exact (h.2 b hb).2
  · exact hquote

theorem Plain.quote_not_mem {bs : Bytes} (h : Plain bs) : quote ∉ bs :=
  fun hmem => (h quote hmem).1 rfl

/-- The reader copies name and value of the line of an item. -/
theorem lineOf_lineText {item : ConfigItem} (h : PlainItem item) :
    lineOf (lineText item) = ([item.configName, item.configValue], .item item) := by
  have hname : splitQuoted (quote :: (item.configName ++ quote :: (quote :: (item.configValue ++ [quote])))) =
      some (item.configName, (quote :: (item.configValue ++ [quote])).dropWhile isGap) :=
    splitQuoted_eq h.1.quote_not_mem
  have hvalue : splitQuoted (quote :: (item.configValue ++ [quote])) = some (item.configValue, []) :=
    splitQuoted_eq h.2.quote_not_mem
  have hgap : ∀ bs, (quote :: bs).dropWhile isGap = quote :: bs := fun _ => rfl
  rw [lineOf_free (free_lineText h)]
  unfold lineText
  rw [hgap, if_neg (fun h => by cases h)]
  unfold itemOf
  rw [hname, hgap]
  dsimp only
  rw [if_neg (fun h => by cases h), hvalue]
  rfl

theorem textLines_flatMap {items : List ConfigItem} (h : ∀ item ∈ items, PlainItem item) :
    textLines (items.flatMap itemToString) = items.map lineText := by
  induction items with
  | nil => rfl
  | cons item items ih =>
    have hfeed : textLines (10 :: items.flatMap itemToString) =
        [] :: textLines (items.flatMap itemToString) := textLines_eol rfl (fun h => by cases h)
    rw [List.flatMap_cons, itemToString_eq, List.append_assoc, List.singleton_append,
      textLines_append (free_lineText (h item List.mem_cons_self)) hfeed, List.append_nil,
      ih (fun item hitem => h item (List.mem_cons_of_mem _ hitem)), List.map_cons]

def cutItem (item : ConfigItem) : ConfigItem := ⟨cut item.configName, cut item.configValue⟩

/-- The lengths of an item are not negative as an `int`. -/
def Copyable (item : ConfigItem) : Prop :=
  ¬int32 item.configName.length < 0 ∧ ¬int32 item.configValue.length < 0

theorem copied_lineText {item : ConfigItem} (h : PlainItem item) :
    (Copyable item → copied (lineOf (lineText item)) = .ok (.item (cutItem item))) ∧
      (¬Copyable item → copied (lineOf (lineText item)) = .error .lengthError) := by
  rw [lineOf_lineText h]
  constructor
  · intro hcopy
    apply copied_of_fits
    intro text hmem
    rcases List.mem_cons.mp hmem with rfl | hmem
    · exact hcopy.1
    · rw [List.mem_singleton] at hmem
      exact hmem ▸ hcopy.2
  · intro hfault
    by_cases hname : int32 item.configName.length < 0
    · exact copied_of_neg List.mem_cons_self hname _
    · have hvalue : int32 item.configValue.length < 0 := by
        by_contra hvalue
        exact hfault ⟨hname, hvalue⟩
      exact copied_of_neg (List.mem_cons_of_mem _ (List.mem_singleton_self _)) hvalue _

theorem readLines_lineText {items : List ConfigItem} (h : ∀ item ∈ items, PlainItem item) :
    ((∀ item ∈ items, Copyable item) → readLines (items.map lineText) = .ok (true, items.map cutItem)) ∧
      ((∃ item ∈ items, ¬Copyable item) → readLines (items.map lineText) = .error .lengthError) := by
  induction items with
  | nil =>
    refine ⟨fun _ => rfl, ?_⟩
    rintro ⟨item, hitem, -⟩
    cases hitem
  | cons item items ih =>
    obtain ⟨hgood, hbad⟩ := ih (fun item hitem => h item (List.mem_cons_of_mem _ hitem))
    obtain ⟨hcopied, hfault⟩ := copied_lineText (h item List.mem_cons_self)
    have hcons := readLines_cons (lineText item) (items.map lineText) []
    rw [behind_nil] at hcons
    rw [List.map_cons, hcons]
    constructor
    · intro hall
      rw [hcopied (hall item List.mem_cons_self),
        hgood (fun item hitem => hall item (List.mem_cons_of_mem _ hitem))]
      rfl
    · rintro ⟨other, hmem, hnot⟩
      by_cases hfirst : Copyable item
      · rw [hcopied hfirst, hbad]
        · rfl
        · rcases List.mem_cons.mp hmem with rfl | hmem
          · exact absurd hfirst hnot
          · exact ⟨other, hmem, hnot⟩
      · rw [hfault hfirst]
        rfl

/-- The items that `ConfigsToString` writes. -/
def written (configs : List ConfigItem) : List ConfigItem :=
  configs.take (int32 configs.length).toNat

theorem bom_not_prefix (items : List ConfigItem) : ¬bomBytes <+: items.flatMap itemToString := by
  unfold bomBytes
  cases items with
  | nil => simp
  | cons item items =>
    rw [List.flatMap_cons]
    intro hpre
    have hfirst := (List.cons_prefix_cons.mp hpre).1
    cases hfirst

/-- Reading what was written is reading the lines of the items. -/
theorem stringToConfigs_written (charSigned : Bool) {configs : List ConfigItem}
    (h : ∀ config ∈ configs, PlainItem config) :
    stringToConfigs charSigned (configsToString configs) =
      readLines ((written configs).map lineText) := by
  have hplain : ∀ config ∈ written configs, PlainItem config :=
    fun config hconfig => h config (List.mem_of_mem_take hconfig)
  have hread := bufToConfigs_eq charSigned (configsToString configs)
  have htext : textOf charSigned (configsToString configs) = (written configs).flatMap itemToString :=
    if_neg (fun hmark => bom_not_prefix _ hmark.2)
  rw [htext, textLines_flatMap hplain] at hread
  rw [← hread]
  unfold stringToConfigs
  split
  · rename_i hempty
    rw [List.isEmpty_iff.mp hempty]
    rfl
  · rfl

theorem written_eq_iff (configs : List ConfigItem) :
    written configs = configs ↔ configs.length < 2 ^ 31 := by
  unfold written
  rw [List.take_eq_self_iff]
  unfold int32
  rw [Int.bmod_def]
  split <;> omega

/-- Short items without quotes and terminators are read as they were written. -/
theorem stringToConfigs_of_short (charSigned : Bool) {configs : List ConfigItem}
    (h : ∀ config ∈ configs, PlainItem config) (hlength : configs.length < 2 ^ 31)
    (hshort : ∀ config ∈ configs,
      config.configName.length < 2 ^ 31 ∧ config.configValue.length < 2 ^ 31) :
    stringToConfigs charSigned (configsToString configs) = .ok (true, configs) := by
  have hcut : ∀ config ∈ configs, Copyable config ∧ cutItem config = config := by
    intro config hconfig
    obtain ⟨hname, hvalue⟩ := hshort config hconfig
    obtain ⟨hfits, hsame⟩ := (cut_eq_iff _).mpr hname
    obtain ⟨hfits', hsame'⟩ := (cut_eq_iff _).mpr hvalue
    refine ⟨⟨hfits, hfits'⟩, ?_⟩
    unfold cutItem
    rw [hsame, hsame']
  have hmap : configs.map cutItem = configs.map id :=
    List.map_congr_left (fun config hconfig => (hcut config hconfig).2)
  rw [stringToConfigs_written charSigned h, (written_eq_iff configs).mpr hlength,
    (readLines_lineText h).1 (fun config hconfig => (hcut config hconfig).1), hmap, List.map_id]

/-- Items without quotes and terminators are read as they were written exactly if their
number and the lengths of their names and values are those of an `int`. -/
theorem configs_roundTrip_iff (charSigned : Bool) {configs : List ConfigItem}
    (h : ∀ config ∈ configs, PlainItem config) :
    stringToConfigs charSigned (configsToString configs) = .ok (true, configs) ↔
      configs.length < 2 ^ 31 ∧ ∀ config ∈ configs,
        config.configName.length < 2 ^ 31 ∧ config.configValue.length < 2 ^ 31 := by
  have hplain : ∀ config ∈ written configs, PlainItem config :=
    fun config hconfig => h config (List.mem_of_mem_take hconfig)
  obtain ⟨hgood, hbad⟩ := readLines_lineText hplain
  rw [stringToConfigs_written charSigned h]
  constructor
  · intro hread
    have hcopy : ∀ config ∈ written configs, Copyable config := by
      by_contra hnot
      have hfault : ∃ config ∈ written configs, ¬Copyable config := by
        by_contra hnone
        exact hnot (fun config hmem => by_contra fun hcopy => hnone ⟨config, hmem, hcopy⟩)
      rw [hbad hfault] at hread
      cases hread
    rw [hgood hcopy, Except.ok.injEq, Prod.mk.injEq] at hread
    have hwritten : written configs = configs := by
      have hlength := congrArg List.length hread.2
      rw [List.length_map] at hlength
      exact (List.take_sublist _ _).eq_of_length hlength
    refine ⟨(written_eq_iff configs).mp hwritten, ?_⟩
    rw [hwritten] at hread hcopy
    intro config hconfig
    have hsame : cutItem config = config := by
      have hmap : configs.map cutItem = configs.map id := by rw [hread.2, List.map_id]
      exact List.map_inj_left.mp hmap config hconfig
    obtain ⟨hname, hvalue⟩ := hcopy config hconfig
    obtain ⟨name, value⟩ := config
    unfold cutItem at hsame
    rw [ConfigItem.mk.injEq] at hsame
    dsimp only at hname hvalue hsame ⊢
    exact ⟨(cut_eq_iff name).mp ⟨hname, hsame.1⟩, (cut_eq_iff value).mp ⟨hvalue, hsame.2⟩⟩
  · rintro ⟨hlength, hshort⟩
    rw [← stringToConfigs_written charSigned h]
    exact stringToConfigs_of_short charSigned h hlength hshort

/-- Values with a comment mark and blanks, an empty name and an empty value. -/
def oddItems : List ConfigItem := [⟨[97], [47, 47, 32]⟩, ⟨[], []⟩]

theorem configs_roundTrip_iff_oddItems :
    stringToConfigs true (configsToString oddItems) = .ok (true, oddItems) := by
  refine (configs_roundTrip_iff true ?_).mpr ⟨by decide, ?_⟩
  · unfold oddItems PlainItem Plain
    decide +kernel
  · unfold oddItems
    decide

/-- A name of `2 ^ 31` bytes. -/
def longName : ConfigItem := ⟨List.replicate (2 ^ 31) 97, []⟩

theorem configs_lose_longName :
    ¬ ∀ (charSigned : Bool) (configs : List ConfigItem), (∀ config ∈ configs, PlainItem config) →
      stringToConfigs charSigned (configsToString configs) = .ok (true, configs) := by
  intro hclaim
  have hplain : ∀ config ∈ [longName], PlainItem config := by
    intro config hconfig
    rw [List.mem_singleton] at hconfig
    subst hconfig
    refine ⟨?_, fun b hb => by cases hb⟩
    intro b hb
    rw [List.eq_of_mem_replicate hb]
    decide
  have hread := hclaim true [longName] hplain
  have hwritten : written [longName] = [longName] := (written_eq_iff _).mpr (by
    rw [List.length_singleton]
    decide)
  have hfault : ∃ config ∈ [longName], ¬Copyable config := by
    refine ⟨longName, List.mem_singleton_self _, fun hcopy => hcopy.1 ?_⟩
    unfold longName
    rw [List.length_replicate]
    decide
  rw [stringToConfigs_written true hplain, hwritten, (readLines_lineText hplain).2 hfault] at hread
  cases hread

end Pronet.Util.ConfigStream
