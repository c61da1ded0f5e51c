import Mathlib

/-! Ordered tables. Erasing a list of keys, the entries after an insertion or an
erasure, the size of a table whose keys are partitioned among a list of owners, and
inverse tables. -/
namespace Pronet.Library.Tables

open Std

variable {κ ν ο : Type*} {cmp : κ → κ → Ordering} [TransCmp cmp] [LawfulEqCmp cmp]

def eraseAll (keys : List κ) (table : ExtTreeMap κ ν cmp) : ExtTreeMap κ ν cmp :=
  keys.foldl (fun table key => table.erase key) table

theorem getElem?_insert_if [DecidableEq κ] (table : ExtTreeMap κ ν cmp) (key : κ) (value : ν) (other : κ) :
    (table.insert key value)[other]? = if other = key then some value else table[other]? := by
  rw [ExtTreeMap.getElem?_insert]
  simp only [LawfulEqCmp.compare_eq_iff_eq, eq_comm (a := key)]

theorem getElem?_erase_if [DecidableEq κ] (table : ExtTreeMap κ ν cmp) (key other : κ) :
    (table.erase key)[other]? = if other = key then none else table[other]? := by
  rw [ExtTreeMap.getElem?_erase]
  simp only [LawfulEqCmp.compare_eq_iff_eq, eq_comm (a := key)]

/-- What is in the table stays when something new comes in. -/
theorem getElem?_insert_of_free {table : ExtTreeMap κ ν cmp} {key other : κ} {held : ν} (value : ν)
    (hfree : key ∉ table) (hheld : table[other]? = some held) :
    (table.insert key value)[other]? = some held := by
  rw [ExtTreeMap.getElem?_insert, if_neg]
  · exact hheld
  · intro heq
    rw [← LawfulEqCmp.compare_eq_iff_eq.mp heq, ExtTreeMap.getElem?_eq_none hfree] at hheld
    cases hheld

/-- What is in the table stays when something else goes. -/
theorem getElem?_erase_of_apart {table : ExtTreeMap κ ν cmp} {key other : κ} {held : ν}
    (hheld : table[other]? = some held) (hapart : table[key]? ≠ some held) :
    (table.erase key)[other]? = some held := by
  rw [ExtTreeMap.getElem?_erase, if_neg]
  · exact hheld
  · intro heq
    rw [LawfulEqCmp.compare_eq_iff_eq.mp heq] at hapart
    exact hapart hheld

theorem getElem?_of_insert {table : ExtTreeMap κ ν cmp} {key other : κ} {value held : ν}
    (h : (table.insert key value)[other]? = some held) :
    table[other]? = some held ∨ other = key ∧ held = value := by
  rw [ExtTreeMap.getElem?_insert] at h
  split at h
  · rename_i hsame
    exact .inr ⟨(LawfulEqCmp.compare_eq_iff_eq.mp hsame).symm, (Option.some.inj h).symm⟩
  · exact .inl h

theorem getElem?_of_erase {table : ExtTreeMap κ ν cmp} {key other : κ} {held : ν}
    (h : (table.erase key)[other]? = some held) : other ≠ key ∧ table[other]? = some held := by
  rw [ExtTreeMap.getElem?_erase] at h
  split at h
  · cases h
  · rename_i hne
    exact ⟨fun heq => hne (LawfulEqCmp.compare_eq_iff_eq.mpr heq.symm), h⟩

@[simp] theorem getElem?_eraseAll [DecidableEq κ] (keys : List κ) (table : ExtTreeMap κ ν cmp)
    (key : κ) : (eraseAll keys table)[key]? = if key ∈ keys then none else table[key]? := by
  induction keys generalizing table with
  | nil => simp [eraseAll]
  | cons first rest ih =>
    have h : eraseAll (first :: rest) table = eraseAll rest (table.erase first) := rfl
    rw [h, ih, getElem?_erase_if]
    by_cases hfirst : key = first
    · simp [hfirst]
    · simp [hfirst]

/-- If every key belongs to exactly one owner, the size of the table is the
total number of keys the owners list. -/
theorem size_eq_sum_of_partition {table : ExtTreeMap κ ν cmp} {owners : List ο}
    {owned : ο → List κ} (howners : owners.Nodup) (howned : ∀ o ∈ owners, (owned o).Nodup)
    (hdisjoint : ∀ o ∈ owners, ∀ o' ∈ owners, ∀ key, key ∈ owned o → key ∈ owned o' → o = o')
    (hkeys : ∀ key, key ∈ table ↔ ∃ o ∈ owners, key ∈ owned o) :
    table.size = (owners.map fun o => (owned o).length).sum := by
  have hnodup : (owners.flatMap owned).Nodup := by
    rw [List.nodup_flatMap]
    refine ⟨howned, ?_⟩
    refine List.Pairwise.imp_of_mem ?_ howners
    intro o o' ho ho' hne key hkey hkey'
    exact hne (hdisjoint o ho o' ho' key hkey hkey')
  have hperm : table.keys.Perm (owners.flatMap owned) := by
    rw [List.perm_ext_iff_of_nodup ExtTreeMap.nodup_keys hnodup]
    intro key
    rw [ExtTreeMap.mem_keys, hkeys, List.mem_flatMap]
  rw [← ExtTreeMap.length_keys, hperm.length_eq, List.length_flatMap]

omit [LawfulEqCmp cmp] in
theorem nodup_toList (table : ExtTreeMap κ ν cmp) : table.toList.Nodup := by
  have hkeys : (table.toList.map Prod.fst).Nodup := by
    rw [ExtTreeMap.map_fst_toList_eq_keys]
    exact ExtTreeMap.nodup_keys
  exact List.Nodup.of_map Prod.fst hkeys

theorem toList_insertIfNew_perm {table : ExtTreeMap κ ν cmp} {key : κ} (value : ν)
    (h : key ∉ table) :
    (table.insertIfNew key value).toList.Perm ((key, value) :: table.toList) := by
  have hnone : table[key]? = none := ExtTreeMap.getElem?_eq_none h
  have hnodup : ((key, value) :: table.toList).Nodup := by
    apply List.nodup_cons.mpr
    refine ⟨?_, nodup_toList table⟩
    rw [ExtTreeMap.mem_toList_iff_getElem?_eq_some, hnone]
    simp
  rw [List.perm_ext_iff_of_nodup (nodup_toList _) hnodup]
  rintro ⟨k, v⟩
  rw [List.mem_cons, ExtTreeMap.mem_toList_iff_getElem?_eq_some,
    ExtTreeMap.mem_toList_iff_getElem?_eq_some, ExtTreeMap.getElem?_insertIfNew]
  by_cases hkey : key = k
  · subst hkey
    rw [if_pos ⟨LawfulEqCmp.compare_eq_iff_eq.mpr rfl, h⟩, hnone]
    simp [eq_comm]
  · rw [if_neg (fun hboth => hkey (LawfulEqCmp.compare_eq_iff_eq.mp hboth.1))]
    simp [Ne.symm hkey]

theorem toList_perm_erase {table : ExtTreeMap κ ν cmp} {key : κ} {value : ν}
    (h : table[key]? = some value) :
    table.toList.Perm ((key, value) :: (table.erase key).toList) := by
  have hnodup : ((key, value) :: (table.erase key).toList).Nodup := by
    apply List.nodup_cons.mpr
    refine ⟨?_, nodup_toList _⟩
    rw [ExtTreeMap.mem_toList_iff_getElem?_eq_some, ExtTreeMap.getElem?_erase_self]
    simp
  rw [List.perm_ext_iff_of_nodup (nodup_toList _) hnodup]
  rintro ⟨k, v⟩
  rw [List.mem_cons, ExtTreeMap.mem_toList_iff_getElem?_eq_some,
    ExtTreeMap.mem_toList_iff_getElem?_eq_some, ExtTreeMap.getElem?_erase]
  by_cases hkey : key = k
  · subst hkey
    rw [if_pos (LawfulEqCmp.compare_eq_iff_eq.mpr rfl), h]
    simp [eq_comm]
  · rw [if_neg (fun heq => hkey (LawfulEqCmp.compare_eq_iff_eq.mp heq))]
    simp [Ne.symm hkey]

omit [LawfulEqCmp cmp] in
@[simp] theorem toList_empty : (∅ : ExtTreeMap κ ν cmp).toList = [] := by
  rw [← List.isEmpty_iff, ExtTreeMap.isEmpty_toList]
  exact ExtTreeMap.isEmpty_empty

omit [LawfulEqCmp cmp] in
@[simp] theorem keys_empty : (∅ : ExtTreeMap κ ν cmp).keys = [] := by
  rw [← List.isEmpty_iff, ExtTreeMap.isEmpty_keys]
  exact ExtTreeMap.isEmpty_empty

theorem insert_eq_insertIfNew {table : ExtTreeMap κ ν cmp} {key : κ} (value : ν) (h : key ∉ table) :
    table.insert key value = table.insertIfNew key value := by
  apply ExtTreeMap.ext_getElem?
  intro k
  rw [ExtTreeMap.getElem?_insert, ExtTreeMap.getElem?_insertIfNew]
  by_cases hkey : cmp key k = .eq
  · rw [if_pos hkey, if_pos ⟨hkey, h⟩]
  · rw [if_neg hkey, if_neg (fun hboth => hkey hboth.1)]

/-- An entry that is written replaces the one that was there. -/
theorem toList_insert_perm (table : ExtTreeMap κ ν cmp) (key : κ) (value : ν) :
    (table.insert key value).toList.Perm ((key, value) :: (table.erase key).toList) := by
  have hgone : key ∉ table.erase key := by simp
  have hsame : table.insert key value = (table.erase key).insertIfNew key value := by
    apply ExtTreeMap.ext_getElem?
    intro k
    rw [ExtTreeMap.getElem?_insert, ExtTreeMap.getElem?_insertIfNew, ExtTreeMap.getElem?_erase]
    by_cases hkey : cmp key k = .eq
    · rw [if_pos hkey, if_pos ⟨hkey, hgone⟩]
    · rw [if_neg hkey, if_neg (fun hboth => hkey hboth.1), if_neg hkey]
  rw [hsame]
  exact toList_insertIfNew_perm value hgone

theorem keys_insert_perm {table : ExtTreeMap κ ν cmp} {key : κ} (value : ν) (h : key ∉ table) :
    (table.insert key value).keys.Perm (key :: table.keys) := by
  have hperm := (toList_insertIfNew_perm value h).map Prod.fst
  rw [List.map_cons, ExtTreeMap.map_fst_toList_eq_keys, ExtTreeMap.map_fst_toList_eq_keys,
    ← insert_eq_insertIfNew value h] at hperm
  exact hperm

theorem keys_perm_erase {table : ExtTreeMap κ ν cmp} {key : κ} {value : ν}
    (h : table[key]? = some value) : table.keys.Perm (key :: (table.erase key).keys) := by
  have hperm := (toList_perm_erase h).map Prod.fst
  rw [List.map_cons, ExtTreeMap.map_fst_toList_eq_keys, ExtTreeMap.map_fst_toList_eq_keys] at hperm
  exact hperm

/-- A list sorted by its keys that has the entries of the table is the table's list. -/
theorem toList_eq_of_pairwise {table : ExtTreeMap κ ν cmp} {entries : List (κ × ν)}
    (hsorted : entries.Pairwise fun a b => cmp a.1 b.1 = .lt)
    (hentries : ∀ key value, (key, value) ∈ entries ↔ table[key]? = some value) :
    table.toList = entries := by
  have hne : ∀ a b : κ × ν, cmp a.1 b.1 = .lt → a ≠ b := by
    intro a b hlt hab
    have heq : cmp a.1 b.1 = .eq := LawfulEqCmp.compare_eq_iff_eq.mpr (congrArg Prod.fst hab)
    rw [heq] at hlt
    cases hlt
  have hperm : table.toList.Perm entries := by
    rw [List.perm_ext_iff_of_nodup (nodup_toList table) (hsorted.imp (hne _ _))]
    rintro ⟨key, value⟩
    rw [ExtTreeMap.mem_toList_iff_getElem?_eq_some, hentries]
  apply List.Perm.eq_of_pairwise _ ExtTreeMap.ordered_keys_toList hsorted hperm
  intro a b _ _ hlt hgt
  exact absurd (TransCmp.lt_trans hlt hgt) (fun h => hne a a h rfl)

section Inverse

variable {cmp' : ν → ν → Ordering} [TransCmp cmp'] [LawfulEqCmp cmp']

/-- The table read from its values to its keys. -/
def inverse (table : ExtTreeMap κ ν cmp) : ExtTreeMap ν κ cmp' :=
  table.foldl (fun back key value => back.insert value key) ∅

theorem foldl_insert_of_mem {entries : List (κ × ν)} {back : ExtTreeMap ν κ cmp'} {value : ν}
    {key : κ} (hone : ∀ other, (other, value) ∈ entries → other = key)
    (hback : back[value]? = some key ∨ (key, value) ∈ entries) :
    (entries.foldl (fun back entry => back.insert entry.2 entry.1) back)[value]? = some key := by
  induction entries generalizing back with
  | nil => exact hback.resolve_right List.not_mem_nil
  | cons entry entries ih =>
    apply ih
    · intro other hother
      exact hone other (List.mem_cons_of_mem _ hother)
    · rw [ExtTreeMap.getElem?_insert]
      by_cases hvalue : cmp' entry.2 value = .eq
      · left
        have heq : entry.2 = value := LawfulEqCmp.compare_eq_iff_eq.mp hvalue
        rw [if_pos hvalue, hone entry.1 (by rw [← heq]; exact List.mem_cons_self)]
      · rw [if_neg hvalue]
        apply hback.imp_right
        intro hmem
        apply (List.mem_cons.mp hmem).resolve_left
        intro heq
        apply hvalue
        rw [← heq]
        exact LawfulEqCmp.compare_eq_iff_eq.mpr rfl

theorem mem_of_foldl_insert {entries : List (κ × ν)} {back : ExtTreeMap ν κ cmp'} {value : ν}
    {key : κ}
    (h : (entries.foldl (fun back entry => back.insert entry.2 entry.1) back)[value]? = some key) :
    back[value]? = some key ∨ (key, value) ∈ entries := by
  induction entries generalizing back with
  | nil => exact Or.inl h
  | cons entry entries ih =>
    rcases ih h with hinsert | hmem
    · rw [ExtTreeMap.getElem?_insert] at hinsert
      split at hinsert
      · rename_i hvalue
        right
        rw [← LawfulEqCmp.compare_eq_iff_eq.mp hvalue, ← Option.some.inj hinsert]
        exact List.mem_cons_self
      · exact Or.inl hinsert
    · exact Or.inr (List.mem_cons_of_mem _ hmem)

/-- Where no two keys have the same value, the inverse table finds the key of a value. -/
theorem getElem?_inverse {table : ExtTreeMap κ ν cmp}
    (hinj : ∀ (key key' : κ) (value : ν), table[key]? = some value → table[key']? = some value →
      key = key') (value : ν) (key : κ) :
    (inverse table : ExtTreeMap ν κ cmp')[value]? = some key ↔ table[key]? = some value := by
  unfold inverse
  rw [ExtTreeMap.foldl_eq_foldl_toList, ← ExtTreeMap.mem_toList_iff_getElem?_eq_some (t := table)]
  constructor
  · intro h
    apply (mem_of_foldl_insert h).resolve_left
    simp
  · intro h
    apply foldl_insert_of_mem _ (Or.inr h)
    intro other hother
    rw [ExtTreeMap.mem_toList_iff_getElem?_eq_some] at h hother
    exact hinj other key value hother h

end Inverse
end Pronet.Library.Tables
