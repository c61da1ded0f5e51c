import Mathlib

/-! Multimaps that keep the order in which their keys first came, and the histories of
additions and removals that lead to them. -/
namespace Pronet.Library

variable {κ ν : Type*}

@[ext] structure OrderedMultimap (κ ν : Type*) where
  keys : List κ
  get : κ → List ν
  nodup : keys.Nodup
  mem_keys : ∀ key, key ∈ keys ↔ get key ≠ []

/-- An operation on a multimap. -/
inductive MultimapOp (κ ν : Type*) where
  | add (key : κ) (value : ν)
  | remove (key : κ)
  | clear
deriving DecidableEq

namespace OrderedMultimap

variable [DecidableEq κ]

def empty : OrderedMultimap κ ν where
  keys := []
  get _ := []
  nodup := List.nodup_nil
  mem_keys _ := by simp

def add (m : OrderedMultimap κ ν) (key : κ) (value : ν) : OrderedMultimap κ ν where
  keys := if key ∈ m.keys then m.keys else m.keys ++ [key]
  get := Function.update m.get key (m.get key ++ [value])
  nodup := by
    split
    · exact m.nodup
    · rename_i hnew
      rw [List.nodup_append]
      refine ⟨m.nodup, List.nodup_singleton key, ?_⟩
      rintro a ha b hb rfl
      exact hnew (List.mem_singleton.mp hb ▸ ha)
  mem_keys other := by
    by_cases hother : other = key
    · rw [hother, Function.update_self]
      split <;> simp_all
    · rw [Function.update_of_ne hother, ← m.mem_keys other]
      split <;> simp [hother]

def remove (m : OrderedMultimap κ ν) (key : κ) : OrderedMultimap κ ν where
  keys := m.keys.filter (· ≠ key)
  get := Function.update m.get key []
  nodup := m.nodup.filter _
  mem_keys other := by
    by_cases hother : other = key
    · rw [hother, Function.update_self]
      simp
    · rw [Function.update_of_ne hother, ← m.mem_keys other]
      simp [hother]

def apply (m : OrderedMultimap κ ν) : MultimapOp κ ν → OrderedMultimap κ ν
  | .add key value => m.add key value
  | .remove key => m.remove key
  | .clear => empty

def run (m : OrderedMultimap κ ν) (ops : List (MultimapOp κ ν)) : OrderedMultimap κ ν :=
  ops.foldl apply m

/-- The items, those of a key together. -/
def items (m : OrderedMultimap κ ν) : List (κ × ν) :=
  m.keys.flatMap fun key => (m.get key).map (key, ·)

def addAll (m : OrderedMultimap κ ν) (items : List (κ × ν)) : OrderedMultimap κ ν :=
  items.foldl (fun m item => m.add item.1 item.2) m

theorem keys_add (m : OrderedMultimap κ ν) (key : κ) (value : ν) :
    (m.add key value).keys = if key ∈ m.keys then m.keys else m.keys ++ [key] := rfl

theorem mem_keys_add (m : OrderedMultimap κ ν) (key : κ) (value : ν) (other : κ) :
    other ∈ (m.add key value).keys ↔ other = key ∨ other ∈ m.keys := by
  rw [keys_add]
  split
  · rename_i hkey
    exact (or_iff_right_of_imp fun h => h ▸ hkey).symm
  · rw [List.mem_append, List.mem_singleton, or_comm]

theorem get_add (m : OrderedMultimap κ ν) (key : κ) (value : ν) (other : κ) :
    (m.add key value).get other = if other = key then m.get key ++ [value] else m.get other :=
  Function.update_apply m.get key _ other

theorem keys_remove (m : OrderedMultimap κ ν) (key : κ) :
    (m.remove key).keys = m.keys.filter (· ≠ key) := rfl

theorem get_remove (m : OrderedMultimap κ ν) (key other : κ) :
    (m.remove key).get other = if other = key then [] else m.get other :=
  Function.update_apply m.get key _ other

omit [DecidableEq κ] in
/-- A multimap with the same keys in the same order and the same values is the same. -/
theorem eq_of_keys {m m' : OrderedMultimap κ ν} (hkeys : m.keys = m'.keys)
    (hget : ∀ key, m.get key = m'.get key) : m = m' :=
  OrderedMultimap.ext hkeys (funext hget)

omit [DecidableEq κ] in
theorem get_eq_nil {m : OrderedMultimap κ ν} {key : κ} (hnew : key ∉ m.keys) : m.get key = [] := by
  by_contra hsome
  exact hnew ((m.mem_keys key).mpr hsome)

theorem addAll_append (m : OrderedMultimap κ ν) (front back : List (κ × ν)) :
    m.addAll (front ++ back) = (m.addAll front).addAll back := List.foldl_append

/-- The values of a new key. -/
theorem addAll_group (m : OrderedMultimap κ ν) {key : κ} (hnew : key ∉ m.keys) {values : List ν}
    (hvalues : values ≠ []) :
    (m.addAll (values.map (key, ·))).keys = m.keys ++ [key] ∧
      ∀ other, (m.addAll (values.map (key, ·))).get other =
        if other = key then values else m.get other := by
  induction values using List.reverseRecOn with
  | nil => exact absurd rfl hvalues
  | append_singleton values value ih =>
    rw [List.map_append, addAll_append]
    show ((m.addAll (values.map (key, ·))).add key value).keys = _ ∧
      ∀ other, ((m.addAll (values.map (key, ·))).add key value).get other = _
    rw [keys_add]
    simp only [get_add]
    by_cases hfirst : values = []
    · have hnone := get_eq_nil hnew
      rw [hfirst]
      exact ⟨if_neg hnew, fun other => by rw [List.map_nil]; simp [addAll, hnone]⟩
    · obtain ⟨hkeys, hget⟩ := ih hfirst
      rw [hkeys, if_pos (by simp)]
      refine ⟨rfl, fun other => ?_⟩
      rw [hget, hget, if_pos rfl]
      split <;> rfl

theorem addAll_groups (m : OrderedMultimap κ ν) {keys : List κ} (hnodup : keys.Nodup)
    (hnew : ∀ key ∈ keys, key ∉ m.keys) {values : κ → List ν}
    (hvalues : ∀ key ∈ keys, values key ≠ []) :
    (m.addAll (keys.flatMap fun key => (values key).map (key, ·))).keys = m.keys ++ keys ∧
      ∀ other, (m.addAll (keys.flatMap fun key => (values key).map (key, ·))).get other =
        if other ∈ keys then values other else m.get other := by
  induction keys generalizing m with
  | nil => simp [addAll]
  | cons key keys ih =>
    obtain ⟨hkey, hrest⟩ := List.nodup_cons.mp hnodup
    obtain ⟨hkeys, hget⟩ := m.addAll_group (hnew key List.mem_cons_self)
      (hvalues key List.mem_cons_self)
    have hnew' : ∀ other ∈ keys, other ∉ (m.addAll ((values key).map (key, ·))).keys := by
      intro other hother hmem
      rw [hkeys, List.mem_append, List.mem_singleton] at hmem
      rcases hmem with hold | hsame
      · exact hnew other (List.mem_cons_of_mem _ hother) hold
      · exact hkey (hsame ▸ hother)
    obtain ⟨hkeys', hget'⟩ := ih (m.addAll ((values key).map (key, ·))) hrest hnew'
      (fun other hother => hvalues other (List.mem_cons_of_mem _ hother))
    rw [List.flatMap_cons, addAll_append]
    refine ⟨by rw [hkeys', hkeys, List.append_assoc, List.singleton_append], fun other => ?_⟩
    rw [hget', hget]
    by_cases hother : other = key
    · simp [hother, hkey]
    · simp [hother]

/-- The items say it all: adding them to an empty multimap gives the same one. -/
theorem addAll_items (m : OrderedMultimap κ ν) : empty.addAll m.items = m := by
  obtain ⟨hkeys, hget⟩ := (empty : OrderedMultimap κ ν).addAll_groups m.nodup
    (fun _ _ hmem => List.not_mem_nil hmem) (fun key hkey => (m.mem_keys key).mp hkey)
  apply eq_of_keys
  · exact hkeys.trans (List.nil_append _)
  · intro key
    refine (hget key).trans ?_
    split
    · rfl
    · rename_i hkey
      exact (get_eq_nil hkey).symm

/-! Keys and values read off a history. -/

/-- The values added under the key since it was last removed. -/
def valuesOf (ops : List (MultimapOp κ ν)) (key : κ) : List ν :=
  ops.foldl (fun values op =>
    match op with
    | .add other value => if other = key then values ++ [value] else values
    | .remove other => if other = key then [] else values
    | .clear => []) []

/-- Where in the history the key was first added since it was last removed. -/
def firstAdd (ops : List (MultimapOp κ ν)) (key : κ) : Option Nat :=
  ops.zipIdx.foldl (fun first op =>
    match op.1 with
    | .add other _ => if other = key then some (first.getD op.2) else first
    | .remove other => if other = key then none else first
    | .clear => none) none

theorem run_concat (m : OrderedMultimap κ ν) (ops : List (MultimapOp κ ν)) (op : MultimapOp κ ν) :
    m.run (ops ++ [op]) = (m.run ops).apply op := List.foldl_append

theorem valuesOf_concat (ops : List (MultimapOp κ ν)) (op : MultimapOp κ ν) (key : κ) :
    valuesOf (ops ++ [op]) key =
      match op with
      | .add other value => if other = key then valuesOf ops key ++ [value] else valuesOf ops key
      | .remove other => if other = key then [] else valuesOf ops key
      | .clear => [] := List.foldl_append

theorem get_run (ops : List (MultimapOp κ ν)) (key : κ) :
    (empty.run ops).get key = valuesOf ops key := by
  induction ops using List.reverseRecOn with
  | nil => rfl
  | append_singleton ops op ih =>
    rw [run_concat, valuesOf_concat]
    cases op with
    | add other value =>
      refine (get_add _ _ _ _).trans ?_
      by_cases hkey : key = other
      · rw [hkey] at ih ⊢
        simp [ih]
      · simp [hkey, Ne.symm hkey, ih]
    | remove other =>
      refine (get_remove _ _ _).trans ?_
      by_cases hkey : key = other
      · simp [hkey]
      · simp [hkey, Ne.symm hkey, ih]
    | clear => rfl

theorem firstAdd_concat (ops : List (MultimapOp κ ν)) (op : MultimapOp κ ν) (key : κ) :
    firstAdd (ops ++ [op]) key =
      match op with
      | .add other _ => if other = key then some ((firstAdd ops key).getD ops.length)
          else firstAdd ops key
      | .remove other => if other = key then none else firstAdd ops key
      | .clear => none := by
  unfold firstAdd
  rw [List.zipIdx_append, List.foldl_append]
  simp

theorem firstAdd_lt {ops : List (MultimapOp κ ν)} {key : κ} {place : Nat}
    (h : firstAdd ops key = some place) : place < ops.length := by
  induction ops using List.reverseRecOn generalizing place with
  | nil => cases h
  | append_singleton ops op ih =>
    rw [List.length_append, List.length_singleton]
    rw [firstAdd_concat] at h
    cases op with
    | add other value =>
      dsimp only at h
      split at h
      · cases hfirst : firstAdd ops key with
        | none =>
          rw [hfirst] at h
          have hplace : ops.length = place := Option.some.inj h
          omega
        | some first =>
          have hplace : first = place := by
            rw [hfirst] at h
            exact Option.some.inj h
          exact Nat.lt_succ_of_lt (ih (hplace ▸ hfirst))
      · exact Nat.lt_succ_of_lt (ih h)
    | remove other =>
      dsimp only at h
      split at h
      · cases h
      · exact Nat.lt_succ_of_lt (ih h)
    | clear => cases h

theorem mem_keys_run (ops : List (MultimapOp κ ν)) (key : κ) :
    key ∈ (empty.run ops).keys ↔ (firstAdd ops key).isSome := by
  induction ops using List.reverseRecOn with
  | nil => simp [run, empty, firstAdd]
  | append_singleton ops op ih =>
    rw [run_concat, firstAdd_concat]
    cases op with
    | add other value =>
      simp only [apply, keys_add]
      by_cases hkey : other = key
      · rw [hkey]
        split <;> simp_all
      · rw [if_neg hkey, ← ih]
        split
        · rfl
        · simp [Ne.symm hkey]
    | remove other =>
      simp only [apply, keys_remove]
      by_cases hkey : other = key
      · simp [hkey]
      · rw [if_neg hkey, ← ih]
        simp [Ne.symm hkey]
    | clear => simp [apply, empty]

/-- The keys stand in the order in which they were first added since they were last removed. -/
theorem keys_run_pairwise (ops : List (MultimapOp κ ν)) :
    (empty.run ops).keys.Pairwise fun a b =>
      ∃ i j, firstAdd ops a = some i ∧ firstAdd ops b = some j ∧ i < j := by
  induction ops using List.reverseRecOn with
  | nil => exact List.Pairwise.nil
  | append_singleton ops op ih =>
    rw [run_concat]
    cases op with
    | add other value =>
      have hkept : ∀ key place, firstAdd ops key = some place →
          firstAdd (ops ++ [.add other value]) key = some place := by
        intro key place hfirst
        rw [firstAdd_concat, hfirst]
        simp
      have hold : (empty.run ops).keys.Pairwise fun a b => ∃ i j,
          firstAdd (ops ++ [.add other value]) a = some i ∧
            firstAdd (ops ++ [.add other value]) b = some j ∧ i < j := by
        refine ih.imp ?_
        rintro a b ⟨i, j, ha, hb, hlt⟩
        exact ⟨i, j, hkept a i ha, hkept b j hb, hlt⟩
      simp only [apply, keys_add]
      split
      · exact hold
      · rename_i hnew
        rw [List.pairwise_append]
        refine ⟨hold, List.pairwise_singleton _ _, ?_⟩
        intro a ha b hb
        obtain rfl := List.mem_singleton.mp hb
        obtain ⟨i, hi⟩ := Option.isSome_iff_exists.mp ((mem_keys_run ops a).mp ha)
        have hnone : firstAdd ops b = none := by
          rwa [mem_keys_run, Option.not_isSome_iff_eq_none] at hnew
        refine ⟨i, ops.length, hkept a i hi, ?_, firstAdd_lt hi⟩
        rw [firstAdd_concat, hnone]
        simp
    | remove other =>
      simp only [apply, keys_remove]
      rw [List.pairwise_filter]
      refine ih.imp ?_
      rintro a b ⟨i, j, ha, hb, hlt⟩ hne hne'
      have hne : a ≠ other := by simpa using hne
      have hne' : b ≠ other := by simpa using hne'
      refine ⟨i, j, ?_, ?_, hlt⟩
      · rw [firstAdd_concat, ha]
        simp [Ne.symm hne]
      · rw [firstAdd_concat, hb]
        simp [Ne.symm hne']
    | clear => exact List.Pairwise.nil

/-- How many additions a history has. -/
def addCount (ops : List (MultimapOp κ ν)) : Nat :=
  ops.countP fun
    | .add _ _ => true
    | _ => false

/-- A history of additions only. -/
theorem run_adds {α : Type*} (m : OrderedMultimap κ ν) (key : α → κ) (value : α → ν) (as : List α) :
    m.run (as.map fun a => .add (key a) (value a)) = m.addAll (as.map fun a => (key a, value a)) := by
  unfold run addAll
  rw [List.foldl_map, List.foldl_map]
  rfl

omit [DecidableEq κ] in
theorem addCount_adds {α : Type*} (key : α → κ) (value : α → ν) (as : List α) :
    addCount (as.map fun a => MultimapOp.add (key a) (value a)) = as.length := by
  unfold addCount
  rw [List.countP_map, List.countP_eq_length.mpr]
  intro a _
  rfl

theorem flatMap_get_add (m : OrderedMultimap κ ν) (key : κ) (value : ν) {keys : List κ}
    (hkeys : key ∉ keys) :
    (keys.flatMap fun other => ((m.add key value).get other).map (other, ·)) =
      keys.flatMap fun other => (m.get other).map (other, ·) := by
  apply List.flatMap_congr
  intro other hother
  rw [get_add, if_neg]
  intro heq
  exact hkeys (heq ▸ hother)

theorem items_add_of_new (m : OrderedMultimap κ ν) {key : κ} (hnew : key ∉ m.keys) (value : ν) :
    (m.add key value).items = m.items ++ [(key, value)] := by
  unfold items
  rw [keys_add, if_neg hnew, List.flatMap_append, flatMap_get_add m key value hnew]
  simp [get_add, get_eq_nil hnew]

/-- Items with different keys are listed as they were added. -/
theorem items_addAll {items : List (κ × ν)} (hnodup : (items.map Prod.fst).Nodup) :
    (empty.addAll items).keys = items.map Prod.fst ∧ (empty.addAll items).items = items := by
  induction items using List.reverseRecOn with
  | nil => exact ⟨rfl, rfl⟩
  | append_singleton items item ih =>
    rw [List.map_append, List.nodup_append] at hnodup
    obtain ⟨hkeys, hitems⟩ := ih hnodup.1
    have hnew : item.1 ∉ (empty.addAll items).keys := by
      rw [hkeys]
      intro hmem
      exact hnodup.2.2 item.1 hmem item.1 List.mem_cons_self rfl
    rw [addAll_append]
    constructor
    · refine (keys_add _ item.1 item.2).trans ?_
      rw [if_neg hnew, hkeys, List.map_append]
      rfl
    · refine (items_add_of_new _ hnew item.2).trans ?_
      rw [hitems]

theorem length_items_add (m : OrderedMultimap κ ν) (key : κ) (value : ν) :
    (m.add key value).items.length = m.items.length + 1 := by
  by_cases hmem : key ∈ m.keys
  · obtain ⟨front, back, hkeys⟩ := List.append_of_mem hmem
    have hnodup := m.nodup
    rw [hkeys, List.nodup_append, List.nodup_cons] at hnodup
    have hfront : key ∉ front := fun hin => hnodup.2.2 key hin key List.mem_cons_self rfl
    unfold items
    rw [keys_add, if_pos hmem, hkeys]
    simp only [List.flatMap_append, List.flatMap_cons, List.length_append, List.length_map]
    rw [flatMap_get_add m key value hfront, flatMap_get_add m key value hnodup.2.1.1, get_add,
      if_pos rfl, List.length_append, List.length_singleton]
    omega
  · rw [items_add_of_new m hmem value, List.length_append, List.length_singleton]

theorem length_items_remove (m : OrderedMultimap κ ν) (key : κ) :
    (m.remove key).items.length ≤ m.items.length := by
  have hkept : (m.remove key).items =
      (m.keys.filter (· ≠ key)).flatMap fun other => (m.get other).map (other, ·) := by
    apply List.flatMap_congr
    intro other hother
    rw [get_remove, if_neg]
    simpa using (List.mem_filter.mp hother).2
  rw [hkept]
  apply List.Sublist.length_le
  exact List.filter_sublist.flatMap _

theorem length_items_run (ops : List (MultimapOp κ ν)) :
    (empty.run ops).items.length ≤ addCount ops := by
  induction ops using List.reverseRecOn with
  | nil => exact le_rfl
  | append_singleton ops op ih =>
    rw [run_concat, addCount, List.countP_append]
    cases op with
    | add key value =>
      apply (length_items_add _ key value).le.trans
      exact Nat.succ_le_succ ih
    | remove key => exact (length_items_remove _ key).trans ih
    | clear => exact Nat.zero_le _

end OrderedMultimap

end Pronet.Library
