import Mathlib.Algebra.BigOperators.Group.Finset.Basic
import Mathlib.Algebra.BigOperators.Group.List.Basic
import Mathlib.Algebra.GroupWithZero.Nat
import Mathlib.Algebra.Order.BigOperators.Group.Finset
import Mathlib.Data.List.Forall2
import Std.Data.TreeMap.Lemmas

/-!
Ordered maps and their entries. A map with the entries of another put over it looks a key up in that one first. What is
summed over some of the keys of a map is at most what is summed over all of its values.
-/

namespace Maps

variable {α β : Type*} {cmp : α → α → Ordering}

theorem values_eq (map : Std.TreeMap α β cmp) : map.values = map.toList.map (·.2) := by
  have folded : map.values = map.foldr (fun _ value values => value :: values) [] := rfl
  rw [folded, Std.TreeMap.foldr_eq_foldr_toList, List.map_eq_foldr]

theorem length_values (map : Std.TreeMap α β cmp) : map.values.length = map.size := by
  rw [values_eq, List.length_map, Std.TreeMap.length_toList]

variable [Std.TransCmp cmp] [Std.LawfulEqCmp cmp]

theorem mem_values {map : Std.TreeMap α β cmp} {key : α} {value : β} (found : map[key]? = some value) :
    value ∈ map.values := by
  rw [values_eq]
  exact List.mem_map.mpr ⟨(key, value), Std.TreeMap.mem_toList_iff_getElem?_eq_some.mpr found, rfl⟩

theorem mem_values_iff {map : Std.TreeMap α β cmp} {value : β} :
    value ∈ map.values ↔ ∃ key : α, map[key]? = some value := by
  refine ⟨fun listed => ?_, fun ⟨key, found⟩ => mem_values found⟩
  rw [values_eq] at listed
  obtain ⟨⟨key, value⟩, inside, rfl⟩ := List.mem_map.mp listed
  exact ⟨key, Std.TreeMap.mem_toList_iff_getElem?_eq_some.mp inside⟩

/-- Two maps with the same keys, value by value. -/
theorem forall₂_values {γ : Type*} {R : β → γ → Prop} {first : Std.TreeMap α β cmp} {second : Std.TreeMap α γ cmp}
    (keys : second.keys = first.keys)
    (each : ∀ (key : α) b c, first[key]? = some b → second[key]? = some c → R b c) :
    List.Forall₂ R first.values second.values := by
  rw [Maps.values_eq, Maps.values_eq]
  rw [← Std.TreeMap.map_fst_toList_eq_keys, ← Std.TreeMap.map_fst_toList_eq_keys] at keys
  have among : ∀ key b c, (key, b) ∈ first.toList → (key, c) ∈ second.toList → R b c := fun key b c one two =>
    each key b c (Std.TreeMap.mem_toList_iff_getElem?_eq_some.mp one)
      (Std.TreeMap.mem_toList_iff_getElem?_eq_some.mp two)
  generalize first.toList = xs at keys among
  generalize second.toList = ys at keys among
  induction xs generalizing ys with
  | nil =>
    rw [List.map_nil, List.map_eq_nil_iff] at keys
    rw [keys]
    exact .nil
  | cons x xs ih =>
    cases ys with
    | nil => cases keys
    | cons y ys =>
      obtain ⟨same, rest⟩ := List.cons.inj keys
      refine .cons (among x.1 x.2 y.2 List.mem_cons_self ?_) (ih ys rest fun key b c one two => ?_)
      · rw [← same]
        exact List.mem_cons_self
      · exact among key b c (List.mem_cons_of_mem _ one) (List.mem_cons_of_mem _ two)

theorem find?_toList (map : Std.TreeMap α β cmp) [BEq α] [LawfulBEq α] (key : α) :
    (map.toList.find? (·.1 == key)).map (·.2) = map[key]? := by
  cases found : map.toList.find? (·.1 == key) with
  | some entry =>
    have same : entry.1 = key := by simpa using List.find?_some found
    have listed := Std.TreeMap.mem_toList_iff_getElem?_eq_some.mp (List.mem_of_find?_eq_some found)
    rw [Option.map_some, ← same, listed]
  | none =>
    cases looked : map[key]? with
    | none => rfl
    | some value =>
      have listed := Std.TreeMap.mem_toList_iff_getElem?_eq_some.mpr looked
      have differs := List.find?_eq_none.mp found (key, value) listed
      simp at differs

/-- Entries under different keys, each combined with what its key has so far. -/
theorem getElem?_foldl_combine [BEq α] [LawfulBEq α] {γ : Type*} (combine : Option β → γ → β) (entries : List (α × γ))
    (distinct : (entries.map (·.1)).Nodup) (map : Std.TreeMap α β cmp) (key : α) :
    (entries.foldl (fun map entry => map.insert entry.1 (combine map[entry.1]? entry.2)) map)[key]? =
      ((entries.find? (·.1 == key)).map (combine map[key]? ·.2)).or map[key]? := by
  induction entries generalizing map with
  | nil => rfl
  | cons first rest ih =>
    obtain ⟨fresh, distinct⟩ := List.nodup_cons.mp distinct
    rw [List.foldl_cons, ih distinct, List.find?_cons, Std.TreeMap.getElem?_insert]
    by_cases same : first.1 = key
    · have absent : rest.find? (·.1 == key) = none := by
        refine List.find?_eq_none.mpr fun entry listed => ?_
        rw [beq_iff_eq, ← same]
        exact fun equal => fresh (List.mem_map.mpr ⟨entry, listed, equal⟩)
      simp [absent, same]
    · simp [same, beq_false_of_ne same]

/-- The entries of a map, each combined with what its key has in another. -/
theorem getElem?_foldl_combine_toList [BEq α] [LawfulBEq α] {γ : Type*} (combine : Option β → γ → β)
    (upper : Std.TreeMap α β cmp) (lower : Std.TreeMap α γ cmp) (key : α) :
    (lower.toList.foldl (fun map entry => map.insert entry.1 (combine map[entry.1]? entry.2)) upper)[key]? =
      (lower[key]?.map (combine upper[key]?)).or upper[key]? := by
  have distinct : (lower.toList.map (·.1)).Nodup := by
    rw [Std.TreeMap.map_fst_toList_eq_keys]
    exact Std.TreeMap.nodup_keys
  rw [getElem?_foldl_combine combine lower.toList distinct, ← find?_toList lower, Option.map_map]
  rfl

/-- Entries under different keys, inserted one after another. -/
theorem getElem?_foldl_insert [BEq α] [LawfulBEq α] (entries : List (α × β)) (distinct : (entries.map (·.1)).Nodup)
    (map : Std.TreeMap α β cmp) (key : α) :
    (entries.foldl (fun map entry => map.insert entry.1 entry.2) map)[key]? =
      ((entries.find? (·.1 == key)).map (·.2)).or map[key]? :=
  getElem?_foldl_combine (fun _ value => value) entries distinct map key

/-- Entries under different keys are what a map made of them holds. -/
theorem getElem?_foldl_insert_some [BEq α] [LawfulBEq α] (entries : List (α × β))
    (distinct : (entries.map (·.1)).Nodup) {key : α} {value : β} :
    (entries.foldl (fun map entry => map.insert entry.1 entry.2) (∅ : Std.TreeMap α β cmp))[key]? = some value ↔
      (key, value) ∈ entries := by
  rw [getElem?_foldl_insert entries distinct, Std.TreeMap.getElem?_emptyc, Option.or_none]
  induction entries with
  | nil => simp
  | cons first rest ih =>
    obtain ⟨fresh, distinct⟩ := List.nodup_cons.mp distinct
    rw [List.find?_cons, List.mem_cons]
    by_cases same : first.1 = key
    · have gone : (key, value) ∉ rest := fun listed => fresh (List.mem_map.mpr ⟨(key, value), listed, same.symm⟩)
      rcases first with ⟨own, held⟩
      obtain rfl : own = key := same
      simp [gone, eq_comm]
    · have other : (key, value) ≠ first := fun equal => same (equal ▸ rfl)
      simp [beq_false_of_ne same, other, ← ih distinct]

/-- A map put over another is the one that is looked up first. -/
theorem getElem?_foldl_insert_toList [BEq α] [LawfulBEq α] (upper lower : Std.TreeMap α β cmp) (key : α) :
    (lower.toList.foldl (fun map entry => map.insert entry.1 entry.2) upper)[key]? = lower[key]?.or upper[key]? := by
  rw [getElem?_foldl_combine_toList fun _ value => value, Option.map_id']

/-- The sum over the keys of a map is the sum over its values. -/
theorem sum_keys [DecidableEq α] (map : Std.TreeMap α β cmp) (f : β → ℕ) (default : β) :
    ∑ key ∈ map.keys.toFinset, f (map[key]?.getD default) = (map.values.map f).sum := by
  rw [List.sum_toFinset _ Std.TreeMap.nodup_keys, ← Std.TreeMap.map_fst_toList_eq_keys, values_eq, List.map_map,
    List.map_map]
  congr 1
  refine List.map_congr_left fun entry member => ?_
  have found := Std.TreeMap.mem_toList_iff_getElem?_eq_some.mp member
  show f (map[entry.1]?.getD default) = f entry.2
  rw [found, Option.getD_some]

/-- The sum over keys that hold those of a map is the sum over its values, where the default counts for nothing. -/
theorem sum_superset [DecidableEq α] (map : Std.TreeMap α β cmp) (f : β → ℕ) {default : β} (nothing : f default = 0)
    {keys : Finset α} (known : map.keys.toFinset ⊆ keys) :
    ∑ key ∈ keys, f (map[key]?.getD default) = (map.values.map f).sum := by
  rw [← sum_keys map f default]
  refine (Finset.sum_subset known fun key _ other => ?_).symm
  have absent : map[key]? = none := by
    refine Std.TreeMap.getElem?_eq_none fun inside => other ?_
    rw [List.mem_toFinset, Std.TreeMap.mem_keys]
    exact inside
  rw [absent, Option.getD_none, nothing]

/-- A sum over some of the keys of a map, against the sum over all of its values. -/
theorem sum_le_sum_values [DecidableEq α] (map : Std.TreeMap α β cmp) (keys : Finset α)
    (known : ∀ key ∈ keys, key ∈ map) (f : β → ℕ) (default : β) :
    ∑ key ∈ keys, f (map[key]?.getD default) ≤ (map.values.map f).sum := by
  have inside : keys ⊆ map.keys.toFinset := by
    intro key member
    rw [List.mem_toFinset, Std.TreeMap.mem_keys]
    exact known key member
  rw [← sum_keys map f default]
  exact Finset.sum_le_sum_of_subset inside

/-- What is left when a key is taken out sums up to no more. -/
theorem sum_values_erase_le [DecidableEq α] (map : Std.TreeMap α ℕ cmp) (key : α) :
    (map.erase key).values.sum ≤ map.values.sum := by
  have left := sum_keys (map.erase key) id 0
  have kept : ∀ other ∈ (map.erase key).keys.toFinset, other ∈ map ∧ (map.erase key)[other]? = map[other]? := by
    intro other member
    rw [List.mem_toFinset, Std.TreeMap.mem_keys, Std.TreeMap.mem_erase] at member
    refine ⟨member.2, ?_⟩
    rw [Std.TreeMap.getElem?_erase, if_neg member.1]
  have below := sum_le_sum_values map (map.erase key).keys.toFinset (fun other member => (kept other member).1) id 0
  rw [List.map_id] at left below
  rw [← left]
  refine le_trans (le_of_eq (Finset.sum_congr rfl fun other member => ?_)) below
  rw [(kept other member).2]

end Maps
