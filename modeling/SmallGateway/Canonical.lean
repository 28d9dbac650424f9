import Mathlib.Data.String.Basic
import SmallGateway.Lib.Sorting
import SmallGateway.Rendering

/-!
Canonical documents (`sorted_value_any` in `gatewayctl/src/render.rs`, `deep_merge_mapping` in `gatewayset.rs`). The
entries of a mapping are sorted by the text of their keys, which makes up for any other order of them
(`sortedValue_eq_iff`), but not inside tagged values, and not between two keys that are sorted by one text: a string,
and something else that is shown as the string is. An overlay can be merged in before or after.
-/

namespace SmallGateway

namespace Yaml

/-! ### Documents up to the order of their entries -/

/-- Induction over the parts of a document. -/
@[elab_as_elim]
theorem Value.nested {motive : Value → Prop} (null : motive .null) (bool : ∀ value, motive (.bool value))
    (number : ∀ text, motive (.number text)) (string : ∀ text, motive (.string text))
    (sequence : ∀ items, (∀ item ∈ items, motive item) → motive (.sequence items))
    (mapping : ∀ entries, (∀ entry ∈ entries, motive entry.2) → motive (.mapping entries))
    (tagged : ∀ tag value, motive value → motive (.tagged tag value)) : ∀ value, motive value
  | .null => null
  | .bool value => bool value
  | .number text => number text
  | .string text => string text
  | .sequence items =>
    sequence items fun item _ => Value.nested null bool number string sequence mapping tagged item
  | .mapping entries =>
    mapping entries fun entry _ => Value.nested null bool number string sequence mapping tagged entry.2
  | .tagged tag value => tagged tag value (Value.nested null bool number string sequence mapping tagged value)
termination_by value => sizeOf value
decreasing_by
  · have := List.sizeOf_lt_of_mem ‹item ∈ items›
    simp only [Value.sequence.sizeOf_spec]
    omega
  · have := List.sizeOf_lt_of_mem ‹entry ∈ entries›
    cases entry
    simp only [Value.mapping.sizeOf_spec, Prod.mk.sizeOf_spec] at *
    omega
  · simp only [Value.tagged.sizeOf_spec]
    omega

/-- What a document turns into when entries of its mappings change places. The first parameter says which changes of
    the entries of a mapping are meant, the second whether those inside tagged values are. -/
inductive Reordered (swaps : Mapping → Mapping → Prop) (inTags : Bool) : Value → Value → Prop
  | refl (value : Value) : Reordered swaps inTags value value
  | trans {first second third : Value} (one : Reordered swaps inTags first second)
      (other : Reordered swaps inTags second third) : Reordered swaps inTags first third
  | entries {before after : Mapping} (swapped : swaps before after) :
      Reordered swaps inTags (.mapping before) (.mapping after)
  | entry (before : Mapping) (key : Key) (after : Mapping) {value other : Value}
      (inside : Reordered swaps inTags value other) :
      Reordered swaps inTags (.mapping (before ++ (key, value) :: after)) (.mapping (before ++ (key, other) :: after))
  | item (before after : List Value) {value other : Value} (inside : Reordered swaps inTags value other) :
      Reordered swaps inTags (.sequence (before ++ value :: after)) (.sequence (before ++ other :: after))
  | tagged (tag : String) {value other : Value} (counted : inTags = true)
      (inside : Reordered swaps inTags value other) :
      Reordered swaps inTags (.tagged tag value) (.tagged tag other)

/-- Equal up to the order of the entries of mappings, at any depth. -/
def Alike : Value → Value → Prop := Reordered List.Perm true

/-- The entries whose keys are sorted by this text. -/
abbrev entriesOf (text : String) (entries : Mapping) : Mapping :=
  Sorting.withKey (fun entry => entry.1.text) text entries

/-- Equal up to the order of entries that sorting tells apart. Inside tagged values, and among entries whose keys are
    sorted by one text, the order counts. -/
def Settled : Value → Value → Prop := Reordered (fun es fs => ∀ text, entriesOf text es = entriesOf text fs) false

/-! ### Sorting -/

theorem sortedItems_eq (items : List Value) : sortedItems items = items.map sortedValue := by
  induction items with
  | nil => rfl
  | cons item rest ih => rw [sortedItems, ih, List.map_cons]

theorem sortedEntries_eq (entries : Mapping) :
    sortedEntries entries = entries.map fun entry => (entry.1, sortedValue entry.2) := by
  induction entries with
  | nil => rfl
  | cons entry rest ih => rw [sortedEntries, ih, List.map_cons, sortedEntry]

theorem sortedValue_sequence (items : List Value) :
    sortedValue (.sequence items) = .sequence (items.map sortedValue) := by
  rw [sortedValue, sortedItems_eq]

theorem sortedValue_mapping (entries : Mapping) :
    sortedValue (.mapping entries) =
      .mapping (Sorting.sortBy (fun entry => entry.1.text) (sortedEntries entries)) := by
  rw [sortedValue]
  rfl

/-- Two mappings are sorted to one exactly when the entries of each sorting text are, in their order. -/
theorem sortedValue_mapping_eq_iff {es fs : Mapping} :
    sortedValue (.mapping es) = sortedValue (.mapping fs) ↔
      ∀ text, entriesOf text (sortedEntries es) = entriesOf text (sortedEntries fs) := by
  rw [sortedValue_mapping, sortedValue_mapping, Value.mapping.injEq, Sorting.sortBy_eq_iff]

theorem entriesOf_sortedEntries (text : String) (entries : Mapping) :
    entriesOf text (sortedEntries entries) = sortedEntries (entriesOf text entries) := by
  rw [sortedEntries_eq, sortedEntries_eq, entriesOf, entriesOf, Sorting.withKey, Sorting.withKey, List.filter_map]
  rfl

theorem Settled.sortedValue_eq {value other : Value} (settled : Settled value other) :
    sortedValue value = sortedValue other := by
  induction settled with
  | refl value => rfl
  | trans one other ih ihToo => exact ih.trans ihToo
  | entries swapped =>
    refine sortedValue_mapping_eq_iff.mpr fun text => ?_
    rw [entriesOf_sortedEntries, entriesOf_sortedEntries, swapped]
  | entry before key after inside ih =>
    rw [sortedValue_mapping, sortedValue_mapping, sortedEntries_eq, sortedEntries_eq]
    simp only [List.map_append, List.map_cons, ih]
  | item before after inside ih =>
    rw [sortedValue_sequence, sortedValue_sequence]
    simp only [List.map_append, List.map_cons, ih]
  | tagged tag counted inside => cases counted

/-- A document turns into its sorted form by changes that sorting tells apart. -/
theorem settled_sortedValue (value : Value) : Settled value (sortedValue value) := by
  induction value using Value.nested with
  | null => exact .refl _
  | bool value => exact .refl _
  | number text => exact .refl _
  | string text => exact .refl _
  | sequence items ih =>
    rw [sortedValue_sequence]
    -- The items are sorted one after the other.
    have from_ (before rest : List Value) (listed : ∀ item ∈ rest, item ∈ items) :
        Settled (.sequence (before ++ rest)) (.sequence (before ++ rest.map sortedValue)) := by
      induction rest generalizing before with
      | nil => exact .refl _
      | cons item rest ihRest =>
        obtain ⟨here, later⟩ := List.forall_mem_cons.mp listed
        have others := ihRest (before ++ [sortedValue item]) later
        rw [List.append_assoc, List.append_assoc] at others
        exact .trans (.item before rest (ih item here)) others
    exact from_ [] items fun _ inside => inside
  | mapping entries ih =>
    rw [sortedValue_mapping, sortedEntries_eq]
    have from_ (before rest : Mapping) (listed : ∀ entry ∈ rest, entry ∈ entries) :
        Settled (.mapping (before ++ rest))
          (.mapping (before ++ rest.map fun entry => (entry.1, sortedValue entry.2))) := by
      induction rest generalizing before with
      | nil => exact .refl _
      | cons entry rest ihRest =>
        obtain ⟨here, later⟩ := List.forall_mem_cons.mp listed
        have others := ihRest (before ++ [(entry.1, sortedValue entry.2)]) later
        rw [List.append_assoc, List.append_assoc] at others
        exact .trans (.entry before entry.1 rest (ih entry here)) others
    exact .trans (from_ [] entries fun _ inside => inside) (.entries fun text => Sorting.withKey_sortBy.symm)
  | tagged tag value ih => exact .refl _

theorem Reordered.symm {swaps : Mapping → Mapping → Prop} {inTags : Bool}
    (symmetric : ∀ {es fs}, swaps es fs → swaps fs es) {value other : Value}
    (reordered : Reordered swaps inTags value other) : Reordered swaps inTags other value := by
  induction reordered with
  | refl value => exact .refl value
  | trans one other ih ihToo => exact .trans ihToo ih
  | entries swapped => exact .entries (symmetric swapped)
  | entry before key after inside ih => exact .entry before key after ih
  | item before after inside ih => exact .item before after ih
  | tagged tag counted inside ih => exact .tagged tag counted ih

/-- Two documents are sorted to one exactly when they are equal up to the order of entries that sorting tells apart. -/
theorem sortedValue_eq_iff {value other : Value} : sortedValue value = sortedValue other ↔ Settled value other := by
  refine ⟨fun same => ?_, Settled.sortedValue_eq⟩
  have back : Settled (sortedValue other) other :=
    (settled_sortedValue other).symm fun agree text => (agree text).symm
  exact .trans (same ▸ settled_sortedValue value) back

/-- A sorted document is sorted. -/
@[simp] theorem sortedValue_idem (value : Value) : sortedValue (sortedValue value) = sortedValue value :=
  (settled_sortedValue value).sortedValue_eq.symm

/-- A document without tagged values, where the keys of each mapping are sorted by different texts. -/
inductive Plain : Value → Prop
  | null : Plain .null
  | bool (value : Bool) : Plain (.bool value)
  | number (text : String) : Plain (.number text)
  | string (text : String) : Plain (.string text)
  | sequence (items : List Value) (inside : ∀ item ∈ items, Plain item) : Plain (.sequence items)
  | mapping (entries : Mapping) (distinct : (entries.map fun entry => entry.1.text).Nodup)
      (inside : ∀ entry ∈ entries, Plain entry.2) : Plain (.mapping entries)

theorem Plain.of_sequence {items : List Value} : Plain (.sequence items) → ∀ item ∈ items, Plain item
  | .sequence _ inside => inside

theorem Plain.of_mapping {entries : Mapping} :
    Plain (.mapping entries) → (entries.map fun entry => entry.1.text).Nodup ∧ ∀ entry ∈ entries, Plain entry.2
  | .mapping _ distinct inside => ⟨distinct, inside⟩

/-- Of a plain document, sorting tells all entries apart. -/
theorem Alike.settled_of_plain {value other : Value} (alike : Alike value other) (plain : Plain value) :
    Settled value other ∧ Plain other := by
  induction alike with
  | refl value => exact ⟨.refl value, plain⟩
  | trans one more ih ihToo =>
    obtain ⟨settled, plain⟩ := ih plain
    obtain ⟨settledToo, plain⟩ := ihToo plain
    exact ⟨.trans settled settledToo, plain⟩
  | entries perm =>
    obtain ⟨distinct, inside⟩ := plain.of_mapping
    refine ⟨.entries fun text => Sorting.withKey_eq_of_perm distinct perm text, .mapping _ ?_ ?_⟩
    · exact (perm.map fun entry => entry.1.text).nodup_iff.mp distinct
    · exact fun entry listed => inside entry (perm.mem_iff.mpr listed)
  | entry before key after reordered ih =>
    obtain ⟨distinct, inside⟩ := plain.of_mapping
    obtain ⟨settled, plain⟩ := ih (inside (key, _) (by simp))
    refine ⟨.entry before key after settled, .mapping _ (by simpa using distinct) fun entry listed => ?_⟩
    rcases List.mem_append.mp listed with first | rest
    · exact inside entry (List.mem_append_left _ first)
    · rcases List.mem_cons.mp rest with rfl | last
      · exact plain
      · exact inside entry (List.mem_append_right _ (List.mem_cons_of_mem _ last))
  | item before after reordered ih =>
    have inside := plain.of_sequence
    obtain ⟨settled, plain⟩ := ih (inside _ (by simp))
    refine ⟨.item before after settled, .sequence _ fun item listed => ?_⟩
    rcases List.mem_append.mp listed with first | rest
    · exact inside item (List.mem_append_left _ first)
    · rcases List.mem_cons.mp rest with rfl | last
      · exact plain
      · exact inside item (List.mem_append_right _ (List.mem_cons_of_mem _ last))
  | tagged tag counted reordered => cases plain

/-! ### Places in a document -/

/-- One step down: to what stands under a key, to an item, or into a tagged value. -/
inductive Place where
  | key (key : Key)
  | item (i : Nat)
  | tag

/-- The part of a document that stands there. -/
def Value.at : List Place → Value → Option Value
  | [], value => some value
  | .key key :: rest, .mapping entries => (entries.lookup key).bind (Value.at rest)
  | .item i :: rest, .sequence items => items[i]?.bind (Value.at rest)
  | .tag :: rest, .tagged _ value => value.at rest
  | _, _ => none

theorem lookup_sortedEntries (entries : Mapping) (key : Key) :
    (sortedEntries entries).lookup key = (entries.lookup key).map sortedValue := by
  rw [sortedEntries_eq]
  induction entries with
  | nil => rfl
  | cons entry rest ih =>
    rw [List.map_cons, List.lookup_cons, List.lookup_cons]
    cases key == entry.1 with
    | true => rfl
    | false => exact ih

/-- What stands in a document stands in the sorted one at the same place, sorted unless it is inside a tagged value. -/
theorem sortedValue_at (places : List Place) (value : Value) :
    (sortedValue value).at places = (value.at places).map sortedValue ∨
      (sortedValue value).at places = value.at places := by
  induction places generalizing value with
  | nil => exact .inl rfl
  | cons place rest ih =>
    have within (found : Option Value) :
        (found.map sortedValue).bind (Value.at rest) = (found.bind (Value.at rest)).map sortedValue ∨
          (found.map sortedValue).bind (Value.at rest) = found.bind (Value.at rest) := by
      cases found with
      | none => exact .inl rfl
      | some part => exact ih part
    cases value with
    | mapping entries =>
      cases place with
      | key key =>
        have there : (sortedValue (.mapping entries)).at (.key key :: rest) =
            ((entries.lookup key).map sortedValue).bind (Value.at rest) := by
          rw [sortedValue_mapping, Value.at, Sorting.lookup_sortBy Key.text, lookup_sortedEntries]
        rw [there]
        exact within (entries.lookup key)
      | item i => exact .inr rfl
      | tag => exact .inr rfl
    | sequence items =>
      cases place with
      | item i =>
        have there : (sortedValue (.sequence items)).at (.item i :: rest) =
            (items[i]?.map sortedValue).bind (Value.at rest) := by
          rw [sortedValue_sequence, Value.at, List.getElem?_map]
        rw [there]
        exact within items[i]?
      | key key => exact .inr rfl
      | tag => exact .inr rfl
    | null => exact .inr rfl
    | bool value => exact .inr rfl
    | number text => exact .inr rfl
    | string text => exact .inr rfl
    | tagged tag value => exact .inr rfl

/-- A sequence has the same items in the same order, each of them sorted or left as it is. -/
theorem sortedValue_order {places : List Place} {value : Value} {items : List Value}
    (there : value.at places = some (.sequence items)) :
    (sortedValue value).at places = some (.sequence (items.map sortedValue)) ∨
      (sortedValue value).at places = some (.sequence items) := by
  rcases sortedValue_at places value with sorted | left
  · exact .inl (by rw [sorted, there, Option.map_some, sortedValue_sequence])
  · exact .inr (left.trans there)

/-! ### Overlays -/

/-- The entries of a mapping. -/
def Value.entries? : Value → Option Mapping
  | .mapping entries => some entries
  | _ => none

theorem entries?_sortedValue (value : Value) :
    (sortedValue value).entries? =
      value.entries?.map fun entries => Sorting.sortBy (fun entry => entry.1.text) (sortedEntries entries) := by
  cases value with
  | mapping entries => rw [sortedValue_mapping]; rfl
  | sequence items => rw [sortedValue_sequence]; rfl
  | null => rfl
  | bool value => rfl
  | number text => rfl
  | string text => rfl
  | tagged tag value => rfl

/-- A value of an overlay in the place of what is there, or merged into it. -/
def mergedOnto (held : Option Value) (value : Value) : Value :=
  match held.bind Value.entries?, value.entries? with
  | some child, some entries => .mapping (deepMergeMapping child entries)
  | _, _ => value

theorem mergeEntry_eq (base : Mapping) (entry : Key × Value) :
    mergeEntry base entry = insert base entry.1 (mergedOnto (base.lookup entry.1) entry.2) := by
  obtain ⟨key, value⟩ := entry
  rw [mergeEntry, mergedOnto]
  cases value with
  | mapping entries =>
    rw [mergeValue]
    cases base.lookup key with
    | none => rfl
    | some held => cases held <;> rfl
  | sequence items => cases (base.lookup key).bind Value.entries? <;> rfl
  | null => cases (base.lookup key).bind Value.entries? <;> rfl
  | bool value => cases (base.lookup key).bind Value.entries? <;> rfl
  | number text => cases (base.lookup key).bind Value.entries? <;> rfl
  | string text => cases (base.lookup key).bind Value.entries? <;> rfl
  | tagged tag value => cases (base.lookup key).bind Value.entries? <;> rfl

theorem sortedEntries_insert (base : Mapping) (key : Key) (value : Value) :
    sortedEntries (insert base key value) = insert (sortedEntries base) key (sortedValue value) := by
  induction base with
  | nil => rfl
  | cons entry rest ih =>
    obtain ⟨first, held⟩ := entry
    rw [insert, sortedEntries, sortedEntry, insert]
    split
    · rfl
    · rw [sortedEntries, sortedEntry, ih]

theorem entriesOf_insert (text : String) (base : Mapping) (key : Key) (value : Value) :
    entriesOf text (insert base key value) =
      if key.text = text then insert (entriesOf text base) key value else entriesOf text base := by
  induction base with
  | nil =>
    rw [insert, entriesOf, Sorting.withKey_cons]
    rfl
  | cons entry rest ih =>
    obtain ⟨first, held⟩ := entry
    rw [insert]
    by_cases same : first = key
    · subst same
      rw [if_pos rfl, entriesOf, Sorting.withKey_cons, entriesOf, Sorting.withKey_cons]
      by_cases own : first.text = text
      · rw [if_pos own, if_pos own, if_pos own, insert, if_pos rfl]
      · rw [if_neg own, if_neg own, if_neg own]
    · rw [if_neg same, entriesOf, Sorting.withKey_cons, entriesOf, Sorting.withKey_cons]
      have later := ih
      rw [entriesOf, entriesOf] at later
      rw [later]
      by_cases other : first.text = text
      · by_cases own : key.text = text
        · rw [if_pos other, if_pos own, if_pos own, if_pos other, insert, if_neg same]
        · rw [if_pos other, if_neg own, if_neg own, if_pos other]
      · rw [if_neg other, if_neg other]

/-- Merging keeps the sorting texts apart. -/
theorem entriesOf_deepMerge (text : String) (base overlay : Mapping) :
    entriesOf text (deepMergeMapping base overlay) =
      deepMergeMapping (entriesOf text base) (entriesOf text overlay) := by
  induction overlay generalizing base with
  | nil => rfl
  | cons entry rest ih =>
    rw [deepMergeMapping, ih, mergeEntry_eq, entriesOf_insert, entriesOf, entriesOf, entriesOf, Sorting.withKey_cons]
    by_cases own : entry.1.text = text
    · subst own
      rw [if_pos rfl, if_pos rfl, deepMergeMapping, mergeEntry_eq, Sorting.lookup_withKey Key.text]
    · rw [if_neg own, if_neg own]

/-- A value that has the same effect as an overlay as any other that is sorted to the same. -/
def Respects (value : Value) : Prop :=
  ∀ (other : Value) (held heldToo : Option Value), sortedValue value = sortedValue other →
    held.map sortedValue = heldToo.map sortedValue →
      sortedValue (mergedOnto held value) = sortedValue (mergedOnto heldToo other)

theorem deepMerge_respects {overlay : Mapping} (respect : ∀ entry ∈ overlay, Respects entry.2)
    {other base baseToo : Mapping} (same : sortedEntries overlay = sortedEntries other)
    (sameBase : sortedEntries base = sortedEntries baseToo) :
    sortedEntries (deepMergeMapping base overlay) = sortedEntries (deepMergeMapping baseToo other) := by
  induction overlay generalizing other base baseToo with
  | nil =>
    cases other with
    | nil => exact sameBase
    | cons entry rest => simp [sortedEntries_eq] at same
  | cons entry rest ih =>
    cases other with
    | nil => simp [sortedEntries_eq] at same
    | cons entryToo restToo =>
      simp only [sortedEntries_eq, List.map_cons, List.cons.injEq, Prod.mk.injEq] at same
      obtain ⟨⟨keys, values⟩, same⟩ := same
      rw [deepMergeMapping, deepMergeMapping]
      refine ih (fun entry later => respect entry (List.mem_cons_of_mem _ later)) ?_ ?_
      · rw [sortedEntries_eq, sortedEntries_eq, same]
      · rw [mergeEntry_eq, mergeEntry_eq, sortedEntries_insert, sortedEntries_insert, sameBase, keys]
        have lookups : (base.lookup entryToo.1).map sortedValue = (baseToo.lookup entryToo.1).map sortedValue := by
          rw [← lookup_sortedEntries, ← lookup_sortedEntries, sameBase]
        rw [respect entry List.mem_cons_self entryToo.2 _ _ values lookups]

theorem deepMerge_sorted {overlay : Mapping} (respect : ∀ entry ∈ overlay, Respects entry.2)
    {other base baseToo : Mapping} (same : sortedValue (.mapping overlay) = sortedValue (.mapping other))
    (sameBase : sortedValue (.mapping base) = sortedValue (.mapping baseToo)) :
    sortedValue (.mapping (deepMergeMapping base overlay)) =
      sortedValue (.mapping (deepMergeMapping baseToo other)) := by
  rw [sortedValue_mapping_eq_iff] at same sameBase ⊢
  intro text
  rw [entriesOf_sortedEntries, entriesOf_sortedEntries, entriesOf_deepMerge, entriesOf_deepMerge]
  refine deepMerge_respects (fun entry listed => respect entry (Sorting.mem_withKey.mp listed).1) ?_ ?_
  · rw [← entriesOf_sortedEntries, ← entriesOf_sortedEntries, same]
  · rw [← entriesOf_sortedEntries, ← entriesOf_sortedEntries, sameBase]

/-- A value that is merged is a mapping, and its entries are those of the overlay. -/
theorem respects_of_entries {value : Value}
    (inside : ∀ entries, value.entries? = some entries → ∀ entry ∈ entries, Respects entry.2) : Respects value := by
  intro other held heldToo same sameHeld
  have sameEntries := congrArg Value.entries? same
  rw [entries?_sortedValue, entries?_sortedValue] at sameEntries
  have under (found : Option Value) : (found.map sortedValue).bind Value.entries? =
      (found.bind Value.entries?).map fun entries =>
        Sorting.sortBy (fun entry => entry.1.text) (sortedEntries entries) := by
    cases found with
    | none => rfl
    | some value => exact entries?_sortedValue value
  have sameChild := under held
  rw [sameHeld, under] at sameChild
  unfold mergedOnto
  cases found : value.entries? with
  | none =>
    have foundToo : other.entries? = none := by simpa [found] using sameEntries.symm
    rw [foundToo]
    cases held.bind Value.entries? <;> cases heldToo.bind Value.entries? <;> exact same
  | some entries =>
    obtain ⟨entriesToo, foundToo, sorted⟩ := Option.map_eq_some_iff.mp (sameEntries.symm.trans (by rw [found]; rfl))
    rw [foundToo]
    cases child : held.bind Value.entries? with
    | none =>
      have childToo : heldToo.bind Value.entries? = none := by simpa [child] using sameChild
      rw [childToo]
      exact same
    | some base =>
      obtain ⟨baseToo, childToo, sortedBase⟩ := Option.map_eq_some_iff.mp (sameChild.trans (by rw [child]; rfl))
      rw [childToo]
      refine deepMerge_sorted (inside entries found) ?_ ?_
      · rw [sortedValue_mapping, sortedValue_mapping, sorted]
      · rw [sortedValue_mapping, sortedValue_mapping, sortedBase]

theorem respects (value : Value) : Respects value := by
  induction value using Value.nested with
  | mapping entries ih =>
    refine respects_of_entries fun others found => ?_
    obtain rfl := Option.some.inj found
    exact ih
  | null => exact respects_of_entries nofun
  | bool value => exact respects_of_entries nofun
  | number text => exact respects_of_entries nofun
  | string text => exact respects_of_entries nofun
  | sequence items ih => exact respects_of_entries nofun
  | tagged tag value ih => exact respects_of_entries nofun

/-- Merging keeps what sorting settles. -/
theorem deepMerge_settled {base baseToo overlay other : Mapping} (settled : Settled (.mapping base) (.mapping baseToo))
    (overlays : Settled (.mapping overlay) (.mapping other)) :
    Settled (.mapping (deepMergeMapping base overlay)) (.mapping (deepMergeMapping baseToo other)) :=
  sortedValue_eq_iff.mp
    (deepMerge_sorted (fun entry _ => respects entry.2) overlays.sortedValue_eq settled.sortedValue_eq)

end Yaml

/-- Two sets for the same nodes, whose overlays are equal up to the order of entries that sorting tells apart. -/
structure GatewaySet.Settled (set other : GatewaySet) : Prop where
  name : set.name = other.name
  selector : set.selector = other.selector
  overlay : Yaml.Settled (.mapping set.overlay) (.mapping other.overlay)

/-- Stamping keeps what sorting settles. -/
theorem stamp_settled {sets others : List GatewaySet} (settled : List.Forall₂ GatewaySet.Settled sets others)
    {doc docToo : Yaml.Mapping} (docs : Yaml.Settled (.mapping doc) (.mapping docToo)) (labels : Labels) :
    Yaml.Settled (.mapping (stamp sets doc labels)) (.mapping (stamp others docToo labels)) := by
  unfold stamp matchingSets
  induction settled generalizing doc docToo with
  | nil => exact docs
  | @cons set other rest restToo one _ ih =>
    rw [List.filter_cons, List.filter_cons, one.selector]
    split
    · exact ih (Yaml.deepMerge_settled docs one.overlay)
    · exact ih docs

end SmallGateway
