import SmallGateway.Canonical

/-!
What the sets of a node leave of a document (`stamp`, `deep_merge_mapping` in `gatewayctl/src/gatewayset.rs`). At each place
the last overlay counts that sets something else than a mapping there, or at a mapping above it; the mappings of the later
ones are laid over what it leaves, and over what the document has when there is no such overlay. Stamping once more with the
same sets changes nothing (`stamp_places`).
-/

namespace SmallGateway

namespace Yaml

/-! ### Places -/

/-- What stands at the end of a path of keys. -/
def under : List Key → Value → Option Value
  | [], value => some value
  | key :: rest, .mapping entries => (entries.lookup key).bind (under rest)
  | _ :: _, _ => none

/-- What an overlay puts at a place in the stead of what is there: a value that is not a mapping, or nothing where it sets
    such a value above the place. None when it leaves the place, or merges into it. -/
def replacement : List Key → Value → Option (Option Value)
  | [], .mapping _ => none
  | [], value => some (some value)
  | key :: rest, .mapping entries => (entries.lookup key).bind (replacement rest)
  | _ :: _, _ => some none

/-- The mappings that overlays have at a place, merged in order over what is held there. -/
def laidOver (path : List Key) (overlays : List Value) (held : Option Value) : Option Value :=
  (overlays.filterMap fun overlay => (under path overlay).bind Value.entries?).foldl
    (fun held entries => some (mergedOnto held (.mapping entries))) held

/-- The keys of each mapping are different. -/
inductive Keyed : Value → Prop
  | null : Keyed .null
  | bool (value : Bool) : Keyed (.bool value)
  | number (text : String) : Keyed (.number text)
  | string (text : String) : Keyed (.string text)
  | sequence (items : List Value) (inside : ∀ item ∈ items, Keyed item) : Keyed (.sequence items)
  | mapping (entries : Mapping) (distinct : (entries.map (·.1)).Nodup) (inside : ∀ entry ∈ entries, Keyed entry.2) :
      Keyed (.mapping entries)
  | tagged (tag : String) {value : Value} (inside : Keyed value) : Keyed (.tagged tag value)

theorem Keyed.of_mapping {entries : Mapping} :
    Keyed (.mapping entries) → (entries.map (·.1)).Nodup ∧ ∀ entry ∈ entries, Keyed entry.2
  | .mapping _ distinct inside => ⟨distinct, inside⟩

theorem lookup_mem {entries : Mapping} {key : Key} {value : Value} (found : entries.lookup key = some value) :
    (key, value) ∈ entries := by
  obtain ⟨before, after, rfl, -⟩ := List.lookup_eq_some_iff.mp found
  exact List.mem_append_right _ List.mem_cons_self

theorem Keyed.of_lookup {entries : Mapping} {key : Key} {value : Value} (keyed : Keyed (.mapping entries))
    (found : entries.lookup key = some value) : Keyed value := keyed.of_mapping.2 _ (lookup_mem found)

/-! ### Values under one key -/

/-- The values of a key, one after the other, over what is held. -/
def laid (held : Option Value) (values : List Value) : Option Value :=
  values.foldl (fun held value => some (mergedOnto held value)) held

/-- The values of the entries of a key. -/
def valuesOf (key : Key) (entries : Mapping) : List Value := (entries.filter fun entry => entry.1 = key).map (·.2)

theorem lookup_cons_eq (first key : Key) (value : Value) (rest : Mapping) :
    ((first, value) :: rest).lookup key = if key = first then some value else rest.lookup key := by
  rw [List.lookup_cons]
  by_cases same : key = first
  · rw [if_pos same, beq_iff_eq.mpr same]
  · rw [if_neg same, beq_eq_false_iff_ne.mpr same]

theorem lookup_insert (entries : Mapping) (key other : Key) (value : Value) :
    (insert entries key value).lookup other = if other = key then some value else entries.lookup other := by
  induction entries with
  | nil => rw [insert, lookup_cons_eq]
  | cons entry rest ih =>
    obtain ⟨first, held⟩ := entry
    rw [insert]
    by_cases here : first = key
    · rw [if_pos here, lookup_cons_eq, lookup_cons_eq, here]
      split <;> rfl
    · rw [if_neg here, lookup_cons_eq, lookup_cons_eq, ih]
      by_cases same : other = first
      · rw [if_pos same, if_pos same, if_neg (same ▸ here)]
      · rw [if_neg same, if_neg same]

theorem valuesOf_cons (first key : Key) (value : Value) (rest : Mapping) :
    valuesOf key ((first, value) :: rest) = if key = first then value :: valuesOf key rest else valuesOf key rest := by
  rw [valuesOf, List.filter_cons]
  by_cases same : key = first
  · simp [same, valuesOf]
  · simp [same, Ne.symm same, valuesOf]

theorem lookup_deepMerge (doc entries : Mapping) (key : Key) :
    (deepMergeMapping doc entries).lookup key = laid (doc.lookup key) (valuesOf key entries) := by
  induction entries generalizing doc with
  | nil => rw [deepMergeMapping]; rfl
  | cons entry rest ih =>
    obtain ⟨first, value⟩ := entry
    rw [deepMergeMapping, ih, mergeEntry_eq, lookup_insert, valuesOf_cons]
    by_cases same : key = first
    · rw [if_pos same, if_pos same, same]
      rfl
    · rw [if_neg same, if_neg same]

theorem valuesOf_distinct {entries : Mapping} (distinct : (entries.map (·.1)).Nodup) (key : Key) :
    valuesOf key entries = (entries.lookup key).toList := by
  induction entries with
  | nil => rfl
  | cons entry rest ih =>
    obtain ⟨first, value⟩ := entry
    obtain ⟨fresh, later⟩ := List.nodup_cons.mp distinct
    rw [lookup_cons_eq, valuesOf_cons, ih later]
    by_cases same : key = first
    · have none : rest.lookup key = none := by
        rw [List.lookup_eq_none_iff]
        intro entry listed
        have other : key ≠ entry.1 := fun named =>
          fresh (List.mem_map.mpr ⟨entry, listed, named.symm.trans same⟩)
        simpa using other
      rw [if_pos same, if_pos same, none]
      rfl
    · rw [if_neg same, if_neg same]

/-! ### One overlay at a place -/

theorem entries?_eq_some {value : Value} {entries : Mapping} : value.entries? = some entries ↔ value = .mapping entries := by
  cases value <;> simp [Value.entries?]

theorem mergedOnto_of_none {held : Option Value} (other : held.bind Value.entries? = none) (value : Value) :
    mergedOnto held value = value := by
  rw [mergedOnto, other]

theorem mergedOnto_mapping {held : Option Value} {child : Mapping} (inside : held.bind Value.entries? = some child)
    (entries : Mapping) : mergedOnto held (.mapping entries) = .mapping (deepMergeMapping child entries) := by
  rw [mergedOnto, inside]
  rfl

theorem mergedOnto_other {value : Value} (other : value.entries? = none) (held : Option Value) :
    mergedOnto held value = value := by
  rw [mergedOnto, other]
  cases held.bind Value.entries? <;> rfl

theorem under_other {value : Value} (other : value.entries? = none) (key : Key) (rest : List Key) :
    under (key :: rest) value = none ∧ replacement (key :: rest) value = some none := by
  cases value with
  | mapping entries => cases other
  | _ => exact ⟨rfl, rfl⟩

/-- What stands under a key of a value. -/
def lower (held : Option Value) (key : Key) : Option Value := (held.bind Value.entries?).bind (·.lookup key)

theorem bind_under_cons (held : Option Value) (key : Key) (rest : List Key) :
    held.bind (under (key :: rest)) = (lower held key).bind (under rest) := by
  cases held with
  | none => rfl
  | some value =>
    cases inside : value.entries? with
    | none => simp [(under_other inside key rest).1, lower, inside]
    | some entries =>
      obtain rfl := entries?_eq_some.mp inside
      rfl

/-- What stands under a key after a merge. -/
theorem lower_mergedOnto {entries : Mapping} (keyed : Keyed (.mapping entries)) (held : Option Value) (key : Key) :
    lower (some (mergedOnto held (.mapping entries))) key =
      (entries.lookup key).elim (lower held key) fun value => some (mergedOnto (lower held key) value) := by
  cases base : held.bind Value.entries? with
  | none =>
    have empty : lower held key = none := by rw [lower, base]; rfl
    rw [mergedOnto_of_none base, empty]
    change entries.lookup key = _
    cases entries.lookup key <;> rfl
  | some child =>
    have held_ : lower held key = child.lookup key := by rw [lower, base]; rfl
    rw [mergedOnto_mapping base, held_]
    change (deepMergeMapping child entries).lookup key = _
    rw [lookup_deepMerge, valuesOf_distinct keyed.of_mapping.1]
    cases entries.lookup key <;> rfl

theorem laidOver_singleton (path : List Key) (overlay : Value) (held : Option Value) :
    laidOver path [overlay] held = ((under path overlay).bind Value.entries?).elim held fun entries =>
      some (mergedOnto held (.mapping entries)) := by
  cases here : (under path overlay).bind Value.entries? <;> simp [laidOver, here]

/-- What an overlay leaves at a place. -/
theorem under_mergedOnto {value : Value} (keyed : Keyed value) (held : Option Value) (path : List Key) :
    under path (mergedOnto held value) =
      (replacement path value).getD (laidOver path [value] (held.bind (under path))) := by
  induction path generalizing value held with
  | nil =>
    cases inside : value.entries? with
    | none =>
      rw [mergedOnto_other inside]
      cases value with
      | mapping entries => cases inside
      | _ => rfl
    | some entries =>
      obtain rfl := entries?_eq_some.mp inside
      have same : held.bind (under []) = held := by cases held <;> rfl
      rw [same]
      rfl
  | cons key rest ih =>
    cases inside : value.entries? with
    | none =>
      rw [mergedOnto_other inside, (under_other inside key rest).1, (under_other inside key rest).2]
      rfl
    | some entries =>
      obtain rfl := entries?_eq_some.mp inside
      have whole : under (key :: rest) (mergedOnto held (.mapping entries)) =
          (lower (some (mergedOnto held (.mapping entries))) key).bind (under rest) := bind_under_cons (some _) key rest
      rw [whole, lower_mergedOnto keyed, bind_under_cons, replacement]
      cases found : entries.lookup key with
      | none =>
        have absent : under (key :: rest) (.mapping entries) = none := by rw [under, found]; rfl
        simp [laidOver, absent]
      | some below =>
        have there : under (key :: rest) (.mapping entries) = under rest below := by rw [under, found]; rfl
        have lowerPlaces : laidOver (key :: rest) [.mapping entries] ((lower held key).bind (under rest)) =
            laidOver rest [below] ((lower held key).bind (under rest)) := by
          rw [laidOver_singleton, laidOver_singleton, there]
        rw [lowerPlaces]
        exact ih (keyed.of_lookup found) (lower held key)

/-! ### All overlays at a place -/

theorem laidOver_cons (path : List Key) (overlay : Value) (overlays : List Value) (held : Option Value) :
    laidOver path (overlay :: overlays) held = laidOver path overlays (laidOver path [overlay] held) := by
  cases here : (under path overlay).bind Value.entries? <;> simp [laidOver, here]

variable {overlays : List Value}

/-- Where no overlay replaces, the mappings of all of them are laid over what is there. -/
theorem under_laid (keyed : ∀ overlay ∈ overlays, Keyed overlay) {path : List Key}
    (left : ∀ overlay ∈ overlays, replacement path overlay = none) (held : Option Value) :
    (laid held overlays).bind (under path) = laidOver path overlays (held.bind (under path)) := by
  induction overlays generalizing held with
  | nil => rfl
  | cons overlay rest ih =>
    obtain ⟨own, others⟩ := List.forall_mem_cons.mp keyed
    obtain ⟨here, later⟩ := List.forall_mem_cons.mp left
    have step := ih others later (some (mergedOnto held overlay))
    rw [Option.bind_some, under_mergedOnto own, here, Option.getD_none, ← laidOver_cons] at step
    exact step

/-- After an overlay that replaces, only the mappings of the later ones count. -/
theorem under_laid_replaced {before after : List Value} {overlay : Value} {path : List Key} {value : Option Value}
    (keyed : ∀ other ∈ before ++ overlay :: after, Keyed other) (replaced : replacement path overlay = some value)
    (left : ∀ later ∈ after, replacement path later = none) (held : Option Value) :
    (laid held (before ++ overlay :: after)).bind (under path) = laidOver path after value := by
  have own := keyed overlay (List.mem_append_right _ List.mem_cons_self)
  have others : ∀ later ∈ after, Keyed later := fun later listed =>
    keyed later (List.mem_append_right _ (List.mem_cons_of_mem _ listed))
  have step := under_laid others left (some (mergedOnto (laid held before) overlay))
  rw [Option.bind_some, under_mergedOnto own, replaced, Option.getD_some] at step
  rw [laid, List.foldl_append]
  exact step

/-! ### Merging once more -/

theorem keys_insert (entries : Mapping) (key : Key) (value : Value) :
    (insert entries key value).map (·.1) =
      if key ∈ entries.map (·.1) then entries.map (·.1) else entries.map (·.1) ++ [key] := by
  induction entries with
  | nil => rfl
  | cons entry rest ih =>
    obtain ⟨first, held⟩ := entry
    rw [insert]
    by_cases same : first = key
    · simp [same]
    · rw [if_neg same, List.map_cons, ih]
      by_cases later : key ∈ rest.map (·.1)
      · have known : key ∈ ((first, held) :: rest).map (·.1) := List.mem_cons_of_mem _ later
        rw [if_pos later, if_pos known]
        rfl
      · have absent : key ∉ ((first, held) :: rest).map (·.1) := by
          rw [List.map_cons, List.mem_cons]
          exact fun listed => listed.elim (fun named => same named.symm) later
        rw [if_neg later, if_neg absent]
        rfl

theorem keys_deepMerge_of_subset {doc entries : Mapping} (known : ∀ entry ∈ entries, entry.1 ∈ doc.map (·.1)) :
    (deepMergeMapping doc entries).map (·.1) = doc.map (·.1) := by
  induction entries generalizing doc with
  | nil => rfl
  | cons entry rest ih =>
    obtain ⟨here, later⟩ := List.forall_mem_cons.mp known
    have kept : (mergeEntry doc entry).map (·.1) = doc.map (·.1) := by rw [mergeEntry_eq, keys_insert, if_pos here]
    rw [deepMergeMapping, ih fun other listed => kept ▸ later other listed, kept]

/-- The keys of a merge: different, those of the document, and those of the overlay. -/
theorem keys_deepMerge (doc entries : Mapping) (distinct : (doc.map (·.1)).Nodup) :
    ((deepMergeMapping doc entries).map (·.1)).Nodup ∧
      (∀ key ∈ doc.map (·.1), key ∈ (deepMergeMapping doc entries).map (·.1)) ∧
      ∀ entry ∈ entries, entry.1 ∈ (deepMergeMapping doc entries).map (·.1) := by
  induction entries generalizing doc with
  | nil => exact ⟨distinct, fun _ listed => listed, by simp⟩
  | cons entry rest ih =>
    have step : ((mergeEntry doc entry).map (·.1)).Nodup ∧ (∀ key ∈ doc.map (·.1), key ∈ (mergeEntry doc entry).map (·.1)) ∧
        entry.1 ∈ (mergeEntry doc entry).map (·.1) := by
      rw [mergeEntry_eq, keys_insert]
      split
      case isTrue known => exact ⟨distinct, fun _ listed => listed, known⟩
      case isFalse fresh =>
        refine ⟨?_, fun key listed => List.mem_append_left _ listed, List.mem_append_right _ (List.mem_singleton_self _)⟩
        exact List.nodup_append.mpr ⟨distinct, List.nodup_singleton _, fun key listed other single same =>
          fresh (List.mem_singleton.mp single ▸ same ▸ listed)⟩
    obtain ⟨kept, old, new⟩ := ih _ step.1
    rw [deepMergeMapping]
    refine ⟨kept, fun key listed => old key (step.2.1 key listed), fun other listed => ?_⟩
    rcases List.mem_cons.mp listed with rfl | later
    · exact old _ step.2.2
    · exact new other later

/-- Two mappings with the same keys in order, and the same under each, are equal. -/
theorem ext_of_lookup {entries others : Mapping} (keys : entries.map (·.1) = others.map (·.1))
    (distinct : (entries.map (·.1)).Nodup) (same : ∀ key ∈ entries.map (·.1), entries.lookup key = others.lookup key) :
    entries = others := by
  induction entries generalizing others with
  | nil => exact (List.map_eq_nil_iff.mp keys.symm).symm
  | cons entry rest ih =>
    cases others with
    | nil => cases keys
    | cons other more =>
      obtain ⟨first, value⟩ := entry
      obtain ⟨firstToo, valueToo⟩ := other
      obtain ⟨rfl, later⟩ := List.cons.inj keys
      obtain ⟨fresh, distinct⟩ := List.nodup_cons.mp distinct
      have here := same first List.mem_cons_self
      rw [lookup_cons_eq, lookup_cons_eq, if_pos rfl, if_pos rfl] at here
      rw [Option.some.inj here, ih later distinct fun key listed => ?_]
      have below := same key (List.mem_cons_of_mem _ listed)
      have other : key ≠ first := fun named => fresh (named ▸ listed)
      rwa [lookup_cons_eq, lookup_cons_eq, if_neg other, if_neg other] at below

theorem lookup_eq_none {entries : Mapping} {key : Key} (absent : key ∉ entries.map (·.1)) : entries.lookup key = none := by
  refine List.lookup_eq_none_iff.mpr fun entry listed => ?_
  have other : key ≠ entry.1 := fun named => absent (named ▸ List.mem_map_of_mem listed)
  simpa using other

theorem insert_absent {entries : Mapping} {key : Key} (absent : key ∉ entries.map (·.1)) (value : Value) :
    insert entries key value = entries ++ [(key, value)] := by
  induction entries with
  | nil => rfl
  | cons entry rest ih =>
    obtain ⟨other, later⟩ := not_or.mp (mt List.mem_cons.mpr absent)
    rw [insert, if_neg (Ne.symm other), ih later]
    rfl

/-- A mapping that is merged into a document without its keys is put after it. -/
theorem deepMerge_disjoint {doc entries : Mapping} (distinct : ((doc ++ entries).map (·.1)).Nodup) :
    deepMergeMapping doc entries = doc ++ entries := by
  induction entries generalizing doc with
  | nil => rw [deepMergeMapping, List.append_nil]
  | cons entry rest ih =>
    have absent : entry.1 ∉ doc.map (·.1) := by
      rw [List.map_append, List.map_cons] at distinct
      exact fun listed => (List.nodup_append.mp distinct).2.2 _ listed _ List.mem_cons_self rfl
    have put : mergeEntry doc entry = doc ++ [entry] := by
      rw [mergeEntry_eq, lookup_eq_none absent, mergedOnto_of_none rfl, insert_absent absent]
    rw [deepMergeMapping, put, ih (by simpa using distinct), List.append_assoc]
    rfl

theorem deepMerge_append (doc first second : Mapping) :
    deepMergeMapping doc (first ++ second) = deepMergeMapping (deepMergeMapping doc first) second := by
  induction first generalizing doc with
  | nil => rfl
  | cons entry rest ih => rw [List.cons_append, deepMergeMapping, ih, deepMergeMapping]

/-- Mappings alone are merged into the mapping that is there, or into an empty one. -/
theorem laid_mappings {first : Mapping} {mappings : List Mapping} (keyed : Keyed (.mapping first)) (held : Option Value) :
    laid held ((first :: mappings).map .mapping) =
      some (.mapping (deepMergeMapping ((held.bind Value.entries?).getD []) (first :: mappings).flatten)) := by
  have run (child : Mapping) : laid (some (.mapping child)) (mappings.map .mapping) =
      some (.mapping (deepMergeMapping child mappings.flatten)) := by
    induction mappings generalizing child with
    | nil => rfl
    | cons next rest ih =>
      have step : mergedOnto (some (.mapping child)) (.mapping next) = .mapping (deepMergeMapping child next) :=
        mergedOnto_mapping rfl next
      have further := ih (deepMergeMapping child next)
      rw [List.map_cons, laid, List.foldl_cons, step, List.flatten_cons, deepMerge_append]
      exact further
  have start : mergedOnto held (.mapping first) =
      .mapping (deepMergeMapping ((held.bind Value.entries?).getD []) first) := by
    cases base : held.bind Value.entries? with
    | none =>
      have alone : deepMergeMapping [] first = first := deepMerge_disjoint keyed.of_mapping.1
      rw [mergedOnto_of_none base, Option.getD_none, alone]
    | some child => rw [mergedOnto_mapping base, Option.getD_some]
  rw [List.map_cons, laid, List.foldl_cons, start, List.flatten_cons, deepMerge_append]
  exact run _

/-- Merging once more changes nothing, when it does not for the values of each key. -/
theorem deepMerge_again {doc entries : Mapping} (keyed : Keyed (.mapping doc))
    (each : ∀ key held, (∀ value ∈ held, Keyed value) →
      laid (laid held (valuesOf key entries)) (valuesOf key entries) = laid held (valuesOf key entries)) :
    deepMergeMapping (deepMergeMapping doc entries) entries = deepMergeMapping doc entries := by
  obtain ⟨distinct, -, known⟩ := keys_deepMerge doc entries keyed.of_mapping.1
  have keys := keys_deepMerge_of_subset known
  refine ext_of_lookup keys (keys ▸ distinct) fun key _ => ?_
  rw [lookup_deepMerge, lookup_deepMerge]
  exact each key _ fun value found => keyed.of_lookup found

theorem mappings_or_other (values : List Value) : (∃ mappings : List Mapping, values = mappings.map .mapping) ∨
    ∃ before value after, values = before ++ value :: after ∧ value.entries? = none := by
  induction values with
  | nil => exact .inl ⟨[], rfl⟩
  | cons first rest ih =>
    cases inside : first.entries? with
    | none => exact .inr ⟨[], first, rest, rfl, inside⟩
    | some entries =>
      obtain rfl := entries?_eq_some.mp inside
      rcases ih with ⟨mappings, rfl⟩ | ⟨before, value, after, rfl, other⟩
      · exact .inl ⟨entries :: mappings, rfl⟩
      · exact .inr ⟨.mapping entries :: before, value, after, rfl, other⟩

/-- Values that have been laid over what is held change nothing when they are laid over it again. -/
theorem laid_again {values : List Value} (keyed : ∀ value ∈ values, Keyed value) {held : Option Value}
    (keyedHeld : ∀ value ∈ held, Keyed value) : laid (laid held values) values = laid held values := by
  obtain ⟨bound, small⟩ : ∃ bound, ∀ value ∈ values, sizeOf value < bound :=
    ⟨sizeOf values, fun value listed => List.sizeOf_lt_of_mem listed⟩
  -- By the sizes of the values: those under a key of theirs are smaller.
  induction bound generalizing values held with
  | zero =>
    cases values with
    | nil => rfl
    | cons value rest => exact absurd (small value List.mem_cons_self) (Nat.not_lt_zero _)
  | succ bound ih =>
    rcases mappings_or_other values with ⟨mappings, rfl⟩ | ⟨before, value, after, rfl, other⟩
    · cases mappings with
      | nil => rfl
      | cons first rest =>
        have own : Keyed (.mapping first) := keyed _ List.mem_cons_self
        have base : Keyed (.mapping ((held.bind Value.entries?).getD [])) := by
          cases inside : held.bind Value.entries? with
          | none => exact .mapping [] List.nodup_nil (by simp)
          | some child =>
            obtain ⟨value, is, entries⟩ := Option.bind_eq_some_iff.mp inside
            exact entries?_eq_some.mp entries ▸ keyedHeld value is
        have again := @deepMerge_again _ (first :: rest).flatten base fun key held keyedHeld => ?_
        · rw [laid_mappings own, laid_mappings own]
          exact congrArg (fun entries => some (Value.mapping entries)) again
        · have inside : ∀ value ∈ valuesOf key (first :: rest).flatten, Keyed value ∧ sizeOf value < bound := by
            intro value listed
            obtain ⟨entry, among, rfl⟩ := List.mem_map.mp listed
            obtain ⟨entries, one, entryIn⟩ := List.mem_flatten.mp (List.mem_of_mem_filter among)
            have outer := small _ (List.mem_map_of_mem one)
            have inner := List.sizeOf_lt_of_mem entryIn
            refine ⟨(keyed _ (List.mem_map_of_mem one)).of_mapping.2 entry entryIn, ?_⟩
            cases entry
            simp only [Value.mapping.sizeOf_spec, Prod.mk.sizeOf_spec] at outer inner ⊢
            omega
          exact ih (fun value listed => (inside value listed).1) keyedHeld fun value listed => (inside value listed).2
    · have same (held : Option Value) : laid held (before ++ value :: after) = laid (some value) after := by
        rw [laid, List.foldl_append, List.foldl_cons, mergedOnto_other other]
        rfl
      rw [same, same]

end Yaml

/-! ### The sets of a node -/

open Yaml (Mapping Key Value Keyed under replacement laidOver)

/-- What the overlays of a node leave of a document, at every place. -/
structure Stamped (overlays : List Value) (doc result : Value) : Prop where
  replaced : ∀ (path : List Key) (before : List Value) (overlay : Value) (after : List Value) (value : Option Value),
    overlays = before ++ overlay :: after → replacement path overlay = some value →
      (∀ later ∈ after, replacement path later = none) → under path result = laidOver path after value
  merged : ∀ path : List Key, (∀ overlay ∈ overlays, replacement path overlay = none) →
    under path result = laidOver path overlays (under path doc)
  untouched : ∀ path : List Key, (∀ overlay ∈ overlays, replacement path overlay = none ∧ under path overlay = none) →
    under path result = under path doc

/-- The overlays of the sets that match. -/
def overlaysOf (sets : List GatewaySet) (labels : Labels) : List Value :=
  (matchingSets sets labels).map fun set => .mapping set.overlay

theorem stamp_laid (sets : List GatewaySet) (doc : Mapping) (labels : Labels) :
    Yaml.laid (some (.mapping doc)) (overlaysOf sets labels) = some (.mapping (stamp sets doc labels)) := by
  rw [overlaysOf, stamp]
  induction matchingSets sets labels generalizing doc with
  | nil => rfl
  | cons set rest ih =>
    have step : Yaml.mergedOnto (some (.mapping doc)) (.mapping set.overlay) =
        .mapping (deepMergeMapping doc set.overlay) := Yaml.mergedOnto_mapping rfl set.overlay
    have further := ih (deepMergeMapping doc set.overlay)
    rw [List.map_cons, Yaml.laid, List.foldl_cons, step, List.foldl_cons]
    exact further

/-- Every place of a stamped document has what the last overlay that replaces there leaves, with the mappings of the later
    ones laid over it, or of all over what the document has; and stamping it again changes nothing. -/
theorem stamp_places (sets : List GatewaySet) (doc : Mapping) (labels : Labels) (keyed : Keyed (.mapping doc))
    (keyedSets : ∀ set ∈ sets, Keyed (.mapping set.overlay)) :
    Stamped (overlaysOf sets labels) (.mapping doc) (.mapping (stamp sets doc labels)) ∧
      stamp sets (stamp sets doc labels) labels = stamp sets doc labels := by
  have laid := stamp_laid sets doc labels
  have own : ∀ overlay ∈ overlaysOf sets labels, Keyed overlay := by
    intro overlay listed
    obtain ⟨set, matching, rfl⟩ := List.mem_map.mp listed
    exact keyedSets set (List.mem_of_mem_filter matching)
  have merged : ∀ path : List Key, (∀ overlay ∈ overlaysOf sets labels, replacement path overlay = none) →
      under path (.mapping (stamp sets doc labels)) =
        laidOver path (overlaysOf sets labels) (under path (.mapping doc)) := by
    intro path left
    have places := Yaml.under_laid own left (some (.mapping doc))
    rwa [laid] at places
  refine ⟨⟨fun path before overlay after value split replaced left => ?_, merged, fun path silent => ?_⟩, ?_⟩
  · have places := Yaml.under_laid_replaced (split ▸ own) replaced left (some (.mapping doc))
    rwa [← split, laid] at places
  · rw [merged path fun overlay listed => (silent overlay listed).1, laidOver, List.filterMap_eq_nil_iff.mpr]
    · rfl
    · intro overlay listed
      rw [(silent overlay listed).2]
      rfl
  · have again := Yaml.laid_again own fun value (held : value ∈ some (Value.mapping doc)) =>
      Option.some.inj held ▸ keyed
    rw [laid, stamp_laid] at again
    exact Value.mapping.inj (Option.some.inj again)

/-! ### A mapping that is replaced and comes back -/

/-- A document with a mapping in a mapping. -/
def nestedDoc : Mapping := [(.string "x", .mapping [(.string "c", .mapping [(.string "z", .number "0")])])]

/-- A set that puts a number in the place of the outer mapping, and one that puts the two mappings back. -/
def resettingSets : List GatewaySet :=
  [⟨"a", ⟨[]⟩, [(.string "x", .number "7")]⟩,
    ⟨"b", ⟨[]⟩, [(.string "x", .mapping [(.string "c", .mapping [(.string "d", .number "1")])])]⟩]

theorem Yaml.Keyed.single (key : Key) {value : Value} (inside : Keyed value) : Keyed (.mapping [(key, value)]) :=
  .mapping _ (List.nodup_singleton key) (by simpa using inside)

theorem nestedDoc_keyed : Keyed (.mapping nestedDoc) := .single _ (.single _ (.single _ (.number "0")))

theorem resettingSets_keyed : ∀ set ∈ resettingSets, Keyed (.mapping set.overlay) := by
  intro set listed
  simp only [resettingSets, List.mem_cons, List.not_mem_nil, or_false] at listed
  rcases listed with rfl | rfl
  · exact .single _ (.number "7")
  · exact .single _ (.single _ (.single _ (.number "1")))

/-- The inner mapping is the one of the second set alone. -/
theorem reset_place :
    under [.string "x", .string "c"] (.mapping (stamp resettingSets nestedDoc ∅)) =
        some (.mapping [(.string "d", .number "1")]) ∧
      stamp resettingSets (stamp resettingSets nestedDoc ∅) ∅ = stamp resettingSets nestedDoc ∅ := by
  obtain ⟨places, again⟩ := stamp_places resettingSets nestedDoc ∅ nestedDoc_keyed resettingSets_keyed
  exact ⟨places.replaced _ [] _ _ none rfl rfl (by decide), again⟩

/-- All sets that name the inner mapping set a mapping there, and still the one of the document is gone. -/
theorem nested_base_is_dropped :
    ¬ ∀ (sets : List GatewaySet) (doc : Mapping) (labels : Labels) (path : List Key),
      Keyed (.mapping doc) → (∀ set ∈ sets, Keyed (.mapping set.overlay)) →
        (under path (.mapping (stamp sets doc labels))).isSome = true →
          (∀ overlay ∈ overlaysOf sets labels, ∀ value, under path overlay = some value → value.entries?.isSome = true) →
            under path (.mapping (stamp sets doc labels)) =
              laidOver path (overlaysOf sets labels) (under path (.mapping doc)) := by
  intro claimed
  have same := claimed resettingSets nestedDoc ∅ [.string "x", .string "c"] nestedDoc_keyed resettingSets_keyed rfl
    fun overlay listed value there => ?_
  · have sizes := congrArg (fun value => (value.bind Value.entries?).map List.length) same
    exact absurd sizes (by decide)
  · have overlays : overlaysOf resettingSets ∅ = [.mapping [(.string "x", .number "7")],
        .mapping [(.string "x", .mapping [(.string "c", .mapping [(.string "d", .number "1")])])]] := rfl
    rw [overlays, List.mem_cons, List.mem_singleton] at listed
    rcases listed with rfl | rfl
    · cases there
    · obtain rfl := Option.some.inj there
      rfl

end SmallGateway
