import Mathlib.Data.String.Basic
import SmallGateway.GatewaySets
import SmallGateway.Lib.Fallible
import SmallGateway.Lib.Sorting

/-!
The waves of a plan share out the nodes of a fleet (`WavePlan::assign`, `wave_index_for` in `gatewayctl/src/waves.rs`).
The rollout puts all connected nodes in waves at once, and the reconciler computes the place of one node's wave from its
labels alone. Under every plan that is read from `waves.yaml` the two agree: each node is in one assigned wave, which
stands at that place and has the name that the reconciler looks the wave's commit up by, in whatever order the nodes
come (`assign_partitions`).
-/

namespace SmallGateway

namespace WavePlan

/-- The ids of the nodes that belong to a place of the plan, in order. -/
def bucket (plan : WavePlan) (nodes : List (String × Labels)) (place : Option Nat) : List String :=
  ((nodes.insertionSort fun a b => a.1 ≤ b.1).filter fun node => plan.position node.2 == place).map (·.1)

/-- The assigned waves share out the nodes. Every configured wave is there, in order, and the implicit final wave when
    some node matches none of them. A node is in the wave at the place of its labels, once, and in no other. The place is
    that of the first wave whose selector matches, and the wave there has the name that is looked up for the labels. -/
structure Partitions (plan : WavePlan) (nodes : List (String × Labels)) (assigned : List AssignedWave) : Prop where
  names : assigned.map (·.name) = plan.waves.map (·.name) ++
    if nodes.all fun node => plan.waves.any (·.selector.matches node.2) then [] else [implicitFinalWave]
  distinct : (assigned.map (·.name)).Nodup
  placed : ∀ node ∈ nodes, ∀ i, (∃ wave, assigned[i]? = some wave ∧ node.1 ∈ wave.nodeIds) ↔ i = plan.waveIndexFor node.2
  once : ∀ wave ∈ assigned, wave.nodeIds.Nodup
  known : ∀ wave ∈ assigned, ∀ id ∈ wave.nodeIds, id ∈ nodes.map (·.1)
  earliest : ∀ node ∈ nodes, ∀ i wave, plan.waves[i]? = some wave →
    (i < plan.waveIndexFor node.2 → wave.selector.matches node.2 = false) ∧
      (i = plan.waveIndexFor node.2 → wave.selector.matches node.2 = true)
  named : ∀ node ∈ nodes, (assigned[plan.waveIndexFor node.2]?).map (·.name) = some (plan.waveNameFor node.2)

variable {plan : WavePlan} {nodes : List (String × Labels)} {labels : Labels}

/-! ### Places -/

theorem position_eq_some_iff {place : Nat} :
    plan.position labels = some place ↔ plan.waveIndexFor labels = place ∧ place < plan.waves.length := by
  unfold waveIndexFor
  cases found : plan.position labels with
  | none =>
    simp only [Option.getD_none, reduceCtorEq, false_iff, not_and]
    omega
  | some first =>
    have inside := (List.findIdx?_eq_some_iff_getElem.mp found).1
    simp only [Option.some.injEq, Option.getD_some]
    exact ⟨fun same => ⟨same, same ▸ inside⟩, fun same => same.1⟩

theorem position_eq_none_iff : plan.position labels = none ↔ plan.waveIndexFor labels = plan.waves.length := by
  unfold waveIndexFor
  cases found : plan.position labels with
  | none => simp
  | some first =>
    have inside := (List.findIdx?_eq_some_iff_getElem.mp found).1
    simp only [reduceCtorEq, Option.getD_some, false_iff]
    omega

theorem position_isSome : (plan.position labels).isSome = plan.waves.any (·.selector.matches labels) :=
  List.findIdx?_isSome

/-- The place of a node's wave is that of the first wave whose selector matches. -/
theorem waveIndexFor_earliest {i : Nat} {wave : Wave} (there : plan.waves[i]? = some wave) :
    (i < plan.waveIndexFor labels → wave.selector.matches labels = false) ∧
      (i = plan.waveIndexFor labels → wave.selector.matches labels = true) := by
  obtain ⟨inside, rfl⟩ := List.getElem?_eq_some_iff.mp there
  have place : plan.waveIndexFor labels = plan.waves.findIdx (·.selector.matches labels) := by
    rw [waveIndexFor, position, List.findIdx_eq_getD_findIdx?]
  rw [place]
  constructor
  · intro before
    exact List.not_of_lt_findIdx before
  · intro same
    subst same
    exact List.findIdx_getElem (p := fun wave : Wave => wave.selector.matches labels)

/-! ### Buckets -/

theorem mem_bucket {place : Option Nat} {id : String} :
    id ∈ plan.bucket nodes place ↔ ∃ labels, (id, labels) ∈ nodes ∧ plan.position labels = place := by
  simp only [bucket, List.mem_map, List.mem_filter, List.mem_insertionSort, beq_iff_eq]
  constructor
  · rintro ⟨⟨_, labels⟩, ⟨listed, at_⟩, rfl⟩
    exact ⟨labels, listed, at_⟩
  · rintro ⟨labels, listed, at_⟩
    exact ⟨(id, labels), ⟨listed, at_⟩, rfl⟩

/-- Where no id is there twice, a node is in the bucket of its place. -/
theorem mem_bucket_iff (distinct : (nodes.map (·.1)).Nodup) {node : String × Labels} (listed : node ∈ nodes)
    {place : Option Nat} : node.1 ∈ plan.bucket nodes place ↔ plan.position node.2 = place := by
  rw [mem_bucket]
  constructor
  · rintro ⟨labels, listedToo, at_⟩
    rwa [← List.inj_on_of_nodup_map distinct listedToo listed rfl]
  · exact fun at_ => ⟨node.2, listed, at_⟩

theorem bucket_none_isEmpty :
    (plan.bucket nodes none).isEmpty = nodes.all fun node => plan.waves.any (·.selector.matches node.2) := by
  rw [Bool.eq_iff_iff, List.isEmpty_iff, List.eq_nil_iff_forall_not_mem, List.all_eq_true]
  simp only [mem_bucket, ← position_isSome, Option.isSome_iff_ne_none, not_exists, not_and]
  exact ⟨fun matched node listed => matched node.1 node.2 listed,
    fun matched id labels listed => matched (id, labels) listed⟩

/-- The configured waves with their nodes. -/
def configuredWaves (plan : WavePlan) (nodes : List (String × Labels)) : List AssignedWave :=
  plan.waves.zipIdx.map fun (wave, idx) => ⟨wave.name, plan.bucket nodes (some idx)⟩

theorem assign_eq : plan.assign nodes =
    if (plan.bucket nodes none).isEmpty then plan.configuredWaves nodes
    else plan.configuredWaves nodes ++ [⟨implicitFinalWave, plan.bucket nodes none⟩] := rfl

theorem configuredWaves_length : (plan.configuredWaves nodes).length = plan.waves.length := by
  simp [configuredWaves]

theorem configuredWaves_getElem? {i : Nat} (inside : i < plan.waves.length) :
    (plan.configuredWaves nodes)[i]? = some ⟨plan.waves[i].name, plan.bucket nodes (some i)⟩ := by
  simp [configuredWaves, inside]

theorem configuredWaves_names : (plan.configuredWaves nodes).map (·.name) = plan.waves.map (·.name) := by
  have projected : (fun wave : AssignedWave => wave.name) ∘
      (fun (entry : Wave × Nat) => ⟨entry.1.name, plan.bucket nodes (some entry.2)⟩) = (·.name) ∘ Prod.fst := rfl
  rw [configuredWaves, List.map_map, projected, ← List.map_map, List.zipIdx_map_fst]

/-- The wave that is assigned at a place. -/
theorem assign_getElem? (i : Nat) :
    (plan.assign nodes)[i]? =
      if h : i < plan.waves.length then some ⟨plan.waves[i].name, plan.bucket nodes (some i)⟩
      else if i = plan.waves.length ∧ (plan.bucket nodes none).isEmpty = false then
        some ⟨implicitFinalWave, plan.bucket nodes none⟩
      else none := by
  have length : (plan.configuredWaves nodes).length = plan.waves.length := configuredWaves_length
  rw [assign_eq]
  cases empty : (plan.bucket nodes none).isEmpty with
  | true =>
    rw [if_pos rfl]
    split
    next inside => exact configuredWaves_getElem? inside
    next outside =>
      rw [if_neg fun last => Bool.noConfusion last.2]
      exact List.getElem?_eq_none (by omega)
  | false =>
    rw [if_neg Bool.false_ne_true]
    split
    next inside => rw [List.getElem?_append_left (by omega), configuredWaves_getElem? inside]
    next outside =>
      rw [List.getElem?_append_right (by omega), length]
      by_cases last : i = plan.waves.length
      · simp [last]
      · have beyond : i - plan.waves.length ≠ 0 := by omega
        simp [last, beyond]

theorem assign_names_eq : (plan.assign nodes).map (·.name) = plan.waves.map (·.name) ++
    if nodes.all fun node => plan.waves.any (·.selector.matches node.2) then [] else [implicitFinalWave] := by
  rw [assign_eq, ← bucket_none_isEmpty]
  split
  · rw [configuredWaves_names, List.append_nil]
  · rw [List.map_append, configuredWaves_names]
    rfl

/-- A node is in the assigned wave at the place of its labels, and in no other. -/
theorem mem_assigned_iff (distinct : (nodes.map (·.1)).Nodup) {node : String × Labels} (listed : node ∈ nodes) (i : Nat) :
    (∃ wave, (plan.assign nodes)[i]? = some wave ∧ node.1 ∈ wave.nodeIds) ↔ i = plan.waveIndexFor node.2 := by
  have bound := plan.waveIndexFor_le node.2
  rw [assign_getElem?]
  constructor
  · rintro ⟨wave, there, inside⟩
    split at there
    · obtain rfl := Option.some.inj there
      rw [mem_bucket_iff distinct listed, position_eq_some_iff] at inside
      exact inside.1.symm
    · split at there
      · rename_i last
        obtain rfl := Option.some.inj there
        rw [mem_bucket_iff distinct listed, position_eq_none_iff] at inside
        exact last.1.trans inside.symm
      · cases there
  · rintro rfl
    by_cases configured : plan.waveIndexFor node.2 < plan.waves.length
    · rw [dif_pos configured]
      refine ⟨_, rfl, (mem_bucket_iff distinct listed).mpr ?_⟩
      exact position_eq_some_iff.mpr ⟨rfl, configured⟩
    · have last : plan.waveIndexFor node.2 = plan.waves.length := by omega
      have caught := (mem_bucket_iff distinct listed).mpr (position_eq_none_iff.mpr last)
      rw [dif_neg configured, if_pos ⟨last, by simpa using List.ne_nil_of_mem caught⟩]
      exact ⟨_, rfl, caught⟩

/-- The assigned wave of a node has the name that is looked up for its labels. -/
theorem assigned_named (distinct : (nodes.map (·.1)).Nodup) {node : String × Labels} (listed : node ∈ nodes) :
    ((plan.assign nodes)[plan.waveIndexFor node.2]?).map (·.name) = some (plan.waveNameFor node.2) := by
  obtain ⟨wave, there, -⟩ := (mem_assigned_iff distinct listed _).mpr rfl
  obtain ⟨rest, names⟩ := plan.assign_names nodes
  have inside : plan.waveIndexFor node.2 < ((plan.assign nodes).map (·.name)).length := by
    rw [List.length_map]
    exact (List.getElem?_eq_some_iff.mp there).1
  rw [← List.getElem?_map, ← List.getElem?_append_left inside, names]
  exact plan.waveNameFor_names node.2

/-! ### Plans that are read -/

/-- Under the names before, a list without a duplicate has no name twice, and none of those. -/
theorem duplicateName_none {seen names : List String} (none : duplicateName seen names = none) :
    names.Nodup ∧ ∀ name ∈ names, name ∉ seen := by
  induction names generalizing seen with
  | nil => simp
  | cons first rest ih =>
    rw [duplicateName] at none
    split at none
    · cases none
    · rename_i fresh
      obtain ⟨others, unseen⟩ := ih none
      refine ⟨List.nodup_cons.mpr ⟨fun inside => unseen first inside List.mem_cons_self, others⟩, fun name inside => ?_⟩
      rcases List.mem_cons.mp inside with rfl | later
      · simpa using fresh
      · exact fun listed => unseen name later (List.mem_cons_of_mem _ listed)

/-- The waves of a plan that is read have names of their own, and none has that of the implicit final wave. -/
theorem parseWavePlan_names {readWaves : String → Except String (List WaveEntry)} {yaml : String}
    (parsed : parseWavePlan readWaves yaml = .ok plan) : plan.names.Nodup := by
  have single : WavePlan.single.names.Nodup := by decide
  unfold parseWavePlan at parsed
  split at parsed
  · obtain rfl := Except.ok.inj parsed
    exact single
  · rw [Fallible.mapError_ok] at parsed
    obtain ⟨entries, -, parsed⟩ := Fallible.bind_ok.mp parsed
    split at parsed
    · obtain rfl := Except.ok.inj parsed
      exact single
    · obtain ⟨waves, mapped, parsed⟩ := Fallible.bind_ok.mp parsed
      split at parsed
      · cases parsed
      · rename_i fresh
        obtain rfl := Except.ok.inj parsed
        refine List.nodup_append.mpr ⟨(duplicateName_none fresh).1, List.nodup_singleton _, ?_⟩
        intro name listed last isLast same
        obtain rfl := List.mem_singleton.mp isLast
        obtain ⟨wave, inside, rfl⟩ := List.mem_map.mp listed
        obtain ⟨entry, -, made⟩ := Fallible.exists_of_mapM_ok mapped wave inside
        unfold WaveEntry.wave at made
        split at made
        · cases made
        · split at made
          · cases made
          · rename_i reserved
            obtain ⟨terms, -, rfl⟩ := Fallible.map_ok.mp made
            exact reserved same

end WavePlan

open WavePlan in
/-- Under every plan that is read, the assigned waves share out the nodes, and they do not depend on the order in which
    the nodes come. -/
theorem assign_partitions (readWaves : String → Except String (List WaveEntry)) (yaml : String) (plan : WavePlan)
    (parsed : parseWavePlan readWaves yaml = .ok plan) (nodes : List (String × Labels))
    (distinct : (nodes.map (·.1)).Nodup) :
    plan.Partitions nodes (plan.assign nodes) ∧ ∀ other, nodes.Perm other → plan.assign other = plan.assign nodes := by
  refine ⟨⟨assign_names_eq, ?_, fun node listed => mem_assigned_iff distinct listed,
    fun wave assigned => assign_nodup distinct assigned, ?_, fun node _ i wave there => waveIndexFor_earliest there,
    fun node listed => assigned_named distinct listed⟩, ?_⟩
  · exact (plan.assign_names nodes).sublist.nodup (parseWavePlan_names parsed)
  · intro wave assigned id inside
    obtain ⟨place, ids⟩ := assign_nodeIds assigned
    rw [ids] at inside
    obtain ⟨labels, listed, -⟩ := mem_bucket.mp (show id ∈ plan.bucket nodes place from inside)
    exact List.mem_map.mpr ⟨_, listed, rfl⟩
  · intro other perm
    have agree (k : String) : Sorting.withKey (fun node => node.1) k nodes = Sorting.withKey (fun node => node.1) k other :=
      Sorting.withKey_eq_of_perm distinct perm k
    have sorted : (nodes.insertionSort fun a b => a.1 ≤ b.1) = other.insertionSort fun a b => a.1 ≤ b.1 :=
      Sorting.sortBy_eq_iff.mpr agree
    simp only [assign, sorted]

/-- Of three nodes the canary goes first, and the one without a tier comes last. -/
theorem assign_partitions_tiers :
    let waves : List WaveEntry := [⟨"canary", .ofList [("tier", SelectorValue.one "canary")]⟩,
      ⟨"rest", .ofList [("tier", SelectorValue.many ["batch", "web"])]⟩]
    let plan : WavePlan := ⟨[⟨"canary", ⟨[⟨"tier", ["canary"]⟩]⟩⟩, ⟨"rest", ⟨[⟨"tier", ["batch", "web"]⟩]⟩⟩]⟩
    let nodes : List (String × Labels) := [("n3", ∅), ("n2", .ofList [("tier", "web")]), ("n1", .ofList [("tier", "canary")])]
    parseWavePlan (fun _ => .ok waves) "waves: [canary, rest]" = .ok plan ∧
      plan.assign nodes = [⟨"canary", ["n1"]⟩, ⟨"rest", ["n2"]⟩, ⟨implicitFinalWave, ["n3"]⟩] ∧
      plan.Partitions nodes (plan.assign nodes) ∧ ∀ other, nodes.Perm other → plan.assign other = plan.assign nodes := by
  intro waves plan nodes
  have parsed : parseWavePlan (fun _ => .ok waves) "waves: [canary, rest]" = .ok plan := by decide
  exact ⟨parsed, by decide, assign_partitions _ _ plan parsed nodes (by decide)⟩

end SmallGateway
