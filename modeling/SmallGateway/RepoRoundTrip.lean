import SmallGateway.Operator
import SmallGateway.Lib.Fallible
import SmallGateway.Lib.Maps

/-!
The files of a config repo after the way through the ConfigMap. The init container takes every two underscores of a
key for a slash, so a path comes back as it was when it has no two underscores in a row and no underscore before a
slash: `round_trips_iff` says which names of projects and routes make all paths of a resource such paths.
-/

namespace SmallGateway.Operator

/-! ### Paths -/

def projectPath (name : String) : String := "projects/" ++ name ++ "/base.chain.yaml"

def routePath (name : String) : String := "routes/" ++ name ++ ".route.yaml"

/-- The paths of the files that say something about the whole fleet. -/
def LLMGatewaySpec.fleetPaths (spec : LLMGatewaySpec) : List String :=
  ["providers.yaml", "rejections.yaml"] ++ if (renderFleet spec).isEmpty then [] else ["fleet/base.chain.yaml"]

/-- The paths of the fragments of a resource. -/
def LLMGatewaySpec.paths (spec : LLMGatewaySpec) : List String :=
  spec.fleetPaths ++ spec.projects.keys.map projectPath ++ spec.routes.map fun r => routePath r.name

section

variable {marshal : Json.Value → Except String (List UInt8)}

theorem fragment_path {what path : String} {value : Json.Value} {f : Fragment}
    (made : fragment marshal what path value = .ok f) : f.path = path := by
  obtain ⟨bytes, -, rfl⟩ := Fallible.map_ok.mp made
  rfl

theorem projectFragment_path {project : String × Scope} {f : Fragment}
    (made : projectFragment marshal project = .ok f) : f.path = projectPath project.1 := by
  rw [fragment_path made, projectPath]

theorem routeFragment_path {r : Route} {f : Fragment} (made : routeFragment marshal r = .ok f) :
    f.path = routePath r.name := by
  rw [fragment_path made, routePath]

theorem mapM_paths {α : Type} {make : α → Except String Fragment} {pathOf : α → String}
    (named : ∀ item f, make item = .ok f → f.path = pathOf item) {items : List α} {fragments : List Fragment}
    (made : items.mapM make = .ok fragments) : fragments.map (·.path) = items.map pathOf := by
  have each := Fallible.forall₂_of_mapM_ok made
  clear made
  induction each with
  | nil => rfl
  | cons one _ ih => rw [List.map_cons, List.map_cons, ih, named _ _ one]

theorem fleetFragments_path {spec : LLMGatewaySpec} {fragments : List Fragment}
    (made : fleetFragments marshal spec = .ok fragments) :
    fragments.map (·.path) = if (renderFleet spec).isEmpty then [] else ["fleet/base.chain.yaml"] := by
  rw [fleetFragments] at made
  split at made
  case isTrue nothing =>
    obtain rfl := Except.ok.inj made
    rw [if_pos nothing, List.map_nil]
  case isFalse something =>
    obtain ⟨f, one, rfl⟩ := Fallible.map_ok.mp made
    rw [if_neg something, List.map_singleton, fragment_path one]

/-- The fragments are the files of these paths, in some order. -/
theorem render_paths {spec : LLMGatewaySpec} {result : Result} (rendered : render marshal spec = .ok result) :
    (result.fragments.map (·.path)).Perm spec.paths := by
  obtain ⟨providers, one, rendered⟩ := Fallible.bind_ok.mp rendered
  obtain ⟨rejections, two, rendered⟩ := Fallible.bind_ok.mp rendered
  obtain ⟨fleet, three, rendered⟩ := Fallible.bind_ok.mp rendered
  obtain ⟨projects, four, rendered⟩ := Fallible.bind_ok.mp rendered
  obtain ⟨routes, five, rendered⟩ := Fallible.bind_ok.mp rendered
  obtain rfl := Except.ok.inj rendered
  refine ((List.perm_insertionSort _ _).map _).trans (List.Perm.of_eq ?_)
  have projectPaths := mapM_paths (fun _ _ => projectFragment_path) four
  have routePaths := mapM_paths (fun _ _ => routeFragment_path) five
  simp only [List.map_append, List.map_cons, List.map_nil, fragment_path one, fragment_path two,
    fleetFragments_path three, projectPaths, routePaths]
  rw [LLMGatewaySpec.paths, LLMGatewaySpec.fleetPaths, ← Std.TreeMap.map_fst_toList_eq_keys, List.map_map]
  rfl

end

/-- Where marshalling does not fail, every resource is rendered. -/
theorem render_total {marshal : Json.Value → Except String (List UInt8)}
    (total : ∀ value, ∃ bytes, marshal value = .ok bytes) (spec : LLMGatewaySpec) :
    ∃ result, render marshal spec = .ok result := by
  have made (what path : String) (value : Json.Value) : ∃ f, fragment marshal what path value = .ok f := by
    obtain ⟨bytes, marshalled⟩ := total value
    exact ⟨⟨path, bytes⟩, by rw [fragment, marshalled]; rfl⟩
  obtain ⟨providers, one⟩ := made "providers" "providers.yaml"
    (Fields.value (spec.providers.map fun _ p => renderProvider p))
  obtain ⟨rejections, two⟩ := made "rejections" "rejections.yaml" (renderRejections spec.rejections)
  obtain ⟨fleet, three⟩ : ∃ fleet, fleetFragments marshal spec = .ok fleet := by
    rw [fleetFragments]
    split
    · exact ⟨[], rfl⟩
    · obtain ⟨f, one⟩ := made "fleet chain" "fleet/base.chain.yaml"
        (Fields.of [("attribution", (renderFleet spec).value)]).value
      exact ⟨[f], by rw [one]; rfl⟩
  obtain ⟨projects, four⟩ := Fallible.mapM_total (projectFragment marshal) spec.projects.toList fun _ _ => made _ _ _
  obtain ⟨routes, five⟩ := Fallible.mapM_total (routeFragment marshal) spec.routes fun _ _ => made _ _ _
  rw [render, one, two, three]
  simp only [bind, Except.bind, four, five]
  exact ⟨_, rfl⟩

/-! ### Names -/

/-- A text that comes back from its flat form. -/
def Plain (text : String) : Prop := ¬ ['_', '_'] <:+: text.toList ∧ ¬ ['_', '/'] <:+: text.toList

theorem plain_iff (text : String) : Plain text ↔ Flattening.Clean '/' '_' text.toList :=
  (Flattening.clean_iff text.toList).symm

theorem unflattenKey_flattenPath (path : String) : unflattenKey (flattenPath path) = path ↔ Plain path := by
  have apart : '_' ≠ '/' := by decide
  rw [Plain, ← Flattening.unflatten_flatten_iff apart, unflattenKey, flattenPath, String.toList_ofList]
  conv_lhs => rw [← String.toList_inj, String.toList_ofList]

theorem plain_projectPath (name : String) :
    Plain (projectPath name) ↔ Plain name ∧ name.toList.getLast? ≠ some '_' := by
  have between : Flattening.Clean '/' '_' ("projects/".toList ++ name.toList ++ "/base.chain.yaml".toList) ↔ _ :=
    Flattening.clean_between (by decide) (by decide) name.toList
  rw [plain_iff, plain_iff, projectPath, String.toList_append, String.toList_append, between]
  simp

theorem plain_routePath (name : String) : Plain (routePath name) ↔ Plain name := by
  have between : Flattening.Clean '/' '_' ("routes/".toList ++ name.toList ++ ".route.yaml".toList) ↔ _ :=
    Flattening.clean_between (by decide) (by decide) name.toList
  rw [plain_iff, plain_iff, routePath, String.toList_append, String.toList_append, between]
  simp

theorem plain_fleetPaths (spec : LLMGatewaySpec) : ∀ path ∈ spec.fleetPaths, Plain path := by
  intro path listed
  rw [plain_iff]
  refine Flattening.clean_of_not_mem ?_
  rw [LLMGatewaySpec.fleetPaths] at listed
  split at listed <;> simp at listed
  · rcases listed with rfl | rfl <;> decide
  · rcases listed with rfl | rfl | rfl <;> decide

theorem plain_paths (spec : LLMGatewaySpec) :
    (∀ path ∈ spec.paths, Plain path) ↔
      (∀ name ∈ spec.projects.keys, Plain name ∧ name.toList.getLast? ≠ some '_') ∧
        ∀ r ∈ spec.routes, Plain r.name := by
  have fleet := plain_fleetPaths spec
  simp only [LLMGatewaySpec.paths, List.forall_mem_append, List.forall_mem_map, plain_projectPath, plain_routePath]
  tauto

/-- What a path begins with, which tells the kinds of files apart. -/
def kindOf (path : String) : List Char := path.toList.take 4

theorem kindOf_projectPath (name : String) : kindOf (projectPath name) = "proj".toList := by
  rw [kindOf, projectPath, String.toList_append, String.toList_append]
  rfl

theorem kindOf_routePath (name : String) : kindOf (routePath name) = "rout".toList := by
  rw [kindOf, routePath, String.toList_append, String.toList_append]
  rfl

theorem kindOf_fleetPaths (spec : LLMGatewaySpec) :
    ∀ path ∈ spec.fleetPaths, kindOf path ∈ ["prov".toList, "reje".toList, "flee".toList] := by
  intro path listed
  rw [LLMGatewaySpec.fleetPaths] at listed
  split at listed <;> simp at listed
  · rcases listed with rfl | rfl <;> decide
  · rcases listed with rfl | rfl | rfl <;> decide

theorem projectPath_injective : Function.Injective projectPath := by
  intro a b same
  have texts := congrArg String.toList same
  simpa [projectPath, String.toList_inj] using texts

theorem routePath_injective : Function.Injective routePath := by
  intro a b same
  have texts := congrArg String.toList same
  simpa [routePath, String.toList_inj] using texts

/-- The paths are different when the routes have different names. -/
theorem nodup_paths (spec : LLMGatewaySpec) : spec.paths.Nodup ↔ (spec.routes.map (·.name)).Nodup := by
  have fleet : spec.fleetPaths.Nodup := by
    rw [LLMGatewaySpec.fleetPaths]
    split <;> decide
  have projects : (spec.projects.keys.map projectPath).Nodup :=
    Std.TreeMap.nodup_keys.map projectPath_injective
  have apart : ∀ a ∈ spec.fleetPaths, ∀ b ∈ spec.projects.keys.map projectPath, a ≠ b := by
    rintro a one b two rfl
    obtain ⟨name, -, rfl⟩ := List.mem_map.mp two
    have kind := kindOf_fleetPaths spec _ one
    rw [kindOf_projectPath] at kind
    revert kind
    decide
  have routesApart : ∀ a ∈ spec.fleetPaths ++ spec.projects.keys.map projectPath,
      ∀ b ∈ spec.routes.map fun r => routePath r.name, a ≠ b := by
    rintro a one b two rfl
    obtain ⟨r, -, rfl⟩ := List.mem_map.mp two
    rcases List.mem_append.mp one with one | one
    · have kind := kindOf_fleetPaths spec _ one
      rw [kindOf_routePath] at kind
      revert kind
      decide
    · obtain ⟨name, -, same⟩ := List.mem_map.mp one
      have kind := congrArg kindOf same
      rw [kindOf_projectPath, kindOf_routePath] at kind
      revert kind
      decide
  have named : (spec.routes.map fun r => routePath r.name) = (spec.routes.map (·.name)).map routePath := by
    rw [List.map_map]
    rfl
  rw [LLMGatewaySpec.paths, List.nodup_append, and_iff_right (List.nodup_append.mpr ⟨fleet, projects, apart⟩),
    and_iff_left routesApart, named, List.nodup_map_iff routePath_injective]

/-! ### The way through the ConfigMap -/

/-- The files come back as they are, each under its path, and no two share a key or a path. -/
structure RoundTrips (result : Result) : Prop where
  back : ∀ f ∈ result.fragments, unflattenKey (flattenPath f.path) = f.path
  keys : (result.fragments.map fun f => flattenPath f.path).Nodup
  paths : (result.fragments.map (·.path)).Nodup
  files : ∀ path bytes,
    (unpack (ensureRepoConfigMap result).data)[path]? = some bytes ↔ ⟨path, bytes⟩ ∈ result.fragments

section

variable {result : Result}

/-- Plain paths have different keys. -/
theorem keys_distinct (plain : ∀ f ∈ result.fragments, Plain f.path) (paths : (result.fragments.map (·.path)).Nodup) :
    (result.fragments.map fun f => flattenPath f.path).Nodup := by
  have back : (result.fragments.map fun f => flattenPath f.path).map unflattenKey = result.fragments.map (·.path) := by
    rw [List.map_map]
    exact List.map_congr_left fun f listed => (unflattenKey_flattenPath f.path).mpr (plain f listed)
  exact List.Nodup.of_map unflattenKey (back ▸ paths)

theorem data_eq (result : Result) :
    (ensureRepoConfigMap result).data =
      (result.fragments.map fun f => (flattenPath f.path, f.bytes)).foldl
        (fun data entry => data.insert entry.1 entry.2) ∅ := by
  rw [ensureRepoConfigMap, List.foldl_map]

/-- The data of the ConfigMap are the files under their flattened paths. -/
theorem data_some (keys : (result.fragments.map fun f => flattenPath f.path).Nodup) (key : String)
    (bytes : List UInt8) :
    (ensureRepoConfigMap result).data[key]? = some bytes ↔
      ∃ f ∈ result.fragments, flattenPath f.path = key ∧ f.bytes = bytes := by
  rw [data_eq, Maps.getElem?_foldl_insert_some _ (by rwa [List.map_map]), List.mem_map]
  simp

theorem head?_flattenPath {path : String} (seen : path.toList.head? ≠ some '.') :
    (flattenPath path).toList.head? ≠ some '.' := by
  rw [flattenPath, String.toList_ofList, Flattening.head?_flatten]
  cases first : path.toList.head? with
  | none => simp
  | some c =>
    have other : c ≠ '.' := fun same => seen (by rw [first, same])
    by_cases slash : c = '/' <;> simp [slash, other]

/-- The entries that the shell sees. -/
def shown (data : Std.TreeMap String (List UInt8)) : List (String × List UInt8) :=
  data.toList.filter fun entry => entry.1.toList.head? != some '.'

theorem mem_shown {data : Std.TreeMap String (List UInt8)} {fragments : List Fragment}
    (held : ∀ key bytes, data[key]? = some bytes ↔ ∃ f ∈ fragments, flattenPath f.path = key ∧ f.bytes = bytes)
    (seen : ∀ f ∈ fragments, f.path.toList.head? ≠ some '.') {key : String} {bytes : List UInt8} :
    (key, bytes) ∈ shown data ↔ ∃ f ∈ fragments, flattenPath f.path = key ∧ f.bytes = bytes := by
  rw [shown, List.mem_filter, Std.TreeMap.mem_toList_iff_getElem?_eq_some, held]
  refine and_iff_left_of_imp ?_
  rintro ⟨f, among, rfl, -⟩
  rw [bne_iff_ne]
  exact head?_flattenPath (seen f among)

theorem nodup_shown {data : Std.TreeMap String (List UInt8)}
    (back : ∀ entry ∈ shown data, flattenPath (unflattenKey entry.1) = entry.1) :
    ((shown data).map fun entry => unflattenKey entry.1).Nodup := by
  have keys : ((shown data).map (·.1)).Nodup := by
    have all : (data.toList.map (·.1)).Nodup := by
      rw [Std.TreeMap.map_fst_toList_eq_keys]
      exact Std.TreeMap.nodup_keys
    exact all.sublist (List.filter_sublist.map _)
  have same : ((shown data).map fun entry => unflattenKey entry.1).map flattenPath = (shown data).map (·.1) := by
    rw [List.map_map]
    exact List.map_congr_left back
  exact List.Nodup.of_map flattenPath (same ▸ keys)

theorem unpack_eq (data : Std.TreeMap String (List UInt8)) :
    unpack data = ((shown data).map fun entry => (unflattenKey entry.1, entry.2)).foldl
      (fun repo entry => repo.insert entry.1 entry.2) ∅ := by
  rw [unpack, List.foldl_map, shown]

/-- Where the paths are plain, the init container writes the files of the repo. -/
theorem files_back (plain : ∀ f ∈ result.fragments, Plain f.path)
    (seen : ∀ f ∈ result.fragments, f.path.toList.head? ≠ some '.')
    (paths : (result.fragments.map (·.path)).Nodup) (path : String) (bytes : List UInt8) :
    (unpack (ensureRepoConfigMap result).data)[path]? = some bytes ↔ ⟨path, bytes⟩ ∈ result.fragments := by
  have held := data_some (keys_distinct plain paths)
  generalize (ensureRepoConfigMap result).data = data at held
  have back (f : Fragment) (listed : f ∈ result.fragments) : unflattenKey (flattenPath f.path) = f.path :=
    (unflattenKey_flattenPath f.path).mpr (plain f listed)
  have distinct : (((shown data).map fun entry => (unflattenKey entry.1, entry.2)).map (·.1)).Nodup := by
    rw [List.map_map]
    refine nodup_shown fun entry listed => ?_
    obtain ⟨f, among, key, -⟩ := (mem_shown held seen).mp listed
    rw [← key, back f among]
  rw [unpack_eq, Maps.getElem?_foldl_insert_some _ distinct, List.mem_map]
  constructor
  · rintro ⟨⟨key, held'⟩, listed, same⟩
    obtain ⟨f, among, rfl, rfl⟩ := (mem_shown held seen).mp listed
    obtain ⟨rfl, rfl⟩ := Prod.mk.inj same
    rw [back f among]
    exact among
  · intro listed
    have same : unflattenKey (flattenPath path) = path := back ⟨path, bytes⟩ listed
    refine ⟨(flattenPath path, bytes), (mem_shown held seen).mpr ⟨⟨path, bytes⟩, listed, rfl, rfl⟩, ?_⟩
    rw [same]

end

/-! ### The names that make the way -/

theorem seen_paths (spec : LLMGatewaySpec) : ∀ path ∈ spec.paths, path.toList.head? ≠ some '.' := by
  intro path listed hidden
  have first : (kindOf path).head? = some '.' := by rw [kindOf, List.head?_take, if_neg (by decide), hidden]
  rw [LLMGatewaySpec.paths, List.mem_append, List.mem_append] at listed
  rcases listed with (fleet | project) | route
  · have kind := kindOf_fleetPaths spec path fleet
    revert first
    simp only [List.mem_cons, List.not_mem_nil, or_false] at kind
    rcases kind with kind | kind | kind <;> rw [kind] <;> decide
  · obtain ⟨name, -, rfl⟩ := List.mem_map.mp project
    rw [kindOf_projectPath] at first
    revert first
    decide
  · obtain ⟨r, -, rfl⟩ := List.mem_map.mp route
    rw [kindOf_routePath] at first
    revert first
    decide

/-- The routes have different names, no name has two underscores in a row or an underscore before a slash, and no
    project's name ends in an underscore. -/
structure PlainNames (spec : LLMGatewaySpec) : Prop where
  routes : (spec.routes.map (·.name)).Nodup
  routeNames : ∀ r ∈ spec.routes, Plain r.name
  projectNames : ∀ name ∈ spec.projects.keys, Plain name ∧ name.toList.getLast? ≠ some '_'

/-- The files of a resource come back from the ConfigMap exactly when its names are plain. -/
theorem round_trips_iff {marshal : Json.Value → Except String (List UInt8)} {spec : LLMGatewaySpec} {result : Result}
    (rendered : render marshal spec = .ok result) : RoundTrips result ↔ PlainNames spec := by
  have same := render_paths rendered
  have every (P : String → Prop) : (∀ path ∈ spec.paths, P path) ↔ ∀ f ∈ result.fragments, P f.path := by
    constructor
    · intro each f listed
      exact each f.path (same.mem_iff.mp (List.mem_map_of_mem listed))
    · intro each path listed
      obtain ⟨f, among, rfl⟩ := List.mem_map.mp (same.mem_iff.mpr listed)
      exact each f among
  constructor
  · intro trip
    obtain ⟨projects, routes⟩ := (plain_paths spec).mp ((every Plain).mpr fun f listed =>
      (unflattenKey_flattenPath f.path).mp (trip.back f listed))
    exact ⟨(nodup_paths spec).mp (same.nodup_iff.mp trip.paths), routes, projects⟩
  · intro names
    have plain := (every Plain).mp ((plain_paths spec).mpr ⟨names.projectNames, names.routeNames⟩)
    have paths := same.nodup_iff.mpr ((nodup_paths spec).mpr names.routes)
    exact ⟨fun f listed => (unflattenKey_flattenPath f.path).mpr (plain f listed), keys_distinct plain paths, paths,
      files_back plain ((every fun path => path.toList.head? ≠ some '.').mp (seen_paths spec)) paths⟩

/-! ### One resource -/

/-- A resource with one project, one route and its own rejections. -/
def oneProject (name : String) : LLMGatewaySpec where
  providers := ∅
  fleet := none
  routes := [⟨"chat", "/", "openai", name, "", none⟩]
  projects := (∅ : Std.TreeMap String Scope).insert name ⟨none⟩
  rejections := some ⟨some ⟨428, "text/plain", "refused", none⟩, some ⟨404, "text/plain", "refused", none⟩⟩
  spendCaps := none

/-- What the values of such a resource are marshalled to. -/
def marshalOneProject (name : String) : Json.Value → Except String (List UInt8)
  | .object [] => .ok "\x7b\x7d\n".toUTF8.toList
  | .object (("default_response", _) :: _) =>
    .ok ("default_response:\n  body: refused\n  content_type: text/plain\n  status: 428\n" ++
      "unknown_route:\n  body: refused\n  content_type: text/plain\n  status: 404\n").toUTF8.toList
  | _ => .ok ("prefix: /\nproject: " ++ name ++ "\nprovider: openai\n").toUTF8.toList

theorem marshalOneProject_total (name : String) (value : Json.Value) :
    ∃ bytes, marshalOneProject name value = .ok bytes := by
  unfold marshalOneProject
  split <;> exact ⟨_, rfl⟩

theorem keys_oneProject (name : String) : (oneProject name).projects.keys = [name] := rfl

theorem plainNames_oneProject {name : String} (plain : Plain name) (ends : name.toList.getLast? ≠ some '_') :
    PlainNames (oneProject name) where
  routes := by simp [oneProject]
  routeNames := by
    intro r listed
    obtain rfl := List.mem_singleton.mp listed
    exact (plain_iff "chat").mpr (Flattening.clean_of_not_mem (by decide))
  projectNames := by
    rw [keys_oneProject]
    intro own listed
    obtain rfl := List.mem_singleton.mp listed
    exact ⟨plain, ends⟩

theorem team_round_trips :
    ∃ result, render (marshalOneProject "team") (oneProject "team") = .ok result ∧ RoundTrips result := by
  obtain ⟨result, rendered⟩ := render_total (marshalOneProject_total "team") (oneProject "team")
  have plain : Plain "team" := (plain_iff "team").mpr (Flattening.clean_of_not_mem (by decide))
  exact ⟨result, rendered, (round_trips_iff rendered).mpr (plainNames_oneProject plain (by decide))⟩

/-- A project's name with two underscores comes back as a path with one more directory. -/
theorem underscored_project_moves :
    unflattenKey (flattenPath "projects/team__a/base.chain.yaml") = "projects/team/a/base.chain.yaml" ∧
    ¬ ∀ (marshal : Json.Value → Except String (List UInt8)) (spec : LLMGatewaySpec) (result : Result),
        render marshal spec = .ok result → RoundTrips result := by
  refine ⟨by decide, fun law => ?_⟩
  obtain ⟨result, rendered⟩ := render_total (marshalOneProject_total "team__a") (oneProject "team__a")
  have back := (law _ _ result rendered).back
  have listed : "projects/team__a/base.chain.yaml" ∈ result.fragments.map (·.path) := by
    rw [(render_paths rendered).mem_iff]
    decide
  obtain ⟨f, among, path⟩ := List.mem_map.mp listed
  have moved := back f among
  rw [path] at moved
  revert moved
  decide

end SmallGateway.Operator
