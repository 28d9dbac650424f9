import SmallGateway.Canonical
import SmallGateway.NodeRenders

/-!
What renders of repos have in common that differ in the order of entries (`gatewayctl/src/render.rs`). Every fragment is
sorted when it is read, and the assembled and stamped document is sorted again. Two repos that are equal as documents
have the same renders exactly when they differ in no order that sorting leaves alone (`reproduces_iff`).
-/

namespace SmallGateway

open Yaml (Mapping)

variable {Expr : Type}

namespace RepoLibrary

variable (lib : RepoLibrary Expr)

/-! ### Repos that are equal as documents -/

/-- What a file holds. -/
def Reads (bytes : List UInt8) (value : Yaml.Value) : Prop :=
  ∃ text, Text.fromUtf8? bytes = some text ∧ lib.parse text = .ok value

/-- Two files are the same, or hold documents that are related. -/
def FilesRelated (related : Yaml.Value → Yaml.Value → Prop) (a b : List UInt8) : Prop :=
  a = b ∨ ∃ value other, lib.Reads a value ∧ lib.Reads b other ∧ related value other

/-- Two repos with the same paths, where each file is the same or equal as a document up to the order of entries. -/
def ReposAlike (a b : RepoFiles) : Prop :=
  List.Forall₂ (fun x y => x.1 = y.1 ∧ lib.FilesRelated Yaml.Alike x.2 y.2) a b

/-- The files that are assembled, other than the routes. -/
def fragmentPaths (files : RepoFiles) : List String :=
  ["providers.yaml", "fleet/base.chain.yaml", "apps.yaml", "rejections.yaml", "auth.yaml"] ++
    files.projectNames.map fun name => "projects/" ++ name ++ "/base.chain.yaml"

/-- The fragments of two repos are equal up to the order of entries that sorting tells apart. -/
structure FragmentsSettled (a b : RepoFiles) : Prop where
  parts : ∀ path ∈ fragmentPaths a, ∀ x y, a.lookup path = some x → b.lookup path = some y →
    lib.FilesRelated Yaml.Settled x y
  routes : List.Forall₂ (fun x y => lib.FilesRelated Yaml.Settled x.2 y.2) a.routeFiles b.routeFiles

/-- The sets of a repo, or none where they cannot be read. -/
def setsOf (files : RepoFiles) : List GatewaySet := (lib.readGatewaysets files).toOption.getD []

/-- The assembled document of a repo, with the overlays of the sets that match when it is that of a node. -/
def document (files : RepoFiles) (labels : Option Labels) : Except String Mapping := do
  let doc ← lib.assembleFlatDoc files
  return match labels with
    | none => doc
    | some labels => stamp (lib.setsOf files) doc labels

/-- The overlays make documents of the first repo's that are equal up to the order of entries that sorting tells apart,
    for every node that gets a render. -/
def OverlaysSettled (a b : ResolvedRepo) : Prop :=
  ∀ labels rendered doc, lib.texts.renderResolvedForNode a labels = .ok rendered →
    lib.assembleFlatDoc a.files = .ok doc →
      Yaml.Settled (.mapping (stamp (lib.setsOf a.files) doc labels)) (.mapping (stamp (lib.setsOf b.files) doc labels))

/-- The writer of the file format writes the entries in the order in which they stand: what is written for one document
    is not written for another, and is read as no other. -/
structure WritesInOrder : Prop where
  apart : ∀ value other text, lib.write value = .ok text → lib.write other = .ok text → value = other
  back : ∀ value other text, lib.write value = .ok text → lib.parse text = .ok other → other = value

/-- Two renders with the same bytes. -/
def SameRender (rendered other : Rendered) : Prop :=
  other.configBytes = rendered.configBytes ∧ other.renderHash = rendered.renderHash

/-- What canonical rendering is for: the second repo has the renders of the first one, a render that is made canonical
    again is as before, and the items of each sequence stay in their order. -/
structure Reproduces (a b : ResolvedRepo) : Prop where
  fleet : ∀ rendered, lib.texts.renderResolved a = .ok rendered →
    ∃ other, lib.texts.renderResolved b = .ok other ∧ SameRender rendered other
  nodes : ∀ labels rendered, lib.texts.renderResolvedForNode a labels = .ok rendered →
    ∃ other, lib.texts.renderResolvedForNode b labels = .ok other ∧ SameRender rendered other
  again : ∀ labels flat value, lib.texts.flatFor a.files labels = .ok flat → lib.parse flat = .ok value →
    ∃ entries, value = .mapping entries ∧ lib.canonicalText entries = .ok flat
  order : ∀ labels doc places items, lib.document a.files labels = .ok doc →
    (Yaml.Value.mapping doc).at places = some (.sequence items) →
      (Yaml.sortedValue (.mapping doc)).at places = some (.sequence (items.map Yaml.sortedValue)) ∨
        (Yaml.sortedValue (.mapping doc)).at places = some (.sequence items)

/-! ### Assembly -/

/-- The parts of a flat document. -/
structure Parts where
  providers : Yaml.Value
  fleet : Option Yaml.Value
  projects : Mapping
  routes : List Yaml.Value
  apps : Option Yaml.Value
  rejections : Yaml.Value
  auth : Option Yaml.Value

namespace Parts

/-- The parts under their names, where they are there. -/
def entries (parts : Parts) : List (Option (Yaml.Key × Yaml.Value)) :=
  [some (.string "providers", parts.providers), parts.fleet.map (.string "fleet", ·),
    if parts.projects.isEmpty then none else some (.string "projects", .mapping parts.projects),
    some (.string "routes", .sequence parts.routes), parts.apps.map (.string "apps", ·),
    some (.string "rejections", parts.rejections), parts.auth.map (.string "auth", ·)]

def doc (parts : Parts) : Mapping := parts.entries.reduceOption

end Parts

/-- The repo has these parts. -/
structure HasParts (files : RepoFiles) (parts : Parts) : Prop where
  providers : lib.readYamlMapping files "providers.yaml" = .ok (some parts.providers)
  fleet : lib.readYamlMapping files "fleet/base.chain.yaml" = .ok parts.fleet
  projects : lib.readProjects files = .ok parts.projects
  routes : lib.readRoutes files = .ok parts.routes
  someRoute : parts.routes ≠ []
  apps : lib.readYamlMapping files "apps.yaml" = .ok parts.apps
  rejections : lib.readYamlMapping files "rejections.yaml" = .ok (some parts.rejections)
  auth : lib.readYamlMapping files "auth.yaml" = .ok parts.auth

variable {lib}

theorem readRequired_ok {files : RepoFiles} {rel : String} {value : Yaml.Value} :
    lib.readRequired files rel = .ok value ↔ lib.readYamlMapping files rel = .ok (some value) := by
  rw [readRequired, Fallible.bind_ok]
  constructor
  · rintro ⟨found, read, taken⟩
    cases found with
    | none => cases taken
    | some held =>
      obtain rfl := Except.ok.inj taken
      exact read
  · exact fun read => ⟨some value, read, rfl⟩

theorem assembleFlatDoc_ok {files : RepoFiles} {doc : Mapping} :
    lib.assembleFlatDoc files = .ok doc ↔ ∃ parts, lib.HasParts files parts ∧ doc = parts.doc := by
  unfold assembleFlatDoc
  constructor
  · intro assembled
    obtain ⟨providers, readProviders, assembled⟩ := Fallible.bind_ok.mp assembled
    obtain ⟨fleet, readFleet, assembled⟩ := Fallible.bind_ok.mp assembled
    obtain ⟨projects, readProjects, assembled⟩ := Fallible.bind_ok.mp assembled
    obtain ⟨routes, readRoutes, assembled⟩ := Fallible.bind_ok.mp assembled
    by_cases none : routes.isEmpty = true
    · rw [if_pos none] at assembled
      cases assembled
    · rw [if_neg none] at assembled
      obtain ⟨apps, readApps, assembled⟩ := Fallible.bind_ok.mp assembled
      obtain ⟨rejections, readRejections, assembled⟩ := Fallible.bind_ok.mp assembled
      obtain ⟨auth, readAuth, assembled⟩ := Fallible.bind_ok.mp assembled
      refine ⟨⟨providers, fleet, projects, routes, apps, rejections, auth⟩,
        ⟨readRequired_ok.mp readProviders, readFleet, readProjects, readRoutes, ?_, readApps,
          readRequired_ok.mp readRejections, readAuth⟩, ?_⟩
      · exact fun empty => none (List.isEmpty_iff.mpr empty)
      · rw [← Except.ok.inj assembled]
        cases fleet <;> cases apps <;> cases auth <;> cases projects <;> rfl
  · rintro ⟨⟨providers, fleet, projects, routes, apps, rejections, auth⟩, has, rfl⟩
    refine Fallible.bind_ok.mpr ⟨_, readRequired_ok.mpr has.providers, ?_⟩
    refine Fallible.bind_ok.mpr ⟨_, has.fleet, Fallible.bind_ok.mpr ⟨_, has.projects, ?_⟩⟩
    refine Fallible.bind_ok.mpr ⟨_, has.routes, ?_⟩
    rw [if_neg fun none => has.someRoute (List.isEmpty_iff.mp none)]
    refine Fallible.bind_ok.mpr ⟨_, has.apps, ?_⟩
    refine Fallible.bind_ok.mpr ⟨_, readRequired_ok.mpr has.rejections, Fallible.bind_ok.mpr ⟨_, has.auth, ?_⟩⟩
    cases fleet <;> cases apps <;> cases auth <;> cases projects <;> rfl

/-! ### Files -/

theorem Reads.unique {bytes : List UInt8} {value other : Yaml.Value} (reads : lib.Reads bytes value)
    (readsToo : lib.Reads bytes other) : value = other := by
  obtain ⟨text, decoded, parsed⟩ := reads
  obtain ⟨textToo, decodedToo, parsedToo⟩ := readsToo
  obtain rfl := Option.some.inj (decoded.symm.trans decodedToo)
  exact Except.ok.inj (parsed.symm.trans parsedToo)

theorem parseYamlValue_ok {bytes : List UInt8} {what : String} {value : Yaml.Value} :
    lib.parseYamlValue bytes what = .ok value ↔ lib.Reads bytes value := by
  unfold parseYamlValue Reads
  cases decoded : Text.fromUtf8? bytes with
  | none => simp
  | some text => cases parsed : lib.parse text <;> simp [parsed, Except.mapError]

/-- What is made of two files that are the same, or whose documents are equal up to what sorting tells apart. -/
theorem FilesRelated.sorted {x y : List UInt8} (related : lib.FilesRelated Yaml.Settled x y) {value : Yaml.Value}
    (reads : lib.Reads x value) : ∃ other, lib.Reads y other ∧ Yaml.sortedValue other = Yaml.sortedValue value := by
  obtain rfl | ⟨held, other, readsHeld, readsOther, settled⟩ := related
  · exact ⟨value, reads, rfl⟩
  · obtain rfl := reads.unique readsHeld
    exact ⟨other, readsOther, settled.sortedValue_eq.symm⟩

theorem FilesRelated.of_sorted {x y : List UInt8} {value other : Yaml.Value} (reads : lib.Reads x value)
    (readsToo : lib.Reads y other) (same : Yaml.sortedValue value = Yaml.sortedValue other) :
    lib.FilesRelated Yaml.Settled x y :=
  .inr ⟨value, other, reads, readsToo, Yaml.sortedValue_eq_iff.mp same⟩

/-- Files without tagged values, whose mappings are sorted by different texts, are equal up to what sorting tells apart
    when they are equal up to the order of entries. -/
theorem FilesRelated.of_plain {x y : List UInt8} (alike : lib.FilesRelated Yaml.Alike x y)
    (plain : ∀ value, lib.Reads x value → Yaml.Plain value) : lib.FilesRelated Yaml.Settled x y := by
  obtain rfl | ⟨value, other, reads, readsToo, alike⟩ := alike
  · exact .inl rfl
  · exact .inr ⟨value, other, reads, readsToo, (alike.settled_of_plain (plain value reads)).1⟩

/-- A fragment that is there is a mapping and is taken in sorted form. -/
theorem readYamlMapping_ok {files : RepoFiles} {rel : String} {found : Option Yaml.Value} :
    lib.readYamlMapping files rel = .ok found ↔
      (files.lookup rel = none ∧ found = none) ∨
        ∃ bytes entries, files.lookup rel = some bytes ∧ lib.Reads bytes (.mapping entries) ∧
          found = some (Yaml.sortedValue (.mapping entries)) := by
  unfold readYamlMapping
  cases there : files.lookup rel with
  | none => simp [eq_comm]
  | some bytes =>
    rw [Fallible.bind_ok]
    constructor
    · rintro ⟨value, parsed, taken⟩
      cases value with
      | mapping entries => exact .inr ⟨bytes, entries, rfl, parseYamlValue_ok.mp parsed, (Except.ok.inj taken).symm⟩
      | null => cases taken
      | bool value => cases taken
      | number text => cases taken
      | string text => cases taken
      | sequence items => cases taken
      | tagged tag value => cases taken
    · rintro (⟨absent, -⟩ | ⟨held, entries, same, reads, rfl⟩)
      · cases absent
      · obtain rfl := Option.some.inj same
        exact ⟨.mapping entries, parseYamlValue_ok.mpr reads, rfl⟩

theorem readYamlMapping_sorted {files : RepoFiles} {rel : String} {found : Option Yaml.Value}
    (read : lib.readYamlMapping files rel = .ok found) : found.map Yaml.sortedValue = found := by
  rcases readYamlMapping_ok.mp read with ⟨-, rfl⟩ | ⟨bytes, entries, -, -, rfl⟩
  · rfl
  · rw [Option.map_some, Yaml.sortedValue_idem]

section

variable {a b : RepoFiles} {rel : String} {found : Option Yaml.Value} (read : lib.readYamlMapping a rel = .ok found)

include read

/-- A fragment of the one repo is read from the other one, when the two files are settled. -/
theorem readYamlMapping_of_settled (present : (a.lookup rel).isSome = (b.lookup rel).isSome)
    (settled : ∀ x y, a.lookup rel = some x → b.lookup rel = some y → lib.FilesRelated Yaml.Settled x y) :
    lib.readYamlMapping b rel = .ok found := by
  rcases readYamlMapping_ok.mp read with ⟨absent, rfl⟩ | ⟨x, entries, there, reads, rfl⟩
  · rw [absent] at present
    exact readYamlMapping_ok.mpr (.inl ⟨Option.isNone_iff_eq_none.mp (by simpa using present.symm), rfl⟩)
  · rw [there] at present
    obtain ⟨y, thereToo⟩ := Option.isSome_iff_exists.mp present.symm
    obtain ⟨other, readsToo, same⟩ := (settled x y there thereToo).sorted reads
    have shape := congrArg Yaml.Value.entries? same
    rw [Yaml.sortedValue_mapping, Yaml.entries?_sortedValue] at shape
    cases other with
    | mapping fs => exact readYamlMapping_ok.mpr (.inr ⟨y, fs, thereToo, readsToo, by rw [same]⟩)
    | null => cases shape
    | bool value => cases shape
    | number text => cases shape
    | string text => cases shape
    | sequence items => cases shape
    | tagged tag value => cases shape

/-- Where the two files make one fragment, they are settled. -/
theorem settled_of_readYamlMapping (readToo : lib.readYamlMapping b rel = .ok found) (x y : List UInt8)
    (there : a.lookup rel = some x) (thereToo : b.lookup rel = some y) : lib.FilesRelated Yaml.Settled x y := by
  rcases readYamlMapping_ok.mp read with ⟨absent, -⟩ | ⟨held, entries, same, reads, rfl⟩
  · rw [there] at absent
    cases absent
  · rcases readYamlMapping_ok.mp readToo with ⟨absent, -⟩ | ⟨heldToo, others, sameToo, readsToo, alike⟩
    · rw [thereToo] at absent
      cases absent
    · obtain rfl := Option.some.inj (there.symm.trans same)
      obtain rfl := Option.some.inj (thereToo.symm.trans sameToo)
      exact .of_sorted reads readsToo (Option.some.inj alike)

end

theorem readYamlMapping_isSome {files : RepoFiles} {rel : String} {found : Option Yaml.Value}
    (read : lib.readYamlMapping files rel = .ok found) : found.isSome = (files.lookup rel).isSome := by
  rcases readYamlMapping_ok.mp read with ⟨absent, rfl⟩ | ⟨bytes, entries, there, -, rfl⟩
  · rw [absent]
    rfl
  · rw [there]
    rfl

/-- The scope of a project under its name, when the repo has one. -/
def HasScope (lib : RepoLibrary Expr) (files : RepoFiles) (name : String) (scope : Option (Yaml.Key × Yaml.Value)) : Prop :=
  ∃ found, lib.readYamlMapping files ("projects/" ++ name ++ "/base.chain.yaml") = .ok found ∧
    scope = found.map (Yaml.Key.string name, ·)

theorem readProjects_ok {files : RepoFiles} {projects : Mapping} :
    lib.readProjects files = .ok projects ↔
      ∃ scopes, List.Forall₂ (lib.HasScope files) files.projectNames scopes ∧ projects = scopes.reduceOption := by
  have scope_iff (name : String) (scope : Option (Yaml.Key × Yaml.Value)) :
      (lib.readYamlMapping files ("projects/" ++ name ++ "/base.chain.yaml")).map
          (fun scope => scope.map fun scope => (Yaml.Key.string name, scope)) = .ok scope ↔
        lib.HasScope files name scope := by
    rw [Fallible.map_ok, HasScope]
    exact exists_congr fun found => and_congr_right fun _ => eq_comm
  rw [readProjects, Fallible.bind_ok]
  constructor
  · rintro ⟨scopes, read, taken⟩
    refine ⟨scopes, ?_, (Except.ok.inj taken).symm⟩
    exact (Fallible.forall₂_of_mapM_ok read).imp fun name scope => (scope_iff name scope).mp
  · rintro ⟨scopes, each, rfl⟩
    refine ⟨scopes, Fallible.mapM_ok_of_forall₂ ?_, rfl⟩
    exact each.imp fun name scope => (scope_iff name scope).mpr

theorem readRoutes_ok {files : RepoFiles} {routes : List Yaml.Value} :
    lib.readRoutes files = .ok routes ↔
      List.Forall₂ (fun file route => ∃ value, lib.Reads file.2 value ∧ Yaml.sortedValue value = route)
        files.routeFiles routes := by
  have route_iff (file : String × List UInt8) (route : Yaml.Value) :
      (lib.parseYamlValue file.2 ("routes/" ++ file.1)).map Yaml.sortedValue = .ok route ↔
        ∃ value, lib.Reads file.2 value ∧ Yaml.sortedValue value = route := by
    rw [Fallible.map_ok]
    exact exists_congr fun value => and_congr_left fun _ => parseYamlValue_ok
  rw [readRoutes]
  constructor
  · intro read
    exact (Fallible.forall₂_of_mapM_ok read).imp fun file route => (route_iff file route).mp
  · intro each
    exact Fallible.mapM_ok_of_forall₂ (each.imp fun file route => (route_iff file route).mpr)

/-! ### Repos with the same paths -/

section

variable {a b : RepoFiles} (paths : a.map (·.1) = b.map (·.1))

include paths

theorem lookup_isSome (rel : String) : (a.lookup rel).isSome = (b.lookup rel).isSome := by
  have known (files : RepoFiles) : (files.lookup rel).isSome = (files.map (·.1)).contains rel := by
    induction files with
    | nil => rfl
    | cons file rest ih =>
      rw [List.lookup_cons, List.map_cons, List.contains_cons, ← ih]
      cases rel == file.1 <;> rfl
  rw [known, known, paths]

theorem entriesUnder_paths (dir : String) :
    (RepoFiles.entriesUnder a dir).map (·.1) = (RepoFiles.entriesUnder b dir).map (·.1) := by
  have known (files : RepoFiles) : (files.entriesUnder dir).map (·.1) =
      (files.map (·.1)).filterMap fun path =>
        ((dir ++ "/").toList.isPrefixOf? path.toList).bind fun rest =>
          if rest.isEmpty then none else some (String.ofList rest) := by
    rw [RepoFiles.entriesUnder, List.map_filterMap, List.filterMap_map]
    refine List.filterMap_congr fun file _ => ?_
    dsimp only [Function.comp_apply]
    rcases (dir ++ "/").toList.isPrefixOf? file.1.toList with _ | _ | ⟨c, rest⟩ <;> rfl
  rw [known, known, paths]

theorem projectNames_eq : RepoFiles.projectNames a = RepoFiles.projectNames b := by
  have known (files : RepoFiles) : files.projectNames =
      ((((files.entriesUnder "projects").map (·.1)).filterMap fun rel =>
        if rel.toList.contains '/' then some (String.ofList (rel.toList.takeWhile (· != '/')))
        else none).eraseDups).insertionSort (· ≤ ·) := by
    rw [RepoFiles.projectNames, List.filterMap_map]
    rfl
  rw [known, known, entriesUnder_paths paths]

end

theorem hasScopes_gaps {files : RepoFiles} {names : List String} {scopes : List (Option (Yaml.Key × Yaml.Value))}
    (each : List.Forall₂ (lib.HasScope files) names scopes) :
    scopes.map Option.isSome =
      names.map fun name => (files.lookup ("projects/" ++ name ++ "/base.chain.yaml")).isSome := by
  induction each with
  | nil => rfl
  | cons one _ ih =>
    obtain ⟨found, read, rfl⟩ := one
    rw [List.map_cons, List.map_cons, ih, Option.isSome_map, readYamlMapping_isSome read]

/-- Which scopes there are is up to the paths. -/
theorem hasScopes_gaps_eq {a b : RepoFiles} (paths : a.map (·.1) = b.map (·.1))
    {scopes scopesToo : List (Option (Yaml.Key × Yaml.Value))}
    (each : List.Forall₂ (lib.HasScope a) a.projectNames scopes)
    (eachToo : List.Forall₂ (lib.HasScope b) b.projectNames scopesToo) :
    scopes.map Option.isSome = scopesToo.map Option.isSome := by
  rw [hasScopes_gaps each, hasScopes_gaps eachToo, projectNames_eq paths]
  exact List.map_congr_left fun name _ => lookup_isSome paths _

/-! ### One document for two repos -/

theorem ReposAlike.paths {a b : RepoFiles} (alike : lib.ReposAlike a b) : a.map (·.1) = b.map (·.1) := by
  induction alike with
  | nil => rfl
  | cons one _ ih => rw [List.map_cons, List.map_cons, one.1, ih]

section

variable {a b : RepoFiles} (paths : a.map (·.1) = b.map (·.1))

include paths

/-- Repos whose fragments are settled are assembled from the same parts. -/
theorem HasParts.of_settled (settled : lib.FragmentsSettled a b) {parts : Parts} (has : lib.HasParts a parts) :
    lib.HasParts b parts := by
  have part {rel : String} {found : Option Yaml.Value} (listed : rel ∈ fragmentPaths a)
      (read : lib.readYamlMapping a rel = .ok found) : lib.readYamlMapping b rel = .ok found :=
    readYamlMapping_of_settled read (lookup_isSome paths rel) (settled.parts rel listed)
  have project {name : String} (listed : name ∈ RepoFiles.projectNames a) :
      "projects/" ++ name ++ "/base.chain.yaml" ∈ fragmentPaths a :=
    List.mem_append_right _ (List.mem_map_of_mem listed)
  refine ⟨part (by simp [fragmentPaths]) has.providers, part (by simp [fragmentPaths]) has.fleet, ?_, ?_,
    has.someRoute, part (by simp [fragmentPaths]) has.apps, part (by simp [fragmentPaths]) has.rejections,
    part (by simp [fragmentPaths]) has.auth⟩
  · obtain ⟨scopes, each, same⟩ := readProjects_ok.mp has.projects
    refine readProjects_ok.mpr ⟨scopes, ?_, same⟩
    rw [← projectNames_eq paths]
    refine List.forall₂_iff_zip.mpr ⟨each.length_eq, fun {name scope} zipped => ?_⟩
    obtain ⟨found, read, rfl⟩ := (List.forall₂_iff_zip.mp each).2 zipped
    exact ⟨found, part (project (List.of_mem_zip zipped).1) read, rfl⟩
  · have read := readRoutes_ok.mp has.routes
    refine readRoutes_ok.mpr ((Fallible.forall₂_comp settled.routes.flip read).imp ?_)
    rintro file route ⟨fileToo, related, value, reads, rfl⟩
    obtain ⟨other, readsToo, same⟩ := FilesRelated.sorted related reads
    exact ⟨other, readsToo, same⟩

/-- Two repos with the same parts have settled fragments. -/
theorem FragmentsSettled.of_parts {parts : Parts} (has : lib.HasParts a parts) (hasToo : lib.HasParts b parts) :
    lib.FragmentsSettled a b := by
  refine ⟨fun path listed => ?_, ?_⟩
  · rcases List.mem_append.mp listed with named | project
    · simp only [List.mem_cons, List.not_mem_nil, or_false] at named
      rcases named with rfl | rfl | rfl | rfl | rfl
      · exact settled_of_readYamlMapping has.providers hasToo.providers
      · exact settled_of_readYamlMapping has.fleet hasToo.fleet
      · exact settled_of_readYamlMapping has.apps hasToo.apps
      · exact settled_of_readYamlMapping has.rejections hasToo.rejections
      · exact settled_of_readYamlMapping has.auth hasToo.auth
    · obtain ⟨name, known, rfl⟩ := List.mem_map.mp project
      obtain ⟨scopes, each, same⟩ := readProjects_ok.mp has.projects
      obtain ⟨scopesToo, eachToo, sameToo⟩ := readProjects_ok.mp hasToo.projects
      obtain rfl := Fallible.eq_of_reduceOption (hasScopes_gaps_eq paths each eachToo) (same.symm.trans sameToo)
      rw [← projectNames_eq paths] at eachToo
      rw [← List.map_fst_zip each.length_eq.le] at known
      obtain ⟨⟨name, scope⟩, zipped, rfl⟩ := List.mem_map.mp known
      obtain ⟨found, read, here⟩ := (List.forall₂_iff_zip.mp each).2 zipped
      obtain ⟨foundToo, readToo, hereToo⟩ := (List.forall₂_iff_zip.mp eachToo).2 zipped
      have alike : found = foundToo :=
        Option.map_injective (Prod.mk_right_injective _) (here.symm.trans hereToo)
      exact settled_of_readYamlMapping read (alike ▸ readToo)
  · have read := readRoutes_ok.mp has.routes
    have readToo := readRoutes_ok.mp hasToo.routes
    refine (Fallible.forall₂_comp read readToo.flip).imp ?_
    rintro file fileToo ⟨route, ⟨value, reads, sorted⟩, other, readsToo, sortedToo⟩
    exact .of_sorted reads readsToo (sorted.trans sortedToo.symm)

end

/-- An entry with its value in sorted form. -/
def sortedPart (entry : Yaml.Key × Yaml.Value) : Yaml.Key × Yaml.Value := (entry.1, Yaml.sortedValue entry.2)

theorem sortedEntries_reduceOption (entries : List (Option (Yaml.Key × Yaml.Value))) :
    Yaml.sortedEntries entries.reduceOption = (entries.map (Option.map sortedPart)).reduceOption := by
  rw [Yaml.sortedEntries_eq, List.reduceOption_map]
  rfl

/-- Entries that stand under the same keys, with the same gaps, are sorted to one mapping only where their values are
    sorted to the same. -/
theorem sortedParts_eq {entries entriesToo : List (Option (Yaml.Key × Yaml.Value))}
    (keys : entries.map (Option.map (·.1)) = entriesToo.map (Option.map (·.1)))
    (same : Yaml.sortedValue (.mapping entries.reduceOption) = Yaml.sortedValue (.mapping entriesToo.reduceOption)) :
    entries.map (Option.map sortedPart) = entriesToo.map (Option.map sortedPart) := by
  rw [Yaml.sortedValue_mapping, Yaml.sortedValue_mapping, Yaml.Value.mapping.injEq, sortedEntries_reduceOption,
    sortedEntries_reduceOption] at same
  have names (entries : List (Option (Yaml.Key × Yaml.Value))) :
      ((entries.map (Option.map sortedPart)).reduceOption).map (·.1) =
        (entries.map (Option.map (·.1))).reduceOption := by
    rw [List.reduceOption_map, List.reduceOption_map, List.map_map]
    rfl
  have gaps (entries : List (Option (Yaml.Key × Yaml.Value))) :
      (entries.map (Option.map sortedPart)).map Option.isSome =
        (entries.map (Option.map (·.1))).map Option.isSome := by
    simp
  refine Fallible.eq_of_reduceOption (by rw [gaps, gaps, keys]) (Sorting.eq_of_sortBy ?_ same)
  have texts := congrArg (List.map Yaml.Key.text) (congrArg List.reduceOption keys)
  rw [← names, ← names, List.map_map, List.map_map] at texts
  exact texts

theorem projects_keys {files : RepoFiles} {projects : Mapping} (read : lib.readProjects files = .ok projects) :
    projects.map (·.1) =
      (files.projectNames.filter fun name =>
        (files.lookup ("projects/" ++ name ++ "/base.chain.yaml")).isSome).map Yaml.Key.string := by
  obtain ⟨scopes, each, rfl⟩ := readProjects_ok.mp read
  clear read
  generalize files.projectNames = names at each ⊢
  induction each with
  | nil => rfl
  | @cons name scope names scopes one _ ih =>
    obtain ⟨found, read, rfl⟩ := one
    rw [List.filter_cons, ← readYamlMapping_isSome read]
    cases found with
    | none => exact ih
    | some value => exact congrArg (Yaml.Key.string name :: ·) ih

theorem projects_sorted {files : RepoFiles} {projects : Mapping} (read : lib.readProjects files = .ok projects) :
    Yaml.sortedEntries projects = projects := by
  obtain ⟨scopes, each, rfl⟩ := readProjects_ok.mp read
  rw [sortedEntries_reduceOption]
  congr 1
  clear read
  generalize files.projectNames = names at each
  induction each with
  | nil => rfl
  | cons one _ ih =>
    obtain ⟨found, read, rfl⟩ := one
    rw [List.map_cons, ih, Option.map_map]
    have sorted := readYamlMapping_sorted read
    cases found with
    | none => rfl
    | some value =>
      rw [Option.map_some, Option.some.injEq] at sorted
      simp [sortedPart, sorted]

theorem routes_sorted {files : RepoFiles} {routes : List Yaml.Value} (read : lib.readRoutes files = .ok routes) :
    routes.map Yaml.sortedValue = routes := by
  have each := readRoutes_ok.mp read
  clear read
  generalize files.routeFiles = routeFiles at each
  induction each with
  | nil => rfl
  | cons one _ ih =>
    obtain ⟨value, reads, rfl⟩ := one
    rw [List.map_cons, Yaml.sortedValue_idem, ih]

/-- A document can be taken apart again once it is sorted. -/
theorem HasParts.eq_of_sorted {a b : RepoFiles} (paths : a.map (·.1) = b.map (·.1)) {parts partsToo : Parts}
    (has : lib.HasParts a parts) (hasToo : lib.HasParts b partsToo)
    (same : Yaml.sortedValue (.mapping parts.doc) = Yaml.sortedValue (.mapping partsToo.doc)) : parts = partsToo := by
  have present {rel : String} {found foundToo : Option Yaml.Value} (read : lib.readYamlMapping a rel = .ok found)
      (readToo : lib.readYamlMapping b rel = .ok foundToo) (key : Yaml.Key) :
      found.map (fun _ => key) = foundToo.map (fun _ => key) := by
    have gap : found.isSome = foundToo.isSome := by
      rw [readYamlMapping_isSome read, readYamlMapping_isSome readToo, lookup_isSome paths]
    cases found <;> cases foundToo <;> first | rfl | cases gap
  have projects : parts.projects.map (·.1) = partsToo.projects.map (·.1) := by
    rw [projects_keys has.projects, projects_keys hasToo.projects, projectNames_eq paths]
    simp only [lookup_isSome paths]
  have noProjects : parts.projects.isEmpty = partsToo.projects.isEmpty := by
    rw [← List.isEmpty_map (f := (·.1)), projects, List.isEmpty_map]
  have keys : parts.entries.map (Option.map (·.1)) = partsToo.entries.map (Option.map (·.1)) := by
    simp only [Parts.entries, List.map_cons, List.map_nil, Option.map_some, Option.map_map, noProjects,
      Function.comp_def, present has.fleet hasToo.fleet, present has.apps hasToo.apps, present has.auth hasToo.auth]
    split <;> rfl
  have values := sortedParts_eq keys same
  simp only [Parts.entries, List.map_cons, List.map_nil, Option.map_some, Option.map_map, sortedPart, List.cons.injEq,
    Option.some.injEq, Prod.mk.injEq, true_and, and_true] at values
  obtain ⟨sameProviders, sameFleet, sameProjects, sameRoutes, sameApps, sameRejections, sameAuth⟩ := values
  -- A part that was read as a mapping is in sorted form already.
  have optional {name : String} {rel : String} {found foundToo : Option Yaml.Value}
      (read : lib.readYamlMapping a rel = .ok found) (readToo : lib.readYamlMapping b rel = .ok foundToo)
      (alike : found.map (sortedPart ∘ fun value => (Yaml.Key.string name, value)) =
        foundToo.map (sortedPart ∘ fun value => (Yaml.Key.string name, value))) : found = foundToo := by
    have values := congrArg (Option.map (·.2)) alike
    rw [Option.map_map, Option.map_map] at values
    exact (readYamlMapping_sorted read).symm.trans (values.trans (readYamlMapping_sorted readToo))
  have required {value other : Yaml.Value} {rel : String} (read : lib.readYamlMapping a rel = .ok (some value))
      (readToo : lib.readYamlMapping b rel = .ok (some other))
      (alike : Yaml.sortedValue value = Yaml.sortedValue other) : value = other := by
    have sorted := readYamlMapping_sorted read
    have sortedToo := readYamlMapping_sorted readToo
    rw [Option.map_some, Option.some.injEq] at sorted sortedToo
    rw [← sorted, alike, sortedToo]
  have projectsEq : parts.projects = partsToo.projects := by
    cases none : partsToo.projects.isEmpty with
    | true => rw [List.isEmpty_iff.mp none, List.isEmpty_iff.mp (noProjects.trans none)]
    | false =>
      simp only [noProjects, none, Bool.false_eq_true, if_false, Option.map_some, sortedPart, Option.some.injEq,
        Prod.mk.injEq, true_and, Yaml.sortedValue_mapping, Yaml.Value.mapping.injEq, projects_sorted has.projects,
        projects_sorted hasToo.projects] at sameProjects
      refine Sorting.eq_of_sortBy ?_ sameProjects
      have texts := congrArg (List.map Yaml.Key.text) projects
      rwa [List.map_map, List.map_map] at texts
  have routesEq : parts.routes = partsToo.routes := by
    rw [Yaml.sortedValue_sequence, Yaml.sortedValue_sequence, routes_sorted has.routes,
      routes_sorted hasToo.routes] at sameRoutes
    exact Yaml.Value.sequence.inj sameRoutes
  cases parts
  cases partsToo
  rw [Parts.mk.injEq]
  exact ⟨required has.providers hasToo.providers sameProviders, optional has.fleet hasToo.fleet sameFleet, projectsEq,
    routesEq, optional has.apps hasToo.apps sameApps, required has.rejections hasToo.rejections sameRejections,
    optional has.auth hasToo.auth sameAuth⟩

/-! ### Renders -/

theorem canonicalText_ok {doc : Mapping} {flat : String} :
    lib.canonicalText doc = .ok flat ↔ lib.write (Yaml.sortedValue (.mapping doc)) = .ok flat := by
  unfold canonicalText
  cases lib.write (Yaml.sortedValue (.mapping doc)) <;> simp [Except.mapError]

theorem flatFor_ok {files : RepoFiles} {labels : Option Labels} {flat : String} :
    lib.texts.flatFor files labels = .ok flat ↔
      ∃ doc, lib.document files labels = .ok doc ∧ lib.canonicalText doc = .ok flat ∧
        ∃ finalized, lib.fromYaml flat = .ok finalized := by
  have valid (doc : Mapping) : lib.validText doc = .ok flat ↔
      lib.canonicalText doc = .ok flat ∧ ∃ finalized, lib.fromYaml flat = .ok finalized := by
    unfold validText
    constructor
    · intro made
      obtain ⟨text, written, made⟩ := Fallible.bind_ok.mp made
      obtain ⟨finalized, accepted, made⟩ := Fallible.bind_ok.mp made
      obtain rfl := Except.ok.inj made
      refine ⟨written, finalized, ?_⟩
      cases known : lib.fromYaml text <;> rw [known] at accepted <;> cases accepted
      rfl
    · rintro ⟨written, finalized, accepted⟩
      refine Fallible.bind_ok.mpr ⟨flat, written, Fallible.bind_ok.mpr ⟨finalized, ?_, rfl⟩⟩
      rw [accepted]
      rfl
  have parts : lib.texts.flatFor files labels = lib.document files labels >>= lib.validText := by
    simp only [texts, document, bind_assoc, pure_bind]
    rfl
  rw [parts, Fallible.bind_ok]
  exact exists_congr fun doc => and_congr_right fun _ => valid doc

/-- A repo has the render of another one when it has the text of it. -/
theorem renders_iff {a b : ResolvedRepo} {labels : Option Labels} {flat : String} :
    (∃ other, (lib.texts.flatFor b.files labels).map (lib.texts.finalize b) = .ok other ∧
        SameRender (lib.texts.finalize a flat) other) ↔ lib.texts.flatFor b.files labels = .ok flat := by
  constructor
  · rintro ⟨other, made, bytes, -⟩
    obtain ⟨text, flatMade, rfl⟩ := Fallible.map_ok.mp made
    rw [flatMade, Text.bytes_injective bytes]
  · intro made
    exact ⟨lib.texts.finalize b flat, Fallible.map_ok.mpr ⟨flat, made, rfl⟩, rfl, rfl⟩

/-- For a text that is a render of the first repo: the second one renders to it exactly when its document is equal to
    that of the first up to the order of entries that sorting tells apart. -/
theorem flatFor_iff_settled (writes : lib.WritesInOrder) {a b : RepoFiles} {labels : Option Labels} {doc : Mapping}
    {flat : String} (assembled : lib.document a labels = .ok doc) (made : lib.texts.flatFor a labels = .ok flat) :
    lib.texts.flatFor b labels = .ok flat ↔
      ∃ other, lib.document b labels = .ok other ∧ Yaml.Settled (.mapping doc) (.mapping other) := by
  obtain ⟨docToo, assembledToo, written, accepted⟩ := flatFor_ok.mp made
  obtain rfl := Except.ok.inj (assembled.symm.trans assembledToo)
  rw [canonicalText_ok] at written
  rw [flatFor_ok]
  refine exists_congr fun other => and_congr_right fun _ => ?_
  rw [canonicalText_ok, ← Yaml.sortedValue_eq_iff]
  constructor
  · rintro ⟨writtenToo, -⟩
    exact writes.apart _ _ flat written writtenToo
  · intro same
    exact ⟨same ▸ written, accepted⟩

theorem document_none (files : RepoFiles) : lib.document files none = lib.assembleFlatDoc files := bind_pure _

theorem document_some {files : RepoFiles} {labels : Labels} {doc : Mapping}
    (assembled : lib.assembleFlatDoc files = .ok doc) :
    lib.document files (some labels) = .ok (stamp (lib.setsOf files) doc labels) := by
  rw [document, assembled]
  rfl

/-- Settled fragments are assembled to one document. -/
theorem assembleFlatDoc_of_settled {a b : RepoFiles} (paths : a.map (·.1) = b.map (·.1)) {doc : Mapping}
    (settled : lib.FragmentsSettled a b) (assembled : lib.assembleFlatDoc a = .ok doc) :
    lib.assembleFlatDoc b = .ok doc := by
  obtain ⟨parts, has, rfl⟩ := assembleFlatDoc_ok.mp assembled
  exact assembleFlatDoc_ok.mpr ⟨parts, has.of_settled paths settled, rfl⟩

/-- Of two repos with the same paths, the fragments are settled exactly when the assembled documents are. -/
theorem fragmentsSettled_iff {a b : RepoFiles} (paths : a.map (·.1) = b.map (·.1)) {doc : Mapping}
    (assembled : lib.assembleFlatDoc a = .ok doc) :
    lib.FragmentsSettled a b ↔
      ∃ other, lib.assembleFlatDoc b = .ok other ∧ Yaml.Settled (.mapping doc) (.mapping other) := by
  constructor
  · intro settled
    exact ⟨doc, assembleFlatDoc_of_settled paths settled assembled, .refl _⟩
  · rintro ⟨other, assembledToo, settled⟩
    obtain ⟨parts, has, rfl⟩ := assembleFlatDoc_ok.mp assembled
    obtain ⟨partsToo, hasToo, rfl⟩ := assembleFlatDoc_ok.mp assembledToo
    obtain rfl := has.eq_of_sorted paths hasToo settled.sortedValue_eq
    exact .of_parts paths has hasToo

/-- Overlays that are settled make settled documents. -/
theorem OverlaysSettled.of_sets {a b : ResolvedRepo}
    (settled : List.Forall₂ GatewaySet.Settled (lib.setsOf a.files) (lib.setsOf b.files)) : lib.OverlaysSettled a b :=
  fun labels _ _ _ _ => stamp_settled settled (.refl _) labels

/-- A render that is read and made canonical again is as before. -/
theorem canonical_again (writes : lib.WritesInOrder) {files : RepoFiles} {labels : Option Labels} {flat : String}
    {value : Yaml.Value} (made : lib.texts.flatFor files labels = .ok flat) (parsed : lib.parse flat = .ok value) :
    ∃ entries, value = .mapping entries ∧ lib.canonicalText entries = .ok flat := by
  obtain ⟨doc, -, written, -⟩ := flatFor_ok.mp made
  rw [canonicalText_ok] at written
  obtain rfl := writes.back _ _ _ written parsed
  rw [Yaml.sortedValue_mapping] at written ⊢
  refine ⟨_, rfl, canonicalText_ok.mpr ?_⟩
  rwa [← Yaml.sortedValue_mapping, Yaml.sortedValue_idem, Yaml.sortedValue_mapping]

/-- Of two repos that are equal as documents up to the order of entries, the second one reproduces the renders of the
    first exactly when what differs is only the order of entries that sorting tells apart: outside tagged values, and
    between keys that are sorted by different texts. -/
theorem reproduces_iff (writes : lib.WritesInOrder) {a b : ResolvedRepo} (alike : lib.ReposAlike a.files b.files)
    {rendered : Rendered} (renders : lib.texts.renderResolved a = .ok rendered) :
    lib.Reproduces a b ↔ lib.FragmentsSettled a.files b.files ∧ lib.OverlaysSettled a b := by
  obtain ⟨flat, made, rfl⟩ := Fallible.map_ok.mp renders
  obtain ⟨doc, assembled, -, -⟩ := flatFor_ok.mp made
  rw [document_none] at assembled
  have fleet : lib.texts.flatFor b.files none = .ok flat ↔ lib.FragmentsSettled a.files b.files := by
    rw [fragmentsSettled_iff alike.paths assembled,
      flatFor_iff_settled writes ((document_none a.files).trans assembled) made, document_none]
  constructor
  · intro reproduces
    have settled := fleet.mp (renders_iff.mp (reproduces.fleet _ renders))
    refine ⟨settled, ?_⟩
    intro labels rendered docToo rendersNode assembledToo
    obtain rfl := Except.ok.inj (assembled.symm.trans assembledToo)
    obtain ⟨text, madeNode, rfl⟩ := Fallible.map_ok.mp rendersNode
    have same := renders_iff.mp (reproduces.nodes labels _ rendersNode)
    obtain ⟨other, stamped, settledNode⟩ :=
      (flatFor_iff_settled writes (document_some assembled) madeNode).mp same
    rw [document_some (assembleFlatDoc_of_settled alike.paths settled assembled)] at stamped
    obtain rfl := Except.ok.inj stamped
    exact settledNode
  · rintro ⟨settled, overlays⟩
    refine ⟨?_, ?_, fun labels flat value => canonical_again writes, ?_⟩
    · intro rendered rendersToo
      obtain ⟨text, madeToo, rfl⟩ := Fallible.map_ok.mp rendersToo
      obtain rfl := Except.ok.inj (made.symm.trans madeToo)
      exact renders_iff.mpr (fleet.mpr settled)
    · intro labels rendered rendersNode
      obtain ⟨text, madeNode, rfl⟩ := Fallible.map_ok.mp rendersNode
      have settledNode := overlays labels _ doc rendersNode assembled
      have assembledToo := assembleFlatDoc_of_settled alike.paths settled assembled
      exact renders_iff.mpr ((flatFor_iff_settled writes (document_some assembled) madeNode).mpr
        ⟨_, document_some assembledToo, settledNode⟩)
    · intro labels docToo places items _ there
      exact Yaml.sortedValue_order there

end RepoLibrary

/-! ### Two orders of one fragment -/

namespace TwoOrders

open TwoSets (named text readAmong)

def attribution : Mapping :=
  [(.string "headers", named [("team", .string "x-team")]), (.string "required_keys", .sequence [.string "team"])]

/-- The scope of the fleet. -/
def fleetDoc (attribution : Yaml.Value) : Yaml.Value := named [("attribution", attribution)]

def flatDoc (attribution : Yaml.Value) : Yaml.Value :=
  named [("fleet", fleetDoc attribution), ("providers", TwoSets.providersDoc), ("rejections", TwoSets.rejectionsDoc),
    ("routes", .sequence [TwoSets.routeDoc])]

/-- The two orders, and both under a tag. -/
def orders : List Yaml.Value :=
  [.mapping attribution, .mapping attribution.reverse, .tagged "scope" (.mapping attribution),
    .tagged "scope" (.mapping attribution.reverse)]

def docs : List Yaml.Value :=
  [TwoSets.providersDoc, TwoSets.rejectionsDoc, TwoSets.routeDoc] ++ orders.map fleetDoc ++ orders.map flatDoc

open Classical in
/-- The writer knows the flat documents, and every one of them is a config. -/
noncomputable def lib : RepoLibrary Empty :=
  { TwoSets.lib with
    parse := readAmong (docs.map fun doc => (doc, doc))
    write := fun doc => if doc ∈ orders.map flatDoc then .ok (text doc) else .error "unknown document"
    readConfig := fun flat =>
      (readAmong (orders.map fun order => (flatDoc order, order)) flat).map fun _ =>
        TwoSets.config [TwoSets.teamHeader] }

def files (order : Yaml.Value) : RepoFiles :=
  [("fleet/base.chain.yaml", (text (fleetDoc order)).toUTF8.toList),
    ("providers.yaml", (text TwoSets.providersDoc).toUTF8.toList),
    ("rejections.yaml", (text TwoSets.rejectionsDoc).toUTF8.toList),
    ("routes/r.route.yaml", (text TwoSets.routeDoc).toUTF8.toList)]

def repo (order : Yaml.Value) : ResolvedRepo := ⟨files order, "dir-0123456789abcdef"⟩

theorem docs_read {doc : Yaml.Value} (listed : doc ∈ docs) : lib.parse (text doc) = .ok doc :=
  TwoSets.readAmong_mem _ (by decide) (List.mem_map_of_mem listed)

theorem lib_write (order : Yaml.Value) (listed : order ∈ orders) :
    lib.write (flatDoc order) = .ok (text (flatDoc order)) :=
  if_pos (List.mem_map_of_mem listed)

theorem writes : lib.WritesInOrder := by
  have known {value : Yaml.Value} {flat : String} (written : lib.write value = .ok flat) :
      value ∈ docs ∧ flat = text value := by
    by_cases listed : value ∈ orders.map flatDoc
    · refine ⟨List.mem_append_right _ listed, ?_⟩
      exact Except.ok.inj (written.symm.trans (if_pos listed))
    · have refused : lib.write value = .error "unknown document" := if_neg listed
      rw [refused] at written
      cases written
  constructor
  · intro value other flat written writtenToo
    obtain ⟨listed, rfl⟩ := known written
    obtain ⟨listedToo, same⟩ := known writtenToo
    have read := docs_read listed
    rw [same, docs_read listedToo] at read
    exact (Except.ok.inj read).symm
  · intro value other flat written parsed
    obtain ⟨listed, rfl⟩ := known written
    exact Except.ok.inj (parsed.symm.trans (docs_read listed))

theorem accepted {order : Yaml.Value} (listed : order ∈ orders) :
    ∃ finalized, lib.fromYaml (text (flatDoc order)) = .ok finalized := by
  have read : lib.readConfig (text (flatDoc order)) = .ok (TwoSets.config [TwoSets.teamHeader]) := by
    have found := TwoSets.readAmong_mem (orders.map fun order => (flatDoc order, order)) (by decide)
      (List.mem_map_of_mem listed)
    dsimp only [lib]
    rw [found, Except.map]
  have valid := (TwoSets.flats_valid _ List.mem_cons_self).1
  have compilers : lib.compilers = noExpressions := rfl
  rw [RepoLibrary.fromYaml, read]
  simp only [compilers, Config.finalize, valid, List.isEmpty_nil, if_true, Except.mapError]
  exact ⟨_, rfl⟩

/-- The document of the repo. -/
def parts (order : Yaml.Value) : RepoLibrary.Parts :=
  ⟨Yaml.sortedValue TwoSets.providersDoc, some (Yaml.sortedValue (fleetDoc order)), [],
    [Yaml.sortedValue TwoSets.routeDoc], none, Yaml.sortedValue TwoSets.rejectionsDoc, none⟩

theorem hasParts {order : Yaml.Value} (listed : order ∈ orders) : lib.HasParts (files order) (parts order) where
  providers := RepoLibrary.readYamlMapping_text rfl (docs_read (by simp [docs]))
  fleet := RepoLibrary.readYamlMapping_text rfl (docs_read (List.mem_append_left _ (List.mem_append_right _
    (List.mem_map_of_mem listed))))
  projects := RepoLibrary.readProjects_ok.mpr ⟨[], .nil, rfl⟩
  routes := RepoLibrary.readRoutes_ok.mpr (.cons ⟨TwoSets.routeDoc, ⟨text TwoSets.routeDoc, Text.fromUtf8?_bytes _,
    docs_read (by simp [docs])⟩, rfl⟩ .nil)
  someRoute := List.cons_ne_nil _ _
  apps := RepoLibrary.readYamlMapping_absent rfl
  rejections := RepoLibrary.readYamlMapping_text rfl (docs_read (by simp [docs]))
  auth := RepoLibrary.readYamlMapping_absent rfl

theorem assembled {order : Yaml.Value} (listed : order ∈ orders) :
    lib.assembleFlatDoc (files order) = .ok (parts order).doc :=
  RepoLibrary.assembleFlatDoc_ok.mpr ⟨parts order, hasParts listed, rfl⟩

/-- The fleet-wide render of a repo, given what its fragment is sorted to. -/
theorem renders {order sorted : Yaml.Value} (listed : order ∈ orders) (listedToo : sorted ∈ orders)
    (canonical : Yaml.sortedValue (.mapping (parts order).doc) = flatDoc sorted) :
    lib.texts.renderResolved (repo order) = .ok (lib.texts.finalize (repo order) (text (flatDoc sorted))) := by
  refine Fallible.map_ok.mpr ⟨_, RepoLibrary.flatFor_ok.mpr ⟨(parts order).doc, ?_, ?_, accepted listedToo⟩, rfl⟩
  · exact (RepoLibrary.document_none _).trans (assembled listed)
  · rw [RepoLibrary.canonicalText_ok, canonical]
    exact lib_write sorted listedToo

/-- The repos are equal as documents when the fragments are. -/
theorem alike {order other : Yaml.Value} (listed : order ∈ orders) (listedToo : other ∈ orders)
    (same : Yaml.Alike order other) : lib.ReposAlike (repo order).files (repo other).files := by
  have fleet {order : Yaml.Value} (listed : order ∈ orders) :
      lib.Reads (text (fleetDoc order)).toUTF8.toList (fleetDoc order) :=
    ⟨_, Text.fromUtf8?_bytes _, docs_read (List.mem_append_left _ (List.mem_append_right _
      (List.mem_map_of_mem listed)))⟩
  refine .cons ⟨rfl, .inr ⟨_, _, fleet listed, fleet listedToo, ?_⟩⟩ (.cons ⟨rfl, .inl rfl⟩
    (.cons ⟨rfl, .inl rfl⟩ (.cons ⟨rfl, .inl rfl⟩ .nil)))
  exact .entry [] (.string "attribution") [] same

end TwoOrders

/-- The entries of a fragment stand in the other order. -/
theorem reversed_fragment_reproduced :
    TwoOrders.lib.Reproduces (TwoOrders.repo (.mapping TwoOrders.attribution))
      (TwoOrders.repo (.mapping TwoOrders.attribution.reverse)) := by
  have listed : .mapping TwoOrders.attribution ∈ TwoOrders.orders := by simp [TwoOrders.orders]
  have listedToo : .mapping TwoOrders.attribution.reverse ∈ TwoOrders.orders := by simp [TwoOrders.orders]
  have same := TwoOrders.alike listed listedToo (.entries (List.reverse_perm _).symm)
  refine (RepoLibrary.reproduces_iff TwoOrders.writes same (TwoOrders.renders listed listed rfl)).mpr ⟨?_, ?_⟩
  · refine (RepoLibrary.fragmentsSettled_iff same.paths (TwoOrders.assembled listed)).mpr ?_
    exact ⟨_, TwoOrders.assembled listedToo, Yaml.sortedValue_eq_iff.mp rfl⟩
  · exact .of_sets .nil

/-- The entries inside a tagged value stand in the other order, and the render is another one. -/
theorem tagged_fragment_not_reproduced :
    ¬ ∀ (lib : RepoLibrary Empty) (a b : ResolvedRepo), lib.WritesInOrder → lib.ReposAlike a.files b.files →
      lib.Reproduces a b := by
  intro claimed
  have listed : .tagged "scope" (.mapping TwoOrders.attribution) ∈ TwoOrders.orders := by simp [TwoOrders.orders]
  have listedToo : .tagged "scope" (.mapping TwoOrders.attribution.reverse) ∈ TwoOrders.orders := by
    simp [TwoOrders.orders]
  have same := TwoOrders.alike listed listedToo (.tagged "scope" rfl (.entries (List.reverse_perm _).symm))
  have reproduces := claimed TwoOrders.lib _ _ TwoOrders.writes same
  obtain ⟨other, made, bytes, -⟩ := reproduces.fleet _ (TwoOrders.renders listed listed rfl)
  rw [TwoOrders.renders listedToo listedToo rfl] at made
  obtain rfl := Except.ok.inj made
  have texts := Text.bytes_injective bytes
  revert texts
  decide +kernel

end SmallGateway
