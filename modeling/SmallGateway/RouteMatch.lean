import SmallGateway.Composition
import SmallGateway.Lib.Choice

/-!
Which route serves a request (`match_route` and `prefix_matches` in `gateway-core/src/config.rs`). Of the routes whose
prefix the path lies under and whose condition holds, the longest prefix is taken, then a route with a condition, then
the first one in the config (`matchRoute_first`). Only the order of routes with prefixes of one length, which both have
a condition or both have none, can decide (`match_route_specified`).
-/

namespace SmallGateway.Config

open Choice (maxByKey placedKey First chosen_first maxByKey_eq_none withKey_filter)

open Sorting (withKey mem_of_withKey)

variable {Expr : Type}

/-- The path lies under the prefix, at the boundary of a segment. -/
def prefixMatches (pathPrefix path : List Char) : Bool :=
  let trimmed := (pathPrefix.reverse.dropWhile (· == '/')).reverse
  trimmed.isEmpty || path == trimmed ||
    match trimmed.isPrefixOf? path with
    | some rest => rest.head? == some '/'
    | none => false

/-- The condition holds. One that cannot be evaluated does not. -/
def CompiledRoute.conditionHolds (evalBool : Expr → Except String Bool) (compiled : CompiledRoute Expr) : Bool :=
  match compiled.condition with
  | none => true
  | some condition => (evalBool condition).toOption.getD false

/-- What a route is preferred by: the length of its prefix, and then a condition. -/
def Route.rank (route : Route) : ℕ ×ₗ Bool :=
  toLex (Text.byteLen route.trimmedPrefix, route.condition.isSome)

/-- The routes that match, each with its place in the config. -/
def Finalized.candidates (evalBool : Expr → Except String Bool) (finalized : Finalized Expr) (path : List Char) :
    List ((Route × CompiledRoute Expr) × Nat) :=
  (finalized.routes.zipIdx.filter fun entry => prefixMatches entry.1.1.pathPrefix.toList path).filter fun entry =>
    entry.1.2.conditionHolds evalBool

/-- The route for a path, under an evaluation of the conditions. -/
def Finalized.matchRoute (evalBool : Expr → Except String Bool) (finalized : Finalized Expr) (path : String) :
    Option Route :=
  (maxByKey (placedKey fun entry => Route.rank entry.1) (finalized.candidates evalBool path.toList)).map fun entry =>
    entry.1.1

/-! ### Routes that match -/

/-- The path lies under the prefix: it is the prefix, or goes on after it with a slash. Everything lies under the empty
    prefix. -/
def Under (trimmed path : List Char) : Prop := trimmed = [] ∨ path = trimmed ∨ ∃ rest, path = trimmed ++ '/' :: rest

/-- The route can serve the path: it lies under the prefix, and the condition evaluates to true. -/
structure Route.Matches (lib : Compilers Expr) (evalBool : Expr → Except String Bool) (path : List Char)
    (route : Route) : Prop where
  under : Under route.trimmedPrefix path
  holds : ∀ source, route.condition = some source →
    ∃ condition, lib.compile source .condition = .ok condition ∧ evalBool condition = .ok true

/-- The route is preferred to the other one: by a longer prefix, or by a condition at the same length. -/
def Route.Preferred (route other : Route) : Prop :=
  Text.byteLen other.trimmedPrefix < Text.byteLen route.trimmedPrefix ∨
    Text.byteLen other.trimmedPrefix = Text.byteLen route.trimmedPrefix ∧ route.condition.isSome = true ∧
      other.condition = none

/-- The route matches, no matching route is preferred to it, and it is preferred to every one before it. -/
structure Selected (lib : Compilers Expr) (evalBool : Expr → Except String Bool) (routes : List Route)
    (path : List Char) (route : Route) : Prop where
  fits : route.Matches lib evalBool path
  best : ∀ other ∈ routes, other.Matches lib evalBool path → ¬ other.Preferred route
  first : ∃ before after, routes = before ++ route :: after ∧
    ∀ other ∈ before, other.Matches lib evalBool path → route.Preferred other

theorem prefixMatches_iff {pathPrefix path : List Char} :
    prefixMatches pathPrefix path = true ↔
      Under (pathPrefix.reverse.dropWhile (· == '/')).reverse path := by
  generalize trimmed : (pathPrefix.reverse.dropWhile (· == '/')).reverse = p
  simp only [prefixMatches, trimmed, Under, Bool.or_eq_true, List.isEmpty_iff, beq_iff_eq, or_assoc]
  refine or_congr_right (or_congr_right ?_)
  cases found : p.isPrefixOf? path with
  | none =>
    refine iff_of_false (by simp) ?_
    rintro ⟨rest, rfl⟩
    have read : p.isPrefixOf? (p ++ '/' :: rest) = some ('/' :: rest) := List.isPrefixOf?_eq_some_iff_append_eq.mpr rfl
    rw [read] at found
    cases found
  | some rest =>
    obtain rfl := List.isPrefixOf?_eq_some_iff_append_eq.mp found
    cases rest <;> simp

theorem rank_lt_iff {route other : Route} : other.rank < route.rank ↔ route.Preferred other := by
  rw [Route.rank, Route.rank, Prod.Lex.toLex_lt_toLex, Route.Preferred]
  cases route.condition <;> cases other.condition <;> simp

section

variable {lib : Compilers Expr} {cfg : Config} {finalized : Finalized Expr} {evalBool : Expr → Except String Bool}

/-- The route is a candidate for the path. -/
def eligible (lib : Compilers Expr) (cfg : Config) (evalBool : Expr → Except String Bool) (path : List Char)
    (route : Route) : Bool :=
  prefixMatches route.pathPrefix.toList path && (compileRoute lib cfg route).conditionHolds evalBool

/-- A route without errors is a candidate exactly when it matches: its condition has been compiled. -/
theorem eligible_iff {path : List Char} {route : Route} (clean : checkRoute lib cfg route = []) :
    eligible lib cfg evalBool path route = true ↔ route.Matches lib evalBool path := by
  simp only [checkRoute, List.append_eq_nil_iff] at clean
  have compiles := clean.1.1.2
  rw [eligible, Bool.and_eq_true, prefixMatches_iff, CompiledRoute.conditionHolds, compileRoute]
  cases condition : route.condition with
  | none =>
    refine ⟨fun ⟨under, _⟩ => ⟨under, by simp [condition]⟩, fun fits => ⟨fits.under, rfl⟩⟩
  | some source =>
    rw [condition] at compiles
    cases compiled : lib.compile source .condition with
    | error e => simp [compiled, refused] at compiles
    | ok expr =>
      constructor
      · rintro ⟨under, holds⟩
        refine ⟨under, fun other same => ?_⟩
        obtain rfl := Option.some.inj (condition.symm.trans same)
        cases evaluated : evalBool expr with
        | error e => simp [compiled, evaluated, Except.toOption] at holds
        | ok value =>
          obtain rfl : value = true := by simpa [compiled, evaluated, Except.toOption] using holds
          exact ⟨expr, compiled, evaluated⟩
      · intro fits
        obtain ⟨other, same, holds⟩ := fits.holds source condition
        obtain rfl := Except.ok.inj (compiled.symm.trans same)
        exact ⟨fits.under, by simp [compiled, holds, Except.toOption]⟩

theorem candidates_map (evalBool : Expr → Except String Bool) (finalized : Finalized Expr) (path : List Char) :
    (finalized.candidates evalBool path).map (·.1) =
      finalized.routes.filter fun entry =>
        entry.2.conditionHolds evalBool && prefixMatches entry.1.pathPrefix.toList path := by
  have placed : finalized.routes = finalized.routes.zipIdx.map (·.1) := (List.zipIdx_map_fst 0 _).symm
  conv_rhs => rw [placed]
  rw [Finalized.candidates, List.filter_filter, List.filter_map]
  rfl

theorem candidates_ordered (finalized : Finalized Expr) (path : List Char) :
    (finalized.candidates evalBool path).Pairwise fun x y => x.2 < y.2 := by
  have places : finalized.routes.zipIdx.Pairwise fun x y => x.2 < y.2 := by
    rw [← List.pairwise_map (f := Prod.snd) (R := (· < ·)), List.zipIdx_map_snd]
    exact List.pairwise_lt_range'
  exact (places.filter _).filter _

theorem accepted_clean (accepted : finalize lib cfg = .ok finalized) :
    ∀ route ∈ cfg.routes, checkRoute lib cfg route = [] := by
  have none := (finalize_ok accepted).1
  simp only [configErrors, List.append_eq_nil_iff] at none
  exact fun route listed => (routeErrors_nil none.1.2 route listed).1

/-- The candidates are the routes of the config that match. -/
theorem mem_eligible (accepted : finalize lib cfg = .ok finalized) {path : List Char} {route : Route} :
    route ∈ cfg.routes.filter (eligible lib cfg evalBool path) ↔
      route ∈ cfg.routes ∧ route.Matches lib evalBool path := by
  rw [List.mem_filter]
  exact and_congr_right fun listed => eligible_iff (accepted_clean accepted route listed)

theorem candidates_routes (accepted : finalize lib cfg = .ok finalized) (path : List Char) :
    (finalized.candidates evalBool path).map (fun entry => entry.1.1) =
      cfg.routes.filter (eligible lib cfg evalBool path) := by
  have routes := congrArg (List.map Prod.fst) (candidates_map evalBool finalized path)
  rw [List.map_map, (finalize_ok accepted).2, List.filter_map, List.map_map] at routes
  rw [(finalize_ok accepted).2]
  refine routes.trans ?_
  have plain : (Prod.fst ∘ fun route => (route, compileRoute lib cfg route)) = (id : Route → Route) := rfl
  rw [plain, List.map_id]
  refine List.filter_congr fun route _ => ?_
  exact Bool.and_comm _ _

/-- The route that is taken is the first of those with the greatest rank that are candidates. -/
theorem matchRoute_first (accepted : finalize lib cfg = .ok finalized) {path : String} {route : Route}
    (taken : finalized.matchRoute evalBool path = some route) :
    First Route.rank (cfg.routes.filter (eligible lib cfg evalBool path.toList)) route := by
  obtain ⟨entry, chosen, rfl⟩ := Option.map_eq_some_iff.mp taken
  have first := (chosen_first (candidates_ordered _ _) chosen).map Route.rank Prod.fst
  rw [List.map_map] at first
  rw [← candidates_routes accepted]
  exact first

theorem matchRoute_eq_none (accepted : finalize lib cfg = .ok finalized) {path : String} :
    finalized.matchRoute evalBool path = none ↔
      cfg.routes.filter (eligible lib cfg evalBool path.toList) = [] := by
  rw [Finalized.matchRoute, Option.map_eq_none_iff, maxByKey_eq_none, ← candidates_routes accepted, List.map_eq_nil_iff]

/-- A route is selected exactly when it is the first of the greatest candidates. -/
theorem selected_iff (accepted : finalize lib cfg = .ok finalized) {path : List Char} {route : Route} :
    Selected lib evalBool cfg.routes path route ↔
      First Route.rank (cfg.routes.filter (eligible lib cfg evalBool path)) route := by
  constructor
  · intro selected
    obtain ⟨before, after, parts, first⟩ := selected.first
    have listed : route ∈ cfg.routes := by simp [parts]
    have chosen := (mem_eligible accepted).mpr ⟨listed, selected.fits⟩
    have fits {other : Route} (among : other ∈ cfg.routes) (candidate : eligible lib cfg evalBool path other = true) :
        other.Matches lib evalBool path :=
      ((mem_eligible accepted).mp (List.mem_filter.mpr ⟨among, candidate⟩)).2
    refine ⟨before.filter (eligible lib cfg evalBool path), after.filter (eligible lib cfg evalBool path), ?_, ?_, ?_⟩
    · rw [parts, List.filter_append, List.filter_cons_of_pos (List.mem_filter.mp chosen).2]
    · intro other among
      obtain ⟨early, candidate⟩ := List.mem_filter.mp among
      exact rank_lt_iff.mpr (first other early (fits (by simp [parts, early]) candidate))
    · intro other among
      obtain ⟨late, candidate⟩ := List.mem_filter.mp among
      have there : other ∈ cfg.routes := by simp [parts, late]
      exact not_lt.mp (rank_lt_iff.not.mpr (selected.best other there (fits there candidate)))
  · intro first
    obtain ⟨listed, fits⟩ := (mem_eligible accepted).mp first.mem
    refine ⟨fits, fun other there matching => ?_, ?_⟩
    · rw [← rank_lt_iff, not_lt]
      exact first.le other ((mem_eligible accepted).mpr ⟨there, matching⟩)
    · obtain ⟨before, after, parts, below⟩ := first.of_filter
      refine ⟨before, after, parts, fun other early matching => rank_lt_iff.mp (below other early ?_)⟩
      have there : other ∈ cfg.routes := by simp [parts, early]
      exact (List.mem_filter.mp ((mem_eligible accepted).mpr ⟨there, matching⟩)).2

/-- The order of routes of different ranks does not count. -/
theorem matchRoute_reordered {reordered : List Route} {other : Finalized Expr}
    (accepted : finalize lib cfg = .ok finalized)
    (acceptedToo : finalize lib { cfg with routes := reordered } = .ok other)
    (alike : ∀ rank, withKey Route.rank rank reordered = withKey Route.rank rank cfg.routes) (path : String) :
    other.matchRoute evalBool path = finalized.matchRoute evalBool path := by
  have candidates (rank : ℕ ×ₗ Bool) :
      withKey Route.rank rank (reordered.filter (eligible lib cfg evalBool path.toList)) =
        withKey Route.rank rank (cfg.routes.filter (eligible lib cfg evalBool path.toList)) := by
    rw [withKey_filter, withKey_filter, alike]
  have empty : reordered.filter (eligible lib cfg evalBool path.toList) = [] ↔
      cfg.routes.filter (eligible lib cfg evalBool path.toList) = [] := by
    simp only [List.eq_nil_iff_forall_not_mem]
    exact ⟨fun none x inside => none x (mem_of_withKey (fun rank => (candidates rank).symm) inside),
      fun none x inside => none x (mem_of_withKey candidates inside)⟩
  cases taken : finalized.matchRoute evalBool path with
  | none => exact (matchRoute_eq_none acceptedToo).mpr (empty.mpr ((matchRoute_eq_none accepted).mp taken))
  | some route =>
    cases takenToo : other.matchRoute evalBool path with
    | none =>
      have none := (matchRoute_eq_none accepted).mpr (empty.mp ((matchRoute_eq_none acceptedToo).mp takenToo))
      rw [taken] at none
      cases none
    | some routeToo =>
      exact congrArg some (First.eq_of_withKey candidates (matchRoute_first acceptedToo takenToo)
        (matchRoute_first accepted taken))

end

/-- The route that is taken matches, and no matching route is preferred to it; of several that are preferred alike it is
    the first one. No route is taken exactly when none matches. The order of routes whose prefixes differ in length, or
    of which only one has a condition, makes no difference. -/
theorem match_route_specified (lib : Compilers Expr) (cfg : Config) (finalized : Finalized Expr)
    (accepted : finalize lib cfg = .ok finalized) (evalBool : Expr → Except String Bool) (path : String) :
    (∀ route, finalized.matchRoute evalBool path = some route ↔
      Selected lib evalBool cfg.routes path.toList route) ∧
    (finalized.matchRoute evalBool path = none ↔
      ∀ route ∈ cfg.routes, ¬ route.Matches lib evalBool path.toList) ∧
    ∀ reordered other, finalize lib { cfg with routes := reordered } = .ok other →
      (∀ rank, withKey Route.rank rank reordered = withKey Route.rank rank cfg.routes) →
        other.matchRoute evalBool path = finalized.matchRoute evalBool path := by
  have none : finalized.matchRoute evalBool path = none ↔
      ∀ route ∈ cfg.routes, ¬ route.Matches lib evalBool path.toList := by
    rw [matchRoute_eq_none accepted, List.eq_nil_iff_forall_not_mem]
    simp only [mem_eligible accepted, not_and]
  refine ⟨fun route => ?_, none, fun reordered other acceptedToo alike =>
    matchRoute_reordered accepted acceptedToo alike path⟩
  rw [selected_iff accepted]
  refine ⟨matchRoute_first accepted, fun first => ?_⟩
  cases taken : finalized.matchRoute evalBool path with
  | none =>
    obtain ⟨listed, fits⟩ := (mem_eligible accepted).mp first.mem
    exact absurd fits (none.mp taken route listed)
  | some other => exact congrArg some (First.eq_of_withKey (fun _ => rfl) (matchRoute_first accepted taken) first)

/-- A library that takes every text as an expression. -/
def sourceTexts : Compilers String := ⟨fun source _ => .ok source, fun _ => .error "expected value"⟩

def plainRoute (pathPrefix : String) (condition : Option String) : Route :=
  ⟨pathPrefix, "b", none, condition, ⟨⟨[], ∅, ∅, ∅, ∅, ∅, none⟩, [], none⟩⟩

def routedConfig (routes : List Route) : Config where
  providers := (∅ : Named Config.Provider).insert "b" ⟨.bedrock, ⟨"bedrock", 80⟩, none, none, none, none⟩
  fleet := some ⟨⟨[], ∅, (∅ : Named String).insert "team" "ml", ∅, ∅, ∅, none⟩, [], none⟩
  projects := ∅
  routes := routes
  apps := none
  rejections := ⟨⟨400, "text", "", none⟩, ⟨404, "text", "", none⟩, none, none, none⟩
  jwt := none
  otlp := none
  webhook := none
  wasm := ⟨[], false⟩

def batchRoutes : List Route :=
  [plainRoute "/openai/v1/" (some "premium"), plainRoute "/openai/v1" (some "batch"),
    plainRoute "/openai/v1" (some "night")]

/-- The conditions of a night batch, which is not known to be premium. -/
def evalBatch (condition : String) : Except String Bool :=
  if condition = "premium" then .error "no such key" else .ok true

/-- The config with the routes as it is accepted. -/
def routedFinalized (routes : List Route) : Finalized String :=
  ⟨routedConfig routes, routes.map fun route => (route, compileRoute sourceTexts (routedConfig routes) route)⟩

/-- A condition that cannot be evaluated is passed over, the first of the others is taken, and it makes no difference
    which of the catch-all route and the route without a condition comes first. -/
theorem batch_route_selected :
    Selected sourceTexts evalBatch (plainRoute "/" none :: plainRoute "/openai/v1" none :: batchRoutes)
      "/openai/v1/chat".toList (plainRoute "/openai/v1" (some "batch")) := by
  have accepted :
      finalize sourceTexts (routedConfig (plainRoute "/" none :: plainRoute "/openai/v1" none :: batchRoutes)) =
        .ok (routedFinalized (plainRoute "/" none :: plainRoute "/openai/v1" none :: batchRoutes)) :=
    if_pos (by decide +kernel)
  have acceptedToo :
      finalize sourceTexts (routedConfig (plainRoute "/openai/v1" none :: plainRoute "/" none :: batchRoutes)) =
        .ok (routedFinalized (plainRoute "/openai/v1" none :: plainRoute "/" none :: batchRoutes)) :=
    if_pos (by decide +kernel)
  obtain ⟨selected, -, reordered⟩ :=
    match_route_specified sourceTexts _ _ accepted evalBatch "/openai/v1/chat"
  refine (selected _).mp ?_
  rw [← reordered _ _ acceptedToo (Sorting.withKey_swap (by decide) [] batchRoutes)]
  rfl

end SmallGateway.Config
