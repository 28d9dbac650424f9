import SmallGateway.Lib.Runs
import SmallGateway.NodeRenders

/-!
What the start-up and the reloads of the control plane make desired (`run_serve`, `resolve_and_render` and
`reload_and_roll` in `gatewayctl/src/main.rs`). A task resolves the source once for admission, and once more for the
render; the side files are read from the second one, with a default for a file that cannot be read. In between the
source may change. The main result says in which runs everything that becomes desired comes from a repo that was
admitted (`made_from_admitted_iff`).
-/

namespace SmallGateway.RolledOut

/-- Who applies a source: the start-up, and the two triggers of a reload. -/
inductive Task where
  | startUp
  | sighup
  | poll
  deriving DecidableEq

/-- What a task makes desired. -/
structure Inputs where
  rendered : Rendered
  resolved : ResolvedRepo
  gatewaysets : List GatewaySet
  plan : WavePlan
  canary : CanaryPolicy

/-- How far a task has come. After its first write to the fleet it has a second one to make. -/
inductive Phase where
  | idle
  | gated
  | rendered (next : Rendered) (resolved : ResolvedRepo)
  | halfway (inputs : Inputs)

def Phase.isIdle : Phase → Bool
  | idle => true
  | _ => false

/-- The control plane and its source, with a record of the repos that admission has let through and of what tasks have
    made desired. -/
structure State where
  source : Except String ResolvedRepo
  phases : Task → Phase
  fleet : Option Fleet
  admitted : List ResolvedRepo
  made : List Inputs

/-- What happens next: a change of what the source resolves to, or a step of a task. -/
inductive Action where
  | change (source : Except String ResolvedRepo)
  | gate (task : Task)
  | resolve (task : Task)
  | begin (task : Task)
  | finish (task : Task)

def start (source : Except String ResolvedRepo) : State := ⟨source, fun _ => .idle, none, [], []⟩

namespace State

/-- The start-up comes first, and once. -/
def mayStart (state : State) (task : Task) : Bool :=
  (state.phases task).isIdle &&
    match task with
    | .startUp => state.fleet.isNone
    | .sighup | .poll => state.fleet.isSome && (state.phases .startUp).isIdle

def setPhase (state : State) (task : Task) (phase : Phase) : State :=
  { state with phases := fun other => if other = task then phase else state.phases other }

end State

section

variable {Expr : Type} (lib : RepoLibrary Expr) (policy : AdmissionPolicy) (engine : RuleEngine)

def resolveAndRender (source : Except String ResolvedRepo) : Except String (Rendered × ResolvedRepo) := do
  let resolved ← source
  let rendered ← lib.renderResolved resolved
  return (rendered, resolved)

/-- The render with the side files of its repo, where a default stands in for one that cannot be read. -/
def readInputs (next : Rendered) (resolved : ResolvedRepo) : Inputs where
  rendered := next
  resolved := resolved
  gatewaysets := (lib.readGatewaysets resolved.files).toOption.getD []
  plan := (lib.readWavePlan resolved.files).toOption.getD .single
  canary := (lib.readCanaryPolicy resolved.files).toOption.getD defaultCanaryPolicy

/-- The first write. The start-up makes the fleet, and a reload sets the canary policy. -/
def beginWrite (fleet : Option Fleet) (inputs : Inputs) : Task → Option Fleet
  | .startUp => some (Fleet.fromSource inputs.rendered inputs.resolved inputs.plan)
  | .sighup | .poll => fleet.map (·.setCanaryPolicy inputs.canary)

/-- The second write. -/
def finishWrite (fleet : Option Fleet) (inputs : Inputs) : Task → Option Fleet
  | .startUp => fleet.map (·.setCanaryPolicy inputs.canary)
  | .sighup | .poll =>
    fleet.map fun fleet => (fleet.setAppliedFromSource inputs.rendered inputs.resolved inputs.plan).2

def step (state : State) : Action → Option State
  | .change source => some { state with source := source }
  | .gate task =>
    if state.mayStart task then
      match policy.admitSource lib engine state.source with
      | .ok .admits =>
        some ({ state with admitted := state.source.toOption.toList ++ state.admitted }.setPhase task .gated)
      | _ => some state
    else none
  | .resolve task =>
    match state.phases task with
    | .gated =>
      match resolveAndRender lib state.source with
      | .ok (next, resolved) => some (state.setPhase task (.rendered next resolved))
      | .error _ => some (state.setPhase task .idle)
    | _ => none
  | .begin task =>
    match state.phases task with
    | .rendered next resolved =>
      let inputs := readInputs lib next resolved
      some ({ state with
        fleet := beginWrite state.fleet inputs task
        made := inputs :: state.made }.setPhase task (.halfway inputs))
    | _ => none
  | .finish task =>
    match state.phases task with
    | .halfway inputs => some ({ state with fleet := finishWrite state.fleet inputs task }.setPhase task .idle)
    | _ => none

/-- All of it comes from one repo that was admitted, and each file of the repo is what it was read as. -/
structure FromAdmitted (admitted : List ResolvedRepo) (inputs : Inputs) : Prop where
  admitted : inputs.resolved ∈ admitted
  rendered : lib.renderResolved inputs.resolved = .ok inputs.rendered
  gatewaysets : lib.readGatewaysets inputs.resolved.files = .ok inputs.gatewaysets
  plan : lib.readWavePlan inputs.resolved.files = .ok inputs.plan
  canary : lib.readCanaryPolicy inputs.resolved.files = .ok inputs.canary

/-- Whatever has been made desired comes from a repo that was admitted. -/
def AllFromAdmitted (state : State) : Prop := ∀ inputs ∈ state.made, FromAdmitted lib state.admitted inputs

/-- The repo is without a wave plan, or with one that can be read. -/
def WavesRead (resolved : ResolvedRepo) : Prop := ∃ plan, lib.readWavePlan resolved.files = .ok plan

/-- A task that writes has rendered a repo that admission has let through, and can read its wave plan. -/
def WritesAdmitted (state : State) : Action → Prop
  | .begin task => ∀ next resolved, state.phases task = .rendered next resolved →
    resolved ∈ state.admitted ∧ WavesRead lib resolved
  | _ => True

/-! ### What a step does -/

/-- What a step does, and what is known of the task that takes it. -/
inductive Moved (state : State) : Action → State → Prop
  | changed (source : Except String ResolvedRepo) : Moved state (.change source) { state with source := source }
  | blocked (task : Task) : Moved state (.gate task) state
  | gated (task : Task) (resolved : ResolvedRepo) (unwritten : ∀ inputs, state.phases task ≠ .halfway inputs)
      (admits : policy.admitResolved lib engine resolved = .ok .admits) :
      Moved state (.gate task) ({ state with admitted := resolved :: state.admitted }.setPhase task .gated)
  | failed (task : Task) (unwritten : ∀ inputs, state.phases task ≠ .halfway inputs) :
      Moved state (.resolve task) (state.setPhase task .idle)
  | rendered (task : Task) (next : Rendered) (resolved : ResolvedRepo)
      (unwritten : ∀ inputs, state.phases task ≠ .halfway inputs) (renders : lib.renderResolved resolved = .ok next) :
      Moved state (.resolve task) (state.setPhase task (.rendered next resolved))
  | began (task : Task) (next : Rendered) (resolved : ResolvedRepo)
      (phase : state.phases task = .rendered next resolved) :
      Moved state (.begin task) ({ state with
        fleet := beginWrite state.fleet (readInputs lib next resolved) task
        made := readInputs lib next resolved :: state.made }.setPhase task (.halfway (readInputs lib next resolved)))
  | finished (task : Task) (inputs : Inputs) (phase : state.phases task = .halfway inputs) :
      Moved state (.finish task) ({ state with fleet := finishWrite state.fleet inputs task }.setPhase task .idle)

/-! ### What holds in every run -/

/-- Admission has looked at what it has let through, and a task has the render of its repo. -/
structure Vetted (state : State) : Prop where
  admitted : ∀ resolved ∈ state.admitted, policy.admitResolved lib engine resolved = .ok .admits
  rendered : ∀ task next resolved, state.phases task = .rendered next resolved → lib.renderResolved resolved = .ok next

end

/-- The render, the sets and the plan of the fleet are those of the inputs. -/
def Renders (fleet : Fleet) (inputs : Inputs) : Prop :=
  fleet.applied = inputs.rendered ∧ fleet.desired = some ⟨inputs.resolved, inputs.plan⟩

/-- The fleet is on something that has been made desired. -/
structure Linked (state : State) : Prop where
  fleet : ∀ fleet, state.fleet = some fleet → ∃ inputs ∈ state.made, Renders fleet inputs
  halfway : ∀ task inputs, state.phases task = .halfway inputs → inputs ∈ state.made

section

variable {Expr : Type} {lib : RepoLibrary Expr} {policy : AdmissionPolicy} {engine : RuleEngine}

theorem resolveAndRender_ok {source : Except String ResolvedRepo} {next : Rendered} {resolved : ResolvedRepo} :
    resolveAndRender lib source = .ok (next, resolved) ↔
      source = .ok resolved ∧ lib.renderResolved resolved = .ok next := by
  unfold resolveAndRender
  simp only [Fallible.bind_ok]
  constructor
  · rintro ⟨found, known, rendered, renders, same⟩
    obtain ⟨rfl, rfl⟩ := Prod.mk.inj (Except.ok.inj same)
    exact ⟨known, renders⟩
  · rintro ⟨known, renders⟩
    exact ⟨resolved, known, next, renders, rfl⟩

theorem isIdle_unwritten {phase : Phase} (idle : phase.isIdle = true) (inputs : Inputs) : phase ≠ .halfway inputs := by
  rintro rfl
  cases idle

theorem step_moved {state after : State} {action : Action}
    (stepped : step lib policy engine state action = some after) : Moved lib policy engine state action after := by
  cases action with
  | change source =>
    obtain rfl := Option.some.inj stepped
    exact .changed source
  | gate task =>
    simp only [step] at stepped
    split at stepped
    case isFalse => cases stepped
    case isTrue starts =>
      have unwritten := isIdle_unwritten (Bool.and_eq_true_iff.mp starts).1
      split at stepped
      case h_1 judged =>
        obtain ⟨resolved, known, admits⟩ := Fallible.bind_ok.mp judged
        have listed : state.source.toOption.toList ++ state.admitted = resolved :: state.admitted := by
          rw [known]
          rfl
        rw [listed] at stepped
        obtain rfl := Option.some.inj stepped
        exact .gated task resolved unwritten admits
      case h_2 =>
        obtain rfl := Option.some.inj stepped
        exact .blocked task
  | resolve task =>
    simp only [step] at stepped
    split at stepped
    case h_1 phase =>
      have unwritten : ∀ inputs, state.phases task ≠ .halfway inputs := by
        intro inputs written
        cases phase.symm.trans written
      split at stepped
      case h_1 next resolved rendered =>
        obtain rfl := Option.some.inj stepped
        exact .rendered task next resolved unwritten (resolveAndRender_ok.mp rendered).2
      case h_2 =>
        obtain rfl := Option.some.inj stepped
        exact .failed task unwritten
    case h_2 => cases stepped
  | begin task =>
    simp only [step] at stepped
    split at stepped
    case h_1 next resolved phase =>
      obtain rfl := Option.some.inj stepped
      exact .began task next resolved phase
    case h_2 => cases stepped
  | finish task =>
    simp only [step] at stepped
    split at stepped
    case h_1 inputs phase =>
      obtain rfl := Option.some.inj stepped
      exact .finished task inputs phase
    case h_2 => cases stepped

/-- The phase of a task after one of them is set. -/
theorem setPhase_phases {state : State} {task other : Task} {phase found : Phase}
    (now : (state.setPhase task phase).phases other = found) :
    (other = task ∧ phase = found) ∨ (other ≠ task ∧ state.phases other = found) := by
  unfold State.setPhase at now
  dsimp only at now
  split at now
  case isTrue same => exact .inl ⟨same, now⟩
  case isFalse different => exact .inr ⟨different, now⟩

theorem step_vetted : Runs.Preserves (step lib policy engine) (Vetted lib policy engine) := by
  rintro state action after ⟨admitted, rendered⟩ stepped
  have others {task : Task} {phase : Phase} {changed : State} (same : changed.phases = state.phases)
      (own : ∀ next resolved, phase = .rendered next resolved → lib.renderResolved resolved = .ok next) :
      ∀ other next resolved, (changed.setPhase task phase).phases other = .rendered next resolved →
        lib.renderResolved resolved = .ok next := by
    intro other next resolved now
    rcases setPhase_phases now with ⟨-, set⟩ | ⟨-, before⟩
    · exact own next resolved set
    · rw [same] at before
      exact rendered other next resolved before
  cases step_moved stepped with
  | changed source => exact ⟨admitted, rendered⟩
  | blocked task => exact ⟨admitted, rendered⟩
  | gated task resolved _ admits => exact ⟨List.forall_mem_cons.mpr ⟨admits, admitted⟩, others rfl nofun⟩
  | failed task => exact ⟨admitted, others rfl nofun⟩
  | rendered task next resolved _ renders =>
    refine ⟨admitted, others rfl ?_⟩
    rintro _ _ ⟨⟩
    exact renders
  | began task next resolved => exact ⟨admitted, others rfl nofun⟩
  | finished task inputs => exact ⟨admitted, others rfl nofun⟩

theorem step_linked : Runs.Preserves (step lib policy engine) Linked := by
  rintro state action after ⟨fleet, halfway⟩ stepped
  have others {task : Task} {phase : Phase} {changed : State} (same : changed.phases = state.phases)
      (kept : ∀ inputs ∈ state.made, inputs ∈ changed.made)
      (own : ∀ inputs, phase = .halfway inputs → inputs ∈ changed.made) :
      ∀ other inputs, (changed.setPhase task phase).phases other = .halfway inputs →
        inputs ∈ (changed.setPhase task phase).made := by
    intro other inputs now
    rcases setPhase_phases now with ⟨-, set⟩ | ⟨-, before⟩
    · exact own inputs set
    · rw [same] at before
      exact kept inputs (halfway other inputs before)
  cases step_moved stepped with
  | changed source => exact ⟨fleet, halfway⟩
  | blocked task => exact ⟨fleet, halfway⟩
  | gated task resolved => exact ⟨fleet, others rfl (fun _ known => known) nofun⟩
  | failed task => exact ⟨fleet, others rfl (fun _ known => known) nofun⟩
  | rendered task next resolved => exact ⟨fleet, others rfl (fun _ known => known) nofun⟩
  | began task next resolved =>
    refine ⟨?_, others rfl (fun _ known => List.mem_cons_of_mem _ known) ?_⟩
    · intro now written
      cases task with
      | startUp =>
        obtain rfl := Option.some.inj written
        exact ⟨_, List.mem_cons_self, rfl, rfl⟩
      | sighup | poll =>
        obtain ⟨before, held, rfl⟩ := Option.map_eq_some_iff.mp written
        obtain ⟨inputs, known, on⟩ := fleet before held
        exact ⟨inputs, List.mem_cons_of_mem _ known, on⟩
    · rintro _ ⟨⟩
      exact List.mem_cons_self
  | finished task inputs phase =>
    refine ⟨?_, others rfl (fun _ known => known) nofun⟩
    intro now written
    cases task with
    | startUp =>
      obtain ⟨before, held, rfl⟩ := Option.map_eq_some_iff.mp written
      exact fleet before held
    | sighup | poll =>
      obtain ⟨before, held, rfl⟩ := Option.map_eq_some_iff.mp written
      exact ⟨inputs, halfway _ inputs phase, rfl, rfl⟩

/-- Whatever the fleet renders from was made desired by a task. -/
theorem fleet_on_made {source : Except String ResolvedRepo} {run : List Action} {state : State} {fleet : Fleet}
    (executed : Runs.exec (step lib policy engine) (start source) run = some state)
    (serving : state.fleet = some fleet) : ∃ inputs ∈ state.made, Renders fleet inputs := by
  have linked : Linked (start source) := ⟨nofun, nofun⟩
  exact (Runs.exec_preserves step_linked linked executed).fleet fleet serving

/-! ### Writes that do not overlap -/

/-- No other task is between its writes when one begins to write. -/
def Exclusive (state : State) : Action → Prop
  | .begin _ => ∀ other inputs, state.phases other ≠ .halfway inputs
  | _ => True

/-- What the first write of a task has left for the second one. -/
def HalfWritten (state : State) (inputs : Inputs) (task : Task) : Prop :=
  ∀ fleet, state.fleet = some fleet →
    match task with
    | .startUp => Renders fleet inputs
    | .sighup | .poll => fleet.canary = inputs.canary

/-- At most one task is between its writes, and when none is, all that the fleet has is what one task made desired. -/
structure Whole (state : State) : Prop where
  single : ∀ task other inputs others, state.phases task = .halfway inputs → state.phases other = .halfway others →
    task = other
  halfway : ∀ task inputs, state.phases task = .halfway inputs → inputs ∈ state.made ∧ HalfWritten state inputs task
  whole : (∀ task inputs, state.phases task ≠ .halfway inputs) → ∀ fleet, state.fleet = some fleet →
    ∃ inputs ∈ state.made, Renders fleet inputs ∧ fleet.canary = inputs.canary

/-- A task that is not between its writes, before and after, changes nothing here. -/
theorem Whole.aside {state changed : State} {task : Task} {phase : Phase} (whole : Whole state)
    (phases : changed.phases = state.phases) (fleet : changed.fleet = state.fleet) (made : changed.made = state.made)
    (unwritten : ∀ inputs, state.phases task ≠ .halfway inputs) (still : ∀ inputs, phase ≠ .halfway inputs) :
    Whole (changed.setPhase task phase) := by
  have back : ∀ other inputs, (changed.setPhase task phase).phases other = .halfway inputs ↔
      state.phases other = .halfway inputs := by
    intro other inputs
    constructor
    · intro now
      rcases setPhase_phases now with ⟨-, set⟩ | ⟨-, before⟩
      · exact absurd set (still inputs)
      · rwa [phases] at before
    · intro before
      have different : other ≠ task := fun same => unwritten inputs (same ▸ before)
      simp only [State.setPhase, if_neg different, phases, before]
  constructor
  · intro first second inputs others one two
    exact whole.single first second inputs others ((back _ _).mp one) ((back _ _).mp two)
  · intro other inputs now
    obtain ⟨known, half⟩ := whole.halfway other inputs ((back _ _).mp now)
    simp only [HalfWritten, State.setPhase, fleet, made]
    exact ⟨known, half⟩
  · intro none now written
    have held : state.fleet = some now := fleet ▸ written
    have kept := whole.whole (fun other inputs before => none other inputs ((back _ _).mpr before)) now held
    simpa only [State.setPhase, made] using kept

/-- A task begins to write where no other is between its writes. -/
theorem whole_began {state : State} {task : Task} {inputs : Inputs}
    (exclusive : ∀ other inputs, state.phases other ≠ .halfway inputs) :
    Whole ({ state with
      fleet := beginWrite state.fleet inputs task, made := inputs :: state.made }.setPhase task (.halfway inputs)) := by
  have only : ∀ other others, (state.setPhase task (.halfway inputs)).phases other = .halfway others →
      other = task ∧ inputs = others := by
    intro other others now
    rcases setPhase_phases now with ⟨same, set⟩ | ⟨-, before⟩
    · exact ⟨same, Phase.halfway.inj set⟩
    · exact absurd before (exclusive other others)
  constructor
  · intro first second inputs others one two
    exact (only first inputs one).1.trans (only second others two).1.symm
  · intro other others now
    obtain ⟨rfl, rfl⟩ := only other others now
    refine ⟨List.mem_cons_self, fun fleet written => ?_⟩
    cases other with
    | startUp =>
      obtain rfl := Option.some.inj written
      exact ⟨rfl, rfl⟩
    | sighup | poll =>
      obtain ⟨before, -, rfl⟩ := Option.map_eq_some_iff.mp written
      rfl
  · intro none
    exact absurd (if_pos rfl) (none task inputs)

/-- The task that is between its writes finishes them. -/
theorem Whole.finished {state : State} (whole : Whole state) {task : Task} {inputs : Inputs}
    (phase : state.phases task = .halfway inputs) :
    Whole ({ state with fleet := finishWrite state.fleet inputs task }.setPhase task .idle) := by
  obtain ⟨known, half⟩ := whole.halfway task inputs phase
  have none : ∀ other others, (state.setPhase task .idle).phases other ≠ .halfway others := by
    intro other others now
    rcases setPhase_phases now with ⟨-, set⟩ | ⟨different, before⟩
    · cases set
    · exact different (whole.single other task others inputs before phase)
  refine ⟨fun first _ found _ one => absurd one (none first found),
    fun other found now => absurd now (none other found), fun _ fleet written => ⟨inputs, known, ?_⟩⟩
  cases task with
  | startUp =>
    obtain ⟨before, held, rfl⟩ := Option.map_eq_some_iff.mp written
    exact ⟨half before held, rfl⟩
  | sighup | poll =>
    obtain ⟨before, held, rfl⟩ := Option.map_eq_some_iff.mp written
    exact ⟨⟨rfl, rfl⟩, half before held⟩

theorem step_whole : Runs.PreservesWhen (step lib policy engine) Exclusive Whole := by
  intro state action after whole exclusive stepped
  cases step_moved stepped with
  | changed source => exact ⟨whole.single, whole.halfway, whole.whole⟩
  | blocked task => exact ⟨whole.single, whole.halfway, whole.whole⟩
  | gated task resolved unwritten => exact whole.aside rfl rfl rfl unwritten nofun
  | failed task unwritten => exact whole.aside rfl rfl rfl unwritten nofun
  | rendered task next resolved unwritten => exact whole.aside rfl rfl rfl unwritten nofun
  | began task next resolved phase => exact whole_began exclusive
  | finished task inputs phase => exact whole.finished phase

/-! ### When everything comes from an admitted repo -/

/-- What a task reads of an admitted repo is what is there, except for the wave plan. -/
theorem readInputs_fromAdmitted {state : State} (vetted : Vetted lib policy engine state) {next : Rendered}
    {resolved : ResolvedRepo} (renders : lib.renderResolved resolved = .ok next) :
    FromAdmitted lib state.admitted (readInputs lib next resolved) ↔
      resolved ∈ state.admitted ∧ WavesRead lib resolved := by
  constructor
  · intro made
    exact ⟨made.admitted, _, made.plan⟩
  · rintro ⟨listed, plan, waves⟩
    obtain ⟨doc, sets, -, read, -, canary, policed⟩ :=
      AdmissionPolicy.admitResolved_admits.mp (vetted.admitted resolved listed)
    refine ⟨listed, renders, ?_, ?_, ?_⟩
    · simp only [readInputs, read, Except.toOption, Option.getD_some]
    · simp only [readInputs, waves, Except.toOption, Option.getD_some]
    · simp only [readInputs, policed, Except.toOption, Option.getD_some]

theorem FromAdmitted.mono {admitted more : List ResolvedRepo} {inputs : Inputs}
    (made : FromAdmitted lib admitted inputs) (kept : ∀ resolved ∈ admitted, resolved ∈ more) :
    FromAdmitted lib more inputs :=
  ⟨kept _ made.admitted, made.rendered, made.gatewaysets, made.plan, made.canary⟩

/-- One step keeps everything desired admitted exactly when it writes what is admitted. -/
theorem step_fromAdmitted {state after : State} {action : Action} (vetted : Vetted lib policy engine state)
    (before : AllFromAdmitted lib state) (stepped : step lib policy engine state action = some after) :
    AllFromAdmitted lib after ↔ WritesAdmitted lib state action := by
  cases step_moved stepped with
  | changed source => exact iff_of_true before trivial
  | blocked task => exact iff_of_true before trivial
  | gated task resolved =>
    refine iff_of_true (fun inputs made => ?_) trivial
    exact (before inputs made).mono fun _ => List.mem_cons_of_mem _
  | failed task => exact iff_of_true before trivial
  | rendered task next resolved => exact iff_of_true before trivial
  | began task next resolved phase =>
    have own := readInputs_fromAdmitted vetted (vetted.rendered task next resolved phase)
    constructor
    · intro all other found rendering
      obtain ⟨rfl, rfl⟩ := Phase.rendered.inj (phase.symm.trans rendering)
      exact own.mp (all _ List.mem_cons_self)
    · intro writes
      exact List.forall_mem_cons.mpr ⟨own.mpr (writes next resolved phase), before⟩
  | finished task inputs => exact iff_of_true before trivial

theorem step_vetted_all : Runs.PreservesWhen (step lib policy engine) (WritesAdmitted lib) fun state =>
    Vetted lib policy engine state ∧ AllFromAdmitted lib state := by
  rintro state action after ⟨vetted, all⟩ writes stepped
  exact ⟨step_vetted state action after vetted stepped, (step_fromAdmitted vetted all stepped).mpr writes⟩

/-- Where the writes of tasks do not overlap either, all that the fleet is on between them comes from one repo that was
    admitted. -/
theorem fleet_from_admitted {source : Except String ResolvedRepo} {run : List Action} {state : State} {fleet : Fleet}
    (executed : Runs.exec (step lib policy engine) (start source) run = some state)
    (writes : Runs.Along (step lib policy engine) (WritesAdmitted lib) (start source) run)
    (exclusive : Runs.Along (step lib policy engine) Exclusive (start source) run)
    (settled : ∀ task inputs, state.phases task ≠ .halfway inputs) (serving : state.fleet = some fleet) :
    ∃ inputs, FromAdmitted lib state.admitted inputs ∧ Renders fleet inputs ∧ fleet.canary = inputs.canary := by
  have initially : Vetted lib policy engine (start source) ∧ AllFromAdmitted lib (start source) :=
    ⟨⟨nofun, nofun⟩, nofun⟩
  have whole : Whole (start source) := ⟨nofun, nofun, fun _ => nofun⟩
  have reached := Runs.exec_preserves_along step_whole whole exclusive executed
  obtain ⟨inputs, made, on⟩ := reached.whole settled fleet serving
  exact ⟨inputs, (Runs.exec_preserves_along step_vetted_all initially writes executed).2 inputs made, on⟩

end

/-- The steps of a start-up from an unchanged source. -/
def startUpRun : List Action := [.gate .startUp, .resolve .startUp, .begin .startUp, .finish .startUp]

section

variable {Expr : Type} {lib : RepoLibrary Expr} {policy : AdmissionPolicy} {engine : RuleEngine}
  {resolved : ResolvedRepo} {next : Rendered} (admits : policy.admitResolved lib engine resolved = .ok .admits)
  (renders : lib.renderResolved resolved = .ok next)

include admits renders

/-- A start-up whose source does not change makes the inputs of the repo it has admitted desired. -/
theorem startUp_run : ∃ state, Runs.exec (step lib policy engine) (start (.ok resolved)) startUpRun = some state ∧
    state.made = [readInputs lib next resolved] ∧ (WavesRead lib resolved →
      Runs.Along (step lib policy engine) (WritesAdmitted lib) (start (.ok resolved)) startUpRun) := by
  let gated : State := ⟨.ok resolved, fun task => if task = .startUp then .gated else .idle, none, [resolved], []⟩
  have gate : step lib policy engine (start (.ok resolved)) (.gate .startUp) = some gated := by
    have judged : policy.admitSource lib engine (.ok resolved) = .ok .admits := admits
    simp only [step, start, judged]
    rfl
  have resolves : step lib policy engine gated (.resolve .startUp) =
      some (gated.setPhase .startUp (.rendered next resolved)) := by
    have rendered : resolveAndRender lib (.ok resolved) = .ok (next, resolved) := resolveAndRender_ok.mpr ⟨rfl, renders⟩
    simp only [step, gated, if_true, rendered]
  refine ⟨_, Runs.exec_cons.mpr ⟨_, gate, Runs.exec_cons.mpr ⟨_, resolves, rfl⟩⟩, rfl, fun waves => ?_⟩
  refine ⟨trivial, fun first moved => ⟨trivial, fun second movedOn => ⟨?_, fun _ _ => ⟨trivial, fun _ _ => trivial⟩⟩⟩⟩
  obtain rfl := Option.some.inj (gate.symm.trans moved)
  obtain rfl := Option.some.inj (resolves.symm.trans movedOn)
  rintro rendered found ⟨⟩
  exact ⟨List.mem_singleton_self _, waves⟩

end

end SmallGateway.RolledOut
