import Mathlib.Data.List.Forall2
import GoResolver.Proofs.Importer.Run
import GoResolver.Proofs.Session.Run

/-!
# Tracing is observation only

A session that traces differs from one that does not at five places: in the traces of an import that
fails to be placed or to be made, in the lines that the engine logs, in the number of candidates
that is logged at the end of a request, and in the engine being told that its lines are kept.  None
of them may change what is answered, cached, or asked of the toolchain.

## The silent twin

Two sessions that trace at different times could be compared step by step, with both flags in hand
at every import.  Here either is compared with its *silent twin* instead: the same session with
tracing off, whose engines are deprived of their log lines.  What is `visible` of a session is the
same as what is visible of its twin, and that is an equation with one flag in it.  Two sessions that
differ in tracing only have one twin.

* `Importer.visible_resolve`, `Importer.visible_importFrom`: an import and its twin.
* `Script.visible_run`: a script and its twin, by induction on the script.
* `Suggester.visible_suggest`, `Session.visible_played`: requests and the other operations.
* `Session.debug_only_observes`: two sessions, step by step.

An engine could look at the flag and compute something else.  `Engine.OnlyLogs` says that it does
not: told that its lines are kept, it does the same and logs.
-/

namespace GoResolver

variable {σ S : Type}

/-! ## 1. What is visible without tracing -/

/-- An event as it is seen without tracing: there is no record of that level, and the engine is not
told whether its lines are kept. -/
def Event.visible? : Event S → Option (Event S)
  | .logged record => if record.level = .debug then none else some (.logged record)
  | .asked request => some (.asked { request with logging := false })
  | event => some event

/-- What is seen of events without tracing. -/
def visibleEvents (events : List (Event S)) : List (Event S) := events.filterMap Event.visible?

theorem visibleEvents_append (events events' : List (Event S)) :
    visibleEvents (events ++ events') = visibleEvents events ++ visibleEvents events' :=
  List.filterMap_append

theorem visibleEvents_cons_debug (message : String) (events : List (Event S)) :
    visibleEvents (.logged (.debug message) :: events) = visibleEvents events := rfl

/-- Whether the toolchain is put to work: a strategy is made or called, or a build context is asked
for a place. -/
def Event.works : Event S → Bool
  | .created _ _ _ => true
  | .located _ _ => true
  | .called _ _ _ => true
  | _ => false

/-- The work of the toolchain is seen as it is. -/
theorem filter_works_visible (events : List (Event S)) :
    (visibleEvents events).filter Event.works = events.filter Event.works := by
  induction events with
  | nil => rfl
  | cons event events ih =>
    rw [visibleEvents] at ih ⊢
    cases event with
    | logged record =>
      by_cases hlevel : record.level = .debug
      · have hnone : (Event.logged record : Event S).visible? = none := if_pos hlevel
        rw [List.filterMap_cons_none hnone, ih]
        rfl
      · have hsome : (Event.logged record : Event S).visible? = some (.logged record) :=
          if_neg hlevel
        rw [List.filterMap_cons_some hsome]
        exact ih
    | asked request => exact ih
    | capabilities answer => exact ih
    | created kind scope strategy => exact congrArg (Event.created kind scope strategy :: ·) ih
    | located path dir => exact congrArg (Event.located path dir :: ·) ih
    | called strategy query outcome => exact congrArg (Event.called strategy query outcome :: ·) ih

/-! ## 2. Silent twins -/

/-- The options without tracing. -/
def SuggestOptions.silent (o : SuggestOptions) : SuggestOptions := { o with debug := false }

/-- The importer without tracing. -/
def Importer.silent (imp : Importer S) : Importer S := { imp with debug := false }

/-- The request of an engine whose lines are not kept. -/
def EngineRequest.silent (request : EngineRequest) : EngineRequest :=
  { request with logging := false }

/-- The session without tracing. -/
def Suggester.silent (s : Suggester S) : Suggester S := { s with options := s.options.silent }

/-- The script without its log lines. -/
def Script.silent : Script → Script
  | .finish candidates => .finish candidates
  | .fail message => .fail message
  | .panic p => .panic p
  | .log _ next => next.silent
  | .importing query next => .importing query fun answer => (next answer).silent

/-- The engine that is told not to log and does not. -/
def Engine.silent (engine : Engine) : Engine := fun request => (engine request.silent).silent

/-- An engine that logs its lines when they are kept, and does nothing else differently then. -/
def Engine.OnlyLogs (engine : Engine) : Prop :=
  ∀ request : EngineRequest, (engine request).silent = (engine request.silent).silent

/-! ## 3. Imports -/

/-- What is visible of an import without a cache. -/
def Resolved.visible (r : Resolved σ S) : Resolved σ S :=
  { r with events := visibleEvents r.events }

/-- What is visible of an import. -/
def Imported.visible (i : Imported σ S) : Imported σ S :=
  { i with events := visibleEvents i.events }

namespace Importer

variable (tc : Toolchain σ S) (imp : Importer S) (q : ImportQuery) (host : σ)

/-- No trace is visible. -/
theorem visible_trace (step : String) (e : ResolutionError) :
    visibleEvents (imp.trace step q e) = [] := by
  rw [trace]
  split
  · rfl
  · rfl

theorem visible_callEvents (strategy : S) (o : Outcome) :
    visibleEvents (imp.callEvents tc q strategy o) = [.called strategy q o] := by
  cases o with
  | error e =>
    exact congrArg (Event.called strategy q (.error e) :: ·) (imp.visible_trace q _ e)
  | package p => rfl
  | panic p => rfl

/-- An import without a cache looks like that of the silent twin. -/
theorem visible_resolve :
    (resolve tc imp q host).visible = (resolve tc imp.silent q host).visible := by
  by_cases hlow : q.path = lowLevelPath
  · rw [resolve_of_lowLevel tc imp q host hlow, resolve_of_lowLevel tc imp.silent q host hlow]
  cases hresult : (imp.build q.path q.sourceDir).result with
  | error e =>
    have hresult' : (imp.silent.build q.path q.sourceDir).result = .error e := hresult
    rw [resolve_of_error tc imp q host hlow hresult,
      resolve_of_error tc imp.silent q host hlow hresult']
    simp only [Resolved.visible, visibleEvents_append, visible_trace]
    rfl
  | ok location =>
    have hresult' : (imp.silent.build q.path q.sourceDir).result = .ok location := hresult
    by_cases hroot : location.isRoot ∧ location.importPath = lowLevelPath
    · rw [resolve_of_root_lowLevel tc imp q host hlow hresult hroot,
        resolve_of_root_lowLevel tc imp.silent q host hlow hresult' hroot]
      rfl
    · rw [resolve_of_located tc imp q host hlow hresult hroot,
        resolve_of_located tc imp.silent q host hlow hresult' hroot]
      simp only [Resolved.visible, visibleEvents_append, visible_callEvents]
      rfl

/-- An import looks like that of the silent twin, and leaves the same cache. -/
theorem visible_importFrom (cache : Cache) :
    (importFrom tc imp q cache host).visible = (importFrom tc imp.silent q cache host).visible := by
  by_cases hempty : q.path = ""
  · rw [importFrom_of_empty tc imp q host cache hempty,
      importFrom_of_empty tc imp.silent q host cache hempty]
  cases hget : cache.get? (.of q.path q.sourceDir) with
  | some p =>
    rw [importFrom_of_hit tc imp q host cache hempty hget,
      importFrom_of_hit tc imp.silent q host cache hempty hget]
  | none =>
    obtain ⟨houtcome, hkeep, hevents, hhost⟩ := Resolved.mk.inj (visible_resolve tc imp q host)
    rw [importFrom_of_miss tc imp q host cache hempty hget,
      importFrom_of_miss tc imp.silent q host cache hempty hget]
    simp only [Imported.visible, houtcome, hkeep, hhost, hevents]

end Importer

/-! ## 4. Scripts -/

/-- What is visible of a run. -/
def Ran.visible (r : Ran σ S) : Ran σ S := { r with events := visibleEvents r.events }

/-- **A script's run looks like that of its silent twin.**  It ends in the same way, with the same
cache. -/
theorem Script.visible_run (tc : Toolchain σ S) (imp : Importer S) (script : Script) (cache : Cache)
    (host : σ) :
    (script.run tc imp cache host).visible =
      (script.silent.run tc imp.silent cache host).visible := by
  induction script generalizing cache host with
  | finish candidates => rfl
  | fail message => rfl
  | panic p => rfl
  | log line next ih =>
    rw [run, silent, ← ih cache host]
    split
    · rfl
    · rfl
  | importing query next ih =>
    obtain ⟨houtcome, hcache, hevents, hhost⟩ :=
      Imported.mk.inj (imp.visible_importFrom tc query host cache)
    rw [silent]
    rcases (imp.importFrom tc query cache host).outcome.panic_or_answered with
      ⟨p, hpanic⟩ | ⟨answer, hanswer⟩
    · rw [run_importing_of_panic tc imp next hpanic,
        run_importing_of_panic tc imp.silent _ (houtcome.symm.trans hpanic)]
      simp only [Ran.visible, hcache, hhost, hevents]
    · rw [run_importing_of_answered tc imp next hanswer,
        run_importing_of_answered tc imp.silent _ (houtcome.symm.trans hanswer)]
      obtain ⟨hending, hleft, hrest, hfinal⟩ := Ran.mk.inj
        (ih answer (imp.silent.importFrom tc query cache host).cache
          (imp.silent.importFrom tc query cache host).host)
      simp only [Ran.visible, visibleEvents_append, hcache, hhost, hevents, hending, hleft, hrest,
        hfinal]

/-! ## 5. Requests -/

/-- What is visible of a step of a session. -/
def Step.visible {α : Type} (r : Step σ S α) : Step σ S α :=
  { r with state := r.state.silent, events := visibleEvents r.events }

namespace Suggester

variable (tc : Toolchain σ S)

/-- What is visible at the end of a request is a warning about a fault. -/
theorem visible_closing (s : Suggester S) (request : EngineRequest) (ending : Ending) :
    visibleEvents ((s.closing request ending).map (Event.logged (S := S))) =
      visibleEvents ((s.silent.closing request.silent ending).map .logged) := by
  cases ending with
  | faulted fault => rfl
  | finished candidates =>
    have hnone : ∀ s' : Suggester S, ∀ request' : EngineRequest,
        visibleEvents ((s'.closing request' (.finished candidates)).map
          (Event.logged (S := S))) = [] := by
      intro s' request'
      rw [closing]
      split
      · rfl
      · rfl
    rw [hnone, hnone]

/-- The events of a request, as they are seen. -/
theorem visible_request (kind : StrategyKind) (scope : Scope) (own : S) (request : EngineRequest)
    (events closing : List (Event S)) :
    visibleEvents (.created kind scope own :: .asked request :: (events ++ closing)) =
      .created kind scope own :: .asked request.silent ::
        (visibleEvents events ++ visibleEvents closing) := by
  rw [← visibleEvents_append]
  rfl

/-- **A request looks like that of the silent twin**, and so does the session afterwards. -/
theorem visible_suggest {engine : Engine} (hengine : engine.OnlyLogs) (s : Suggester S)
    (build : BuildContext) (file : Path) (source : ByteArray) (offset : Nat) (host : σ) :
    (suggest tc engine s build file source offset host).visible =
      (suggest tc engine.silent s.silent build file source offset host).visible := by
  by_cases hempty : source.size = 0
  · rw [suggest_of_empty tc engine s build file source offset host hempty,
      suggest_of_empty tc engine.silent s.silent build file source offset host hempty]
    rfl
  · have hrequest : s.silent.engineRequest file source offset =
        (s.engineRequest file source offset).silent := rfl
    have hscript : engine.silent (s.engineRequest file source offset).silent =
        (engine (s.engineRequest file source offset)).silent :=
      (hengine (s.engineRequest file source offset)).symm
    have hran : (ranScript tc engine s build file source offset host).visible =
        (ranScript tc engine.silent s.silent build file source offset host).visible := by
      rw [ranScript, ranScript, hrequest, hscript]
      exact Script.visible_run tc _ _ _ _
    obtain ⟨hending, hcache, hevents, hhost⟩ := Ran.mk.inj hran
    rw [suggest_of_nonempty tc engine s build file source offset host hempty,
      suggest_of_nonempty tc engine.silent s.silent build file source offset host hempty]
    simp only [Step.visible, visible_request, hrequest, hcache, hhost, hevents, hending,
      visible_closing s (s.engineRequest file source offset)]
    rfl

/-- Starting a session asks the toolchain for the same, and leaves it the same. -/
theorem visible_start (options : SuggestOptions) (cache : Cache) (host : σ) :
    (start tc options cache host).visible = (start tc options.silent cache host).visible := rfl

/-- Reconfiguring leaves a line in the log, which is not visible. -/
theorem visible_reconfigure (options : SuggestOptions) (host : σ) :
    (reconfigure tc options host).visible = (reconfigure tc options.silent host).visible := by
  rw [reconfigure, reconfigure]
  simp only [Step.visible, visibleEvents_append, visibleEvents_cons_debug]
  rfl

end Suggester

/-! ## 6. Sessions -/

namespace Session

/-- What a session answers and does when it is started; there is nobody to answer. -/
def opened (tc : Toolchain σ S) (options : SuggestOptions) (host : σ) :
    Step σ S (List Candidate) :=
  { Suggester.start tc options .empty host with answer := [] }

/-- What an operation answers and does; only a request has candidates. -/
def played (tc : Toolchain σ S) (s : Session σ S) : Operation σ → Step σ S (List Candidate)
  | .suggest engine build file source offset =>
    s.state.suggest tc engine build file source offset s.host
  | .reconfigure options => { Suggester.reconfigure tc options s.host with answer := [] }
  | .reset => { s.state.reset tc s.host with answer := [] }
  | .outside change => { answer := [], state := s.state, host := change s.host }

/-- What the operations of a list answer and do, one after the other. -/
def transcript (tc : Toolchain σ S) (s : Session σ S) :
    List (Operation σ) → List (Step σ S (List Candidate))
  | [] => []
  | op :: ops => s.played tc op :: (s.step tc op).transcript tc ops

theorem step_eq_played (tc : Toolchain σ S) (s : Session σ S) (op : Operation σ) :
    (s.step tc op).state = (s.played tc op).state ∧
      (s.step tc op).host = (s.played tc op).host := by
  cases op with
  | suggest engine build file source offset => exact ⟨rfl, rfl⟩
  | reconfigure options => exact ⟨rfl, rfl⟩
  | reset => exact ⟨rfl, rfl⟩
  | outside change => exact ⟨rfl, rfl⟩

end Session

/-- The same operation, with the same engine and the same build context, but for the tracing that
new options turn on or off. -/
inductive Operation.SameButDebug : Operation σ → Operation σ → Prop where
  | suggest {engine : Engine} {build : BuildContext} {file : Path} {source : ByteArray}
      {offset : Nat} (onlyLogs : engine.OnlyLogs) :
    SameButDebug (.suggest engine build file source offset)
      (.suggest engine build file source offset)
  | reconfigure {options options' : SuggestOptions} (same : options.silent = options'.silent) :
    SameButDebug (.reconfigure options) (.reconfigure options')
  | reset : SameButDebug .reset .reset
  | outside {change : σ → σ} : SameButDebug (.outside change) (.outside change)

/-- Two steps are the same but for tracing: they have the same answer, leave the same cache, kind,
root strategy and toolchain, put the toolchain to the same work in the same order, and what else
happens differs in nothing that is visible. -/
structure Step.AgreesWith {α : Type} (r r' : Step σ S α) : Prop where
  answer_eq : r.answer = r'.answer
  cache_eq : r.state.cache = r'.state.cache
  kind_eq : r.state.kind = r'.state.kind
  root_eq : r.state.root = r'.state.root
  host_eq : r.host = r'.host
  work_eq : r.events.filter Event.works = r'.events.filter Event.works
  visible_eq : visibleEvents r.events = visibleEvents r'.events

theorem Step.agreesWith_of_visible_eq {α : Type} {r r' : Step σ S α} (h : r.visible = r'.visible) :
    r.AgreesWith r' := by
  obtain ⟨hanswer, hstate, hevents, hhost⟩ := Step.mk.inj h
  obtain ⟨-, hkind, hroot, hcache⟩ := Suggester.mk.inj hstate
  refine ⟨hanswer, hcache, hkind, hroot, hhost, ?_, hevents⟩
  rw [← filter_works_visible, hevents, filter_works_visible]

namespace Session

/-- An operation is seen to be the same in two sessions that differ in tracing only. -/
theorem visible_played (tc : Toolchain σ S) {s s' : Session σ S}
    (hstate : s.state.silent = s'.state.silent) (hhost : s.host = s'.host) {op op' : Operation σ}
    (hop : op.SameButDebug op') : (s.played tc op).visible = (s'.played tc op').visible := by
  have hreconfigure : ∀ {options options' : SuggestOptions}, options.silent = options'.silent →
      (s.played tc (.reconfigure options)).visible =
        (s'.played tc (.reconfigure options')).visible := by
    intro options options' h
    have hsame : (Suggester.reconfigure tc options s.host).visible =
        (Suggester.reconfigure tc options' s'.host).visible := by
      rw [Suggester.visible_reconfigure, h, hhost, ← Suggester.visible_reconfigure]
    obtain ⟨-, hnext, hevents, hfinal⟩ := Step.mk.inj hsame
    simp only [played, Step.visible, hnext, hevents, hfinal]
  cases hop with
  | suggest onlyLogs =>
    rw [played, played, Suggester.visible_suggest tc onlyLogs, hstate, hhost,
      ← Suggester.visible_suggest tc onlyLogs]
  | reconfigure same => exact hreconfigure same
  | reset => exact hreconfigure (Suggester.mk.inj hstate).1
  | outside => simp only [played, Step.visible, hstate, hhost]

/-- Two sessions with one silent twin agree on whatever they go through. -/
theorem transcript_agrees (tc : Toolchain σ S) {ops ops' : List (Operation σ)}
    (hops : List.Forall₂ Operation.SameButDebug ops ops') {s s' : Session σ S}
    (hstate : s.state.silent = s'.state.silent) (hhost : s.host = s'.host) :
    List.Forall₂ Step.AgreesWith (s.transcript tc ops) (s'.transcript tc ops') := by
  induction hops generalizing s s' with
  | nil => exact .nil
  | cons hop _ ih =>
    have hplayed := visible_played tc hstate hhost hop
    obtain ⟨-, hnext, -, hfinal⟩ := Step.mk.inj hplayed
    refine .cons (Step.agreesWith_of_visible_eq hplayed) (ih ?_ ?_)
    · rw [(s.step_eq_played tc _).1, (s'.step_eq_played tc _).1]
      exact hnext
    · rw [(s.step_eq_played tc _).2, (s'.step_eq_played tc _).2]
      exact hfinal

/-- **Tracing is observation only.**  Take two sessions that start from the same toolchain and go
through the same operations, with engines that use their callback only to log, and that differ in
nothing but the tracing that their options ask for, at the start and whenever they are reconfigured.
Then every step of one agrees with the same step of the other. -/
theorem debug_only_observes (tc : Toolchain σ S) (host : σ) {options options' : SuggestOptions}
    (hoptions : options.silent = options'.silent) {ops ops' : List (Operation σ)}
    (hops : List.Forall₂ Operation.SameButDebug ops ops') :
    List.Forall₂ Step.AgreesWith
      (opened tc options host :: (start tc options host).transcript tc ops)
      (opened tc options' host :: (start tc options' host).transcript tc ops') := by
  have hopened : (Suggester.start tc options .empty host).visible =
      (Suggester.start tc options' .empty host).visible := by
    rw [Suggester.visible_start, hoptions, ← Suggester.visible_start]
  obtain ⟨-, hstate, hevents, hhost⟩ := Step.mk.inj hopened
  refine .cons (Step.agreesWith_of_visible_eq ?_) ?_
  · simp only [opened, Step.visible, hstate, hevents, hhost]
  · exact transcript_agrees tc hops hstate hhost

/-- The first session traces from the start and stops when it is reconfigured, the second one begins
to trace then.  The engine logs a line when it is kept, and asks for a package that has no place. -/
theorem debug_only_observes_in_turns :
    let nowhere : BuildContext := fun path _ =>
      { result := .error (.invalidImportPath path "no such place") }
    let engine : Engine := fun request =>
      let rest : Script := .importing (.ofPath "fmt") fun _ => .finish []
      if request.logging then .log "asking" rest else rest
    let ask : Operation (Capabilities × Nat) :=
      .suggest engine nowhere ⟨"/work/m.go"⟩ ⟨#[0]⟩ 0
    let ops := [ask, .reconfigure { debug := false }, ask]
    let ops' := [ask, .reconfigure { debug := true }, ask]
    let first := opened .numbered { debug := true } ({}, 0) ::
      (start .numbered { debug := true } ({}, 0)).transcript .numbered ops
    let second := opened .numbered { debug := false } ({}, 0) ::
      (start .numbered { debug := false } ({}, 0)).transcript .numbered ops'
    engine.OnlyLogs ∧ List.Forall₂ Operation.SameButDebug ops ops' ∧
      List.Forall₂ Step.AgreesWith first second ∧
      first.map (fun step => step.events.length) = [2, 6, 3, 3] ∧
      second.map (fun step => step.events.length) = [2, 3, 3, 6] := by
  intro nowhere engine ask ops ops' first second
  have hengine : engine.OnlyLogs := by
    intro request
    by_cases hlogging : request.logging = true
    · simp only [engine, if_pos hlogging]
      rfl
    · simp only [engine, if_neg hlogging]
      rfl
  have hops : List.Forall₂ Operation.SameButDebug ops ops' :=
    .cons (.suggest hengine) (.cons (.reconfigure rfl) (.cons (.suggest hengine) .nil))
  have hoptions : ({ debug := true } : SuggestOptions).silent =
    ({ debug := false } : SuggestOptions).silent := rfl
  refine ⟨hengine, hops, debug_only_observes .numbered ({}, 0) hoptions hops, ?_, ?_⟩
  · decide +kernel
  · decide +kernel

end Session

end GoResolver
