import GoResolver.Proofs.Session.Play
import GoResolver.Proofs.Session.Run

/-!
# What a fault can do to a session

The engine of a request may return, report an error or panic, and a strategy may panic under one of
its imports, after any number of imports and in the middle of one.  `Suggester.suggest_contained`
says what is left in each case: the answer, the warning, and a session in which nothing has changed
but that the cache holds what the *completed* imports have put there.

The last point is made twice.  By key: what was cached stays, and a key that was free holds what the
first completed import under it would keep.  And by comparison: an engine that makes the completed
imports and then returns leaves the very same session, so no later operation can tell whether the
request went wrong.

## Warnings

A build context may log what it likes while it is asked.  Everything else that a request logs is a
trace, apart from the warning of a fault.  `BuildContext.AccountsFor` says so of a list of events,
and it holds of every part of a request, since it is kept by appending.
-/

namespace GoResolver

variable {σ S : Type}

/-! ## 1. Warnings -/

/-- The warning that an event is, if it is one. -/
def Event.warning? : Event S → Option LogRecord
  | .logged record => if record.level = .warn then some record else none
  | _ => none

/-- The warnings among events. -/
def warnings (events : List (Event S)) : List LogRecord := events.filterMap Event.warning?

/-- The warnings that a build context itself logs when it is asked. -/
def BuildContext.warnings (build : BuildContext) : Event S → List LogRecord
  | .located path sourceDir => (build path sourceDir).log.filter (·.level = .warn)
  | _ => []

/-- All warnings among the events are those of the build context, each time it was asked. -/
def BuildContext.AccountsFor (build : BuildContext) (events : List (Event S)) : Prop :=
  GoResolver.warnings events = events.flatMap build.warnings

namespace BuildContext.AccountsFor

variable {build : BuildContext} {events events' : List (Event S)}

theorem nil : build.AccountsFor ([] : List (Event S)) := rfl

theorem append (h : build.AccountsFor events) (h' : build.AccountsFor events') :
    build.AccountsFor (events ++ events') := by
  rw [AccountsFor, GoResolver.warnings] at *
  rw [List.filterMap_append, List.flatMap_append, h, h']

/-- Events that are neither warnings nor questions to a build context need no account. -/
theorem of_silent (h : ∀ event ∈ events, event.warning? = none ∧ build.warnings event = []) :
    build.AccountsFor events := by
  rw [AccountsFor, GoResolver.warnings,
    List.filterMap_eq_nil_iff.mpr fun event hevent => (h event hevent).1,
    List.flatMap_eq_nil_iff.mpr fun event hevent => (h event hevent).2]

end BuildContext.AccountsFor

namespace Importer

variable (tc : Toolchain σ S) (imp : Importer S) (q : ImportQuery) (host : σ)

theorem accountsFor_trace (step : String) (e : ResolutionError) :
    imp.build.AccountsFor (imp.trace step q e) := by
  rw [trace]
  split
  · exact .of_silent fun event hevent => by rw [List.mem_singleton.mp hevent]; exact ⟨rfl, rfl⟩
  · exact .nil

theorem accountsFor_lookupEvents : imp.build.AccountsFor (imp.lookupEvents q) := by
  have hlog : ∀ log : List LogRecord,
      warnings (log.map (Event.logged (S := S))) = log.filter (·.level = .warn) := by
    intro log
    rw [warnings, List.filterMap_map, ← List.filterMap_eq_filter]
    congr 1
    funext record
    simp [Event.warning?, Option.guard]
  have hown : ((imp.build q.path q.sourceDir).log.map (Event.logged (S := S))).flatMap
      imp.build.warnings = [] := by
    rw [List.flatMap_map]
    exact List.flatMap_eq_nil_iff.mpr fun record _ => rfl
  rw [BuildContext.AccountsFor, lookupEvents, List.flatMap_cons, hown, List.append_nil]
  exact hlog _

theorem accountsFor_callEvents (strategy : S) (o : Outcome) :
    imp.build.AccountsFor (imp.callEvents tc q strategy o) := by
  have hcalled : imp.build.AccountsFor [.called strategy q o] :=
    .of_silent fun event hevent => by rw [List.mem_singleton.mp hevent]; exact ⟨rfl, rfl⟩
  cases o with
  | error e => exact hcalled.append (imp.accountsFor_trace q _ e)
  | package p => exact hcalled
  | panic p => exact hcalled

theorem accountsFor_resolve : imp.build.AccountsFor (resolve tc imp q host).events := by
  by_cases hlow : q.path = lowLevelPath
  · rw [resolve_of_lowLevel tc imp q host hlow]
    exact .nil
  · cases hresult : (imp.build q.path q.sourceDir).result with
    | error e =>
      rw [resolve_of_error tc imp q host hlow hresult]
      exact (imp.accountsFor_lookupEvents q).append (imp.accountsFor_trace q _ e)
    | ok location =>
      by_cases hroot : location.isRoot ∧ location.importPath = lowLevelPath
      · rw [resolve_of_root_lowLevel tc imp q host hlow hresult hroot]
        exact imp.accountsFor_lookupEvents q
      · rw [resolve_of_located tc imp q host hlow hresult hroot]
        exact (imp.accountsFor_lookupEvents q).append (imp.accountsFor_callEvents tc q _ _)

/-- The warnings of an import are those of its build context. -/
theorem accountsFor_importFrom (cache : Cache) :
    imp.build.AccountsFor (importFrom tc imp q cache host).events := by
  by_cases hempty : q.path = ""
  · rw [importFrom_of_empty tc imp q host cache hempty]
    exact .nil
  · cases hget : cache.get? (.of q.path q.sourceDir) with
    | some p =>
      rw [importFrom_of_hit tc imp q host cache hempty hget]
      exact .nil
    | none =>
      rw [importFrom_of_miss tc imp q host cache hempty hget]
      exact accountsFor_resolve tc imp q host

end Importer

/-- The warnings of a script's run are those of the build context, however the run ends. -/
theorem Script.accountsFor_run (tc : Toolchain σ S) (imp : Importer S) (script : Script)
    (cache : Cache) (host : σ) : imp.build.AccountsFor (script.run tc imp cache host).events := by
  induction script generalizing cache host with
  | finish candidates => exact .nil
  | fail message => exact .nil
  | panic p => exact .nil
  | log line next ih =>
    rw [run]
    split
    · have hlog : imp.build.AccountsFor [Event.logged (S := S) (.debug ("gocode: " ++ line))] :=
        .of_silent fun event hevent => by rw [List.mem_singleton.mp hevent]; exact ⟨rfl, rfl⟩
      exact hlog.append (ih cache host)
    · exact ih cache host
  | importing query next ih =>
    have himport := imp.accountsFor_importFrom tc query host cache
    rw [run]
    split
    · exact himport
    · exact himport.append (ih _ _ _)
    · exact himport.append (ih _ _ _)

/-! ## 2. A request that may fault -/

/-- The warning that a fault leaves. -/
def Fault.record (fault : Fault) (file : Path) : LogRecord :=
  .warn ("gocode/suggest fault in " ++ file.text ++ ": " ++ fault.message ++ "\n")

/-- The warnings of what is logged when a request ends: one for a fault. -/
theorem Suggester.warnings_closing (s : Suggester S) (request : EngineRequest) (stop : Stop σ S) :
    warnings ((s.closing request stop.ending).map (Event.logged (S := S))) =
      stop.fault?.toList.map (Fault.record · request.file) := by
  cases stop with
  | returned candidates =>
    rw [Stop.ending, closing]
    split
    · rfl
    · rfl
  | failed message => rfl
  | panicked p => rfl
  | interrupted i p => rfl

/-- What a request leaves, given the imports it completed, the state of the toolchain after them,
and how it stopped. -/
structure Suggester.Contained (tc : Toolchain σ S) (s : Suggester S) (build : BuildContext)
    (file : Path) (completed : List (Import σ S)) (final : σ) (stop : Stop σ S)
    (r : Step σ S (List Candidate)) : Prop where
  /-- The engine's candidates if it returned, and none otherwise. -/
  answer_eq : r.answer = stop.candidates
  /-- Beyond what the build context logs itself, one warning for a fault and none without. -/
  warnings_eq : warnings r.events =
    r.events.flatMap build.warnings ++ stop.fault?.toList.map (Fault.record · file)
  /-- Options, kind and root strategy are what they were, and the cache is the one that the
  completed imports leave. -/
  state_eq : r.state = { s with cache := cacheAfter tc s.cache completed }
  /-- What was cached stays. -/
  get?_of_some : ∀ key p, s.cache.get? key = some p → r.state.cache.get? key = some p
  /-- What was not cached is what the first completed import that fills the key has put there. -/
  get?_of_none : ∀ key, s.cache.get? key = none →
    r.state.cache.get? key = completed.findSome? (Import.kept tc key)
  /-- The toolchain is as the completed imports left it, but for the call that was interrupted. -/
  host_eq : r.host = stop.host tc r.state.cache final

namespace Suggester

variable (tc : Toolchain σ S) (engine : Engine) (s : Suggester S) (build : BuildContext)
  (file : Path) (source : ByteArray) (offset : Nat) (host : σ)

/-- A request leaves what the play of its engine's script says. -/
theorem contained_of_plays (hsource : source.size ≠ 0) {completed : List (Import σ S)} {final : σ}
    {stop : Stop σ S}
    (h : (engine (s.engineRequest file source offset)).Plays tc
      (s.importer (tc.create s.kind (.request build) host).1 build) s.cache
      (tc.create s.kind (.request build) host).2 completed final stop) :
    Contained tc s build file completed final stop
      (suggest tc engine s build file source offset host) := by
  obtain ⟨hending, hcache, hhost⟩ := h.run_eq
  have haccount : build.AccountsFor ((engine (s.engineRequest file source offset)).run tc
      (s.importer (tc.create s.kind (.request build) host).1 build) s.cache
      (tc.create s.kind (.request build) host).2).events := Script.accountsFor_run tc _ _ _ _
  have hget : ∀ key, (cacheAfter tc s.cache completed).get? key =
      (s.cache.get? key).or (completed.findSome? (Import.kept tc key)) :=
    get?_cacheAfter tc completed s.cache
  rw [suggest_of_nonempty tc engine s build file source offset host hsource, ranScript, hending,
    hcache, hhost]
  refine ⟨?_, ?_, rfl, fun key p hp => ?_, fun key hnone => ?_, rfl⟩
  · cases stop <;> rfl
  · -- the first two events and the closing ones are no questions to the build context
    have hclosing : ((s.closing (s.engineRequest file source offset) stop.ending).map
        (Event.logged (S := S))).flatMap build.warnings = [] := by
      rw [List.flatMap_map]
      exact List.flatMap_eq_nil_iff.mpr fun record _ => rfl
    have hfault : warnings ((s.closing (s.engineRequest file source offset) stop.ending).map
        (Event.logged (S := S))) = stop.fault?.toList.map (Fault.record · file) :=
      s.warnings_closing _ stop
    rw [List.flatMap_cons, List.flatMap_cons, List.flatMap_append, hclosing, List.append_nil,
      ← haccount, ← hfault]
    exact List.filterMap_append
  · rw [hget, hp, Option.some_or]
  · rw [hget, hnone, Option.none_or]

/-- **A request is contained, however it goes.**  Its engine completes some imports and stops: it
returns, it reports an error, it panics, or a strategy panics under one more import.  The answer,
the warning and the session are then what `Contained` says, and the session is the very one that an
engine leaves which makes the completed imports and returns. -/
theorem suggest_contained (hsource : source.size ≠ 0) :
    ∃ completed final stop,
      (engine (s.engineRequest file source offset)).Plays tc
        (s.importer (tc.create s.kind (.request build) host).1 build) s.cache
        (tc.create s.kind (.request build) host).2 completed final stop ∧
      Contained tc s build file completed final stop
        (suggest tc engine s build file source offset host) ∧
      ∀ candidates,
        Contained tc s build file completed final (.returned candidates)
          (suggest tc (fun _ => .ofQueries (completed.map Import.query) candidates) s build file
            source offset host) ∧
        (suggest tc (fun _ => .ofQueries (completed.map Import.query) candidates) s build file
            source offset host).state =
          (suggest tc engine s build file source offset host).state := by
  obtain ⟨completed, final, stop, hplays⟩ :=
    Script.exists_plays tc (s.importer (tc.create s.kind (.request build) host).1 build)
      (engine (s.engineRequest file source offset)) s.cache
      (tc.create s.kind (.request build) host).2
  have hcontained := contained_of_plays tc engine s build file source offset host hsource hplays
  refine ⟨completed, final, stop, hplays, hcontained, fun candidates => ?_⟩
  have hcalm := contained_of_plays tc (fun _ => .ofQueries (completed.map Import.query) candidates)
    s build file source offset host hsource (hplays.ofQueries candidates)
  exact ⟨hcalm, hcalm.state_eq.trans hcontained.state_eq.symm⟩

end Suggester

/-! ## 3. A request that is interrupted -/

/-- A toolchain whose strategies panic on one import path and have complete packages for the others.
Its state counts the calls. -/
def Toolchain.fragile (broken : String) : Toolchain Nat Unit where
  capabilities _ := {}
  create _ _ calls := ((), calls)
  kind _ := .default
  call _ q calls :=
    (if q.path = broken then .panic (.message "corrupt") else .package ⟨q.path, q.path, true, []⟩,
      calls + 1)

/-- The engine imports two packages and has a candidate, but a strategy panics under the second
import: the first one stays cached, the second leaves nothing, and there is one warning. -/
theorem Suggester.suggest_contained_in_second_import :
    let tc := Toolchain.fragile "os"
    let s : Suggester Unit := { options := {}, kind := .default, root := (), cache := .empty }
    let engine : Engine := fun _ =>
      .ofQueries [.ofPath "fmt", .ofPath "os"] [⟨"Println", .func, ""⟩]
    let source : ByteArray := ⟨#[0]⟩
    let r := suggest tc engine s (.below "/usr/go" true) ⟨"/work/m.go"⟩ source 0 0
    source.size ≠ 0 ∧
      (∃ completed final stop,
        Contained tc s (.below "/usr/go" true) ⟨"/work/m.go"⟩ completed final stop r) ∧
      r.answer = [] ∧
      r.state.cache.get? (.of "fmt" ⟨"."⟩) = some ⟨"fmt", "fmt", true, []⟩ ∧
      r.state.cache.get? (.of "os" ⟨"."⟩) = none ∧
      warnings r.events = [(Fault.panicked "corrupt").record ⟨"/work/m.go"⟩] := by
  intro tc s engine source r
  have hsource : source.size ≠ 0 := by decide
  obtain ⟨completed, final, stop, -, hcontained, -⟩ :=
    suggest_contained tc engine s (.below "/usr/go" true) ⟨"/work/m.go"⟩ source 0 0 hsource
  exact ⟨hsource, ⟨completed, final, stop, hcontained⟩, by decide +kernel, by decide +kernel,
    by decide +kernel, by decide +kernel⟩

end GoResolver
