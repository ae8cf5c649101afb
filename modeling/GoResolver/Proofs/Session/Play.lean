import GoResolver.Proofs.Importer.Run
import GoResolver.Proofs.Session.Script

/-!
# How a script plays out

`Script.Plays` tells what happens when an engine's script is played with an importer: which imports
are completed, one after the other, and how the play stops.  An import is completed when the engine
gets an answer from it, be it a package or an error; one under which a strategy panics is not, and
the play stops there.

Every script plays out (`Script.exists_plays`), and `Script.run` ends as the play stops, with the
cache that the completed imports leave (`Script.Plays.run_eq`).  So a statement about all the ways a
request can go is a statement about completed imports and a stop.

The same imports can be made by an engine that asks for them blindly and then returns: that is
`Script.ofQueries`, and it plays with the same answers (`Script.Plays.ofQueries`).
-/

namespace GoResolver

variable {σ S : Type}

/-! ## 1. Plays -/

/-- How the play of a script stops. -/
inductive Stop (σ S : Type) where
  /-- The engine returns. -/
  | returned (candidates : List Candidate)
  /-- The engine reports an error. -/
  | failed (message : String)
  /-- The engine panics. -/
  | panicked (p : Panic)
  /-- A strategy panics in the middle of an import. -/
  | interrupted (i : Import σ S) (p : Panic)

/-- The fault that a stop is, unless the engine returned. -/
def Stop.fault? : Stop σ S → Option Fault
  | .returned _ => none
  | .failed message => some (.engine message)
  | .panicked p => some (.ofPanic p)
  | .interrupted _ p => some (.ofPanic p)

/-- The candidates that the engine returned; none when it did not return. -/
def Stop.candidates : Stop σ S → List Candidate
  | .returned candidates => candidates
  | _ => []

/-- The ending of a run that stops so. -/
def Stop.ending : Stop σ S → Ending
  | .returned candidates => .finished candidates
  | .failed message => .faulted (.engine message)
  | .panicked p => .faulted (.ofPanic p)
  | .interrupted _ p => .faulted (.ofPanic p)

/-- Played with an importer, from a cache and a state of the toolchain, a script completes imports,
brings the toolchain to a state and stops. -/
inductive Script.Plays (tc : Toolchain σ S) (imp : Importer S) :
    Script → Cache → σ → List (Import σ S) → σ → Stop σ S → Prop where
  | finish {candidates : List Candidate} {cache : Cache} {host : σ} :
    Plays tc imp (.finish candidates) cache host [] host (.returned candidates)
  | fail {message : String} {cache : Cache} {host : σ} :
    Plays tc imp (.fail message) cache host [] host (.failed message)
  | panic {p : Panic} {cache : Cache} {host : σ} :
    Plays tc imp (.panic p) cache host [] host (.panicked p)
  | log {line : String} {next : Script} {cache : Cache} {host final : σ}
      {completed : List (Import σ S)} {stop : Stop σ S}
      (rest : Plays tc imp next cache host completed final stop) :
    Plays tc imp (.log line next) cache host completed final stop
  | package {i : Import σ S} {next : Except ResolutionError Package → Script} {cache : Cache}
      {p : Package} {completed : List (Import σ S)} {final : σ} {stop : Stop σ S}
      (importer_eq : i.importer = imp) (outcome_eq : (i.made tc cache).outcome = .package p)
      (rest : Plays tc imp (next (.ok p)) (i.made tc cache).cache (i.made tc cache).host
        completed final stop) :
    Plays tc imp (.importing i.query next) cache i.host (i :: completed) final stop
  | error {i : Import σ S} {next : Except ResolutionError Package → Script} {cache : Cache}
      {e : ResolutionError} {completed : List (Import σ S)} {final : σ} {stop : Stop σ S}
      (importer_eq : i.importer = imp) (outcome_eq : (i.made tc cache).outcome = .error e)
      (rest : Plays tc imp (next (.error e)) (i.made tc cache).cache (i.made tc cache).host
        completed final stop) :
    Plays tc imp (.importing i.query next) cache i.host (i :: completed) final stop
  | interrupted {i : Import σ S} {next : Except ResolutionError Package → Script} {cache : Cache}
      {p : Panic}
      (importer_eq : i.importer = imp) (outcome_eq : (i.made tc cache).outcome = .panic p) :
    Plays tc imp (.importing i.query next) cache i.host [] i.host (.interrupted i p)

/-- The script that makes the given imports, whatever is answered, and returns. -/
def Script.ofQueries : List ImportQuery → List Candidate → Script
  | [], candidates => .finish candidates
  | query :: queries, candidates => .importing query fun _ => ofQueries queries candidates

/-- Every script plays out. -/
theorem Script.exists_plays (tc : Toolchain σ S) (imp : Importer S) (script : Script)
    (cache : Cache) (host : σ) :
    ∃ completed final stop, script.Plays tc imp cache host completed final stop := by
  induction script generalizing cache host with
  | finish candidates => exact ⟨_, _, _, .finish⟩
  | fail message => exact ⟨_, _, _, .fail⟩
  | panic p => exact ⟨_, _, _, .panic⟩
  | log line next ih =>
    obtain ⟨completed, final, stop, h⟩ := ih cache host
    exact ⟨completed, final, stop, .log h⟩
  | importing query next ih =>
    let i : Import σ S := ⟨imp, query, host⟩
    cases houtcome : (i.made tc cache).outcome with
    | package p =>
      obtain ⟨completed, final, stop, h⟩ :=
        ih (.ok p) (i.made tc cache).cache (i.made tc cache).host
      exact ⟨i :: completed, final, stop, .package (i := i) rfl houtcome h⟩
    | error e =>
      obtain ⟨completed, final, stop, h⟩ :=
        ih (.error e) (i.made tc cache).cache (i.made tc cache).host
      exact ⟨i :: completed, final, stop, .error (i := i) rfl houtcome h⟩
    | panic p => exact ⟨[], host, .interrupted i p, .interrupted (i := i) rfl houtcome⟩

/-! ## 2. What an interrupted import leaves -/

/-- An import that is interrupted by a panic leaves the cache as it was. -/
theorem Import.cache_made_of_panic {tc : Toolchain σ S} {i : Import σ S} {cache : Cache} {p : Panic}
    (h : (i.made tc cache).outcome = .panic p) : (i.made tc cache).cache = cache := by
  rw [Import.made] at h ⊢
  by_cases hempty : i.query.path = ""
  · rw [Importer.importFrom_of_empty tc _ _ _ _ hempty]
  · cases hget : cache.get? i.key with
    | some p' => rw [Importer.importFrom_of_hit tc _ _ _ _ hempty hget]
    | none =>
      rw [Importer.importFrom_of_miss tc _ _ _ _ hempty hget] at h ⊢
      cases hkeep : (i.importer.resolve tc i.query i.host).keep with
      | none => rfl
      | some kept =>
        have hpackage := Importer.resolve_outcome_of_keep tc _ _ _ hkeep
        rw [hpackage] at h
        cases h

/-! ## 3. The run of a script that plays out -/

/-- The state that a stop leaves the toolchain in, given the cache and the state that the completed
imports left: an interrupted import was begun, and its strategy may have changed the toolchain. -/
def Stop.host (tc : Toolchain σ S) (cache : Cache) (final : σ) : Stop σ S → σ
  | .interrupted i _ => (i.made tc cache).host
  | _ => final

namespace Script.Plays

variable {tc : Toolchain σ S} {imp : Importer S} {script : Script} {cache : Cache} {host final : σ}
  {completed : List (Import σ S)} {stop : Stop σ S}

/-- **A run ends as the play stops, with the cache that the completed imports leave.** -/
theorem run_eq (h : script.Plays tc imp cache host completed final stop) :
    (script.run tc imp cache host).ending = stop.ending ∧
    (script.run tc imp cache host).cache = cacheAfter tc cache completed ∧
    (script.run tc imp cache host).host =
      stop.host tc (cacheAfter tc cache completed) final := by
  induction h with
  | finish => exact ⟨rfl, rfl, rfl⟩
  | fail => exact ⟨rfl, rfl, rfl⟩
  | panic => exact ⟨rfl, rfl, rfl⟩
  | log rest ih =>
    rw [run]
    split
    · exact ih
    · exact ih
  | package importer_eq outcome_eq rest ih =>
    subst importer_eq
    rw [Import.made] at outcome_eq
    simp only [run, outcome_eq]
    exact ih
  | error importer_eq outcome_eq rest ih =>
    subst importer_eq
    rw [Import.made] at outcome_eq
    simp only [run, outcome_eq]
    exact ih
  | interrupted importer_eq outcome_eq =>
    subst importer_eq
    have hcache := Import.cache_made_of_panic outcome_eq
    rw [Import.made] at outcome_eq hcache
    simp only [run, outcome_eq]
    exact ⟨rfl, hcache, rfl⟩

/-! ## 4. The same imports without a fault -/

/-- An engine that makes the imports of a play, whatever is answered, and then returns, completes
them all in the same way. -/
theorem ofQueries (h : script.Plays tc imp cache host completed final stop)
    (candidates : List Candidate) :
    (Script.ofQueries (completed.map Import.query) candidates).Plays tc imp cache host
      completed final (.returned candidates) := by
  induction h with
  | finish => exact .finish
  | fail => exact .finish
  | panic => exact .finish
  | log rest ih => exact ih
  | package importer_eq outcome_eq rest ih => exact .package importer_eq outcome_eq ih
  | error importer_eq outcome_eq rest ih => exact .error importer_eq outcome_eq ih
  | interrupted importer_eq outcome_eq => exact .finish

end Script.Plays

end GoResolver
