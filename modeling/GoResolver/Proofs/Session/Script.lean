import GoResolver.Engine
import GoResolver.Proofs.Importer.Import

/-!
# What an engine's script does to a cache

A script imports, logs, and ends: with candidates, with an error, with a panic of its own, or with a
panic of a strategy under it.  However it ends, every import before has left its package in the
cache, and the event of the call that made it.

Both statements are inductions on the script.  The cache an import leaves is the one that the rest
of the script starts with, so they are for every cache.
-/

namespace GoResolver

variable {σ S : Type}

/-! ## 1. One import of a script -/

/-- An import ends so when the engine gets an answer from it. -/
def Outcome.answered : Except ResolutionError Package → Outcome
  | .ok p => .package p
  | .error e => .error e

theorem Outcome.panic_or_answered (o : Outcome) :
    (∃ p, o = .panic p) ∨ ∃ answer, o = .answered answer := by
  cases o with
  | package p => exact .inr ⟨.ok p, rfl⟩
  | error e => exact .inr ⟨.error e, rfl⟩
  | panic p => exact .inl ⟨p, rfl⟩

namespace Script

variable (tc : Toolchain σ S) (imp : Importer S)

/-- A panic under an import ends the run. -/
theorem run_importing_of_panic {query : ImportQuery}
    (next : Except ResolutionError Package → Script) {cache : Cache} {host : σ} {p : Panic}
    (h : (imp.importFrom tc query cache host).outcome = .panic p) :
    (importing query next).run tc imp cache host =
      { ending := .faulted (.ofPanic p)
        cache := (imp.importFrom tc query cache host).cache
        events := (imp.importFrom tc query cache host).events
        host := (imp.importFrom tc query cache host).host } := by
  simp only [run, h]

/-- After any other import the script goes on with the answer. -/
theorem run_importing_of_answered {query : ImportQuery}
    (next : Except ResolutionError Package → Script) {cache : Cache} {host : σ}
    {answer : Except ResolutionError Package}
    (h : (imp.importFrom tc query cache host).outcome = .answered answer) :
    (importing query next).run tc imp cache host =
      let i := imp.importFrom tc query cache host
      let r := (next answer).run tc imp i.cache i.host
      { r with events := i.events ++ r.events } := by
  cases answer with
  | ok p => simp only [run, h, Outcome.answered]
  | error e => simp only [run, h, Outcome.answered]

/-! ## 2. Entries and events of a run -/

/-- **An entry that a script leaves was there, or a call of the root strategy made it.** -/
theorem filled_of_mem_run (script : Script) (cache : Cache) (host : σ)
    {entry : CacheKey × Package} (h : entry ∈ (script.run tc imp cache host).cache.entries) :
    entry ∈ cache.entries ∨ Filled imp.root (script.run tc imp cache host).events entry := by
  induction script generalizing cache host with
  | finish candidates => exact .inl h
  | fail message => exact .inl h
  | panic p => exact .inl h
  | log line next ih =>
    rw [run] at h ⊢
    split at h
    · next hdebug =>
      rw [if_pos hdebug]
      rcases ih cache host h with h | h
      · exact .inl h
      · exact .inr (h.mono (List.subset_cons_self _ _))
    · next hdebug =>
      rw [if_neg hdebug]
      exact ih cache host h
  | importing query next ih =>
    have himport : entry ∈ (imp.importFrom tc query cache host).cache.entries →
        entry ∈ cache.entries ∨ Filled imp.root (imp.importFrom tc query cache host).events entry :=
      imp.filled_of_mem_importFrom tc query host cache
    rcases (imp.importFrom tc query cache host).outcome.panic_or_answered with
      ⟨p, hpanic⟩ | ⟨answer, hanswer⟩
    · rw [run_importing_of_panic tc imp next hpanic] at h ⊢
      exact himport h
    · rw [run_importing_of_answered tc imp next hanswer] at h ⊢
      rcases ih answer _ _ h with hmem | hfilled
      · rcases himport hmem with hmem | hfilled
        · exact .inl hmem
        · exact .inr (hfilled.mono (List.subset_append_left _ _))
      · exact .inr (hfilled.mono (List.subset_append_right _ _))

/-- A script asks for no capabilities and makes no shared strategy. -/
theorem opens_of_mem_run (script : Script) (cache : Cache) (host : σ) {event : Event S}
    (h : event ∈ (script.run tc imp cache host).events) : event.opens = false := by
  induction script generalizing cache host with
  | finish candidates => simp [run] at h
  | fail message => simp [run] at h
  | panic p => simp [run] at h
  | log line next ih =>
    rw [run] at h
    split at h
    · rcases List.mem_cons.mp h with rfl | h
      · rfl
      · exact ih cache host h
    · exact ih cache host h
  | importing query next ih =>
    rcases (imp.importFrom tc query cache host).outcome.panic_or_answered with
      ⟨p, hpanic⟩ | ⟨answer, hanswer⟩
    · rw [run_importing_of_panic tc imp next hpanic] at h
      exact imp.opens_of_mem_importFrom tc query host cache h
    · rw [run_importing_of_answered tc imp next hanswer] at h
      rcases List.mem_append.mp h with h | h
      · exact imp.opens_of_mem_importFrom tc query host cache h
      · exact ih answer _ _ h

end Script

end GoResolver
