import GoResolver.Proofs.Importer.Run
import GoResolver.Proofs.Session.Containment
import GoResolver.Proofs.Session.Run

/-!
# What is resolved once stays resolved

A session starts over whenever it is reconfigured or reset.  The stretch between is an epoch: any
number of requests, of which some may fail or panic, while the toolchain changes as it likes.

`Session.attempts` lists the imports of an epoch in the order in which they were made, each with the
cache that it found.  The last of a request may be one that a panic interrupted.

`Session.resolved_once`: an import which the root strategy has answered with a complete package
settles every later one of the epoch under the same key.  That package is answered, nobody is asked,
and the cache is left alone.

## The invariant

Within an epoch a cache only grows, in the sense of `Cache.Extends`: what it holds under a key, it
holds from then on.  `Grows` says so of a list of attempts, between the cache before the first and
the cache after the last, and it holds of one script, of one operation and of an epoch, because such
lists can be put together (`Grows.cons`, `Grows.append`).
-/

namespace GoResolver

variable {σ S : Type}

/-! ## 1. Attempts -/

/-- An import as it was made in a run, with the cache that it found. -/
structure Attempt (σ S : Type) extends Import σ S where
  cache : Cache

/-- What came of an attempt. -/
def Attempt.result (tc : Toolchain σ S) (a : Attempt σ S) : Imported σ S :=
  a.toImport.made tc a.cache

/-- The imports that a script makes, in order. -/
def Script.attempts (tc : Toolchain σ S) (imp : Importer S) :
    Script → Cache → σ → List (Attempt σ S)
  | .finish _, _, _ => []
  | .fail _, _, _ => []
  | .panic _, _, _ => []
  | .log _ next, cache, host => attempts tc imp next cache host
  | .importing query next, cache, host =>
    let a : Attempt σ S := { importer := imp, query, host, cache }
    a :: match (a.result tc).outcome with
      | .panic _ => []
      | .error e => attempts tc imp (next (.error e)) (a.result tc).cache (a.result tc).host
      | .package p => attempts tc imp (next (.ok p)) (a.result tc).cache (a.result tc).host

/-- Whether an operation makes the session start over. -/
def Operation.reinitializes : Operation σ → Bool
  | .reconfigure _ => true
  | .reset => true
  | _ => false

/-- The imports that a request makes, in order. -/
def Suggester.attempts (tc : Toolchain σ S) (engine : Engine) (s : Suggester S)
    (build : BuildContext) (file : Path) (source : ByteArray) (offset : Nat) (host : σ) :
    List (Attempt σ S) :=
  if source.size = 0 then []
  else (engine (s.engineRequest file source offset)).attempts tc
    (s.importer (tc.create s.kind (.request build) host).1 build) s.cache
    (tc.create s.kind (.request build) host).2

namespace Session

/-- The imports that an operation makes, in order. -/
def attemptsOf (tc : Toolchain σ S) (s : Session σ S) : Operation σ → List (Attempt σ S)
  | .suggest engine build file source offset =>
    s.state.attempts tc engine build file source offset s.host
  | .reconfigure _ => []
  | .reset => []
  | .outside _ => []

/-- The imports that a list of operations makes, in order. -/
def attempts (tc : Toolchain σ S) (s : Session σ S) : List (Operation σ) → List (Attempt σ S)
  | [] => []
  | op :: ops => s.attemptsOf tc op ++ (s.step tc op).attempts tc ops

end Session

/-! ## 2. Caches that only grow -/

/-- Whatever the first cache holds, the second holds as well. -/
def Cache.Extends (cache cache' : Cache) : Prop :=
  ∀ key p, cache.get? key = some p → cache'.get? key = some p

theorem Cache.Extends.refl (cache : Cache) : cache.Extends cache := fun _ _ h => h

theorem Cache.Extends.trans {c₁ c₂ c₃ : Cache} (h₁ : c₁.Extends c₂) (h₂ : c₂.Extends c₃) :
    c₁.Extends c₃ := fun key p h => h₂ key p (h₁ key p h)

/-- An import drops nothing from a cache and replaces nothing in it. -/
theorem Attempt.extends_result (tc : Toolchain σ S) (a : Attempt σ S) :
    a.cache.Extends (a.result tc).cache := by
  intro key p h
  rw [result, Import.get?_made, h, Option.some_or]

/-- The caches of a list of attempts grow from one cache to another. -/
structure Grows (tc : Toolchain σ S) (cache : Cache) (attempts : List (Attempt σ S))
    (cache' : Cache) : Prop where
  extend : cache.Extends cache'
  from_start : ∀ a ∈ attempts, cache.Extends a.cache
  to_end : ∀ a ∈ attempts, (a.result tc).cache.Extends cache'
  between : attempts.Pairwise fun a b => (a.result tc).cache.Extends b.cache

namespace Grows

variable {tc : Toolchain σ S} {c₁ c₂ c₃ : Cache} {attempts attempts' : List (Attempt σ S)}

theorem nil (cache : Cache) : Grows tc cache [] cache where
  extend := .refl cache
  from_start := fun _ ha => absurd ha List.not_mem_nil
  to_end := fun _ ha => absurd ha List.not_mem_nil
  between := .nil

theorem append (h : Grows tc c₁ attempts c₂) (h' : Grows tc c₂ attempts' c₃) :
    Grows tc c₁ (attempts ++ attempts') c₃ where
  extend := h.extend.trans h'.extend
  from_start := by
    intro a ha
    rcases List.mem_append.mp ha with ha | ha
    · exact h.from_start a ha
    · exact h.extend.trans (h'.from_start a ha)
  to_end := by
    intro a ha
    rcases List.mem_append.mp ha with ha | ha
    · exact (h.to_end a ha).trans h'.extend
    · exact h'.to_end a ha
  between := List.pairwise_append.mpr ⟨h.between, h'.between,
    fun a ha b hb => (h.to_end a ha).trans (h'.from_start b hb)⟩

theorem singleton (tc : Toolchain σ S) (a : Attempt σ S) :
    Grows tc a.cache [a] (a.result tc).cache where
  extend := a.extends_result tc
  from_start := by
    intro b hb
    rw [List.mem_singleton.mp hb]
    exact .refl _
  to_end := by
    intro b hb
    rw [List.mem_singleton.mp hb]
    exact .refl _
  between := List.pairwise_singleton _ _

/-- An attempt comes before those that start from the cache it leaves. -/
theorem cons {a : Attempt σ S} (h : Grows tc (a.result tc).cache attempts c₂) :
    Grows tc a.cache (a :: attempts) c₂ :=
  (singleton tc a).append h

end Grows

/-! ## 3. Epochs -/

namespace Script

theorem attempts_importing_of_panic {tc : Toolchain σ S} {a : Attempt σ S} {p : Panic}
    (next : Except ResolutionError Package → Script)
    (h : (a.result tc).outcome = .panic p) :
    (importing a.query next).attempts tc a.importer a.cache a.host = [a] := by
  have h' : (Attempt.result tc ⟨⟨a.importer, a.query, a.host⟩, a.cache⟩).outcome = .panic p := h
  simp only [attempts, h']

theorem attempts_importing_of_answered {tc : Toolchain σ S} {a : Attempt σ S}
    {answer : Except ResolutionError Package} (next : Except ResolutionError Package → Script)
    (h : (a.result tc).outcome = .answered answer) :
    (importing a.query next).attempts tc a.importer a.cache a.host =
      a :: (next answer).attempts tc a.importer (a.result tc).cache (a.result tc).host := by
  have h' : (Attempt.result tc ⟨⟨a.importer, a.query, a.host⟩, a.cache⟩).outcome =
    .answered answer := h
  cases answer with
  | ok p => simp only [attempts, h', Outcome.answered]
  | error e => simp only [attempts, h', Outcome.answered]

/-- The caches of a script's imports grow. -/
theorem grows (tc : Toolchain σ S) (imp : Importer S) (script : Script) (cache : Cache)
    (host : σ) :
    Grows tc cache (script.attempts tc imp cache host) (script.run tc imp cache host).cache := by
  induction script generalizing cache host with
  | finish candidates => exact .nil cache
  | fail message => exact .nil cache
  | panic p => exact .nil cache
  | log line next ih =>
    rw [run]
    split
    · exact ih cache host
    · exact ih cache host
  | importing query next ih =>
    let a : Attempt σ S := { importer := imp, query, host, cache }
    rcases (a.result tc).outcome.panic_or_answered with ⟨p, hpanic⟩ | ⟨answer, hanswer⟩
    · rw [run_importing_of_panic tc imp next hpanic, attempts_importing_of_panic next hpanic]
      exact .singleton tc a
    · rw [run_importing_of_answered tc imp next hanswer,
        attempts_importing_of_answered next hanswer]
      exact .cons (a := a) (ih answer (a.result tc).cache (a.result tc).host)

end Script

namespace Session

/-- Whatever does not make a session start over lets its cache grow, however it ends. -/
theorem grows_step (tc : Toolchain σ S) (s : Session σ S) {op : Operation σ}
    (hop : op.reinitializes = false) :
    Grows tc s.state.cache (s.attemptsOf tc op) (s.step tc op).state.cache := by
  cases op with
  | reconfigure options => cases hop
  | reset => cases hop
  | outside change => exact .nil s.state.cache
  | suggest engine build file source offset =>
    rw [step, attemptsOf, Suggester.attempts]
    split
    · next hempty =>
      rw [Suggester.suggest_of_empty tc engine s.state build file source offset s.host hempty]
      exact .nil s.state.cache
    · next hsource =>
      rw [Suggester.suggest_of_nonempty tc engine s.state build file source offset s.host hsource]
      exact Script.grows tc _ _ _ _

/-- The cache grows through an epoch. -/
theorem grows (tc : Toolchain σ S) (s : Session σ S) (epoch : List (Operation σ))
    (hepoch : ∀ op ∈ epoch, op.reinitializes = false) :
    Grows tc s.state.cache (s.attempts tc epoch) (epoch.foldl (step tc) s).state.cache := by
  induction epoch generalizing s with
  | nil => exact .nil s.state.cache
  | cons op ops ih =>
    have hop := hepoch op List.mem_cons_self
    have hops : ∀ op ∈ ops, op.reinitializes = false := fun op h =>
      hepoch op (List.mem_cons_of_mem _ h)
    exact (s.grows_step tc hop).append (ih (s.step tc op) hops)

end Session

/-! ## 4. Who is asked -/

/-- Whether a build context is asked for a place, or a strategy for a package. -/
def Event.asks : Event S → Bool
  | .located _ _ => true
  | .called _ _ _ => true
  | _ => false

/-- Whom an attempt asks, and for what. -/
def Attempt.questions (tc : Toolchain σ S) (a : Attempt σ S) : List (Event S) :=
  (a.result tc).events.filter Event.asks

/-- Nobody is asked in a script but by its imports. -/
theorem Script.questions_run (tc : Toolchain σ S) (imp : Importer S) (script : Script)
    (cache : Cache) (host : σ) :
    (script.run tc imp cache host).events.filter Event.asks =
      (script.attempts tc imp cache host).flatMap (Attempt.questions tc) := by
  induction script generalizing cache host with
  | finish candidates => rfl
  | fail message => rfl
  | panic p => rfl
  | log line next ih =>
    rw [run, attempts]
    split
    · rw [← ih cache host]
      rfl
    · exact ih cache host
  | importing query next ih =>
    let a : Attempt σ S := { importer := imp, query, host, cache }
    rcases (a.result tc).outcome.panic_or_answered with ⟨p, hpanic⟩ | ⟨answer, hanswer⟩
    · rw [run_importing_of_panic tc imp next hpanic, attempts_importing_of_panic next hpanic]
      exact (List.append_nil _).symm
    · rw [run_importing_of_answered tc imp next hanswer,
        attempts_importing_of_answered next hanswer, List.flatMap_cons, ← ih]
      exact List.filter_append _ _

namespace Session

theorem questions_step (tc : Toolchain σ S) (s : Session σ S) {op : Operation σ}
    (hop : op.reinitializes = false) :
    (s.step tc op).since.filter Event.asks =
      s.since.filter Event.asks ++ (s.attemptsOf tc op).flatMap (Attempt.questions tc) := by
  cases op with
  | reconfigure options => cases hop
  | reset => cases hop
  | outside change => exact (List.append_nil _).symm
  | suggest engine build file source offset =>
    rw [step, attemptsOf, Suggester.attempts, List.filter_append]
    split
    · next hempty =>
      rw [Suggester.suggest_of_empty tc engine s.state build file source offset s.host hempty]
      rfl
    · next hsource =>
      rw [Suggester.suggest_of_nonempty tc engine s.state build file source offset s.host hsource,
        ← Script.questions_run]
      -- what is logged at the end is no question
      have hclosing : ((s.state.closing (s.state.engineRequest file source offset)
          (s.state.ranScript tc engine build file source offset s.host).ending).map
            (Event.logged (S := S))).filter Event.asks = [] := by
        rw [List.filter_eq_nil_iff]
        intro event hevent
        obtain ⟨record, -, rfl⟩ := List.mem_map.mp hevent
        exact Bool.false_ne_true
      have hran : ((s.state.ranScript tc engine build file source offset s.host).events ++
          (s.state.closing (s.state.engineRequest file source offset)
            (s.state.ranScript tc engine build file source offset s.host).ending).map
              Event.logged).filter Event.asks =
          (s.state.ranScript tc engine build file source offset s.host).events.filter
            Event.asks := by
        rw [List.filter_append, hclosing, List.append_nil]
      exact congrArg (s.since.filter Event.asks ++ ·) hran

/-- Nobody is asked in an epoch but by its imports. -/
theorem questions (tc : Toolchain σ S) (s : Session σ S) (epoch : List (Operation σ))
    (hepoch : ∀ op ∈ epoch, op.reinitializes = false) :
    (epoch.foldl (step tc) s).since.filter Event.asks =
      s.since.filter Event.asks ++ (s.attempts tc epoch).flatMap (Attempt.questions tc) := by
  induction epoch generalizing s with
  | nil => rw [attempts, List.flatMap_nil, List.append_nil, List.foldl_nil]
  | cons op ops ih =>
    have hop := hepoch op List.mem_cons_self
    have hops : ∀ op ∈ ops, op.reinitializes = false := fun op h =>
      hepoch op (List.mem_cons_of_mem _ h)
    rw [List.foldl_cons, ih (s.step tc op) hops, questions_step tc s hop, attempts,
      List.flatMap_append, List.append_assoc]

end Session

/-! ## 5. Resolved once -/

namespace Attempt

variable {tc : Toolchain σ S}

/-- The root strategy answers an import with a complete package, as one of the toolchain's own. -/
structure AnsweredByRoot (tc : Toolchain σ S) (a : Attempt σ S) (p : Package) : Prop where
  locatesRoot : a.importer.build.LocatesRoot a.query.path a.query.sourceDir
  called : .called a.importer.root a.query (.package p) ∈ (a.result tc).events
  complete : p.complete = true

namespace AnsweredByRoot

variable {a : Attempt σ S} {p : Package}

theorem fills (h : a.AnsweredByRoot tc p) : a.toImport.Fills tc p := by
  have hcalls := Import.calls_of_mem h.called
  exact
    { path_ne_empty := hcalls.path_ne_empty
      path_ne_lowLevel := hcalls.path_ne_lowLevel
      locatesRoot := h.locatesRoot
      call_eq := hcalls.outcome_eq.symm
      complete := h.complete }

/-- The root strategy's package is answered, and it is cached from then on. -/
theorem result_eq (h : a.AnsweredByRoot tc p) :
    (a.result tc).outcome = .package p ∧ (a.result tc).cache.get? a.key = some p := by
  have hmiss := (Import.calls_of_mem h.called).get?_eq_none
  have hfills := h.fills
  constructor
  · rw [result, Import.made,
      Importer.importFrom_of_miss tc _ _ _ _ hfills.path_ne_empty hmiss]
    have hroot := (Importer.resolve_of_locatesRoot tc a.importer a.query a.host
      hfills.path_ne_lowLevel hfills.locatesRoot).1
    exact hroot.trans hfills.call_eq
  · rw [result, Import.get?_made, hmiss, Option.none_or]
    exact Import.kept_eq_some_iff.mpr ⟨rfl, hfills⟩

end AnsweredByRoot

/-- What is cached is answered, and nothing else happens. -/
theorem result_of_hit {a : Attempt σ S} {p : Package} (hpath : a.query.path ≠ "")
    (h : a.cache.get? a.key = some p) :
    a.result tc = { outcome := .package p, cache := a.cache, host := a.host } :=
  Importer.importFrom_of_hit tc _ _ _ _ hpath h

end Attempt

/-- **What is resolved once stays resolved.**  Take any stretch of a session in which it is neither
reconfigured nor reset.  Once an import has been answered by the root strategy with a complete
package, every later import of the same path from the same directory answers that package, whichever
request makes it and whatever its build context and mode are; it asks nobody, and it leaves the
cache and the toolchain alone.  The imports compared are all there are: whoever is asked in the
stretch is asked by one of them. -/
theorem Session.resolved_once (tc : Toolchain σ S) (options : SuggestOptions) (host : σ)
    (before epoch : List (Operation σ)) (hepoch : ∀ op ∈ epoch, op.reinitializes = false) :
    let s := Session.run tc options host before
    (s.attempts tc epoch).Pairwise (fun first later => ∀ p : Package,
      first.AnsweredByRoot tc p → later.query.path = first.query.path →
      later.query.sourceDir.Same first.query.sourceDir →
      (first.result tc).outcome = .package p ∧
      later.result tc =
        { outcome := .package p, cache := later.cache, events := [], host := later.host }) ∧
    (Session.run tc options host (before ++ epoch)).since.filter Event.asks =
      s.since.filter Event.asks ++ (s.attempts tc epoch).flatMap (Attempt.questions tc) := by
  intro s
  constructor
  · refine (s.grows tc epoch hepoch).between.imp ?_
    intro first later hextends p hroot hpath hsame
    obtain ⟨houtcome, hcached⟩ := hroot.result_eq
    have hkey : later.key = first.key := CacheKey.of_eq_of_iff.mpr ⟨hpath, hsame⟩
    have hpath_ne : later.query.path ≠ "" := by
      rw [hpath]
      exact hroot.fills.path_ne_empty
    have hhit : later.cache.get? later.key = some p := by
      rw [hkey]
      exact hextends first.key p hcached
    exact ⟨houtcome, Attempt.result_of_hit hpath_ne hhit⟩
  · have hrun : Session.run tc options host (before ++ epoch) = epoch.foldl (step tc) s := by
      rw [Session.run, List.foldl_append]
      rfl
    rw [hrun]
    exact s.questions tc epoch hepoch

/-- The first request is cut short by a panic after it has imported `fmt`.  The second one has
another build context, for which `fmt` is no root package, spells the directory differently and asks
in another mode: it gets the package of the first. -/
theorem Session.resolved_once_across_a_panic :
    let tc := Toolchain.fragile "os"
    let source : ByteArray := ⟨#[0]⟩
    let engine : Engine := fun _ =>
      .ofQueries [⟨"fmt", ⟨"/work/app"⟩, {}⟩, ⟨"os", ⟨"/work/app"⟩, {}⟩] []
    let engine' : Engine := fun _ => .ofQueries [⟨"fmt", ⟨"/work//app/."⟩, ⟨7⟩⟩] []
    let epoch : List (Operation Nat) :=
      [.suggest engine (.below "/usr/go" true) ⟨"/work/app/m.go"⟩ source 0,
        .suggest engine' (.below "/opt/go" false) ⟨"/work/app/m.go"⟩ source 0]
    let s := Session.run tc { debug := true } 0 [.reset]
    let fmt : Package := ⟨"fmt", "fmt", true, []⟩
    (∀ op ∈ epoch, op.reinitializes = false) ∧
    ∃ first panicked later, s.attempts tc epoch = [first, panicked, later] ∧
      first.AnsweredByRoot tc fmt ∧
      (panicked.result tc).outcome = .panic (.message "corrupt") ∧
      ¬ later.importer.build.LocatesRoot later.query.path later.query.sourceDir ∧
      later.result tc =
        { outcome := .package fmt, cache := later.cache, events := [], host := later.host } := by
  intro tc source engine engine' epoch s fmt
  have hepoch : ∀ op ∈ epoch, op.reinitializes = false := by decide
  let first : Attempt Nat Unit :=
    { importer := { root := (), own := (), build := .below "/usr/go" true, debug := true }
      query := ⟨"fmt", ⟨"/work/app"⟩, {}⟩
      host := 0
      cache := .empty }
  let panicked : Attempt Nat Unit :=
    { importer := first.importer
      query := ⟨"os", ⟨"/work/app"⟩, {}⟩
      host := (first.result tc).host
      cache := (first.result tc).cache }
  let later : Attempt Nat Unit :=
    { importer := { first.importer with build := .below "/opt/go" false }
      query := ⟨"fmt", ⟨"/work//app/."⟩, ⟨7⟩⟩
      host := (s.step tc epoch[0]).host
      cache := (s.step tc epoch[0]).state.cache }
  have hfirst : (first.result tc).outcome = .answered (.ok fmt) := rfl
  have hpanicked : (panicked.result tc).outcome = .panic (.message "corrupt") := rfl
  -- the first request makes two imports, the second makes one, however that ends
  have hbefore : s.attemptsOf tc epoch[0] = [first, panicked] :=
    (Script.attempts_importing_of_answered _ hfirst).trans
      (congrArg (first :: ·) (Script.attempts_importing_of_panic _ hpanicked))
  have hafter : (s.step tc epoch[0]).attemptsOf tc epoch[1] = [later] := by
    rcases (later.result tc).outcome.panic_or_answered with ⟨p, hpanic⟩ | ⟨answer, hanswer⟩
    · exact Script.attempts_importing_of_panic _ hpanic
    · exact Script.attempts_importing_of_answered _ hanswer
  have hattempts : s.attempts tc epoch = [first, panicked, later] := by
    show s.attemptsOf tc epoch[0] ++ ((s.step tc epoch[0]).attemptsOf tc epoch[1] ++ []) = _
    rw [hbefore, hafter]
    rfl
  have hroot : first.AnsweredByRoot tc fmt :=
    { locatesRoot := BuildContext.below_locatesRoot_iff.mpr ⟨rfl, by decide⟩
      called := List.mem_cons_of_mem _ List.mem_cons_self
      complete := rfl }
  have honce := (Session.resolved_once tc { debug := true } 0 [.reset] epoch hepoch).1
  rw [hattempts] at honce
  have hlater := (List.pairwise_cons.mp honce).1 later (by simp) fmt hroot rfl (by decide)
  refine ⟨hepoch, first, panicked, later, hattempts, hroot, rfl, ?_, hlater.2⟩
  intro h
  exact Bool.false_ne_true (BuildContext.below_locatesRoot_iff.mp h).1

end GoResolver
