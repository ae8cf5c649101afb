import GoResolver.Proofs.Importer.Run
import GoResolver.Proofs.Session.Run

/-!
# The state of a session

`Session.Sound` ties the four parts of a suggester to the history of its session.

* The options are those given last.
* The kind is selected from them and from what the toolchain could do *then*, whatever it can do
  now.
* The root strategy is the one shared strategy that was made then.
* Every cache entry comes from a call of that very strategy since then.

Requests keep all four, however they end, because they change nothing but the cache
(`Suggester.suggest_keeps`) and fill it only by calls of the root strategy
(`Suggester.filled_of_mem_suggest`).  Reconfiguring and resetting make all four anew, so they need
nothing of the history but the options that a reset applies again.
-/

namespace GoResolver

variable {σ S : Type}

/-- The parts of a suggester are what the history of the session says. -/
structure Session.Sound (tc : Toolchain σ S) (s : Session σ S) : Prop where
  options_eq : s.state.options = s.given
  kind_eq : s.state.kind = .select s.given (tc.capabilities s.origin)
  root_eq : s.state.root = (tc.create s.state.kind .shared s.origin).1
  /-- The toolchain was asked once what it can do and for one shared strategy, at the beginning. -/
  since_eq : ∃ rest, s.since = .capabilities (tc.capabilities s.origin) ::
    .created s.state.kind .shared s.state.root :: rest ∧ ∀ event ∈ rest, event.opens = false
  /-- What is cached was imported by the root strategy. -/
  filled : ∀ entry ∈ s.state.cache.entries, Filled s.state.root s.since entry

namespace Session.Sound

variable {tc : Toolchain σ S}

/-- Whatever was made anew is sound, with the events of making it and others that open nothing. -/
theorem of_started (options : SuggestOptions) (host : σ) (rest : List (Event S))
    (hrest : ∀ event ∈ rest, event.opens = false) :
    Session.Sound tc
      { state := (Suggester.start tc options .empty host).state
        host := (Suggester.start tc options .empty host).host
        given := options
        origin := host
        since := (Suggester.start tc options .empty host).events ++ rest } where
  options_eq := rfl
  kind_eq := rfl
  root_eq := rfl
  since_eq := ⟨rest, rfl, hrest⟩
  filled := by
    intro entry h
    simp [Suggester.start, Cache.empty] at h

theorem start (options : SuggestOptions) (host : σ) : (Session.start tc options host).Sound tc := by
  have h : Session.Sound tc _ := of_started options host [] (by simp)
  rwa [List.append_nil] at h

/-- Reconfiguring is starting anew and leaving a line in the log. -/
theorem reconfigure (s : Session σ S) (options : SuggestOptions) :
    (s.step tc (.reconfigure options)).Sound tc := by
  refine of_started options s.host
    [.logged (.debug ("suggester reconfigured: " ++ options.trace ++ ", strategy " ++
      (Suggester.start tc options .empty s.host).state.kind.word))] ?_
  intro event h
  rw [List.mem_singleton.mp h]
  rfl

theorem reset {s : Session σ S} (h : s.Sound tc) : (s.step tc .reset).Sound tc := by
  have hstep : s.step tc .reset = s.step tc (.reconfigure s.given) := by
    simp only [step, Suggester.reset, h.options_eq]
  rw [hstep]
  exact reconfigure s s.given

/-- What the toolchain can do now does not matter. -/
theorem outside {s : Session σ S} (h : s.Sound tc) (change : σ → σ) :
    (s.step tc (.outside change)).Sound tc :=
  ⟨h.options_eq, h.kind_eq, h.root_eq, h.since_eq, h.filled⟩

theorem suggest {s : Session σ S} (h : s.Sound tc) (engine : Engine) (build : BuildContext)
    (file : Path) (source : ByteArray) (offset : Nat) :
    (s.step tc (.suggest engine build file source offset)).Sound tc := by
  obtain ⟨hoptions, hkind, hroot⟩ :=
    s.state.suggest_keeps tc engine build file source offset s.host
  obtain ⟨rest, hsince, hrest⟩ := h.since_eq
  refine ⟨hoptions.trans h.options_eq, hkind.trans h.kind_eq, ?_, ?_, ?_⟩
  · simp only [Session.step, hkind]
    exact hroot.trans h.root_eq
  · refine ⟨rest ++ (s.state.suggest tc engine build file source offset s.host).events, ?_, ?_⟩
    · simp only [Session.step, hkind, hroot, hsince, List.cons_append]
    · intro event hevent
      rcases List.mem_append.mp hevent with hevent | hevent
      · exact hrest event hevent
      · exact s.state.opens_of_mem_suggest tc engine build file source offset s.host hevent
  · intro entry hentry
    simp only [Session.step, hroot]
    rcases s.state.filled_of_mem_suggest tc engine build file source offset s.host hentry with
      hold | hnew
    · exact (h.filled entry hold).mono (List.subset_append_left _ _)
    · exact hnew.mono (List.subset_append_right _ _)

/-- **Every operation keeps a session sound.** -/
theorem step {s : Session σ S} (h : s.Sound tc) (op : Operation σ) : (s.step tc op).Sound tc := by
  cases op with
  | suggest engine build file source offset => exact h.suggest engine build file source offset
  | reconfigure options => exact reconfigure s options
  | reset => exact h.reset
  | outside change => exact h.outside change

theorem foldl {s : Session σ S} (h : s.Sound tc) (ops : List (Operation σ)) :
    (ops.foldl (Session.step tc) s).Sound tc := by
  induction ops generalizing s with
  | nil => exact h
  | cons op ops ih => exact ih (h.step op)

end Session.Sound

/-- **Every reachable session is sound, and a new start forgets its history.**  Whatever operations
a session went through, its options, kind, root strategy and cache are what `Session.Sound` says.
To reconfigure or to reset it gives the suggester that would be started then, with the new options
or with the ones given last. -/
theorem Session.sound_run (tc : Toolchain σ S) (options : SuggestOptions) (host : σ)
    (ops : List (Operation σ)) :
    let s := Session.run tc options host ops
    s.Sound tc ∧
    (∀ options', (s.step tc (.reconfigure options')).state =
      (Session.start tc options' s.host).state) ∧
    (s.step tc .reset).state = (Session.start tc s.given s.host).state := by
  intro s
  have hsound : s.Sound tc := (Session.Sound.start options host).foldl ops
  refine ⟨hsound, fun options' => rfl, ?_⟩
  rw [← hsound.options_eq]
  rfl

/-- A request whose engine imports a package and then fails, and a toolchain that can read export
data from then on. -/
def failedThenUpgraded : List (Operation (Capabilities × Nat)) :=
  [.suggest (fun _ => .importing { path := "fmt", sourceDir := ⟨"/app"⟩ } fun _ => .fail "broken")
      (.below "/go/src" true) ⟨"/app/m.go"⟩ ⟨#[0x70]⟩ 0,
    .outside fun host => ({ exportData := true }, host.2)]

/-- The package is cached although the request failed, and it was imported by the root strategy.
The kind is still the one that was selected at the start; a reset selects another one. -/
theorem Session.sound_run_failedThenUpgraded :
    let tc := Toolchain.numbered
    let s := Session.run tc {} ({}, 0) failedThenUpgraded
    let entry : CacheKey × Package :=
      (⟨"fmt", Path.components ⟨"/app"⟩⟩, { path := "fmt", name := "fmt" })
    s.state.cache.entries = [entry] ∧ Filled s.state.root s.since entry ∧
    s.state.kind = .select s.given (tc.capabilities s.origin) ∧
    s.state.kind ≠ .select s.given (tc.capabilities s.host) ∧
    (s.step tc .reset).state = (Session.start tc s.given s.host).state := by
  intro tc s entry
  have hentries : s.state.cache.entries = [entry] := by decide +kernel
  obtain ⟨hsound, -, hreset⟩ := Session.sound_run tc {} ({}, 0) failedThenUpgraded
  have hfilled : Filled s.state.root s.since entry :=
    hsound.filled entry (by rw [hentries]; exact List.mem_singleton_self entry)
  exact ⟨hentries, hfilled, hsound.kind_eq, by decide +kernel, hreset⟩

end GoResolver
