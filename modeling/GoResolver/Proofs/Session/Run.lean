import GoResolver.Suggester
import GoResolver.Proofs.Session.Script

/-!
# Runs of a session

A session is started once and then gets requests, new options and resets, in any order, while the
toolchain under it may change on its own account, in what it can do for instance.  An `Operation` is
one of these, and `Session.run` plays a list of them.

A `Session` records, besides the suggester and the toolchain's state, what its history amounts to:
the options given last, the state in which the toolchain was asked last to initialize the suggester,
and the events since then.  These three are there to be compared with; no answer depends on them.
-/

namespace GoResolver

variable {σ S : Type}

/-! ## 1. What a request does -/

namespace Suggester

/-- What the engine is asked. -/
def engineRequest (s : Suggester S) (file : Path) (source : ByteArray) (offset : Nat) :
    EngineRequest where
  file := file
  source := source
  offset := offset
  ignoreCase := true
  builtins := s.options.proposeBuiltins
  logging := s.options.debug

/-- What the engine imports with. -/
def importer (s : Suggester S) (own : S) (build : BuildContext) : Importer S where
  root := s.root
  own := own
  build := build
  debug := s.options.debug

variable (tc : Toolchain σ S) (engine : Engine) (s : Suggester S) (build : BuildContext)
  (file : Path) (source : ByteArray) (offset : Nat) (host : σ)

/-- The engine's script, played with the strategy that is made for the request. -/
def ranScript : Ran σ S :=
  (engine (s.engineRequest file source offset)).run tc
    (s.importer (tc.create s.kind (.request build) host).1 build) s.cache
    (tc.create s.kind (.request build) host).2

theorem suggest_of_empty (h : source.size = 0) :
    suggest tc engine s build file source offset host = { answer := [], state := s, host } := by
  rw [suggest, if_pos h]

/-- A request changes the cache of a session, and nothing else of it. -/
theorem suggest_of_nonempty (h : source.size ≠ 0) :
    suggest tc engine s build file source offset host =
      { answer := answerOf (ranScript tc engine s build file source offset host).ending
        state := { s with cache := (ranScript tc engine s build file source offset host).cache }
        events :=
          .created s.kind (.request build) (tc.create s.kind (.request build) host).1 ::
          .asked (s.engineRequest file source offset) ::
          ((ranScript tc engine s build file source offset host).events ++
            (s.closing (s.engineRequest file source offset)
              (ranScript tc engine s build file source offset host).ending).map .logged)
        host := (ranScript tc engine s build file source offset host).host } := by
  rw [suggest, if_neg h]
  rfl

/-- However a request ends, the options, the kind and the root strategy are what they were. -/
theorem suggest_keeps :
    (suggest tc engine s build file source offset host).state.options = s.options ∧
    (suggest tc engine s build file source offset host).state.kind = s.kind ∧
    (suggest tc engine s build file source offset host).state.root = s.root := by
  by_cases h : source.size = 0
  · rw [suggest_of_empty tc engine s build file source offset host h]
    exact ⟨rfl, rfl, rfl⟩
  · rw [suggest_of_nonempty tc engine s build file source offset host h]
    exact ⟨rfl, rfl, rfl⟩

/-- A request has its own strategy made, but asks for no capabilities and no shared strategy. -/
theorem opens_of_mem_suggest {event : Event S}
    (h : event ∈ (suggest tc engine s build file source offset host).events) :
    event.opens = false := by
  by_cases hempty : source.size = 0
  · rw [suggest_of_empty tc engine s build file source offset host hempty] at h
    simp at h
  · rw [suggest_of_nonempty tc engine s build file source offset host hempty] at h
    rcases List.mem_cons.mp h with rfl | h
    · rfl
    rcases List.mem_cons.mp h with rfl | h
    · rfl
    rcases List.mem_append.mp h with h | h
    · exact Script.opens_of_mem_run tc _ _ _ _ h
    · obtain ⟨record, -, rfl⟩ := List.mem_map.mp h
      rfl

/-- **A request fills the cache only by calls of the root strategy.** -/
theorem filled_of_mem_suggest {entry : CacheKey × Package}
    (h : entry ∈ (suggest tc engine s build file source offset host).state.cache.entries) :
    entry ∈ s.cache.entries ∨
      Filled s.root (suggest tc engine s build file source offset host).events entry := by
  by_cases hempty : source.size = 0
  · rw [suggest_of_empty tc engine s build file source offset host hempty] at h
    exact .inl h
  · rw [suggest_of_nonempty tc engine s build file source offset host hempty] at h ⊢
    rcases Script.filled_of_mem_run tc _ _ _ _ h with h | h
    · exact .inl h
    · refine .inr (h.mono fun event hevent => ?_)
      exact List.mem_cons_of_mem _ (List.mem_cons_of_mem _ (List.mem_append_left _ hevent))

end Suggester

/-! ## 2. Operations and runs -/

/-- What can happen to a session. -/
inductive Operation (σ : Type) where
  | suggest (engine : Engine) (build : BuildContext) (file : Path) (source : ByteArray)
      (offset : Nat)
  | reconfigure (options : SuggestOptions)
  | reset
  /-- The toolchain changes on its own account. -/
  | outside (change : σ → σ)

/-- A session at some point of its run, with what its history amounts to. -/
structure Session (σ S : Type) where
  state : Suggester S
  host : σ
  /-- The options given last: at the start, or to reconfigure. -/
  given : SuggestOptions
  /-- The toolchain's state when it was last asked to start, reconfigure or reset the session. -/
  origin : σ
  /-- What has happened since then, that included. -/
  since : List (Event S)

namespace Session

/-- A session with an empty cache. -/
def start (tc : Toolchain σ S) (options : SuggestOptions) (host : σ) : Session σ S where
  state := (Suggester.start tc options .empty host).state
  host := (Suggester.start tc options .empty host).host
  given := options
  origin := host
  since := (Suggester.start tc options .empty host).events

/-- One operation. -/
def step (tc : Toolchain σ S) (s : Session σ S) : Operation σ → Session σ S
  | .suggest engine build file source offset =>
    let r := s.state.suggest tc engine build file source offset s.host
    { s with state := r.state, host := r.host, since := s.since ++ r.events }
  | .reconfigure options =>
    let r := Suggester.reconfigure tc options s.host
    { state := r.state, host := r.host, given := options, origin := s.host, since := r.events }
  | .reset =>
    let r := s.state.reset tc s.host
    { state := r.state, host := r.host, given := s.given, origin := s.host, since := r.events }
  | .outside change => { s with host := change s.host }

/-- A session that was started and then went through the operations, in order. -/
def run (tc : Toolchain σ S) (options : SuggestOptions) (host : σ) (ops : List (Operation σ)) :
    Session σ S :=
  ops.foldl (step tc) (start tc options host)

end Session

end GoResolver
