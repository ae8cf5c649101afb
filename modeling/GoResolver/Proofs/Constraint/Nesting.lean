import GoResolver.Proofs.Constraint.PlusHeaders

/-!
# How deep reading and evaluating go

A header comes from a file that anybody may have written, and both reading its constraint and
evaluating it are recursive.  So the depth of the recursion has to be bounded for every text, also
for one that is refused.

* Calls are recorded as they begin and end (`CallEvent`), in the order of the run.  `OpenAtMost`
  then says how many are open at any time.
* `recordTokens` reads a token list with a record of the calls for what stands under a `!` or in
  parentheses.  It answers what `ofTokens?` does (`recordTokens_result`), and at most `maxNesting`
  of these calls are open (`openAtMost_recordTokens`).
* `recordHolds` evaluates with a record.  It answers what `holds` does (`recordHolds_result`), has a
  call for every term that is asked for (`calls_recordHolds`), and has at most as many calls open as
  the constraint is high (`openAtMost_recordHolds`).
* `bounded_nesting`: whatever is returned is at most `2 * maxNesting + 3` high.

## Two nodes a level

The bound on nesting is no bound on the height by itself, since one level may put more than one node
on top of another.  A parenthesized expression adds a disjunction over a conjunction, a `!` only one
node, so a derivation with `n` levels is at most `2 * n + 3` high: two nodes for each level, two for
the expression around all of them, and the tag.  Constraint lines have at most one level, and the
conjunction of the lines of a header is one node more.
-/

namespace GoResolver.Constraint

/-! ## 1. Calls -/

/-- The begin and the end of a call. -/
inductive CallEvent where
  | enter
  | leave
  deriving DecidableEq

/-- At no time more than `n` calls are open, no call ends that has not begun, and in the end all
have ended. -/
structure OpenAtMost (n : Nat) (events : List CallEvent) : Prop where
  within : ∀ past, past <+: events →
    past.count .leave ≤ past.count .enter ∧ past.count .enter ≤ past.count .leave + n
  closed : events.count .enter = events.count .leave

namespace OpenAtMost

variable {n n' : Nat} {events events' : List CallEvent}

theorem nil : OpenAtMost n [] := by
  refine ⟨fun past hpast => ?_, rfl⟩
  rw [List.prefix_nil.mp hpast]
  exact ⟨Nat.le_refl 0, Nat.zero_le _⟩

theorem mono (hle : n ≤ n') (h : OpenAtMost n events) : OpenAtMost n' events := by
  refine ⟨fun past hpast => ?_, h.closed⟩
  obtain ⟨hleave, henter⟩ := h.within past hpast
  exact ⟨hleave, by omega⟩

theorem append (h : OpenAtMost n events) (h' : OpenAtMost n events') :
    OpenAtMost n (events ++ events') := by
  have hclosed := h.closed
  refine ⟨fun past hpast => ?_, ?_⟩
  -- past the first part all of its calls have ended, so only those of the second are counted
  · rcases List.prefix_or_prefix_of_prefix hpast (List.prefix_append events events') with
      hbefore | ⟨rest, rfl⟩
    · exact h.within past hbefore
    · obtain ⟨hleave, henter⟩ := h'.within rest ((List.prefix_append_right_inj events).mp hpast)
      rw [List.count_append, List.count_append]
      omega
  · rw [List.count_append, List.count_append, hclosed, h'.closed]

/-- A call around other calls. -/
theorem call (h : OpenAtMost n events) :
    OpenAtMost (n + 1) (.enter :: (events ++ [.leave])) := by
  have hclosed := h.closed
  refine ⟨fun past hpast => ?_, by simp [hclosed]⟩
  cases past with
  | nil => exact ⟨Nat.le_refl 0, Nat.zero_le _⟩
  | cons event past =>
    obtain ⟨rfl, hrest⟩ := List.cons_prefix_cons.mp hpast
    rw [List.count_cons_self, List.count_cons_of_ne (by decide)]
    rcases List.prefix_concat_iff.mp hrest with rfl | hinside
    · rw [List.count_append, List.count_append, List.count_singleton_self,
        List.count_singleton, if_neg (by decide)]
      omega
    · obtain ⟨hleave, henter⟩ := h.within past hinside
      omega

end OpenAtMost

/-! ## 2. Reading with a record of the calls -/

/-- A result, with the calls that were made for it. -/
structure Recorded (α : Type) where
  result : α
  calls : List CallEvent

namespace Recorded

variable {α β : Type}

def map (f : α → β) (p : Recorded α) : Recorded β :=
  ⟨f p.result, p.calls⟩

/-- The second result, for which the calls of the first were made too. -/
def followedBy (p : Recorded α) (q : Recorded β) : Recorded β :=
  ⟨q.result, p.calls ++ q.calls⟩

/-- The same result in a call of its own. -/
def inCall (p : Recorded α) : Recorded α :=
  ⟨p.result, .enter :: (p.calls ++ [.leave])⟩

end Recorded

/-- One step of a chain. -/
theorem Reader.chainRun_eq {α : Type} (sep : Token) (item : Reader α) (ts : List Token) :
    chainRun sep item ts =
      match item.run ts with
      | none => none
      | some (x, []) => some ([x], [])
      | some (x, t :: r) =>
        if t = sep then (chainRun sep item r).map (Prod.map (x :: ·) id)
        else some ([x], t :: r) := by
  rw [chainRun.eq_def]
  split
  · next h => rw [h]
  · next h => rw [h]
  · next x t r h =>
    rw [h]
    dsimp only
    cases chainRun sep item r <;> rfl

/-- A reader that also records its calls. -/
structure Recorder (α : Type) extends Reader α where
  /-- The value read and the tokens after it, with the calls meanwhile. -/
  record : List Token → Recorded (Option (α × List Token))
  /-- Recording makes no difference to what is read. -/
  record_result : ∀ ts, (record ts).result = run ts

namespace Recorder

/-- The record of `chain`. -/
def chainRecord {α : Type} (sep : Token) (item : Recorder α) (ts : List Token) :
    Recorded (Option (List α × List Token)) :=
  match _h : (item.record ts).result with
  | none => ⟨none, (item.record ts).calls⟩
  | some (x, []) => ⟨some ([x], []), (item.record ts).calls⟩
  | some (x, t :: r) =>
    if t = sep then
      (item.record ts).followedBy
        ((chainRecord sep item r).map (Option.map (Prod.map (x :: ·) id)))
    else ⟨some ([x], t :: r), (item.record ts).calls⟩
termination_by ts.length
decreasing_by
  have := item.consumes ((item.record_result ts).symm.trans _h)
  simp only [List.length_cons] at this
  omega

theorem chainRecord_result {α : Type} (sep : Token) (item : Recorder α) (ts : List Token) :
    (chainRecord sep item ts).result = Reader.chainRun sep item.toReader ts := by
  fun_induction chainRecord sep item ts with
  | case1 ts h => rw [Reader.chainRun_eq, ← item.record_result, h]
  | case2 ts x h => rw [Reader.chainRun_eq, ← item.record_result, h]
  | case3 ts x r h ih =>
    rw [Reader.chainRun_eq, ← item.record_result, h]
    dsimp only
    rw [if_pos rfl, ← ih]
    rfl
  | case4 ts x t r h hsep =>
    rw [Reader.chainRun_eq, ← item.record_result, h]
    exact (if_neg hsep).symm

/-- `Reader.chain` with a record; those below are likewise the readers of their names. -/
def chain {α : Type} (sep : Token) (item : Recorder α) : Recorder (List α) where
  toReader := Reader.chain sep item.toReader
  record := chainRecord sep item
  record_result := chainRecord_result sep item

def map {α β : Type} (f : α → β) (item : Recorder α) : Recorder β where
  toReader := item.toReader.map f
  record ts := (item.record ts).map (Option.map (Prod.map f id))
  record_result ts := congrArg (Option.map (Prod.map f id)) (item.record_result ts)

def conjunction (unary : Recorder Constraint) : Recorder Constraint :=
  (chain .and unary).map conj

def expression (unary : Recorder Constraint) : Recorder Constraint :=
  (chain .or (conjunction unary)).map disj

/-- What was read in parentheses, if there is a closing one. -/
def closed? : Option (Constraint × List Token) → Option (Constraint × List Token)
  | some (c, .rparen :: rest) => some (c, rest)
  | _ => none

/-- The record of `operand`.  What stands under a `!` or in parentheses is read in a call of its
own, where a deeper level is allowed. -/
def operandRecord (inner : Option (Recorder Constraint)) :
    List Token → Recorded (Option (Constraint × List Token))
  | .tag name :: r => ⟨some (.tag name, r), []⟩
  | .not :: r =>
    match inner with
    | none => ⟨none, []⟩
    | some unary => (unary.record r).inCall.map (Option.map (Prod.map .not id))
  | .lparen :: r =>
    match inner with
    | none => ⟨none, []⟩
    | some unary => ((expression unary).record r).inCall.map closed?
  | _ => ⟨none, []⟩

theorem operandRecord_result (inner : Option (Recorder Constraint)) (ts : List Token) :
    (operandRecord inner ts).result = Reader.operandRun (inner.map toReader) ts := by
  unfold operandRecord Reader.operandRun
  split
  · rfl
  · cases inner with
    | none => rfl
    | some unary =>
      next r =>
      show Option.map _ (unary.record r).result = _
      rw [unary.record_result]
      cases h : unary.run r with
      | none => simp [h]
      | some p => simp [h, Prod.map]
  · cases inner with
    | none => rfl
    | some unary =>
      next r =>
      show closed? ((expression unary).record r).result = _
      rw [(expression unary).record_result]
      rfl
  · simp_all

def operand (inner : Option (Recorder Constraint)) : Recorder Constraint where
  toReader := Reader.operand (inner.map toReader)
  record := operandRecord inner
  record_result := operandRecord_result inner

def unary : (room : Nat) → Recorder Constraint
  | 0 => operand none
  | room + 1 => operand (some (unary room))

theorem toReader_unary (room : Nat) : (unary room).toReader = Reader.unary room := by
  induction room with
  | zero => rfl
  | succ room ih =>
    rw [unary, Reader.unary, ← ih]
    rfl

end Recorder

/-- `ofTokens?` with a record of its calls. -/
def recordTokens (ts : List Token) : Recorded (Option Constraint) :=
  ((Recorder.expression (Recorder.unary maxNesting)).record ts).map fun
    | some (c, []) => some c
    | _ => none

theorem recordTokens_result (ts : List Token) : (recordTokens ts).result = ofTokens? ts := by
  have hexpression : ((Recorder.expression (Recorder.unary maxNesting)).record ts).result =
      (Reader.expression (Reader.unary maxNesting)).run ts := by
    rw [Recorder.record_result, ← Recorder.toReader_unary]
    rfl
  rw [recordTokens, Recorded.map, hexpression]
  rfl

namespace Recorder

theorem openAtMost_chain {α : Type} {sep : Token} {item : Recorder α} {n : Nat}
    (h : ∀ ts, OpenAtMost n (item.record ts).calls) (ts : List Token) :
    OpenAtMost n ((chain sep item).record ts).calls := by
  show OpenAtMost n (chainRecord sep item ts).calls
  fun_induction chainRecord sep item ts with
  | case1 ts => exact h ts
  | case2 ts => exact h ts
  | case3 ts _ r _ ih => exact (h ts).append ih
  | case4 ts => exact h ts

theorem openAtMost_expression {u : Recorder Constraint} {n : Nat}
    (h : ∀ ts, OpenAtMost n (u.record ts).calls) (ts : List Token) :
    OpenAtMost n ((expression u).record ts).calls := by
  have hconjunction : ∀ ts, OpenAtMost n ((conjunction u).record ts).calls := openAtMost_chain h
  exact openAtMost_chain hconjunction ts

/-- **With room for `n` levels, at most `n` calls are open**, whether the operand can be read or
not. -/
theorem openAtMost_unary (n : Nat) (ts : List Token) :
    OpenAtMost n ((unary n).record ts).calls := by
  induction n generalizing ts with
  | zero =>
    show OpenAtMost 0 (operandRecord none ts).calls
    unfold operandRecord
    split <;> exact .nil
  | succ n ih =>
    show OpenAtMost (n + 1) (operandRecord (some (unary n)) ts).calls
    unfold operandRecord
    split
    · exact .nil
    · exact (ih _).call
    · exact (openAtMost_expression ih _).call
    · exact .nil

end Recorder

theorem openAtMost_recordTokens (ts : List Token) :
    OpenAtMost maxNesting (recordTokens ts).calls :=
  Recorder.openAtMost_expression (Recorder.openAtMost_unary maxNesting) ts

/-! ## 3. Evaluating with a record of the calls, and the height of a constraint -/

mutual

/-- How many nodes stand over each other in a constraint. -/
def height : Constraint → Nat
  | .tag _ => 1
  | .not c => height c + 1
  | .all cs => highest cs + 1
  | .any cs => highest cs + 1

/-- The height of the highest of some constraints. -/
def highest : List Constraint → Nat
  | [] => 0
  | c :: cs => max (height c) (highest cs)

end

mutual

/-- `holds` with a record of its calls, one for each term that is looked at.  The terms after the
first false one of a conjunction, or the first true one of a disjunction, are not. -/
def recordHolds (satisfied : String → Bool) : Constraint → Recorded Bool
  | .tag name => Recorded.inCall ⟨satisfied name, []⟩
  | .not c => (recordHolds satisfied c).inCall.map (!·)
  | .all cs => (recordHoldAll satisfied cs).inCall
  | .any cs => (recordHoldAny satisfied cs).inCall

def recordHoldAll (satisfied : String → Bool) : List Constraint → Recorded Bool
  | [] => ⟨true, []⟩
  | c :: cs =>
    let first := recordHolds satisfied c
    if first.result then first.followedBy (recordHoldAll satisfied cs) else first

def recordHoldAny (satisfied : String → Bool) : List Constraint → Recorded Bool
  | [] => ⟨false, []⟩
  | c :: cs =>
    let first := recordHolds satisfied c
    if first.result then first else first.followedBy (recordHoldAny satisfied cs)

end

mutual

/-- Recording makes no difference to the truth value. -/
theorem recordHolds_result (satisfied : String → Bool) :
    ∀ c : Constraint, (recordHolds satisfied c).result = c.holds satisfied
  | .tag _ => rfl
  | .not c => congrArg (!·) (recordHolds_result satisfied c)
  | .all cs => recordHoldAll_result satisfied cs
  | .any cs => recordHoldAny_result satisfied cs

theorem recordHoldAll_result (satisfied : String → Bool) :
    ∀ cs : List Constraint, (recordHoldAll satisfied cs).result = holdAll satisfied cs
  | [] => rfl
  | c :: cs => by
    have hc := recordHolds_result satisfied c
    have hcs := recordHoldAll_result satisfied cs
    rw [recordHoldAll, holdAll, ← hc, ← hcs]
    cases h : (recordHolds satisfied c).result <;> simp [h, Recorded.followedBy]

theorem recordHoldAny_result (satisfied : String → Bool) :
    ∀ cs : List Constraint, (recordHoldAny satisfied cs).result = holdAny satisfied cs
  | [] => rfl
  | c :: cs => by
    have hc := recordHolds_result satisfied c
    have hcs := recordHoldAny_result satisfied cs
    rw [recordHoldAny, holdAny, ← hc, ← hcs]
    cases h : (recordHolds satisfied c).result <;> simp [h, Recorded.followedBy]

end

/-- The items of a list up to the first one with a property, and that one. -/
def through {α : Type} (P : α → Bool) : List α → List α
  | [] => []
  | x :: xs => if P x then [x] else x :: through P xs

/-- The terms of a constraint whose truth values are asked for, in order: those of a conjunction up
to the first false one, and those of a disjunction up to the first true one. -/
def asked (satisfied : String → Bool) : Constraint → List Constraint
  | .tag _ => []
  | .not c => [c]
  | .all cs => through (fun c => !c.holds satisfied) cs
  | .any cs => through (fun c => c.holds satisfied) cs

theorem calls_recordHoldAll (satisfied : String → Bool) (cs : List Constraint) :
    (recordHoldAll satisfied cs).calls =
      (through (fun c => !c.holds satisfied) cs).flatMap fun c =>
        (recordHolds satisfied c).calls := by
  induction cs with
  | nil => rfl
  | cons c cs ih =>
    rw [recordHoldAll, recordHolds_result, through]
    cases c.holds satisfied with
    | false => exact (List.flatMap_singleton (fun c => (recordHolds satisfied c).calls) c).symm
    | true => exact congrArg ((recordHolds satisfied c).calls ++ ·) ih

theorem calls_recordHoldAny (satisfied : String → Bool) (cs : List Constraint) :
    (recordHoldAny satisfied cs).calls =
      (through (fun c => c.holds satisfied) cs).flatMap fun c =>
        (recordHolds satisfied c).calls := by
  induction cs with
  | nil => rfl
  | cons c cs ih =>
    rw [recordHoldAny, recordHolds_result, through]
    cases c.holds satisfied with
    | false => exact congrArg ((recordHolds satisfied c).calls ++ ·) ih
    | true => exact (List.flatMap_singleton (fun c => (recordHolds satisfied c).calls) c).symm

/-- **Every call of an evaluation is recorded**: its own, and inside it those of the terms that are
asked for, one after the other. -/
theorem calls_recordHolds (satisfied : String → Bool) (c : Constraint) :
    (recordHolds satisfied c).calls =
      .enter :: ((c.asked satisfied).flatMap (fun t => (recordHolds satisfied t).calls) ++
        [.leave]) := by
  cases c with
  | tag name => rfl
  | not c => rw [asked, List.flatMap_singleton]; rfl
  | all cs => rw [asked, ← calls_recordHoldAll]; rfl
  | any cs => rw [asked, ← calls_recordHoldAny]; rfl

mutual

/-- **An evaluation has at most as many calls open as the constraint is high.** -/
theorem openAtMost_recordHolds (satisfied : String → Bool) :
    ∀ c : Constraint, OpenAtMost c.height (recordHolds satisfied c).calls
  | .tag _ => OpenAtMost.nil.call
  | .not c => (openAtMost_recordHolds satisfied c).call
  | .all cs => (openAtMost_recordHoldAll satisfied cs).call
  | .any cs => (openAtMost_recordHoldAny satisfied cs).call

theorem openAtMost_recordHoldAll (satisfied : String → Bool) :
    ∀ cs : List Constraint, OpenAtMost (highest cs) (recordHoldAll satisfied cs).calls
  | [] => .nil
  | c :: cs => by
    have hc := (openAtMost_recordHolds satisfied c).mono (Nat.le_max_left _ (highest cs))
    have hcs := (openAtMost_recordHoldAll satisfied cs).mono (Nat.le_max_right (height c) _)
    rw [recordHoldAll]
    split
    · exact hc.append hcs
    · exact hc

theorem openAtMost_recordHoldAny (satisfied : String → Bool) :
    ∀ cs : List Constraint, OpenAtMost (highest cs) (recordHoldAny satisfied cs).calls
  | [] => .nil
  | c :: cs => by
    have hc := (openAtMost_recordHolds satisfied c).mono (Nat.le_max_left _ (highest cs))
    have hcs := (openAtMost_recordHoldAny satisfied cs).mono (Nat.le_max_right (height c) _)
    rw [recordHoldAny]
    split
    · exact hc
    · exact hc.append hcs

end

/-! ## 4. The height of what is read -/

theorem height_conj_le (cs : List Constraint) : (conj cs).height ≤ highest cs + 1 := by
  unfold conj
  split
  · next c =>
    have hc : highest [c] = c.height := Nat.max_zero _
    omega
  · exact Nat.le_refl _

theorem height_disj_le (cs : List Constraint) : (disj cs).height ≤ highest cs + 1 := by
  unfold disj
  split
  · next c =>
    have hc : highest [c] = c.height := Nat.max_zero _
    omega
  · exact Nat.le_refl _

theorem highest_le_iff {n : Nat} {cs : List Constraint} :
    highest cs ≤ n ↔ ∀ c ∈ cs, c.height ≤ n := by
  induction cs with
  | nil => simp [highest]
  | cons c cs ih => rw [highest, Nat.max_le, ih, List.forall_mem_cons]

mutual

theorem Operand.height_le : ∀ o : Operand, o.constraint.height ≤ 2 * o.nesting + 1
  | .tag _ => Nat.le_refl 1
  | .not o => by
    have h := o.height_le
    rw [Operand.constraint, height, Operand.nesting]
    omega
  | .group d => by
    have h := d.highest_le
    have hdisj := height_disj_le d.terms
    rw [Operand.constraint, Operand.nesting]
    omega

theorem Conjunction.highest_le : ∀ k : Conjunction, highest k.terms ≤ 2 * k.nesting + 1
  | .one o => by
    have h := o.height_le
    rw [Conjunction.terms, Conjunction.nesting, highest, highest]
    omega
  | .more o k => by
    have h := o.height_le
    have h' := k.highest_le
    rw [Conjunction.terms, Conjunction.nesting, highest]
    omega

theorem Disjunction.highest_le : ∀ d : Disjunction, highest d.terms ≤ 2 * d.nesting + 2
  | .one k => by
    have h := k.highest_le
    have hconj := height_conj_le k.terms
    rw [Disjunction.terms, Disjunction.nesting, highest, highest]
    omega
  | .more k d => by
    have h := k.highest_le
    have hconj := height_conj_le k.terms
    have h' := d.highest_le
    rw [Disjunction.terms, Disjunction.nesting, highest]
    omega

end

/-- **A derivation adds at most two nodes for each level of nesting.** -/
theorem Disjunction.height_le (d : Disjunction) : d.constraint.height ≤ 2 * d.nesting + 3 := by
  have h := d.highest_le
  have hdisj := height_disj_le d.terms
  rw [Disjunction.constraint]
  omega

theorem height_le_of_parse? {s : List Char} {c : Constraint} (h : parse? s = some c) :
    c.height ≤ 2 * maxNesting + 3 := by
  obtain ⟨d, -, hnesting, rfl⟩ := parse?_eq_some_iff.mp h
  have hd := d.height_le
  omega

theorem height_le_of_ofPlusLine? {s : List Char} {c : Constraint} (h : ofPlusLine? s = some c) :
    c.height ≤ 5 := by
  obtain ⟨d, hspells, rfl⟩ := exists_derivation_of_ofPlusLine? h
  have hd := d.height_le
  have hnesting := hspells.nesting_le
  omega

/-! ## 5. What can be returned -/

theorem exists_first_goBuild {lines : List Line} (h : ∃ e, .goBuild e ∈ lines) :
    ∃ before e after, lines = before ++ .goBuild e :: after ∧ ∀ e', .goBuild e' ∉ before := by
  induction lines with
  | nil =>
    obtain ⟨e, he⟩ := h
    exact absurd he List.not_mem_nil
  | cons line lines ih =>
    by_cases hline : ∃ e, line = .goBuild e
    · obtain ⟨e, rfl⟩ := hline
      exact ⟨[], e, lines, rfl, fun e' => List.not_mem_nil⟩
    · obtain ⟨e, he⟩ := h
      have hrest : .goBuild e ∈ lines :=
        (List.mem_cons.mp he).resolve_left fun heq => hline ⟨e, heq.symm⟩
      obtain ⟨before, e', after, rfl, hbefore⟩ := ih ⟨e, hrest⟩
      refine ⟨line :: before, e', after, rfl, fun e'' he'' => ?_⟩
      rcases List.mem_cons.mp he'' with heq | hmem
      · exact hline ⟨e'', heq.symm⟩
      · exact hbefore e'' hmem

theorem conj_eq_of_ofLines {cs : List Constraint} {c : Constraint} (h : ofLines cs = some c) :
    conj cs = c := by
  cases cs with
  | nil => cases h
  | cons => exact Option.some_inj.mp h

/-- A source's constraint is that of an expression, or the conjunction of some constraint lines. -/
theorem ofSource_cases {source : String} {c : Constraint} (h : ofSource source = .ok (some c)) :
    (∃ e, parse? e = some c) ∨
      ∃ cs, conj cs = c ∧ ∀ c' ∈ cs, ∃ body, ofPlusLine? body = some c' := by
  rw [ofSource_eq] at h
  by_cases hgoBuild : ∃ e, .goBuild e ∈ header source
  · obtain ⟨before, e, after, hheader, hfirst⟩ := exists_first_goBuild hgoBuild
    rw [hheader, stated_append_goBuild hfirst] at h
    split at h
    · cases h
    · rw [ofExpression] at h
      cases he : parse? e with
      | none => simp [he] at h
      | some c' =>
        rw [he] at h
        exact .inl ⟨e, he.trans (Except.ok.inj h)⟩
  · have hstated := stated_append (fun e he => hgoBuild ⟨e, he⟩) [] []
    rw [List.append_nil] at hstated
    rw [hstated] at h
    split at h
    · cases h
    · have hlines := Except.ok.inj h
      rw [List.nil_append] at hlines
      refine .inr ⟨_, conj_eq_of_ofLines hlines, fun c' hc' => ?_⟩
      obtain ⟨body, -, hbody⟩ := List.mem_filterMap.mp hc'
      exact ⟨body, hbody⟩

/-- What the three readers of constraints can return. -/
def Returned (c : Constraint) : Prop :=
  (∃ s, parse? s = some c) ∨ (∃ s, ofPlusLine? s = some c) ∨
    ∃ source, ofSource source = .ok (some c)

theorem Returned.height_le {c : Constraint} (h : Returned c) :
    c.height ≤ 2 * maxNesting + 3 := by
  have hlines : 6 ≤ 2 * maxNesting + 3 := by decide
  rcases h with ⟨s, hs⟩ | ⟨s, hs⟩ | ⟨source, hsource⟩
  · exact height_le_of_parse? hs
  · have hc := height_le_of_ofPlusLine? hs
    omega
  · rcases ofSource_cases hsource with ⟨e, he⟩ | ⟨cs, rfl, hcs⟩
    · exact height_le_of_parse? he
    · have hconj := height_conj_le cs
      have hhighest : highest cs ≤ 5 := highest_le_iff.mpr fun c hc =>
        let ⟨_, hbody⟩ := hcs c hc
        height_le_of_ofPlusLine? hbody
      omega

/-- **Reading and evaluating are bounded for every text.**  Every constraint that is returned is at
most `2 * maxNesting + 3` high, and no evaluation of it ever has more calls open; and no token list,
accepted or refused, ever makes the reader have more than `maxNesting` calls open.  An evaluation is
one call, with one more inside it for every term that is asked for. -/
theorem bounded_nesting :
    (∀ c, Returned c → c.height ≤ 2 * maxNesting + 3 ∧
      ∀ satisfied : String → Bool, (recordHolds satisfied c).result = c.holds satisfied ∧
        OpenAtMost (2 * maxNesting + 3) (recordHolds satisfied c).calls) ∧
    (∀ (satisfied : String → Bool) (c : Constraint), (recordHolds satisfied c).calls =
      .enter :: ((c.asked satisfied).flatMap (fun t => (recordHolds satisfied t).calls) ++
        [.leave])) ∧
    ∀ ts : List Token, (recordTokens ts).result = ofTokens? ts ∧
      OpenAtMost maxNesting (recordTokens ts).calls := by
  refine ⟨fun c hc => ⟨hc.height_le, fun satisfied => ?_⟩, calls_recordHolds, fun ts => ?_⟩
  · exact ⟨recordHolds_result satisfied c,
      (openAtMost_recordHolds satisfied c).mono hc.height_le⟩
  · exact ⟨recordTokens_result ts, openAtMost_recordTokens ts⟩

/-! ## 6. The bounds are reached -/

/-- A disjunction over a conjunction over the operand. -/
def raised (o : Operand) : Disjunction := .more (.more o (.one (.tag "b"))) (.one (.one (.tag "c")))

/-- An operand in `n` parentheses that are nested in each other, and raised in each of them. -/
def tower : Nat → Operand
  | 0 => .tag "a"
  | n + 1 => .group (raised (tower n))

theorem nesting_raised (o : Operand) : (raised o).nesting = o.nesting := by
  simp [raised, Disjunction.nesting, Conjunction.nesting, Operand.nesting]

theorem height_raised {o : Operand} {n : Nat} (h : o.constraint.height = n + 1) :
    (raised o).constraint.height = n + 3 := by
  simp [raised, Disjunction.constraint, Disjunction.terms, Conjunction.terms, Operand.constraint,
    conj, disj, height, highest, h]

theorem valid_raised {o : Operand} (h : ∀ t ∈ o.tokens, t.Valid) :
    ∀ t ∈ (raised o).tokens, t.Valid := by
  have hb : (Token.tag "b").Valid := by decide
  have hc : (Token.tag "c").Valid := by decide
  have hand : Token.and.Valid := trivial
  have hor : Token.or.Valid := trivial
  simp only [raised, Disjunction.tokens, Conjunction.tokens, Operand.tokens,
    List.forall_mem_append, List.forall_mem_cons]
  exact ⟨⟨h, hand, hb, by simp⟩, hor, hc, by simp⟩

theorem tower_spec (n : Nat) : (tower n).nesting = n ∧ (tower n).constraint.height = 2 * n + 1 ∧
    ∀ t ∈ (tower n).tokens, t.Valid := by
  induction n with
  | zero => exact ⟨rfl, rfl, List.forall_mem_singleton.mpr (by decide)⟩
  | succ n ih =>
    obtain ⟨hnesting, hheight, hvalid⟩ := ih
    refine ⟨?_, height_raised hheight, ?_⟩
    · rw [tower, Operand.nesting, nesting_raised, hnesting]
    · have hlparen : Token.lparen.Valid := trivial
      have hrparen : Token.rparen.Valid := trivial
      rw [tower, Operand.tokens, List.forall_mem_cons, List.forall_mem_append,
        List.forall_mem_singleton]
      exact ⟨hlparen, valid_raised hvalid, hrparen⟩

namespace Recorder

theorem chain_record_of_refused {α : Type} {sep : Token} {item : Recorder α} {ts : List Token}
    {calls : List CallEvent} (h : item.record ts = ⟨none, calls⟩) :
    (chain sep item).record ts = ⟨none, calls⟩ := by
  show chainRecord sep item ts = _
  rw [chainRecord.eq_def]
  split <;> simp_all

theorem expression_record_of_refused {u : Recorder Constraint} {ts : List Token}
    {calls : List CallEvent} (h : u.record ts = ⟨none, calls⟩) :
    (expression u).record ts = ⟨none, calls⟩ := by
  have hconjunction : (conjunction u).record ts = ⟨none, calls⟩ :=
    congrArg (Recorded.map _) (chain_record_of_refused h)
  exact congrArg (Recorded.map _) (chain_record_of_refused hconjunction)

/-- Negations of nothing are refused, but only after all of them that may be nested are entered. -/
theorem unary_record_replicate_not (room : Nat) :
    (unary room).record (List.replicate (room + 1) .not) =
      ⟨none, List.replicate room .enter ++ List.replicate room .leave⟩ := by
  induction room with
  | zero => rfl
  | succ room ih =>
    have hnot : (unary (room + 1)).record (List.replicate (room + 1 + 1) .not) =
        ((unary room).record (List.replicate (room + 1) .not)).inCall.map
          (Option.map (Prod.map .not id)) := rfl
    rw [hnot, ih, Recorded.inCall, Recorded.map, List.append_assoc, ← List.replicate_succ']
    rfl

end Recorder

/-- **Neither bound can be smaller.**  A text with parentheses in each other is read as a constraint
of the greatest height, and a token list of negations alone is refused after the greatest number of
calls. -/
theorem bounded_nesting_reached :
    (∃ s c, parse? s = some c ∧ c.height = 2 * maxNesting + 3) ∧
    ∃ ts past, ofTokens? ts = none ∧ past <+: (recordTokens ts).calls ∧
      past.count .enter = past.count .leave + maxNesting := by
  constructor
  · obtain ⟨hnesting, hheight, hvalid⟩ := tower_spec maxNesting
    have hroom : (raised (tower maxNesting)).nesting ≤ maxNesting :=
      Nat.le_of_eq ((nesting_raised _).trans hnesting)
    have hparse : parse? (spelled (raised (tower maxNesting)).tokens) =
        some (raised (tower maxNesting)).constraint :=
      parse?_eq_some_iff.mpr ⟨_, Disjunction.scan_spelled _ (valid_raised hvalid), hroom, rfl⟩
    have hle := (bounded_nesting.1 _ (.inl ⟨_, hparse⟩)).1
    exact ⟨_, _, hparse, Nat.le_antisymm hle (Nat.le_of_eq (height_raised hheight).symm)⟩
  · have hrecord : recordTokens (List.replicate (maxNesting + 1) .not) =
        ⟨none, List.replicate maxNesting .enter ++ List.replicate maxNesting .leave⟩ :=
      congrArg (Recorded.map _)
        (Recorder.expression_record_of_refused (Recorder.unary_record_replicate_not maxNesting))
    refine ⟨List.replicate (maxNesting + 1) .not, List.replicate maxNesting .enter, ?_, ?_, ?_⟩
    · rw [← (bounded_nesting.2.2 _).1, hrecord]
    · rw [hrecord]
      exact List.prefix_append _ _
    · simp [List.count_replicate]

end GoResolver.Constraint
