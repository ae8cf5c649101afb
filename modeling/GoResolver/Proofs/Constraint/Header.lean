import GoResolver.Constraint.Header
import GoResolver.Proofs.Constraint.Reading

/-!
# What a header's lines state

`scanHeader` looks at the lines of a file and decides in the same pass.  Here the two are taken
apart: `headerLines` is what stands before the first line of code and outside block comments, line
by line and by kind, and `stated` is what such lines amount to.  `scanHeader_eq` puts them together
again, so that a fact about headers can be proved on lists of lines, without block comments and
trimming.

## How far a `//go:build` line wins

Lines before it are read one by one (`stated_append`), and nothing after the first `//go:build` line
counts (`stated_append_goBuild`).  Constraint lines of the other form that stand before it do not
count *either*, as long as they can be read; but each one is read when it is met, and the first that
cannot be read ends the scan before the `//go:build` line is reached (`ofSource_of_goBuild`,
`not_wins_of_malformed_before`).
-/

namespace GoResolver.Constraint

/-! ## 1. The lines of a header -/

/-- The lines before the first line of code, by kind, without what block comments hide. -/
def headerLines (inBlock : Bool) : List (List Char) → List Line
  | [] => []
  | line :: rest =>
    match visible inBlock (Text.trim line) with
    | .inside => headerLines true rest
    | .text s =>
      match Line.ofText s with
      | .code => []
      | kind => kind :: headerLines false rest

/-- The lines of a source text's header. -/
def header (source : String) : List Line := headerLines false (Text.lines source.toList)

/-- What a `//go:build` line with the given expression states. -/
def ofExpression (e : List Char) : Except Malformed (Option Constraint) :=
  match parse? e with
  | some c => .ok (some c)
  | none => .error (.expression (String.ofList e))

/-- What is wrong with a constraint line of the `+build` form, if anything is.  A line without a
body states nothing, and nothing is wrong with it. -/
def Line.malformed? : Line → Option Malformed
  | .plusBuild body =>
    if body.isEmpty ∨ (ofPlusLine? body).isSome then none
    else some (.plusLine (String.ofList body))
  | _ => none

/-- The body of a constraint line of the `+build` form that has one. -/
def Line.body? : Line → Option (List Char)
  | .plusBuild body => if body.isEmpty then none else some body
  | _ => none

/-- The bodies of the constraint lines of the `+build` form, in order. -/
def plusBodies (lines : List Line) : List (List Char) := lines.filterMap Line.body?

theorem plusBodies_cons_of_none {line : Line} (h : line.body? = none) (lines : List Line) :
    plusBodies (line :: lines) = plusBodies lines :=
  List.filterMap_cons_none h

theorem plusBodies_cons_of_some {line : Line} {body : List Char} (h : line.body? = some body)
    (lines : List Line) : plusBodies (line :: lines) = body :: plusBodies lines :=
  List.filterMap_cons_some h

/-- What the lines of a header state, given the constraint lines already read. -/
def stated (read : List Constraint) : List Line → Except Malformed (Option Constraint)
  | [] => .ok (ofLines read)
  | .goBuild e :: _ => ofExpression e
  | .plusBuild body :: rest =>
    if body.isEmpty then stated read rest
    else match ofPlusLine? body with
      | some c => stated (read ++ [c]) rest
      | none => .error (.plusLine (String.ofList body))
  | _ :: rest => stated read rest

/-- **The scan states what the lines of the header state.** -/
theorem scanHeader_eq (inBlock : Bool) (read : List Constraint) (lines : List (List Char)) :
    scanHeader inBlock read lines = stated read (headerLines inBlock lines) := by
  induction lines generalizing inBlock read with
  | nil => rfl
  | cons line rest ih =>
    rw [scanHeader, headerLines]
    cases visible inBlock (Text.trim line) with
    | inside => exact ih true read
    | text s =>
      dsimp only
      cases Line.ofText s with
      | blank => exact ih false read
      | comment => exact ih false read
      | code => rfl
      | goBuild e => rfl
      | plusBuild body =>
        dsimp only [stated]
        rw [ih false read]
        cases ofPlusLine? body with
        | some c => exact congrArg _ (ih false (read ++ [c]))
        | none => rfl

theorem ofSource_eq (source : String) : ofSource source = stated [] (header source) :=
  scanHeader_eq false [] _

/-! ## 2. The first `//go:build` line -/

/-- A line that cannot be read is all that counts. -/
theorem stated_cons_of_malformed {line : Line} {m : Malformed} (hline : line.malformed? = some m)
    (read : List Constraint) (rest : List Line) : stated read (line :: rest) = .error m := by
  cases line with
  | plusBuild body =>
    rw [Line.malformed?, Option.ite_none_left_eq_some, not_or] at hline
    obtain ⟨⟨hempty, hbody⟩, hm⟩ := hline
    rw [Option.not_isSome_iff_eq_none] at hbody
    rw [stated, if_neg hempty, hbody, ← Option.some_inj.mp hm]
  | _ => simp [Line.malformed?] at hline

/-- **Lines before a `//go:build` line are read one by one.**  The first that cannot be read ends
the scan; if all can, what they state is kept for the rest. -/
theorem stated_append {before : List Line} (hfirst : ∀ e, .goBuild e ∉ before)
    (read : List Constraint) (rest : List Line) :
    stated read (before ++ rest) =
      match before.findSome? Line.malformed? with
      | some m => .error m
      | none => stated (read ++ (plusBodies before).filterMap ofPlusLine?) rest := by
  induction before generalizing read with
  | nil => exact congrArg (stated · rest) (List.append_nil read).symm
  | cons line before ih =>
    have hrest : ∀ e, .goBuild e ∉ before := fun e h => hfirst e (List.mem_cons_of_mem _ h)
    rw [List.cons_append, List.findSome?_cons]
    cases hline : line.malformed? with
    | some m => exact stated_cons_of_malformed hline read _
    | none =>
      cases line with
      | goBuild e => exact absurd List.mem_cons_self (hfirst e)
      | blank | comment | code => exact ih hrest read
      | plusBuild body =>
        by_cases hempty : body.isEmpty
        · have hnone : (Line.plusBuild body).body? = none := by rw [Line.body?, if_pos hempty]
          rw [stated, if_pos hempty, plusBodies_cons_of_none hnone]
          exact ih hrest read
        · have hsome : (Line.plusBuild body).body? = some body := by
            rw [Line.body?, if_neg hempty]
          cases hbody : ofPlusLine? body with
          | none => simp [Line.malformed?, hempty, hbody] at hline
          | some c =>
            rw [stated, if_neg hempty, hbody, plusBodies_cons_of_some hsome,
              List.filterMap_cons_some hbody, List.append_cons]
            exact ih hrest (read ++ [c])

/-- **What stands before and after the first `//go:build` line.**  Lines after it never count, lines
before it only when one of them cannot be read. -/
theorem stated_append_goBuild {before : List Line} (hfirst : ∀ e, .goBuild e ∉ before)
    (read : List Constraint) (e : List Char) (after : List Line) :
    stated read (before ++ .goBuild e :: after) =
      match before.findSome? Line.malformed? with
      | some m => .error m
      | none => ofExpression e :=
  stated_append hfirst read _

/-- **The first `//go:build` line of a header decides, unless a `+build` line before it cannot be
read.**  The constraint is then the one of its expression alone, or the error that the expression is
malformed; in the other case it is the error for the first line that cannot be read. -/
theorem ofSource_of_goBuild {source : String} {before after : List Line} {e : List Char}
    (hheader : header source = before ++ .goBuild e :: after)
    (hfirst : ∀ e', .goBuild e' ∉ before) :
    ((∀ line ∈ before, line.malformed? = none) →
      (∀ c, parse? e = some c → ofSource source = .ok (some c)) ∧
      (parse? e = none → ofSource source = .error (.expression (String.ofList e)))) ∧
    (∀ m, before.findSome? Line.malformed? = some m → ofSource source = .error m) := by
  have hsource := stated_append_goBuild hfirst [] e after
  rw [← hheader, ← ofSource_eq] at hsource
  refine ⟨fun hread => ?_, fun m hm => ?_⟩
  · rw [List.findSome?_eq_none_iff.mpr hread] at hsource
    refine ⟨fun c hc => ?_, fun hnone => ?_⟩
    · rw [hsource, ofExpression, hc]
    · rw [hsource, ofExpression, hnone]
  · rw [hsource, hm]

/-- A header with constraint lines of the other form on both sides of the `//go:build` line, the
earlier one behind a block comment and the later one malformed. -/
theorem ofSource_of_goBuild_between_plusLines :
    header "/* notes\n*/ // +build windows\n//go:build !arm\n// +build linux,\npackage x\n" =
        [.plusBuild "windows".toList, .goBuild "!arm".toList, .plusBuild "linux,".toList] ∧
      ofSource "/* notes\n*/ // +build windows\n//go:build !arm\n// +build linux,\npackage x\n" =
        .ok (some (.not (.tag "arm"))) := by
  have hheader :
      header "/* notes\n*/ // +build windows\n//go:build !arm\n// +build linux,\npackage x\n" =
        [.plusBuild "windows".toList] ++
          .goBuild "!arm".toList :: [.plusBuild "linux,".toList] := by decide +kernel
  have hread : ∀ line ∈ [Line.plusBuild "windows".toList], line.malformed? = none := by
    intro line hline
    rw [List.mem_singleton.mp hline]
    decide +kernel
  have hparse : parse? "!arm".toList = some (.not (.tag "arm")) :=
    parse?_eq_some_of_tokens (.one (.one (.not (.tag "arm")))) (by decide +kernel) (by decide)
  exact ⟨hheader, ((ofSource_of_goBuild hheader (by simp)).1 hread).1 _ hparse⟩

/-- **A `//go:build` line does not win against a malformed line before it.**  Its expression can be
read, and the source is refused all the same. -/
theorem not_wins_of_malformed_before :
    header "// +build linux,\n//go:build linux\n\npackage x\n" =
        [.plusBuild "linux,".toList, .goBuild "linux".toList, .blank] ∧
      parse? "linux".toList = some (.tag "linux") ∧
      ofSource "// +build linux,\n//go:build linux\n\npackage x\n" =
        .error (.plusLine "linux,") := by
  have hheader : header "// +build linux,\n//go:build linux\n\npackage x\n" =
      [.plusBuild "linux,".toList, .goBuild "linux".toList, .blank] := by decide +kernel
  have hmalformed : (Line.plusBuild "linux,".toList).malformed? = some (.plusLine "linux,") := by
    decide +kernel
  refine ⟨hheader, ?_, ?_⟩
  · exact parse?_eq_some_of_tokens (.one (.one (.tag "linux"))) (by decide +kernel) (by decide)
  · rw [ofSource_eq, hheader]
    exact stated_cons_of_malformed hmalformed [] _

end GoResolver.Constraint
