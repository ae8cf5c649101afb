import GoResolver.Command.Options
import GoResolver.Path
import GoResolver.Text.Search

/-!
# Reading arguments

Arguments are read one by one, and what is known between two of them is a `Reading`.  An argument
is, in this order of precedence:

* the value of the option before it, if that one still lacks a value; a value does not start with a
  hyphen, unless it is one;
* a command;
* `--`, after which everything is an operand;
* an option with its word, `--word` or `--word=value`;
* options with their letters, `-abc`; the first that takes a value takes what follows it, after an
  equals sign or not;
* an operand.

Help and the version are answered as soon as they are asked for, and an argument that cannot be
understood ends the reading.  No option may be given twice, except before and after the command: of
two settings files the later one counts.
-/

namespace GoResolver.Command

/-- A command with what it needs. -/
inductive Action where
  | init (force : Bool)
  | config
  | locate (importPath : String) (dir : Path) (json : Bool)
  deriving Repr, DecidableEq

/-- What the arguments of a run say. -/
structure Invocation where
  config : Option Path := none
  debug : Bool := false
  action : Action
  deriving Repr, DecidableEq

/-- Why reading ends without something to run. -/
inductive Stop where
  | help (t : Topic)
  | version
  | usage
  deriving Repr, DecidableEq

/-- What is known between two arguments. -/
structure Reading where
  /-- The command, or the program before there is one. -/
  topic : Topic := .program
  /-- The options before the command, with their values. -/
  outer : List (Flag × String) := []
  /-- The options since the command, with their values. -/
  given : List (Flag × String) := []
  operands : List String := []
  /-- The option that lacks its value. -/
  awaiting : Option Flag := none
  operandsOnly : Bool := false
  /-- What help was asked about, by the command for it. -/
  subject : Option Topic := none

namespace Reading

/-- Takes up an option with its value.  Both values are paths, and so not empty. -/
def give (r : Reading) (flag : Flag) (value : String) : Except Stop Reading :=
  if (r.given.lookup flag).isSome ∨ value = "" then .error .usage
  else .ok { r with given := r.given ++ [(flag, value)], awaiting := none }

/-- Takes up an option without a value. -/
def turnOn (r : Reading) : Flag → Except Stop Reading
  | .help => .error (.help r.topic)
  | .version => .error .version
  | flag => r.give flag "true"

/-- Takes up an operand. -/
def operand (r : Reading) (text : String) : Except Stop Reading :=
  if r.topic = .locate ∧ r.operands.isEmpty then .ok { r with operands := [text] }
  else .error .usage

/-- Takes up an option with its word, after the two hyphens. -/
def long (r : Reading) (text : List Char) : Except Stop Reading :=
  match r.topic.long? (String.ofList (text.takeWhile (· ≠ '='))) with
  | none => .error .usage
  | some o =>
    match text.dropWhile (· ≠ '='), o.value with
    | [], none => r.turnOn o.flag
    | [], some _ => .ok { r with awaiting := some o.flag }
    | _ :: _, none => .error .usage
    | _ :: value, some _ => r.give o.flag (String.ofList value)

/-- Takes up options with their letters, after the hyphen. -/
def letters (r : Reading) : List Char → Except Stop Reading
  | [] => .ok r
  | c :: cs =>
    match r.topic.short? c with
    | none => .error .usage
    | some o =>
      match o.value, cs with
      | none, _ => do (← r.turnOn o.flag).letters cs
      | some _, [] => .ok { r with awaiting := some o.flag }
      | some _, '=' :: value => r.give o.flag (String.ofList value)
      | some _, value => r.give o.flag (String.ofList value)

/-- Takes up the command. -/
def enter (r : Reading) (t : Topic) : Reading :=
  if t = .help then { r with subject := some .program }
  else { r with topic := t, outer := r.given, given := [] }

/-- Takes up an argument that is no value of the option before it. -/
def plain (r : Reading) (arg : String) : Except Stop Reading :=
  match r.topic.command? arg with
  | some t => .ok (r.enter t)
  | none =>
    match arg.toList with
    | ['-', '-'] => .ok { r with operandsOnly := true }
    | '-' :: '-' :: text => r.long text
    | '-' :: c :: cs => r.letters (c :: cs)
    | _ => r.operand arg

/-- Takes up one argument. -/
def take (r : Reading) (arg : String) : Except Stop Reading :=
  match r.subject, r.awaiting with
  | some t, _ =>
    match t.command? arg with
    | some t' => .ok { r with subject := some t' }
    | none => .error .usage
  | none, some flag =>
    if arg.toList.head? = some '-' ∧ arg ≠ "-" then .error .usage else r.give flag arg
  | none, none => if r.operandsOnly then r.operand arg else r.plain arg

/-- Whether an option was given, before or after the command. -/
def isOn (r : Reading) (flag : Flag) : Bool :=
  (r.given.lookup flag).isSome || (r.outer.lookup flag).isSome

/-- The path that an option names; what was said after the command counts first. -/
def path? (r : Reading) (flag : Flag) : Option Path :=
  (r.given.lookup flag <|> r.outer.lookup flag).map Path.mk

/-- The action of a reading in which nothing is missing. -/
def action? (r : Reading) : Option Action :=
  match r.topic, r.operands with
  | .init, _ => some (.init (r.isOn .force))
  | .config, _ => some .config
  | .locate, [text] => some (.locate text ((r.path? .dir).getD ⟨"."⟩) (r.isOn .json))
  | _, _ => none

/-- What a reading comes to when there are no more arguments. -/
def finish (r : Reading) : Except Stop Invocation :=
  match r.subject, r.awaiting, r.action? with
  | some t, _, _ => .error (.help t)
  | none, none, some action =>
    .ok { config := r.path? .config, debug := r.isOn .debug, action }
  | _, _, _ => .error .usage

end Reading

/-- What a list of arguments asks for. -/
def Invocation.read (args : List String) : Except Stop Invocation :=
  match args.foldlM Reading.take {} with
  | .ok r => r.finish
  | .error stop => .error stop

end GoResolver.Command
