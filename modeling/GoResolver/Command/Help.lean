import GoResolver.Command.Options

/-!
# Help texts

The help on a topic says what it is about, how it is used, and lists its commands, its operands and
its options, each in two columns.
-/

namespace GoResolver.Command

/-- Rows of two columns, indented. -/
def columns (rows : List (String × String)) : String :=
  let width := rows.foldl (fun w r => max w r.1.length) 0
  String.join (rows.map fun r =>
    "  " ++ r.1 ++ String.ofList (List.replicate (width - r.1.length) ' ') ++ "  " ++ r.2 ++ "\n")

/-- A titled list, if there is anything to list. -/
def block (title : String) (rows : List (String × String)) : String :=
  if rows.isEmpty then "" else "\n" ++ title ++ ":\n" ++ columns rows

/-- How an option is written. -/
def OptionEntry.label (o : OptionEntry) : String :=
  (match o.short with
    | some letter => "-" ++ String.ofList [letter] ++ ", "
    | none => "    ") ++
  "--" ++ o.long ++
  match o.value with
  | some name => " <" ++ name ++ ">"
  | none => ""

namespace Topic

/-- How a topic is used. -/
def usage (t : Topic) : String :=
  "gosuggest" ++ (if t = .program then "" else " " ++ t.word) ++
    (if t.options.isEmpty then "" else " [OPTIONS]") ++
    String.join (t.operands.map (" " ++ ·.label)) ++
    (if t.commands.isEmpty then "" else " <COMMAND>")

/-- The help on a topic. -/
def helpText (t : Topic) : String :=
  t.about ++ "\n\nUsage: " ++ t.usage ++ "\n" ++
    block "Commands" (t.commands.map fun c => (c.word, c.about)) ++
    block "Arguments" (t.operands.map fun a => (a.label, a.about)) ++
    block "Options" (t.options.map fun o => (o.label, o.about))

end Topic

/-- The text that names the program and its version. -/
def versionText : String := "gosuggest 0.1.0\n"

end GoResolver.Command
