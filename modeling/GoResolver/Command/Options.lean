/-!
# The options of the command line

The program has a few commands, and each has options of its own besides those that all of them take.
The tables here are all that is known about an option: how it is written, whether it takes a value,
and what the help says about it.  The options of a topic are listed in the order in which the help
shows them.
-/

namespace GoResolver.Command

/-- What the help can be about: the whole program or one of its commands. -/
inductive Topic where
  | program
  | init
  | config
  | locate
  | help
  deriving Repr, DecidableEq

/-- What an option sets. -/
inductive Flag where
  | config
  | debug
  | help
  | version
  | force
  | dir
  | json
  deriving Repr, DecidableEq

/-- An option: how it is written and what the help says about it. -/
structure OptionEntry where
  flag : Flag
  short : Option Char := none
  long : String
  /-- The name of its value, if it takes one. -/
  value : Option String := none
  about : String

/-- An operand and what the help says about it. -/
structure OperandEntry where
  label : String
  about : String

namespace Topic

/-- The word for a command. -/
def word : Topic → String
  | .program => "gosuggest"
  | .init => "init"
  | .config => "config"
  | .locate => "locate"
  | .help => "help"

/-- The commands of a topic. -/
def commands : Topic → List Topic
  | .program => [.init, .config, .locate, .help]
  | _ => []

/-- The command of a topic with the given word. -/
def command? (t : Topic) (word : String) : Option Topic := t.commands.find? (·.word == word)

/-- What a topic is about. -/
def about : Topic → String
  | .program => "Package resolver for Go completion"
  | .init => "Create .gosuggest/settings.toml with default values"
  | .config => "Print the effective configuration"
  | .locate => "Show where an import path resolves and whether it is a root package"
  | .help => "Print this message or the help of the given subcommand(s)"

/-- The option that names a settings file. -/
def configOption : OptionEntry where
  flag := .config
  short := some 'c'
  long := "config"
  value := some "CONFIG"
  about := "Path to custom settings.toml file"

/-- The option for debug logging. -/
def debugOption : OptionEntry where
  flag := .debug
  long := "debug"
  about := "Enable debug logging"

/-- The option that asks for help. -/
def helpOption : OptionEntry where
  flag := .help
  short := some 'h'
  long := "help"
  about := "Print help"

/-- The option that asks for the version. -/
def versionOption : OptionEntry where
  flag := .version
  short := some 'V'
  long := "version"
  about := "Print version"

/-- The option that allows to overwrite a settings file. -/
def forceOption : OptionEntry where
  flag := .force
  short := some 'f'
  long := "force"
  about := "Overwrite an existing configuration"

/-- The option for the directory that imports. -/
def dirOption : OptionEntry where
  flag := .dir
  short := some 'd'
  long := "dir"
  value := some "DIR"
  about := "Directory of the importing file [default: .]"

/-- The option for output as JSON. -/
def jsonOption : OptionEntry where
  flag := .json
  long := "json"
  about := "Output as JSON"

/-- The options of a topic. -/
def options : Topic → List OptionEntry
  | .program => [configOption, debugOption, helpOption, versionOption]
  | .init => [configOption, forceOption, debugOption, helpOption]
  | .config => [configOption, debugOption, helpOption]
  | .locate => [configOption, dirOption, debugOption, jsonOption, helpOption]
  | .help => []

/-- The operands of a topic. -/
def operands : Topic → List OperandEntry
  | .locate => [⟨"<IMPORT>", "Import path, e.g. \"fmt\" or \"github.com/user/pkg\""⟩]
  | .help => [⟨"[COMMAND]...", "Print help for the subcommand(s)"⟩]
  | _ => []

/-- The option with the given letter. -/
def short? (t : Topic) (letter : Char) : Option OptionEntry :=
  t.options.find? (·.short == some letter)

/-- The option with the given word. -/
def long? (t : Topic) (word : String) : Option OptionEntry := t.options.find? (·.long == word)

end Topic

end GoResolver.Command
