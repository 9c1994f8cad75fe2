/-! The arguments of the command line.

Options are given as `--name value` or `--name=value`, and flags as `--name`. Each may
be given once, unless it is one that repeats. How much is logged can be said before
the command or behind it.

Help is asked for by a flag, before a command or behind it, or by a command of its own.
The arguments are read from the first to the last, so a flag that asks for help counts
unless the arguments before it have been misused. -/
namespace SqlMaps.Cli

/-- What a command is to do. -/
inductive Command where
  | render (template query : String) (params : List String)
  | status (db : String) (json : Bool)
  | needsUpdate (old new : String)
  | migrate (old new : String) (policy : Option String) (keepNew json : Bool)
  | optimize (db : String)
  deriving DecidableEq

/-- What an option takes. -/
inductive Takes where
  | nothing
  /-- Any text. -/
  | text
  /-- A path, which is not empty. -/
  | path
  | oneOf (words : List String)
  deriving DecidableEq

/-- An option of a command. -/
structure Opt where
  name : String
  takes : Takes
  /-- What stands for its value, where it is described. -/
  value : String
  about : String
  required : Bool := false
  repeats : Bool := false
  deriving DecidableEq

namespace Opt

/-- Whether the option takes the value. -/
def accepts (o : Opt) (value : String) : Bool :=
  match o.takes with
  | .nothing => false
  | .text => true
  | .path => value != ""
  | .oneOf words => words.contains value

end Opt

/-- How much is logged; the option stands before a command or behind it. -/
def verbosity : Opt where
  name := "verbosity"
  takes := .oneOf ["error", "warn", "info", "debug", "trace"]
  value := "VERBOSITY"
  about := "Log verbosity written to stderr [default: warn]"

/-- The options given, with their values. -/
abbrev Given := List (String × String)

/-- Whether an argument begins as an option does. A lone dash is a value. -/
def looksLikeOption (arg : String) : Bool :=
  match arg.toList with
  | '-' :: _ :: _ => true
  | _ => false

/-- The option that an argument names, and the value behind its equals sign. -/
def optionOf? (opts : List Opt) (arg : String) : Option (Opt × Option String) :=
  match arg.toList with
  | '-' :: '-' :: rest => do
    let name := String.ofList (rest.takeWhile (· != '='))
    let opt ← opts.find? (·.name = name)
    match rest.dropWhile (· != '=') with
    | [] => return (opt, none)
    | _ :: value => return (opt, some (String.ofList value))
  | _ => none

/-- Why the reading of arguments ends before their end. -/
inductive Interruption where
  | help
  | misuse
  deriving DecidableEq

/-- Whether an argument is the flag that asks for help. Its short form may have more
letters behind it. -/
def asksForHelp (arg : String) : Bool :=
  arg = "--help" ||
    match arg.toList with
    | '-' :: 'h' :: _ => true
    | _ => false

/-- Enters an option, unless it has been given and does not repeat. -/
def enter (given : Given) (o : Opt) (value : String) : Except Interruption Given :=
  if !o.repeats && given.any (·.1 = o.name) then .error .misuse
  else .ok (given ++ [(o.name, value)])

/-- Enters an option with a value, which it has to take. -/
def enterValue (given : Given) (o : Opt) (value : String) : Except Interruption Given :=
  if o.accepts value then enter given o value else .error .misuse

/-- Reads options up to the first argument that is none, and leaves the rest. -/
def readOptions (opts : List Opt) :
    List String → Given → Except Interruption (Given × List String)
  | [], given => .ok (given, [])
  | arg :: args, given =>
    if !looksLikeOption arg then .ok (given, arg :: args)
    else if asksForHelp arg then .error .help
    else match optionOf? opts arg with
      | none => if arg = "--" ∧ args = [] then .ok (given, []) else .error .misuse
      | some (o, some value) => (enterValue given o value).bind (readOptions opts args)
      | some (o, none) =>
        if o.takes = .nothing then (enter given o "").bind (readOptions opts args)
        else match args with
          | [] => .error .misuse
          | value :: args =>
            if looksLikeOption value then .error .misuse
            else (enterValue given o value).bind (readOptions opts args)

/-- The value of an option that was given. -/
def Given.text (given : Given) (name : String) : String :=
  (given.lookup name).getD ""

/-- Whether an option was given. -/
def Given.has (given : Given) (name : String) : Bool :=
  given.any (·.1 = name)

/-- The values of an option that repeats, in order. -/
def Given.all (given : Given) (name : String) : List String :=
  (given.filter (·.1 = name)).map Prod.snd

/-- How a command is called. -/
structure Form where
  name : String
  about : String
  opts : List Opt
  deriving DecidableEq

namespace Form

/-- Renders a query of a template. -/
def render : Form where
  name := "render"
  about := "Compile one query of a template file and print the SQL"
  opts := [
    { name := "template", takes := .path, value := "TEMPLATE", required := true
      about := "Template file (XML-style markup)" },
    { name := "query", takes := .text, value := "QUERY", required := true
      about := "Query id inside the template" },
    { name := "param", takes := .text, value := "PARAMS", repeats := true
      about := "Parameter as `name=value`, `name:int=5`, `name:real=1.5`, " ++
        "`name:bool=true`, `name:blob=0aff` or `name:null`. Repeatable" }]

/-- Shows what a database holds. -/
def status : Form where
  name := "status"
  about := "Print the user_version and tables of a database file"
  opts := [
    { name := "db", takes := .path, value := "DB", required := true
      about := "Database file to inspect" },
    { name := "json", takes := .nothing, value := "", about := "Print JSON instead of text" }]

/-- Compares the versions of two databases. -/
def needsUpdate : Form where
  name := "needs-update"
  about := "Print whether the new file has a higher user_version than the old one"
  opts := [
    { name := "old", takes := .path, value := "OLD", required := true
      about := "Database file currently in use" },
    { name := "new", takes := .path, value := "NEW", required := true
      about := "Freshly created database file with the new schema" }]

/-- Upgrades a database. -/
def migrate : Form where
  name := "migrate"
  about := "Copy rows from an old database file into a newer schema and replace it"
  opts := [
    { name := "old", takes := .path, value := "OLD", required := true
      about := "Database file currently in use; replaced on success" },
    { name := "new", takes := .path, value := "NEW", required := true
      about := "Freshly created database file with the new schema" },
    { name := "policy", takes := .path, value := "POLICY", about := "YAML retention policy" },
    { name := "keep-new", takes := .nothing, value := ""
      about := "Keep the new file when nothing was migrated" },
    { name := "json", takes := .nothing, value := "", about := "Print the report as JSON" }]

/-- Rebuilds a database without its gaps. -/
def optimize : Form where
  name := "optimize"
  about := "Compact a database file with VACUUM"
  opts := [
    { name := "db", takes := .path, value := "DB", required := true
      about := "Database file to compact" }]

/-- The commands. -/
def all : List Form := [render, status, needsUpdate, migrate, optimize]

/-- The command of a name. -/
def ofName? (name : String) : Option Form :=
  all.find? (·.name = name)

/-- Whether the options that have to be given are. -/
def isSatisfied (form : Form) (given : Given) : Bool :=
  form.opts.all fun o => !o.required || given.has o.name

end Form

/-- The command of a name with the options given. -/
def commandOf? (name : String) (given : Given) : Option Command :=
  match name with
  | "render" => some (.render (given.text "template") (given.text "query") (given.all "param"))
  | "status" => some (.status (given.text "db") (given.has "json"))
  | "needs-update" => some (.needsUpdate (given.text "old") (given.text "new"))
  | "migrate" =>
    some (.migrate (given.text "old") (given.text "new") (given.lookup "policy")
      (given.has "keep-new") (given.has "json"))
  | "optimize" => some (.optimize (given.text "db"))
  | _ => none

/-- What help is asked about. -/
inductive Topic where
  | program
  | command (form : Form)
  /-- The command that shows help. -/
  | help
  deriving DecidableEq

/-- The topic that the arguments of the command for help name. -/
def Topic.ofNames? : List String → Option Topic
  | [] => some .program
  | ["help"] => some .help
  | [name] => (Form.ofName? name).map .command
  | _ => none

/-- What the program is asked to do. -/
inductive Request where
  | command (command : Command)
  | help (topic : Topic)
  deriving DecidableEq

/-- The request that the arguments behind the name of a command mean. -/
def Request.ofCommand? (form : Form) (args : List String) : Option Request :=
  match readOptions (verbosity :: form.opts) args [] with
  | .error .help => some (.help (.command form))
  | .error .misuse => none
  | .ok (given, rest) =>
    if rest.isEmpty && form.isSatisfied given then (commandOf? form.name given).map .command
    else none

/-- The request that the arguments mean; there is none when they are misused. -/
def Request.ofArguments? (args : List String) : Option Request :=
  match readOptions [verbosity] args [] with
  | .error .help => some (.help .program)
  | .error .misuse => none
  | .ok (_, []) => none
  | .ok (_, "help" :: names) => (Topic.ofNames? names).map .help
  | .ok (_, name :: rest) => (Form.ofName? name).bind fun form => ofCommand? form rest

/-- The paths that a command reads. -/
def Command.paths : Command → List String
  | .render template _ _ => [template]
  | .status db _ => [db]
  | .needsUpdate old new => [old, new]
  | .migrate old new policy _ _ => [old, new] ++ policy.toList
  | .optimize db => [db]

/-- The paths that are read for a request. -/
def Request.paths : Request → List String
  | .command c => c.paths
  | .help _ => []

end SqlMaps.Cli
