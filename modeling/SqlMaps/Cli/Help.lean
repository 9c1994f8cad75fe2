import SqlMaps.Cli.Arguments

/-! The help that the program shows.

A page says what its topic is for and how it is called, and describes the commands,
arguments and options that it can be called with in two columns. -/
namespace SqlMaps.Cli

/-- The name that the program is called by. -/
def programName : String := "sqlstencil"

namespace Opt

/-- How an option is given. -/
def usage (o : Opt) : String :=
  "--" ++ o.name ++ if o.takes = .nothing then "" else " <" ++ o.value ++ ">"

/-- The description of an option: how it is given, and what it is for. -/
def row (o : Opt) : String × String :=
  let choice := match o.takes with
    | .oneOf words => " [possible values: " ++ ", ".intercalate words ++ "]"
    | _ => ""
  ("    " ++ o.usage, o.about ++ choice)

end Opt

/-- The description of the flag that asks for help. -/
def helpRow : String × String := ("-h, --help", "Print help")

/-- What the command that shows help is for. -/
def helpAbout : String := "Print this message or the help of the given subcommand(s)"

/-- Rows under a heading, the second column set off by two blanks from the widest of the
first. -/
def columns (heading : String) (rows : List (String × String)) : String :=
  let width := rows.foldl (fun width row => max width row.1.length) 0
  heading ++ ":" ++ String.join (rows.map fun (given, about) =>
    "\n  " ++ given ++ String.ofList (List.replicate (width - given.length + 2) ' ') ++ about)

/-- A page of help. -/
def page (about usage : String) (sections : List String) : String :=
  "\n\n".intercalate ([about, "Usage: " ++ programName ++ " " ++ usage] ++ sections) ++ "\n"

namespace Form

/-- How a command is called. -/
def usage (form : Form) : String :=
  " ".intercalate
    ([form.name, "[OPTIONS]"] ++ (form.opts.filter (·.required)).map Opt.usage)

/-- The options that a command describes: how much is logged stands behind the first of
its own. -/
def described (form : Form) : List Opt :=
  form.opts.take 1 ++ [verbosity] ++ form.opts.drop 1

end Form

/-- The help about a topic. -/
def Topic.page : Topic → String
  | .program =>
    Cli.page "Render SQL templates and upgrade SQLite database files" "[OPTIONS] <COMMAND>"
      [columns "Commands" (Form.all.map (fun form => (form.name, form.about)) ++
          [("help", helpAbout)]),
        columns "Options" [verbosity.row, helpRow]]
  | .command form =>
    Cli.page form.about form.usage
      [columns "Options" (form.described.map Opt.row ++ [helpRow])]
  | .help =>
    Cli.page helpAbout "help [COMMAND]..."
      [columns "Arguments" [("[COMMAND]...", "Print help for the subcommand(s)")]]

end SqlMaps.Cli
