import Deployment.CommandLine.Arguments

/-!
What the program says in the words of the libraries that it is built with. A run never looks into
these texts, so they are a part of its surroundings; the values given here only stand in for them.
-/

namespace Deployment.CommandLine

/-- Stands in for the help on the arguments. -/
def usage : String :=
  "Parse deployment manifests and render job templates\n\n" ++
    "Usage: rigger [OPTIONS] <COMMAND>\n\n" ++
    "Commands:\n" ++
    "  parse <MANIFEST> [--format summary|json|yaml]\n" ++
    "  render <MANIFEST> --job <JOB> [--index <INDEX>] <SRC> <DST>\n" ++
    "  completions <SHELL>\n" ++
    "  help [COMMAND]\n\n" ++
    "Options:\n" ++
    "      --config <CONFIG>  Path to a TOML config file\n" ++
    "  -v, --verbose          Enable verbose (debug) logging output\n" ++
    "      --trace            Enable trace-level logging\n" ++
    "  -h, --help             Print help\n" ++
    "  -V, --version          Print version\n"

/-- Stands in for the script with which a shell completes a command line. -/
def wordList : Shell → String
  | .bash => "complete -W 'parse render completions help' rigger\n"
  | .elvish => "set edit:completion:arg-completer[rigger] = [@words]\x7b put parse render " ++
      "completions help \x7d\n"
  | .fish => "complete -c rigger -f -a 'parse render completions help'\n"
  | .powershell => "Register-ArgumentCompleter -Native -CommandName 'rigger' -ScriptBlock " ++
      "\x7b 'parse', 'render', 'completions', 'help' \x7d\n"
  | .zsh => "#compdef rigger\ncompadd parse render completions help\n"

/-- The words of the libraries: the help and the complaint for a list of arguments, the version,
the script for a shell, and what is wrong with a settings document that cannot be read. -/
structure Wording where
  help : List String → String := fun _ => usage
  misuse : List String → String := fun _ => "error: invalid arguments\n\n" ++ usage
  version : String := "rigger 0.1.0\n"
  completion : Shell → String := wordList
  settingsFault : String → String := fun _ => "invalid settings"

end Deployment.CommandLine
