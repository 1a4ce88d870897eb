import AccessorScan.Command.Form

/-!
# `AccessorScan.Command.Help` — what the program says about itself

## Contents
- `helpText`, `versionText`.
- `UsageError.message`.
-/

namespace AccessorScan

def helpText : String :=
  "Detects trivial getter and setter methods in Java sources\n\n" ++
  "Usage: accessormap [OPTIONS] <COMMAND>\n\n" ++
  "Commands:\n" ++
  "  scan   Scan a Java file or directory and report accessor methods\n" ++
  "  check  Print whether one method is an accessor\n" ++
  "  init   Initialize a .accessormap.toml in the current directory\n" ++
  "  help   Print this message or the help of the given subcommand(s)\n\n" ++
  "Options:\n" ++
  "  -v, --verbose...  Increase log verbosity (can be repeated: -v, -vv, -vvv)\n" ++
  "  -h, --help        Print help\n" ++
  "  -V, --version     Print version\n"

def versionText : String := "accessormap 0.1.0\n"

/-- What is said about a command line that is no command. -/
def UsageError.message : UsageError → String
  | .helpAsked => helpText
  | .versionAsked => versionText
  | .nothingGiven => helpText
  | .commandMissing => "error: a subcommand is missing\n"
  | .commandUnknown => "error: unrecognized subcommand\n"
  | .argumentMissing => "error: a required argument was not provided\n"
  | .argumentUnknown => "error: unexpected argument found\n"
  | .repeated => "error: an argument cannot be used multiple times\n"
  | .valueInvalid => "error: a value is missing or invalid\n"
  | .valueUnreadable => "error: a value is no number in range\n"
  | .valueUnwanted => "error: a value for an option that takes none\n"

end AccessorScan
