/-
  Command/Help.lean --- the texts by which the command explains itself.
-/

set_option autoImplicit false

namespace EditionSurvey.Command

/-- The name of the command. -/
def commandName : String := "es-compat"

/-- The line with name and version. -/
def versionLine : String := s!"{commandName}, version 0.3.0\n"

/-- The usage in one line. -/
def usageLine : String := s!"Usage: {commandName} [OPTIONS]\n"

/-- The lines that stand above the message on wrong arguments. -/
def usageHead : String := usageLine ++ s!"Try '{commandName} --help' for help.\n\n"

/-- What is said about the command and its options, line by line. -/
def helpLines : List String :=
  ["",
    "  Recursively check the ECMAScript compatibility of a package and its",
    "  dependencies.",
    "",
    "  Exits 0 when no package is incompatible, 1 otherwise.",
    "",
    "Options:",
    "  -e, --es-version INTEGER        ECMAScript version to check against (edition",
    "                                  or year, e.g. 5 or 2015).  [default: 5]",
    "  -p, --package-name TEXT         Package to check: an installed name, a",
    "                                  directory, or \".\" for the package at the",
    "                                  resolve path.  [default: .]",
    "  -r, --require-resolve-path DIRECTORY",
    "                                  Directory dependencies are resolved from (its",
    "                                  node_modules and those above it).  [default:",
    "                                  .]",
    "  --show-tree / --no-show-tree    Print each package as it is classified,",
    "                                  indented by depth.  [default: show-tree]",
    "  -s, --show-error                Show the parser diagnostic for incompatible",
    "                                  packages.",
    "  --peer / --no-peer              Include peerDependencies in the traversal.",
    "                                  [default: peer]",
    "  -f, --target PATH               Check this file, or every .js/.cjs file under",
    "                                  this directory, instead of a package.",
    "  --format [text|md|json|yaml]    Report format.  [default: text]",
    "  -o, --output FILE               Write the report to this file instead of",
    "                                  stdout.",
    "  -v, --verbose                   Verbose logging.",
    "  --version                       Show the version and exit.",
    "  --help                          Show this message and exit."]

/-- The help. -/
def helpText : String := usageLine ++ String.join (helpLines.map (· ++ "\n"))

end EditionSurvey.Command
