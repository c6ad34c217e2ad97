/-!
# Help

The texts that answer `--help` and `--version`.
-/

namespace SqfLayout.CommandLine

/-- The name of the program and its version. -/
def versionText : String := "sqfprettier 0.1.0\n"

/-- The lines of the help text. -/
def helpLines : List String := [
  "Auto-formatter for SQF scripts",
  "",
  "Usage: sqfprettier [OPTIONS] [FILE]...",
  "",
  "Arguments:",
  "  [FILE]...  Files or directories to format ('-' reads stdin)",
  "",
  "Options:",
  "  -i, --indent <UNIT>            Indentation per level: spaces4 or tab [default: spaces4]",
  "      --no-case                  Don't rewrite known commands and functions to their canonical case",
  "      --no-operator-spacing      Don't add spaces around =, ==, !=, <, >, <=, >=, &&, ||, >>",
  "  -L, --lines <START:END>        Only format lines START to END (1-based, inclusive; single input only)",
  "  -s, --stdout                   Output to stdout instead of modifying files in-place",
  "  -d, --diff                     Show diff without modifying files",
  "  -c, --config <FILE>            Path to configuration file (overrides auto-discovery)",
  "  -r, --recursive                Recursively format directories",
  "  -e, --exclude <PATTERN>        Exclude files/directories matching pattern (glob syntax, can be repeated)",
  "  -x, --extension <EXT>          Additional SQF file extension (can be repeated, e.g., -x hpp -x ext)",
  "  -m, --exclude-max-lines <NUM>  Exclude files with more than this many lines",
  "  -D, --debug                    Enable debug output (shows config, config files, directives)",
  "  -S, --silent                   Silent mode (no output, for editor integration)",
  "  -j, --jobs <NUM>               Number of parallel jobs (0=auto, 1=sequential)",
  "  -h, --help                     Print help",
  "  -V, --version                  Print version"]

/-- The help text. -/
def helpText : String := String.join (helpLines.map (· ++ "\n"))

end SqfLayout.CommandLine
