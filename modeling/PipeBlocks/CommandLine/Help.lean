import PipeBlocks.CommandLine.Parse

/-! The texts that `--help`, `-h` and `--version` print. -/
namespace PipeBlocks.CommandLine

def versionText : String := "pipemark 0.3.0\n"

def longHelp : String := "\n".intercalate [
  "Rewrite `\x7bvalue | pipe:args\x7d` blocks into nested function calls.",
  "",
  "Reads the given files (or stdin when none are given) and writes the preprocessed markup to stdout, or back to each file with --in-place.",
  "",
  "Usage: pipemark [OPTIONS] [FILES]...",
  "",
  "Arguments:",
  "  [FILES]...",
  "          Template files to preprocess",
  "",
  "Options:",
  "  -p, --prefix <PREFIX>",
  "          Prefix prepended to every generated call name (e.g. \"utils.\")",
  "",
  "  -d, --debug",
  "          Report every rewritten block on stderr",
  "",
  "  -x, --exclude <PATTERN>",
  "          Skip files whose path contains this text (repeatable)",
  "",
  "      --sveltekit-defaults",
  "          Also skip SvelteKit's generated files and node_modules",
  "",
  "  -c, --config <PATH>",
  "          YAML config file; flags override its values",
  "",
  "  -i, --in-place",
  "          Rewrite files in place instead of printing them",
  "",
  "      --list-pipes",
  "          Print the pipe functions the input calls, one per line",
  "",
  "  -v, --verbose",
  "          Enable verbose logging",
  "",
  "  -h, --help",
  "          Print help (see a summary with '-h')",
  "",
  "  -V, --version",
  "          Print version",
  ""]

def shortHelp : String := "\n".intercalate [
  "Rewrite `\x7bvalue | pipe:args\x7d` blocks into nested function calls",
  "",
  "Usage: pipemark [OPTIONS] [FILES]...",
  "",
  "Arguments:",
  "  [FILES]...  Template files to preprocess",
  "",
  "Options:",
  "  -p, --prefix <PREFIX>     Prefix prepended to every generated call name (e.g. \"utils.\")",
  "  -d, --debug               Report every rewritten block on stderr",
  "  -x, --exclude <PATTERN>   Skip files whose path contains this text (repeatable)",
  "      --sveltekit-defaults  Also skip SvelteKit's generated files and node_modules",
  "  -c, --config <PATH>       YAML config file; flags override its values",
  "  -i, --in-place            Rewrite files in place instead of printing them",
  "      --list-pipes          Print the pipe functions the input calls, one per line",
  "  -v, --verbose             Enable verbose logging",
  "  -h, --help                Print help (see more with '--help')",
  "  -V, --version             Print version",
  ""]

def helpText (long : Bool) : Text := (if long then longHelp else shortHelp).toList

end PipeBlocks.CommandLine
