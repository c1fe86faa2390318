import Dialogue.Text.Basic

/-! What the program says about itself. -/
namespace Dialogue.Shell

def versionText : Text := "rivescript 0.1.0"

def commandsText : Text :=
  "Shell commands:
  /help                      Show these commands.
  /trace                     Toggle the per-reply trace report.
  /sorted [topic]            List the sorted triggers of a topic (default: random).
  /vars                      Show your user variables.
  /quit                      Exit."

def helpText : Text :=
  versionText ++ "

Interactive shell for RiveScript dialogue scripts.

Usage:
  rivescript [OPTIONS] <path>

  <path> is a script file or a directory of .rive files.

Options:
  --utf8                     Keep non-ASCII characters in messages.
  --strict                   Treat script syntax warnings as errors.
  --force-case               Lowercase triggers and topic names while loading.
  --depth <n>                Recursion limit for redirects. Default: 50
  --debug                    Log every match attempt (implies RUST_LOG=debug).
  --trace                    Print a step-by-step report with each reply.
  --color                    Force ANSI color output.
  --no-color                 Disable ANSI color output.
  -h, --help                 Show this help message.
  -V, --version              Print version information.

" ++ commandsText ++ "

Exit codes:
  0  Success.
  1  Scripts failed to load.
  2  Invalid arguments or missing path.
"

end Dialogue.Shell
