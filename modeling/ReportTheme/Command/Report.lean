import ReportTheme.Command.Run

/-!
How a run ends: with an exit code, a text on standard output and at most one message. Arguments that
are refused end with 2, failures with 1.
-/
namespace ReportTheme.Command

structure Report where
  code : Nat
  printed : String
  message : Option String
  deriving DecidableEq, Repr

def versionText : String := "hueforge 0.1.0\n"

def helpText : String :=
  "Semantic theme compiler for report themes

Usage: hueforge [OPTIONS] COMMAND

Commands:
  compile THEME   Compile a theme file into a concrete theme document
  detect THEME    Print which quick customizations a theme matches
  tokens          List the tokens resolved against the default palettes
  palettes        List the available palettes
  help            Print this text

Options:
  --config PATH   Read this configuration (default: hueforge.toml, if present)
  -v, --verbose   Say more; may be repeated
  -h, --help      Print this text
  -V, --version   Print the version

Options of compile:
  -o, --output PATH        Write here instead of standard output
  --mode light|dark        Override the mode of the theme (also for tokens)
  --palettes PATH          Read more palettes from a JSON file
  --quick CATEGORY=VALUE   Apply a quick customization; may be repeated
  --compact                Write compact JSON
"

namespace Report

def ofStop : Stop → Report
  | .help => ⟨0, helpText, none⟩
  | .version => ⟨0, versionText, none⟩
  | .refused e => ⟨2, "", some e.message⟩

def ofFailure (f : Failure) : Report := ⟨1, "", some f.message⟩

def ofText (printed : String) : Report := ⟨0, printed, none⟩

end Report

end ReportTheme.Command
