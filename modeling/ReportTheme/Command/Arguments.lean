import ReportTheme.Command.Options
import ReportTheme.Preset.Choice
import ReportTheme.Mode

/-!
The command line: options for every command, the name of a command, and its own arguments.
-/
namespace ReportTheme.Command

structure CompileOptions where
  theme : String
  output : Option String
  mode : Option Mode
  /-- A file of palettes besides the configured ones. -/
  palettes : Option String
  /-- Presets to apply before compiling, in order. -/
  choices : List Choice
  compact : Bool
  deriving DecidableEq, Repr

inductive Action where
  | compile (o : CompileOptions)
  | detect (theme : String)
  | tokens (mode : Option Mode)
  | palettes
  deriving DecidableEq, Repr

structure Invocation where
  config : Option String
  verbosity : Nat
  action : Action
  deriving DecidableEq, Repr

/-- Everything that arguments can set; a command uses its part of it. -/
structure Given where
  config : Option String
  verbosity : Nat
  theme : Option String
  output : Option String
  mode : Option Mode
  palettes : Option String
  choices : List Choice
  compact : Bool
  deriving DecidableEq, Repr

def Given.nothing : Given := ⟨none, 0, none, none, none, none, [], false⟩

def refuse {α : Type} (e : ArgumentError) : Except Stop α := .error (.refused e)

/-- An option that may be given once, with a value that `read` must accept. -/
def once {α : Type} (name : String) (short : Option Char) (read : String → Option α)
    (get : Given → Option α) (put : α → Given → Given) : Setting Given :=
  ⟨name, short, .option fun value g =>
    match get g, read value with
    | some _, _ => refuse (.repeated ("--" ++ name))
    | none, none => refuse (.badValue ("--" ++ name) value)
    | none, some a => .ok (put a g)⟩

/-- Paths are not empty. -/
def readPath (s : String) : Option String := if s.isEmpty then none else some s

def readMode (s : String) : Option Mode := (Mode.parse s).toOption

def helpSwitch : Setting Given := ⟨"help", some 'h', .switch fun _ => .error .help⟩

def versionSwitch : Setting Given := ⟨"version", some 'V', .switch fun _ => .error .version⟩

def verboseSwitch : Setting Given :=
  ⟨"verbose", some 'v', .switch fun g => .ok { g with verbosity := g.verbosity + 1 }⟩

def configOption : Setting Given :=
  once "config" none readPath Given.config fun config g => { g with config := some config }

def outputOption : Setting Given :=
  once "output" (some 'o') readPath Given.output fun output g => { g with output := some output }

def modeOption : Setting Given :=
  once "mode" none readMode Given.mode fun mode g => { g with mode := some mode }

def palettesOption : Setting Given :=
  once "palettes" none readPath Given.palettes
    fun palettes g => { g with palettes := some palettes }

def quickOption : Setting Given :=
  ⟨"quick", none, .option fun value g =>
    match Choice.parse value with
    | .ok c => .ok { g with choices := g.choices ++ [c] }
    | .error _ => refuse (.badValue "--quick" value)⟩

def compactSwitch : Setting Given :=
  ⟨"compact", none, .switch fun g =>
    if g.compact then refuse (.repeated "--compact") else .ok { g with compact := true }⟩

/-- Takes the one theme file. -/
def takeTheme (word : String) (g : Given) : Except Stop Given :=
  if g.theme.isSome then refuse (.unknown word)
  else if word.isEmpty then refuse (.badValue "THEME" word)
  else .ok { g with theme := some word }

def noWord (word : String) (_ : Given) : Except Stop Given := refuse (.unknown word)

/-- Settings of every command. -/
def common : List (Setting Given) := [helpSwitch, verboseSwitch, configOption]

def outer : Level Given := ⟨versionSwitch :: common, none⟩

def needTheme (g : Given) : Except Stop String :=
  match g.theme with
  | some theme => .ok theme
  | none => refuse (.missing "THEME")

/-- The commands: what arguments they take and what they make of them. -/
def commands : List (String × Level Given × (Given → Except Stop Action)) := [
  ("compile",
    ⟨common ++ [outputOption, modeOption, palettesOption, quickOption, compactSwitch],
      some takeTheme⟩,
    fun g => do
      let theme ← needTheme g
      return .compile ⟨theme, g.output, g.mode, g.palettes, g.choices, g.compact⟩),
  ("detect", ⟨common, some takeTheme⟩, fun g => do return .detect (← needTheme g)),
  ("tokens", ⟨common ++ [modeOption], some noWord⟩, fun g => .ok (.tokens g.mode)),
  ("palettes", ⟨common, some noWord⟩, fun _ => .ok .palettes)]

/-- Help on a command, or on all of them. -/
def askHelp (words : List String) : Stop :=
  match words with
  | [] => .help
  | [name] =>
    if name = "help" ∨ Entries.contains commands name then .help else .refused (.unknown name)
  | _ :: name :: _ => .refused (.unknown name)

/-- Reads all arguments. A configuration named after the command goes before one named earlier. -/
def parse (args : List String) : Except Stop Invocation := do
  let (g, rest) ← outer.read args ⟨.nothing, none⟩
  match rest with
  | [] => refuse (.missing "COMMAND")
  | name :: rest =>
    if name = "help" then throw (askHelp rest)
    match Entries.get? commands name with
    | none => refuse (.unknown name)
    | some (level, action) =>
      let (inner, _) ← level.read rest ⟨.nothing, none⟩
      return ⟨inner.config <|> g.config, g.verbosity + inner.verbosity, ← action inner⟩

end ReportTheme.Command
