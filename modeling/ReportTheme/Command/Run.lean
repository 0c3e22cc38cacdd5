import ReportTheme.Command.Arguments
import ReportTheme.Config
import ReportTheme.Editor

/-!
What the commands do, as functions of the arguments and of the files they look at. A run yields the
text to print or to save, or the first thing that failed.
-/
namespace ReportTheme.Command

/-- What is found at a path. -/
inductive Found where
  | absent
  | folder
  | file (text : String)
  /-- Something that is there but is no text. -/
  | unreadable
  deriving DecidableEq, Repr

abbrev Look := String → Found

inductive Failure where
  | noConfig (path : String)
  | unreadable (path : String)
  | malformed (path : String)
  | notTheme (path : String)
  | malformedPalettes (path : String)
  | unwritable (path : String)
  deriving DecidableEq, Repr

def Failure.message : Failure → String
  | .noConfig path => s!"No config file found at {path}"
  | .unreadable path => s!"Failed to read {path}"
  | .malformed path => s!"Failed to parse {path}"
  | .notTheme path => s!"{path} is not a valid theme"
  | .malformedPalettes path => s!"Failed to parse palettes in {path}"
  | .unwritable path => s!"Failed to write {path}"

def readText (look : Look) (path : String) : Except Failure String :=
  match look path with
  | .file text => .ok text
  | _ => .error (.unreadable path)

/-- The file that is looked for where no configuration is named. -/
def configName : String := "hueforge.toml"

/-- A file inside a folder. -/
def inside (folder name : String) : String :=
  if folder.toList.getLast? = some '/' then folder ++ name else folder ++ "/" ++ name

/-- A configuration that is named must be there, itself or in the folder that is named. -/
def configPath (look : Look) (given : Option String) : Except Failure (Option String) :=
  match given with
  | some path =>
    let path := if look path = .folder then inside path configName else path
    if look path = .absent then .error (.noConfig path) else .ok (some path)
  | none => .ok (if look configName = .absent then none else some configName)

/-- The configuration to run with. What `Config.ofText?` refuses counts as malformed, and with it
texts that hold a date, a time or a mode in the form of a table. -/
def loadConfig (look : Look) (given : Option String) : Except Failure Config := do
  match ← configPath look given with
  | none => return .default
  | some path =>
    match Config.ofText? (← readText look path) with
    | some config => return config
    | none => throw (.malformed path)

/-- A theme with whether its file has an entry for the mode. -/
structure ThemeFile where
  theme : Theme
  hasMode : Bool
  deriving Repr

/-- Reads a theme by way of a JSON value, in which the last of equal keys counts. -/
def ThemeFile.ofText (path text : String) : Except Failure ThemeFile :=
  match Json.ofText text with
  | .error _ => .error (.malformed path)
  | .ok j =>
    match Theme.ofJson? j with
    | none => .error (.notTheme path)
    | some theme => .ok ⟨theme, (j.get? "mode").isSome⟩

def loadTheme (look : Look) (path : String) : Except Failure ThemeFile := do
  ThemeFile.ofText path (← readText look path)

def loadPalettes (look : Look) (path : Option String) : Except Failure PaletteRecords := do
  match path with
  | none => return ⟨[], []⟩
  | some path =>
    match PaletteRecords.decode.ofText (← readText look path) with
    | .ok records => return records
    | .error _ => throw (.malformedPalettes path)

/-- Text to print, or to save where a file is named, and notes for those who ask for them. -/
structure Output where
  text : String
  file : Option String
  notes : List Diagnostic
  deriving DecidableEq, Repr

def printed (text : String) : Output := ⟨text, none, []⟩

/-- The mode to set on a theme: the one asked for, or the configured one for a theme without. -/
def modeFor (o : CompileOptions) (config : Config) (file : ThemeFile) : Option Mode :=
  o.mode <|> if file.hasMode then none else config.mode

/-- The theme as it is compiled. -/
def prepare (o : CompileOptions) (config : Config) (file : ThemeFile) : Editor :=
  let editor := Editor.new file.theme
  let editor := ((modeFor o config file).map editor.setMode).getD editor
  o.choices.foldl Editor.applyChoice editor

def compile (o : CompileOptions) (config : Config) (file : ThemeFile) (extra : PaletteRecords) :
    Document :=
  ((prepare o config file).document (extra.addTo config.store)).1

def runCompile (look : Look) (config : Config) (o : CompileOptions) : Except Failure Output := do
  let file ← loadTheme look o.theme
  let extra ← loadPalettes look o.palettes
  let d := compile o config file extra
  return ⟨d.text (config.pretty && !o.compact) ++ "\n", o.output, d.diagnostics⟩

def runDetect (look : Look) (path : String) : Except Failure Output := do
  let file ← loadTheme look path
  return printed (file.theme.styles.detect.toJson.pretty ++ "\n")

/-- Text filled up with blanks to a width, on the right or on the left. -/
def padRight (width : Nat) (s : String) : String :=
  s ++ String.ofList (List.replicate (width - s.length) ' ')

def padLeft (width : Nat) (s : String) : String :=
  String.ofList (List.replicate (width - s.length) ' ') ++ s

def tokenLine (token category slot color : String) : String :=
  s!"{padRight 24 token} {padRight 12 category} {padRight 10 slot} {color}\n"

/-- The token table for the default palettes. -/
def tokenTable (mode : Mode) : String :=
  let swatches : Swatches :=
    ⟨NeutralPreset.gray.palette.colors, ColorPreset.default.palette.colors⟩
  tokenLine "TOKEN" "CATEGORY" "SLOT" s!"VALUE ({mode.name})" ++
    String.join (Token.all.map fun t =>
      tokenLine t.name t.category.name (t.slot mode).text (Token.resolve t.name mode swatches))

def paletteLine (unit : String) (p : Palette) : String :=
  let origin := if p.isBuiltIn then "" else "  (custom)"
  let size := padLeft 2 (Nat.repr p.colors.length)
  s!"  {padRight 16 p.id} {padRight 16 p.name} {size} {unit}{origin}\n"

def paletteTable (store : PaletteStore) : String :=
  "Color palettes:\n" ++ String.join (store.colors.map (paletteLine "colors")) ++
    "Neutral palettes:\n" ++ String.join (store.neutrals.map (paletteLine "shades"))

def run (look : Look) (i : Invocation) : Except Failure Output := do
  let config ← loadConfig look i.config
  match i.action with
  | .compile o => runCompile look config o
  | .detect theme => runDetect look theme
  | .tokens mode => return printed (tokenTable ((mode <|> config.mode).getD .light))
  | .palettes => return printed (paletteTable config.store)

/-- Every path that a run may look at. -/
def Invocation.paths (i : Invocation) : List String :=
  let config := match i.config with
    | some path => [path, inside path configName]
    | none => [configName]
  match i.action with
  | .compile o => config ++ [o.theme] ++ o.palettes.toList
  | .detect theme => config ++ [theme]
  | _ => config

end ReportTheme.Command
