import ReportTheme.Proofs.Json.RecordField
import ReportTheme.Proofs.Preset.Sequence
import ReportTheme.Proofs.Session.Freshness
import ReportTheme.Proofs.Theme.File

/-!
The mode in which a theme file is compiled. The command line goes before the file, the file before
the configuration, and light is left over. But a declared mode is looked for under its key: where a
theme is written as the list of its fields, the configuration goes before the file.
-/
namespace ReportTheme

/-- There are two modes, so one is told by whether it is a given one. -/
theorem Mode.eq_of_eq_iff {m n due : Mode} (h : m = due ↔ n = due) : m = n := by
  cases m <;> cases n <;> cases due <;> simp_all

namespace Theme

/-- The mode that a theme record declares, in whichever form it is written. -/
def declaredMode? (j : Json) : Option Mode :=
  (shape.given? "mode" j).bind fun x => (Mode.decode (.ofJson x)).toOption

theorem takes_mode {j : Json} {t : Theme} (h : ofJson? j = some t) :
    Mode.decode.Takes (shape.given? "mode" j) .light t.mode := by
  refine RecordShape.takes_of_decode (f := Theme.mode) (by decide) (by decide) rfl
    (fun _ _ => rfl) ?_ (ofJson?_eq_some_iff.mp h)
  simp only [shape, List.forall_mem_cons]
  refine ⟨?id, ?name, ?mode, ?colorPaletteId, ?neutralPaletteId, ?fontFamily, ?styles,
    ?structuralColors, ?textClasses, ?selection, by simp⟩
  case mode => exact fun hname => absurd rfl hname
  all_goals exact fun _ => Field.leaves_mkOptional fun _ _ => rfl

/-- A theme has the mode that stands in its record, which has to be one. -/
theorem declaredMode?_eq {j : Json} {t : Theme} (h : ofJson? j = some t) :
    declaredMode? j = (shape.given? "mode" j).map fun _ => t.mode := by
  have htakes := takes_mode h
  rw [declaredMode?]
  cases hgiven : shape.given? "mode" j with
  | none => rfl
  | some x =>
    rw [hgiven] at htakes
    have hmode : Mode.decode (.ofJson x) = .ok t.mode := htakes
    rw [Option.bind_some, hmode]
    rfl

theorem mode_eq {j : Json} {t : Theme} (h : ofJson? j = some t) :
    t.mode = (declaredMode? j).getD .light := by
  have htakes := takes_mode h
  rw [declaredMode?_eq h]
  cases hgiven : shape.given? "mode" j with
  | none =>
    rw [hgiven] at htakes
    exact htakes
  | some x => rfl

/-- The document of a theme in a mode, with some choices applied. -/
def documentIn (t : Theme) (mode : Mode) (choices : List Choice) (store : PaletteStore) :
    Document :=
  (Source.ofTheme { t with mode, styles := t.styles.applyChoices choices }
    (store.resolve t.colorPaletteId t.neutralPaletteId)).compile

end Theme

namespace Editor

theorem source_applyChoices (e : Editor) (choices : List Choice) (store : PaletteStore) :
    (choices.foldl applyChoice e).source store =
      { e.source store with styles := e.theme.styles.applyChoices choices } := by
  induction choices generalizing e with
  | nil => rfl
  | cons c choices ih =>
    have hsource : (e.applyChoice c).source store =
        { e.source store with styles := (e.theme.styles.applyChoice c).1 } := by
      rw [source, palettes, theme_applyChoice]
      rfl
    rw [List.foldl_cons, ih, hsource, theme_applyChoice]
    rfl

theorem memo_applyChoices (e : Editor) (choices : List Choice) :
    (choices.foldl applyChoice e).memo = e.memo := by
  induction choices generalizing e with
  | nil => rfl
  | cons c choices ih => exact (ih (e.applyChoice c)).trans (memo_applyChoice e c)

end Editor

namespace Command

/-- What a theme file is compiled in: the mode to set on it, or its own. -/
def usedMode (o : CompileOptions) (config : Config) (file : ThemeFile) : Mode :=
  (modeFor o config file).getD file.theme.mode

theorem compile_eq (o : CompileOptions) (config : Config) (file : ThemeFile)
    (extra : PaletteRecords) : compile o config file extra =
      file.theme.documentIn (usedMode o config file) o.choices (extra.addTo config.store) := by
  obtain ⟨e, he, hmemo, htheme⟩ : ∃ e : Editor,
      prepare o config file = o.choices.foldl Editor.applyChoice e ∧ e.memo = .empty ∧
        e.theme = { file.theme.reconciled with mode := usedMode o config file } := by
    rw [prepare, usedMode]
    cases modeFor o config file <;> exact ⟨_, rfl, rfl, rfl⟩
  -- the first document after an empty memo is compiled
  have hdocument : compile o config file extra =
      ((o.choices.foldl Editor.applyChoice e).source (extra.addTo config.store)).compile := by
    rw [compile, he, Editor.document, Editor.memo_applyChoices, hmemo]
    rfl
  rw [hdocument, Editor.source_applyChoices, Editor.source, Editor.palettes, htheme]
  rfl

/-- What a run of `compile` reads. -/
structure Inputs where
  config : Config
  record : Json
  theme : Theme
  extra : PaletteRecords

namespace Inputs

/-- What is found where a command line says that it is. -/
structure Read (i : Inputs) (look : Look) (given : Option String) (o : CompileOptions) : Prop where
  config : loadConfig look given = .ok i.config
  record : ∃ text, readText look o.theme = .ok text ∧ Json.ofText text = .ok i.record
  theme : Theme.ofJson? i.record = some i.theme
  extra : loadPalettes look o.palettes = .ok i.extra

/-- What is written of the theme compiled in a mode. -/
def output (i : Inputs) (o : CompileOptions) (mode : Mode) : Output :=
  let d := i.theme.documentIn mode o.choices (i.extra.addTo i.config.store)
  ⟨d.text (i.config.pretty && !o.compact) ++ "\n", o.output, d.diagnostics⟩

def themeFile (i : Inputs) : ThemeFile := ⟨i.theme, (i.record.get? "mode").isSome⟩

end Inputs

theorem loadTheme_eq_ok_iff {look : Look} {path : String} {file : ThemeFile} :
    loadTheme look path = .ok file ↔ ∃ text j, readText look path = .ok text ∧
      Json.ofText text = .ok j ∧ Theme.ofJson? j = some file.theme ∧
      (j.get? "mode").isSome = file.hasMode := by
  simp only [loadTheme, bind_eq_ok_iff, ThemeFile.ofText_eq_ok_iff, exists_and_left]

theorem loadConfig_of_file {look : Look} {text : String} {config : Config}
    (hfile : look configName = .file text) (hconfig : Config.ofText? text = some config) :
    loadConfig look none = .ok config := by
  have hpath : configPath look none = .ok (some configName) := by
    rw [configPath, hfile]
    rfl
  have htext : readText look configName = .ok text := by rw [readText, hfile]
  rw [loadConfig, bind_eq_ok_iff]
  refine ⟨some configName, hpath, bind_eq_ok_iff.mpr ⟨text, htext, ?_⟩⟩
  rw [hconfig]
  rfl

/-- A run of `compile` succeeds if everything can be read, and writes the document in the mode that
is used. -/
theorem run_compile_eq_ok_iff {look : Look} {given : Option String} {verbosity : Nat}
    {o : CompileOptions} {output : Output} :
    run look ⟨given, verbosity, .compile o⟩ = .ok output ↔
      ∃ i : Inputs, i.Read look given o ∧
        output = i.output o (usedMode o i.config i.themeFile) := by
  rw [run, bind_eq_ok_iff]
  simp only [runCompile, bind_eq_ok_iff, loadTheme_eq_ok_iff, compile_eq]
  constructor
  · rintro ⟨config, hconfig, file, ⟨text, j, htext, hj, htheme, hmode⟩, extra, hextra, houtput⟩
    refine ⟨⟨config, j, file.theme, extra⟩, ⟨hconfig, ⟨text, htext, hj⟩, htheme, hextra⟩, ?_⟩
    have hfile : Inputs.themeFile ⟨config, j, file.theme, extra⟩ = file :=
      congrArg (ThemeFile.mk file.theme) hmode
    rw [hfile]
    exact (Except.ok.inj houtput).symm
  · rintro ⟨i, ⟨hconfig, ⟨text, htext, hj⟩, htheme, hextra⟩, rfl⟩
    exact ⟨i.config, hconfig, i.themeFile, ⟨text, i.record, htext, hj, htheme, rfl⟩, i.extra,
      hextra, rfl⟩

/-- The mode that is due: the one asked for, else the one that the theme file declares, else the
configured one, else light. -/
def dueMode (asked configured : Option Mode) (record : Json) : Mode :=
  (asked <|> Theme.declaredMode? record <|> configured).getD .light

/-- The configuration has another mode than the one that a theme written as a list declares, and
none is asked for. -/
structure Overruled (asked configured : Option Mode) (record : Json) : Prop where
  unasked : asked = none
  listed : ∃ js, record = .list js
  other : ∃ declared mode, Theme.declaredMode? record = some declared ∧ configured = some mode ∧
    mode ≠ declared

/-- Of two choices and a default, it matters which choice goes first if both are made and differ. -/
theorem getD_getD_eq_iff {α : Type} (declared configured : Option α) (default : α) :
    configured.getD (declared.getD default) = (declared <|> configured).getD default ↔
      ¬∃ d c, declared = some d ∧ configured = some c ∧ c ≠ d := by
  cases declared <;> cases configured <;> simp

theorem hasMode_of_listed {i : Inputs} {js : List Json} (h : i.record = .list js) :
    i.themeFile.hasMode = false := by
  rw [Inputs.themeFile, h]
  rfl

theorem hasMode_of_not_listed {i : Inputs} (h : Theme.ofJson? i.record = some i.theme)
    (hlist : ∀ js, i.record ≠ .list js) :
    i.themeFile.hasMode = (Theme.declaredMode? i.record).isSome := by
  rw [Inputs.themeFile, Theme.declaredMode?_eq h, Option.isSome_map]
  cases hrecord : i.record with
  | list js => exact absurd hrecord (hlist js)
  | _ => rfl

theorem usedMode_of_asked {o : CompileOptions} {mode : Mode} (h : o.mode = some mode)
    (config : Config) (file : ThemeFile) : usedMode o config file = mode := by
  rw [usedMode, modeFor, h]
  rfl

theorem usedMode_of_not_asked {o : CompileOptions} (h : o.mode = none) (config : Config)
    (file : ThemeFile) : usedMode o config file =
      if file.hasMode then file.theme.mode else config.mode.getD file.theme.mode := by
  rw [usedMode, modeFor, h]
  cases file.hasMode <;> rfl

theorem usedMode_eq_dueMode_iff {i : Inputs} (h : Theme.ofJson? i.record = some i.theme)
    (o : CompileOptions) : usedMode o i.config i.themeFile = dueMode o.mode i.config.mode i.record ↔
      ¬Overruled o.mode i.config.mode i.record := by
  have hmode : i.themeFile.theme.mode = (Theme.declaredMode? i.record).getD .light :=
    Theme.mode_eq h
  cases hasked : o.mode with
  | some mode =>
    refine iff_of_true ?_ fun ho => Option.some_ne_none mode ho.unasked
    rw [usedMode_of_asked hasked]
    rfl
  | none =>
    have hdue : dueMode none i.config.mode i.record =
        (Theme.declaredMode? i.record <|> i.config.mode).getD .light := rfl
    rw [usedMode_of_not_asked hasked, hmode, hdue]
    by_cases hlist : ∃ js, i.record = .list js
    · obtain ⟨js, hjs⟩ := hlist
      rw [hasMode_of_listed hjs, if_neg Bool.false_ne_true, getD_getD_eq_iff]
      exact not_congr ⟨fun hother => ⟨rfl, ⟨js, hjs⟩, hother⟩, Overruled.other⟩
    · refine iff_of_true ?_ fun ho => hlist ho.listed
      rw [hasMode_of_not_listed h (not_exists.mp hlist)]
      cases Theme.declaredMode? i.record with
      | none => cases i.config.mode <;> rfl
      | some declared => rfl

/-- Of all forms of a theme record, all configurations and all command lines: a theme file that can
be compiled is compiled in the mode that is due, unless the configuration overrules a list. -/
theorem compiled_in_due_mode (look : Look) (given : Option String) (verbosity : Nat)
    (o : CompileOptions) (output : Output) :
    run look ⟨given, verbosity, .compile o⟩ = .ok output ↔
      ∃ i : Inputs, i.Read look given o ∧ ∃ mode,
        (mode = dueMode o.mode i.config.mode i.record ↔
          ¬Overruled o.mode i.config.mode i.record) ∧ output = i.output o mode := by
  rw [run_compile_eq_ok_iff]
  refine exists_congr fun i => and_congr_right fun hread => ?_
  have hused := usedMode_eq_dueMode_iff hread.theme o
  constructor
  · rintro rfl
    exact ⟨_, hused, rfl⟩
  · rintro ⟨mode, hmode, rfl⟩
    rw [Mode.eq_of_eq_iff (hmode.trans hused.symm)]

/-- A theme that declares dark mode, written as the list of its fields. -/
def darkList : String :=
  "[\"\",\"\",\"dark\",\"\",\"\",\"\",\x7b\"*\":\x7b\"*\":\x7b\"x\":\"@background\"\x7d\x7d\x7d]"

def lightDefault : String := "[\"defaults\"]\n\"mode\" = \"light\""

/-- The theme, with a configuration beside it. -/
def besideDefault : Look
  | "theme.json" => .file darkList
  | "hueforge.toml" => .file lightDefault
  | _ => .absent

def overruledOptions : CompileOptions := ⟨"theme.json", none, none, none, [], false⟩

def overruledInputs : Inputs where
  config := { Config.default with mode := some .light }
  record := .list [.string "", .string "", .string "dark", .string "", .string "", .string "",
    .object [("*", .object [("*", .object [("x", .string "@background")])])]]
  theme := { Theme.blank with
    mode := .dark
    styles := ⟨[("*", [("*", [("x", .color (.ofToken .background))])])]⟩ }
  extra := ⟨[], []⟩

theorem overruled_read : overruledInputs.Read besideDefault none overruledOptions where
  config := by
    have hconfig : Config.ofText? lightDefault = some overruledInputs.config := by decide +kernel
    exact loadConfig_of_file rfl hconfig
  record := by
    refine ⟨darkList, rfl, ?_⟩
    have htext : darkList.toList = ['[', '"', '"', ',', '"', '"', ',', '"', 'd', 'a', 'r', 'k', '"',
        ',', '"', '"', ',', '"', '"', ',', '"', '"', ',', '\x7b', '"', '*', '"', ':', '\x7b', '"',
        '*', '"', ':', '\x7b', '"', 'x', '"', ':', '"', '@', 'b', 'a', 'c', 'k', 'g', 'r', 'o', 'u',
        'n', 'd', '"', '\x7d', '\x7d', '\x7d', ']'] := rfl
    rw [Json.ofText, Scanned.ofText, htext]
    rfl
  theme := rfl
  extra := rfl

/-- The theme comes out light, which is not what it says. -/
theorem declared_dark_compiled_light :
    parse ["compile", "theme.json"] = .ok ⟨none, 0, .compile overruledOptions⟩ ∧
    overruledInputs.Read besideDefault none overruledOptions ∧
    dueMode overruledOptions.mode overruledInputs.config.mode overruledInputs.record = .dark ∧
    run besideDefault ⟨none, 0, .compile overruledOptions⟩ =
      .ok (overruledInputs.output overruledOptions .light) ∧
    (overruledInputs.output overruledOptions .light).text ≠
      (overruledInputs.output overruledOptions .dark).text :=
  have hused : usedMode overruledOptions overruledInputs.config overruledInputs.themeFile =
      .light := rfl
  ⟨rfl, overruled_read, rfl,
    run_compile_eq_ok_iff.mpr ⟨overruledInputs, overruled_read, by rw [hused]⟩, by decide +kernel⟩

end Command

end ReportTheme
