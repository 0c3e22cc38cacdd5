/-!
Reading command line options of one level. Settings are declared with what they do to the state read
so far; a level either takes plain words itself or ends at the first one.
-/
namespace ReportTheme.Command

inductive ArgumentError where
  | unknown (given : String)
  | missingValue (option : String)
  | unneededValue (option : String)
  | repeated (option : String)
  | badValue (option value : String)
  | missing (what : String)
  deriving DecidableEq, Repr

def ArgumentError.message : ArgumentError → String
  | .unknown given => s!"unexpected argument '{given}'"
  | .missingValue option => s!"{option} needs a value"
  | .unneededValue option => s!"{option} takes no value"
  | .repeated option => s!"{option} is given twice"
  | .badValue option value => s!"'{value}' is no value for {option}"
  | .missing what => s!"{what} is missing"

/-- Why reading arguments ends early: one of them asks for a fixed text, or one is refused. -/
inductive Stop where
  | help
  | version
  | refused (e : ArgumentError)
  deriving DecidableEq, Repr

/-- What a setting does; only an option takes a value. -/
inductive Effect (σ : Type) where
  | switch (apply : σ → Except Stop σ)
  | option (apply : String → σ → Except Stop σ)

structure Setting (σ : Type) where
  long : String
  short : Option Char
  effect : Effect σ

namespace Setting

variable {σ : Type}

def display (s : Setting σ) : String := "--" ++ s.long

end Setting

structure Level (σ : Type) where
  settings : List (Setting σ)
  /-- Takes a plain word, unless words end the level. -/
  word : Option (String → σ → Except Stop σ)

/-- The state after some arguments, and the option whose value comes next. -/
structure Progress (σ : Type) where
  state : σ
  pending : Option (String × (String → σ → Except Stop σ))

namespace Level

variable {σ : Type}

/-- No further setting may come where a value is due. -/
def settled (p : Progress σ) : Except Stop σ :=
  match p.pending with
  | none => .ok p.state
  | some (option, _) => .error (.refused (.missingValue option))

/-- Reads a long setting without its dashes, its value perhaps after an equals sign. -/
def readLong (level : Level σ) (text : String) (p : Progress σ) : Except Stop (Progress σ) := do
  let name := text.toList.takeWhile (· ≠ '=')
  let value := (text.toList.drop name.length).tail?.map String.ofList
  let state ← settled p
  match level.settings.find? fun s => s.long.toList = name, value with
  | none, _ => throw (.refused (.unknown ("--" ++ text)))
  | some s, value =>
    match s.effect, value with
    | .switch apply, none => return ⟨← apply state, none⟩
    | .switch _, some _ => throw (.refused (.unneededValue s.display))
    | .option apply, some v => return ⟨← apply v state, none⟩
    | .option apply, none => return ⟨state, some (s.display, apply)⟩

/-- Reads a cluster of short settings, the last of which may have the rest as its value. -/
def readShort (level : Level σ) : List Char → Progress σ → Except Stop (Progress σ)
  | [], p => .ok p
  | c :: cs, p => do
    let state ← settled p
    match level.settings.find? fun s => s.short = some c with
    | none => throw (.refused (.unknown (String.ofList ['-', c])))
    | some s =>
      match s.effect, cs with
      | .switch apply, cs => readShort level cs ⟨← apply state, none⟩
      | .option apply, [] => return ⟨state, some (s.display, apply)⟩
      | .option apply, '=' :: value => return ⟨← apply (String.ofList value) state, none⟩
      | .option apply, value => return ⟨← apply (String.ofList value) state, none⟩

/-- Reads arguments after `--`, none of which is a setting. -/
def readWords (level : Level σ) : List String → σ → Except Stop σ
  | [], state => .ok state
  | a :: as, state =>
    match level.word with
    | some apply => do readWords level as (← apply a state)
    | none => .error (.refused (.unknown a))

/-- Reads the arguments of a level; also those left over from the word on that ends it. -/
def read (level : Level σ) : List String → Progress σ → Except Stop (σ × List String)
  | [], p => do return (← settled p, [])
  | a :: as, p =>
    match a.toList with
    | ['-', '-'] => do return (← readWords level as (← settled p), [])
    | '-' :: '-' :: text => do read level as (← readLong level (String.ofList text) p)
    | '-' :: c :: cs => do read level as (← readShort level (c :: cs) p)
    | _ =>
      match p.pending, level.word with
      | some (_, apply), _ => do read level as ⟨← apply a p.state, none⟩
      | none, some apply => do read level as ⟨← apply a p.state, none⟩
      | none, none => .ok (p.state, a :: as)

end Level

end ReportTheme.Command
