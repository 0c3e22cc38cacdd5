import ReportTheme.Json.Lexeme

/-!
Marks of a TOML text: words, strings, brackets, punctuation, line ends and blanks. Comments leave no
mark. What a word means depends on where it stands, so it is kept as written.
-/
namespace ReportTheme.Toml

inductive Mark where
  | blank
  | newline
  | word (w : String)
  /-- A string that may run over several lines is `long`. -/
  | string (s : String) (long : Bool)
  | openList
  | closeList
  | openTable
  | closeTable
  | comma
  | equals
  deriving DecidableEq, Repr

namespace Mark

def isWordChar (c : Char) : Bool :=
  ('a' ≤ c && c ≤ 'z') || ('A' ≤ c && c ≤ 'Z') || Lexeme.isDigit c ||
    c = '_' || c = '-' || c = '+' || c = '.'

/-- Controls may stand neither in strings nor in comments, except for the tab. -/
def isPlain (c : Char) : Bool := c = '\t' || (32 ≤ c.toNat && c.toNat ≠ 127)

def hexDigits? (cs : List Char) : Option Nat :=
  cs.foldlM (fun n c => (Lexeme.hexValue? c).map (n * 16 + ·)) 0

/-- The character with a code of `size` hexadecimal digits, and how many characters the escape has
after its backslash. -/
def coded? (size : Nat) (cs : List Char) : Option (Char × Nat) := do
  let n ← hexDigits? (cs.take size)
  if cs.length < size ∨ ¬ n.isValidChar then none else some (Char.ofNat n, size + 1)

/-- What an escape stands for, given what follows the backslash. -/
def escape? : List Char → Option (Char × Nat)
  | 'b' :: _ => some ('\x08', 1)
  | 't' :: _ => some ('\t', 1)
  | 'n' :: _ => some ('\n', 1)
  | 'f' :: _ => some ('\x0c', 1)
  | 'r' :: _ => some ('\r', 1)
  | '"' :: _ => some ('"', 1)
  | '\\' :: _ => some ('\\', 1)
  | 'u' :: cs => coded? 4 cs
  | 'U' :: cs => coded? 8 cs
  | _ => none

/-- The length of the blanks and line ends that a text starts with. -/
def spaceLength : List Char → Nat
  | ' ' :: cs | '\t' :: cs | '\n' :: cs => spaceLength cs + 1
  | '\r' :: '\n' :: cs => spaceLength cs + 2
  | _ => 0

/-- The length of the space that a backslash at the end of a line takes with it. -/
def lineBreak? (cs : List Char) : Option Nat :=
  let rest := cs.dropWhile fun c => c = ' ' || c = '\t'
  if rest.head? = some '\n' ∨ rest.take 2 = ['\r', '\n'] then some (spaceLength cs) else none

/-- The text of a string after its opening quotes, and how many characters it covers up to the end
of its closing quotes; the first `skip` characters are covered already. -/
def stringFrom (quote : Char) (long : Bool) : Nat → List Char → Option (List Char × Nat)
  | _, [] => none
  | skip + 1, _ :: cs => (stringFrom quote long skip cs).map fun r => (r.1, r.2 + 1)
  | 0, c :: cs =>
    let keep := fun text => (stringFrom quote long 0 cs).map fun r => (text ++ r.1, r.2 + 1)
    if c = quote then
      let run := (cs.takeWhile (· = quote)).length + 1
      if !long then some ([], 1)
      else if run < 3 then keep [c]
      else if run ≤ 5 then some (List.replicate (run - 3) quote, run)
      else none
    else if c = '\\' ∧ quote = '"' then
      match if long then lineBreak? cs else none with
      | some n => (stringFrom quote long n cs).map fun r => (r.1, r.2 + 1)
      | none =>
        match escape? cs with
        | some (e, n) => (stringFrom quote long n cs).map fun r => (e :: r.1, r.2 + 1)
        | none => none
    else if c = '\n' then
      if long then keep [c] else none
    else if c = '\r' then
      if long ∧ cs.head? = some '\n' then keep [] else none
    else if isPlain c then keep [c]
    else none

/-- A string whose first quote is read already. A line end right after long quotes is dropped. -/
def readString (quote : Char) (cs : List Char) : Option (Mark × Nat) :=
  let long := cs.take 2 = [quote, quote]
  let opened := cs.drop 2
  let dropped :=
    if opened.head? = some '\n' then 1 else if opened.take 2 = ['\r', '\n'] then 2 else 0
  let (text, before) := if long then (opened.drop dropped, 2 + dropped) else (cs, 0)
  (stringFrom quote long 0 text).map fun r => (.string (String.ofList r.1) long, before + r.2)

/-- The length of a comment after its number sign. -/
def comment? (cs : List Char) : Option Nat :=
  let line := cs.takeWhile (· ≠ '\n')
  let ended := line.length < cs.length
  let body := if ended ∧ line.getLast? = some '\r' then line.dropLast else line
  if body.all isPlain then some body.length else none

/-- The mark that starts with `c`, if it leaves one, and how many characters it covers after `c`. -/
def read? (c : Char) (cs : List Char) : Option (Option Mark × Nat) :=
  if c = ' ' ∨ c = '\t' then some (some .blank, 0)
  else if c = '\n' then some (some .newline, 0)
  else if c = '\r' then if cs.head? = some '\n' then some (some .newline, 1) else none
  else if c = '#' then (comment? cs).map fun n => (none, n)
  else if c = '"' ∨ c = '\'' then (readString c cs).map fun r => (some r.1, r.2)
  else if c = '[' then some (some .openList, 0)
  else if c = ']' then some (some .closeList, 0)
  else if c = '\x7b' then some (some .openTable, 0)
  else if c = '\x7d' then some (some .closeTable, 0)
  else if c = ',' then some (some .comma, 0)
  else if c = '=' then some (some .equals, 0)
  else if isWordChar c then
    let others := cs.takeWhile isWordChar
    some (some (.word (String.ofList (c :: others))), others.length)
  else none

/-- The marks of a text of which the first `skip` characters are covered already. -/
def scanFrom : Nat → List Char → Option (List Mark)
  | _, [] => some []
  | skip + 1, _ :: cs => scanFrom skip cs
  | 0, c :: cs =>
    match read? c cs with
    | some (some m, covered) => (scanFrom covered cs).map (m :: ·)
    | some (none, covered) => scanFrom covered cs
    | none => none

/-- The marks of a text; a byte order mark before it is no part of it. -/
def scan (text : String) : Option (List Mark) :=
  match text.toList with
  | '\ufeff' :: cs => scanFrom 0 cs
  | cs => scanFrom 0 cs

end Mark

end ReportTheme.Toml
