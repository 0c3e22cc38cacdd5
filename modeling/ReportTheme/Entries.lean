/-!
Named entries in insertion order. A key keeps the place where it first came and takes the value
given to it last; `get?_insert`, `get?_erase` and `keys_insert` say so.
-/
namespace ReportTheme

abbrev Entries (α : Type) := List (String × α)

namespace Entries

variable {α : Type}

def get? : Entries α → String → Option α
  | [], _ => none
  | (k, v) :: es, key => if k = key then some v else get? es key

def contains (es : Entries α) (key : String) : Bool := (get? es key).isSome

def keys (es : Entries α) : List String := es.map Prod.fst

/-- Gives `key` the value `f` makes of its old one, in place or at the end. -/
def upsert : Entries α → String → (Option α → α) → Entries α
  | [], key, f => [(key, f none)]
  | (k, v) :: es, key, f =>
    if k = key then (k, f (some v)) :: es else (k, v) :: upsert es key f

def insert (es : Entries α) (key : String) (value : α) : Entries α :=
  upsert es key fun _ => value

def erase (es : Entries α) (key : String) : Entries α := es.filter fun e => e.1 ≠ key

def ofList (items : List (String × α)) : Entries α :=
  items.foldl (fun es e => insert es e.1 e.2) []

/-- Every key occurs once. -/
def Distinct (es : Entries α) : Prop := (keys es).Nodup

instance (es : Entries α) : Decidable (Distinct es) := inferInstanceAs (Decidable (List.Nodup _))

/-- The same keys with the same values, in any order. -/
def equalBy (eq : α → α → Bool) (a b : Entries α) : Bool :=
  a.length == b.length && a.all fun e => (get? b e.1).any (eq e.2)

/-- The same keys with the same values, in the same order. -/
def identicalBy (eq : α → α → Bool) : Entries α → Entries α → Bool
  | [], [] => true
  | (k, v) :: a, (l, w) :: b => k == l && eq v w && identicalBy eq a b
  | _, _ => false

theorem get?_upsert (es : Entries α) (key other : String) (f : Option α → α) :
    get? (upsert es key f) other =
      if key = other then some (f (get? es key)) else get? es other := by
  induction es with
  | nil => simp [upsert, get?]
  | cons e es ih =>
    obtain ⟨k, v⟩ := e
    by_cases hk : k = key
    · subst hk
      by_cases ho : k = other <;> simp [upsert, get?, ho]
    · by_cases ho : k = other
      · subst ho
        simp [upsert, get?, hk, Ne.symm hk]
      · simp [upsert, get?, hk, ho, ih]

theorem get?_insert (es : Entries α) (key other : String) (value : α) :
    get? (insert es key value) other = if key = other then some value else get? es other :=
  get?_upsert es key other _

theorem get?_erase (es : Entries α) (key other : String) :
    get? (erase es key) other = if key = other then none else get? es other := by
  induction es with
  | nil => simp [erase, get?]
  | cons e es ih =>
    obtain ⟨k, v⟩ := e
    by_cases hk : k = key <;> by_cases ho : k = other <;> by_cases hx : key = other <;>
      simp_all [erase, get?]

theorem mem_keys_iff (es : Entries α) (key : String) : key ∈ keys es ↔ contains es key = true := by
  induction es with
  | nil => simp [keys, contains, get?]
  | cons e es ih =>
    obtain ⟨k, v⟩ := e
    by_cases hk : k = key
    · simp [keys, contains, get?, hk]
    · simpa [keys, contains, get?, hk, Ne.symm hk] using ih

theorem keys_upsert (es : Entries α) (key : String) (f : Option α → α) :
    keys (upsert es key f) = if key ∈ keys es then keys es else keys es ++ [key] := by
  induction es with
  | nil => simp [upsert, keys]
  | cons e es ih =>
    obtain ⟨k, v⟩ := e
    by_cases hk : k = key
    · simp [upsert, keys, hk]
    · simp only [keys] at ih
      by_cases hm : key ∈ es.map Prod.fst <;> simp [upsert, keys, hk, Ne.symm hk, ih, hm]

theorem keys_insert (es : Entries α) (key : String) (value : α) :
    keys (insert es key value) = if key ∈ keys es then keys es else keys es ++ [key] :=
  keys_upsert es key _

theorem distinct_upsert {es : Entries α} (h : Distinct es) (key : String) (f : Option α → α) :
    Distinct (upsert es key f) := by
  unfold Distinct at *
  rw [keys_upsert]
  split
  · exact h
  · rename_i hm
    exact List.nodup_append.2 ⟨h, by simp, fun a ha b hb e => hm (List.mem_singleton.1 hb ▸ e ▸ ha)⟩

theorem distinct_erase {es : Entries α} (h : Distinct es) (key : String) :
    Distinct (erase es key) :=
  List.Nodup.sublist (List.Sublist.map Prod.fst List.filter_sublist) h

theorem distinct_ofList (items : List (String × α)) : Distinct (ofList items) := by
  suffices H : ∀ (items : List (String × α)) (es : Entries α), Distinct es →
      Distinct (items.foldl (fun es e => insert es e.1 e.2) es) from
    H items [] List.nodup_nil
  intro items
  induction items with
  | nil => exact fun _ h => h
  | cons e items ih => exact fun es h => ih _ (distinct_upsert h e.1 _)

end Entries

end ReportTheme
