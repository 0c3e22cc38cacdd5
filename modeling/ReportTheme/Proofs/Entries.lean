import ReportTheme.Entries

/-!
Further laws of named entries: when a change leaves them as they are, which entries it can add, maps
that hold every key once, and changes of all values at a time.
-/
namespace ReportTheme.Entries

variable {α : Type}

theorem mem_of_get? {es : Entries α} {key : String} {v : α} (h : get? es key = some v) :
    (key, v) ∈ es := by
  induction es with
  | nil => simp [get?] at h
  | cons e es ih =>
    obtain ⟨k, w⟩ := e
    by_cases hk : k = key
    · simp only [get?, hk, if_true, Option.some.injEq] at h
      simp [hk, h]
    · simp only [get?, hk, if_false] at h
      exact List.mem_cons_of_mem _ (ih h)

theorem get?_of_mem {es : Entries α} (hd : Distinct es) {e : String × α} (h : e ∈ es) :
    get? es e.1 = some e.2 := by
  induction es with
  | nil => simp at h
  | cons d es ih =>
    obtain ⟨k, w⟩ := d
    obtain ⟨hk, hd⟩ := List.nodup_cons.mp hd
    rcases List.mem_cons.mp h with rfl | he
    · simp [get?]
    · have hne : k ≠ e.1 := by
        rintro rfl
        have hm : e.1 ∈ es.map Prod.fst := List.mem_map_of_mem he
        exact hk hm
      simpa [get?, hne] using ih hd he

/-- Two keys that are found in a map of two entries are all that it holds. -/
theorem eq_pair_of_get? {es : Entries α} (hlen : es.length = 2) {k l : String} (hkl : k ≠ l)
    {v w : α} (hv : get? es k = some v) (hw : get? es l = some w) :
    es = [(k, v), (l, w)] ∨ es = [(l, w), (k, v)] := by
  obtain ⟨a, x, b, y, rfl⟩ : ∃ a x b y, es = [(a, x), (b, y)] := by
    match es, hlen with
    | [(a, x), (b, y)], _ => exact ⟨a, x, b, y, rfl⟩
  by_cases ha : a = k
  · subst ha
    have hx : x = v := by simpa [get?] using hv
    have hb : b = l ∧ y = w := by simpa [get?, hkl] using hw
    left
    rw [hx, hb.1, hb.2]
  · have hb : b = k ∧ y = v := by simpa [get?, ha] using hv
    have hx : a = l ∧ x = w := by
      by_cases hal : a = l
      · simpa [get?, hal] using hw
      · simp [get?, hal, hb.1, hkl] at hw
    right
    rw [hx.1, hx.2, hb.1, hb.2]

theorem get?_eq_none_iff {es : Entries α} {key : String} : get? es key = none ↔ key ∉ keys es := by
  rw [mem_keys_iff, contains, Bool.not_eq_true, Option.isSome_eq_false_iff,
    Option.isNone_iff_eq_none]

/-- A key that is found stands somewhere, and not before. -/
theorem split_of_get? {es : Entries α} {key : String} {v : α} (h : get? es key = some v) :
    ∃ before after, es = before ++ (key, v) :: after ∧ key ∉ keys before := by
  induction es with
  | nil => simp [get?] at h
  | cons e es ih =>
    obtain ⟨k, w⟩ := e
    by_cases hk : k = key
    · simp only [get?, hk, if_true, Option.some.injEq] at h
      exact ⟨[], es, by rw [hk, h, List.nil_append], List.not_mem_nil⟩
    · simp only [get?, hk, if_false] at h
      obtain ⟨before, after, rfl, hbefore⟩ := ih h
      refine ⟨(k, w) :: before, after, rfl, ?_⟩
      exact fun hm => (List.mem_cons.mp hm).elim (fun he => hk he.symm) hbefore

theorem get?_append (es rest : Entries α) (key : String) :
    get? (es ++ rest) key = (get? es key).or (get? rest key) := by
  induction es with
  | nil => rfl
  | cons e es ih =>
    obtain ⟨k, v⟩ := e
    rw [List.cons_append, get?, get?, ih]
    split <;> rfl

theorem get?_append_of_not_mem {es : Entries α} {key : String} (h : key ∉ keys es)
    (rest : Entries α) : get? (es ++ rest) key = get? rest key := by
  rw [get?_append, get?_eq_none_iff.mpr h, Option.none_or]

theorem get?_filter {es : Entries α} (hd : Distinct es) (p : String × α → Bool) (key : String) :
    get? (es.filter p) key = (get? es key).filter fun v => p (key, v) := by
  induction es with
  | nil => rfl
  | cons e es ih =>
    obtain ⟨k, v⟩ := e
    obtain ⟨hk, hd⟩ := List.nodup_cons.mp hd
    by_cases hkey : k = key
    · subst hkey
      have hnone : get? es k = none := get?_eq_none_iff.mpr hk
      cases hp : p (k, v)
      · simp [hp, get?, ih hd, hnone, Option.filter]
      · simp [hp, get?, Option.filter]
    · cases hp : p (k, v) <;> simp [hp, get?, hkey, ih hd]

/-- A change of a key that is not there adds it at the end. -/
theorem upsert_of_not_mem {es : Entries α} {key : String} (h : key ∉ keys es)
    (f : Option α → α) : upsert es key f = es ++ [(key, f none)] := by
  induction es with
  | nil => rfl
  | cons e es ih =>
    obtain ⟨k, v⟩ := e
    simp only [keys, List.map_cons, List.mem_cons, not_or] at h
    rw [upsert, if_neg (Ne.symm h.1), ih h.2, List.cons_append]

theorem upsert_append_of_not_mem {es : Entries α} {key : String} (h : key ∉ keys es)
    (rest : Entries α) (f : Option α → α) :
    upsert (es ++ rest) key f = es ++ upsert rest key f := by
  induction es with
  | nil => rfl
  | cons e es ih =>
    obtain ⟨k, v⟩ := e
    simp only [keys, List.map_cons, List.mem_cons, not_or] at h
    rw [List.cons_append, upsert, if_neg (Ne.symm h.1), ih h.2, List.cons_append]

/-- A key that stands somewhere takes its new value there. -/
theorem insert_append_cons {before : Entries α} {key : String} (h : key ∉ keys before) (old v : α)
    (after : Entries α) :
    insert (before ++ (key, old) :: after) key v = before ++ (key, v) :: after := by
  rw [insert, upsert_append_of_not_mem h, upsert, if_pos rfl]

theorem upsert_eq_self {es : Entries α} {key : String} {v : α} {f : Option α → α}
    (h : get? es key = some v) (hf : f (some v) = v) : upsert es key f = es := by
  induction es with
  | nil => simp [get?] at h
  | cons e es ih =>
    obtain ⟨k, w⟩ := e
    by_cases hk : k = key
    · simp only [get?, hk, if_true, Option.some.injEq] at h
      simp [upsert, hk, h, hf]
    · simp only [get?, hk, if_false] at h
      simp [upsert, hk, ih h]

theorem insert_eq_self {es : Entries α} {key : String} {v : α} (h : get? es key = some v) :
    insert es key v = es := upsert_eq_self h rfl

theorem erase_eq_self {es : Entries α} {key : String} (h : get? es key = none) :
    erase es key = es := by
  refine List.filter_eq_self.mpr fun e he => decide_eq_true fun hkey => ?_
  exact get?_eq_none_iff.mp h (hkey ▸ List.mem_map_of_mem he)

/-- A key is given a value at the end, or in the place where it stands first. -/
theorem insert_cases (es : Entries α) (key : String) (v : α) :
    key ∉ keys es ∧ insert es key v = es ++ [(key, v)] ∨
    ∃ before old after, es = before ++ (key, old) :: after ∧
      insert es key v = before ++ (key, v) :: after := by
  induction es with
  | nil => exact .inl ⟨List.not_mem_nil, rfl⟩
  | cons e es ih =>
    obtain ⟨k, w⟩ := e
    by_cases hk : k = key
    · subst hk
      exact .inr ⟨[], w, es, rfl, if_pos rfl⟩
    · have hinsert : insert ((k, w) :: es) key v = (k, w) :: insert es key v := if_neg hk
      rcases ih with ⟨hnew, hes⟩ | ⟨before, old, after, rfl, hes⟩
      · refine .inl ⟨?_, by rw [hinsert, hes, List.cons_append]⟩
        exact fun hm => (List.mem_cons.mp hm).elim (fun h => hk h.symm) hnew
      · exact .inr ⟨(k, w) :: before, old, after, rfl, by rw [hinsert, hes, List.cons_append]⟩

/-- A change in one place adds no other entry. -/
theorem mem_upsert {es : Entries α} {key : String} {f : Option α → α} {e : String × α}
    (h : e ∈ upsert es key f) : e ∈ es ∨ e = (key, f (get? es key)) := by
  induction es with
  | nil =>
    rw [upsert, List.mem_singleton] at h
    exact Or.inr h
  | cons d es ih =>
    obtain ⟨k, w⟩ := d
    by_cases hk : k = key
    · rw [upsert, if_pos hk] at h
      rcases List.mem_cons.mp h with rfl | h
      · simp [get?, hk]
      · exact Or.inl (List.mem_cons_of_mem _ h)
    · rw [upsert, if_neg hk] at h
      rw [get?, if_neg hk]
      rcases List.mem_cons.mp h with rfl | h
      · simp
      · exact (ih h).imp_left (List.mem_cons_of_mem _)

/-- Every key stands once, and the values have a property. -/
structure Keyed (P : α → Prop) (es : Entries α) : Prop where
  distinct : Distinct es
  each : ∀ e ∈ es, P e.2

instance (P : α → Prop) [DecidablePred P] (es : Entries α) : Decidable (Keyed P es) :=
  decidable_of_iff (Distinct es ∧ ∀ e ∈ es, P e.2) ⟨fun h => ⟨h.1, h.2⟩, fun h => ⟨h.1, h.2⟩⟩

variable {P : α → Prop} {es : Entries α}

theorem keyed_nil (P : α → Prop) : Keyed P [] := ⟨List.nodup_nil, by simp⟩

theorem Keyed.mono {Q : α → Prop} (hPQ : ∀ v, P v → Q v) (h : Keyed P es) : Keyed Q es :=
  ⟨h.distinct, fun e he => hPQ e.2 (h.each e he)⟩

theorem Keyed.get? (h : Keyed P es) {key : String} {v : α} (hv : get? es key = some v) : P v :=
  h.each _ (mem_of_get? hv)

theorem Keyed.upsert (h : Keyed P es) {key : String} {f : Option α → α}
    (hf : P (f (Entries.get? es key))) : Keyed P (upsert es key f) := by
  refine ⟨distinct_upsert h.distinct key f, ?_⟩
  intro e he
  rcases mem_upsert he with he | rfl
  · exact h.each e he
  · exact hf

theorem Keyed.insert (h : Keyed P es) (key : String) {v : α} (hv : P v) :
    Keyed P (insert es key v) := h.upsert hv

theorem Keyed.filter (h : Keyed P es) (p : String × α → Bool) : Keyed P (es.filter p) :=
  ⟨h.distinct.sublist (List.Sublist.map Prod.fst List.filter_sublist),
    fun e he => h.each e (List.mem_filter.mp he).1⟩

theorem Keyed.erase (h : Keyed P es) (key : String) : Keyed P (erase es key) := h.filter _

variable {β γ : Type}

def mapValues (f : α → β) (es : Entries α) : Entries β := es.map fun e => (e.1, f e.2)

theorem mapValues_cons (f : α → β) (k : String) (v : α) (es : Entries α) :
    mapValues f ((k, v) :: es) = (k, f v) :: mapValues f es := rfl

theorem mapValues_mapValues (g : β → γ) (f : α → β) (es : Entries α) :
    mapValues g (mapValues f es) = mapValues (fun v => g (f v)) es := by
  simp [mapValues]

theorem keys_mapValues (f : α → β) (es : Entries α) : keys (mapValues f es) = keys es := by
  simp [keys, mapValues]

theorem Keyed.mapValues {Q : β → Prop} {f : α → β} (hf : ∀ v, P v → Q (f v)) (h : Keyed P es) :
    Keyed Q (mapValues f es) := by
  refine ⟨?_, fun e he => ?_⟩
  · rw [Distinct, keys_mapValues]
    exact h.distinct
  · obtain ⟨d, hd, rfl⟩ := List.mem_map.mp he
    exact hf d.2 (h.each d hd)

theorem get?_mapValues (f : α → β) (es : Entries α) (key : String) :
    get? (mapValues f es) key = (get? es key).map f := by
  induction es with
  | nil => rfl
  | cons e es ih =>
    obtain ⟨k, v⟩ := e
    rw [mapValues_cons, get?, get?]
    split
    · rfl
    · exact ih

theorem mapValues_eq_singleton {f : α → β} {es : Entries α} {key : String} {w : β}
    (h : mapValues f es = [(key, w)]) : ∃ v, es = [(key, v)] ∧ f v = w := by
  obtain ⟨⟨k, v⟩, rfl, he⟩ := List.map_eq_singleton_iff.mp h
  obtain ⟨rfl, hv⟩ := Prod.mk.inj he
  exact ⟨v, rfl, hv⟩

theorem mapValues_eq_pair {f : α → β} {es : Entries α} {k l : String} {x y : β}
    (h : mapValues f es = [(k, x), (l, y)]) :
    ∃ v w, es = [(k, v), (l, w)] ∧ f v = x ∧ f w = y := by
  obtain ⟨⟨a, v⟩, rest, rfl, he, hrest⟩ := List.map_eq_cons_iff.mp h
  obtain ⟨rfl, hv⟩ := Prod.mk.inj he
  obtain ⟨w, rfl, hw⟩ := mapValues_eq_singleton hrest
  exact ⟨v, w, rfl, hv, hw⟩

theorem upsert_mapValues {f : α → β} {g : Option β → β} {h : Option α → α}
    (hgh : ∀ o, g (o.map f) = f (h o)) (es : Entries α) (key : String) :
    upsert (mapValues f es) key g = mapValues f (upsert es key h) := by
  induction es with
  | nil => exact congrArg (fun v => [(key, v)]) (hgh none)
  | cons e es ih =>
    obtain ⟨k, v⟩ := e
    by_cases hk : k = key
    · simp only [mapValues_cons, upsert, hk, if_true]
      rw [← hgh (some v), Option.map_some]
    · simp only [mapValues_cons, upsert, hk, if_false, ih]

theorem insert_mapValues (f : α → β) (es : Entries α) (key : String) (v : α) :
    insert (mapValues f es) key (f v) = mapValues f (insert es key v) :=
  upsert_mapValues (h := fun _ => v) (fun _ => rfl) es key

theorem insert_of_get?_none {es : Entries α} {key : String} (h : get? es key = none) (v : α) :
    insert es key v = es ++ [(key, v)] := upsert_of_not_mem (get?_eq_none_iff.mp h) fun _ => v

/-- Changes the values that `f` accepts and drops the entries of the others. -/
def filterMapValues (f : α → Option β) (es : Entries α) : Entries β :=
  es.filterMap fun e => (f e.2).map fun w => (e.1, w)

theorem filterMapValues_cons (f : α → Option β) (k : String) (v : α) (es : Entries α) :
    filterMapValues f ((k, v) :: es) =
      ((f v).map fun w => (k, w)).toList ++ filterMapValues f es := by
  rw [filterMapValues, List.filterMap_cons]
  cases f v <;> rfl

theorem keys_filterMapValues (f : α → Option β) (es : Entries α) :
    keys (filterMapValues f es) = keys (es.filter fun e => (f e.2).isSome) := by
  induction es with
  | nil => rfl
  | cons e es ih =>
    obtain ⟨k, v⟩ := e
    simp only [keys] at ih
    cases hf : f v <;> simp [filterMapValues_cons, keys, hf, ih]

theorem get?_filterMapValues {es : Entries α} (hd : Distinct es) (f : α → Option β)
    (key : String) : get? (filterMapValues f es) key = (get? es key).bind f := by
  induction es with
  | nil => rfl
  | cons e es ih =>
    obtain ⟨k, v⟩ := e
    obtain ⟨hk, hd⟩ := List.nodup_cons.mp hd
    have hrest := ih hd
    by_cases hkey : k = key
    · subst hkey
      have hnone : get? es k = none := get?_eq_none_iff.mpr hk
      cases hf : f v <;> simp [filterMapValues_cons, get?, hf, hrest, hnone]
    · cases hf : f v <;> simp [filterMapValues_cons, get?, hf, hkey, hrest]

theorem Keyed.filterMapValues {Q : β → Prop} {f : α → Option β}
    (hf : ∀ v w, P v → f v = some w → Q w) (h : Keyed P es) : Keyed Q (filterMapValues f es) := by
  refine ⟨?_, fun e he => ?_⟩
  · rw [Distinct, keys_filterMapValues]
    exact (h.filter _).distinct
  · obtain ⟨d, hd, he⟩ := List.mem_filterMap.mp he
    obtain ⟨w, hw, rfl⟩ := Option.map_eq_some_iff.mp he
    exact hf d.2 w (h.each d hd) hw

/-- Two views of the values that together tell them apart tell the maps apart. -/
theorem eq_of_mapValues {f : α → β} {g : α → γ} (hfg : ∀ v w, f v = f w → g v = g w → v = w)
    {a b : Entries α} (hf : mapValues f a = mapValues f b) (hg : mapValues g a = mapValues g b) :
    a = b := by
  induction a generalizing b with
  | nil => exact (List.map_eq_nil_iff.mp hf.symm).symm
  | cons e a ih =>
    obtain ⟨k, v⟩ := e
    cases b with
    | nil => simp [mapValues] at hf
    | cons d b =>
      obtain ⟨l, w⟩ := d
      simp only [mapValues_cons, List.cons.injEq, Prod.mk.injEq] at hf hg
      rw [hf.1.1, hfg v w hf.1.2 hg.1.2, ih hf.2 hg.2]

theorem identicalBy_iff {eq : α → α → Bool} {f : α → β}
    (h : ∀ v w, eq v w = true ↔ f v = f w) (a b : Entries α) :
    identicalBy eq a b = true ↔ mapValues f a = mapValues f b := by
  induction a generalizing b with
  | nil => cases b <;> simp [identicalBy, mapValues]
  | cons e a ih =>
    obtain ⟨k, v⟩ := e
    cases b with
    | nil => simp [identicalBy, mapValues]
    | cons d b =>
      obtain ⟨l, w⟩ := d
      simp [identicalBy, mapValues_cons, ih, h, and_assoc]

/-- The same keys in the same order, with values in relation. -/
inductive Aligned {α β : Type} (R : α → β → Prop) : Entries α → Entries β → Prop
  | nil : Aligned R [] []
  | cons {key : String} {v : α} {w : β} {a : Entries α} {b : Entries β} :
      R v w → Aligned R a b → Aligned R ((key, v) :: a) ((key, w) :: b)

variable {R : α → β → Prop}

theorem aligned_mapValues {f : α → β} (h : ∀ v, R v (f v)) (es : Entries α) :
    Aligned R es (mapValues f es) := by
  induction es with
  | nil => exact .nil
  | cons e es ih => exact .cons (h e.2) ih

theorem Aligned.eq_mapValues {f : α → β} (h : ∀ v w, R v w → w = f v) {a : Entries α}
    {b : Entries β} (hab : Aligned R a b) : b = mapValues f a := by
  induction hab with
  | nil => rfl
  | cons hvw _ ih => rw [mapValues_cons, ← ih, ← h _ _ hvw]

theorem aligned_iff {f : α → β} (h : ∀ v w, R v w ↔ w = f v) {a : Entries α} {b : Entries β} :
    Aligned R a b ↔ b = mapValues f a := by
  constructor
  · exact Aligned.eq_mapValues fun v w => (h v w).mp
  · rintro rfl
    exact aligned_mapValues (fun v => (h v (f v)).mpr rfl) a

/-- Maps are aligned in looking alike just if they look alike entry by entry. -/
theorem aligned_iff_mapValues {R : α → α → Prop} {f : α → γ}
    (h : ∀ v w, R v w ↔ f v = f w) {a b : Entries α} :
    Aligned R a b ↔ mapValues f a = mapValues f b := by
  constructor
  · intro hab
    induction hab with
    | nil => rfl
    | cons hvw _ ih => rw [mapValues_cons, mapValues_cons, (h _ _).mp hvw, ih]
  · intro hab
    induction a generalizing b with
    | nil =>
      obtain rfl : b = [] := List.map_eq_nil_iff.mp hab.symm
      exact .nil
    | cons e a ih =>
      obtain ⟨k, v⟩ := e
      cases b with
      | nil => simp [mapValues] at hab
      | cons d b =>
        obtain ⟨l, w⟩ := d
        simp only [mapValues_cons, List.cons.injEq, Prod.mk.injEq] at hab
        obtain ⟨⟨rfl, hvw⟩, hrest⟩ := hab
        exact .cons ((h v w).mpr hvw) (ih hrest)

section
variable {p : String → Bool} {key : String}

theorem filter_insert_of_not (h : p key = false) (es : Entries α) (v : α) :
    (insert es key v).filter (fun e => p e.1) = es.filter fun e => p e.1 := by
  rcases insert_cases es key v with ⟨-, hes⟩ | ⟨before, old, after, rfl, hes⟩ <;> simp [hes, h]

theorem filter_keys_insert_of_not (h : p key = false) (es : Entries α) (v : α) :
    (keys (insert es key v)).filter p = (keys es).filter p := by
  rw [keys_insert]
  split <;> simp [h]

/-- Collecting entries in a map leaves those in order whose keys come once. -/
theorem filter_foldl_insert {given : List (String × α)} {es : Entries α}
    (h : ((keys es ++ keys given).filter p).Nodup) :
    (given.foldl (fun es e => insert es e.1 e.2) es).filter (fun e => p e.1) =
      (es ++ given).filter fun e => p e.1 := by
  induction given generalizing es with
  | nil => rw [List.foldl_nil, List.append_nil]
  | cons e given ih =>
    obtain ⟨k, v⟩ := e
    rw [List.foldl_cons]
    cases hk : p k with
    | true =>
      have hnew : k ∉ keys es := by
        intro hm
        rw [List.filter_append, List.nodup_append] at h
        refine h.2.2 k (List.mem_filter.mpr ⟨hm, hk⟩) k (List.mem_filter.mpr ⟨?_, hk⟩) rfl
        exact List.mem_cons_self
      have hinsert : insert es k v = es ++ [(k, v)] := upsert_of_not_mem hnew _
      have hkeys : keys (es ++ [(k, v)]) ++ keys given = keys es ++ keys ((k, v) :: given) := by
        simp [keys]
      rw [hinsert, ih (by rw [hkeys]; exact h), List.append_assoc, List.singleton_append]
    | false =>
      rw [ih, List.filter_append, filter_insert_of_not hk, List.filter_append,
        List.filter_cons_of_neg (by simp [hk])]
      rw [List.filter_append, filter_keys_insert_of_not hk]
      rw [List.filter_append, keys, keys, List.map_cons,
        List.filter_cons_of_neg (by simp [hk])] at h
      exact h

end

/-- Entries collected in a map are the map if no key comes twice. -/
theorem ofList_eq_self {es : Entries α} (h : Distinct es) : ofList es = es := by
  have hall : ((keys ([] : Entries α) ++ keys es).filter fun _ => true).Nodup :=
    List.Pairwise.filter _ h
  have hfilter := filter_foldl_insert hall
  rw [List.nil_append, List.filter_eq_self.mpr fun _ _ => rfl,
    List.filter_eq_self.mpr fun _ _ => rfl] at hfilter
  exact hfilter

end ReportTheme.Entries
