/-
TriageDesk.Table — finite tables from names to values, in ascending order
of the names.

A table is a list of entries whose names ascend strictly, so a name occurs
at most once and the order in which entries were put in leaves no trace:
two tables that answer every look-up alike are equal (`Table.ext`).
`get?_insert`, `get?_erase`, `get?_mapWithKey` and `get?_override` say what the
updates do to look-ups.
-/

namespace TriageDesk

/-! ## Lists of entries -/

namespace Entries

variable {α β : Type}

/-- The value under a name in a list of entries: the first one counts. -/
def find? (k : String) : List (String × α) → Option α
  | [] => none
  | (k', v) :: rest => if k = k' then some v else find? k rest

/-- Puts an entry at its place among ascending entries, in the place of one
with the same name. -/
def insert (k : String) (v : α) : List (String × α) → List (String × α)
  | [] => [(k, v)]
  | (k', v') :: rest =>
    if k = k' then (k, v) :: rest
    else if k < k' then (k, v) :: (k', v') :: rest
    else (k', v') :: insert k v rest

/-- Drops every entry with the name. -/
def erase (k : String) (entries : List (String × α)) : List (String × α) :=
  entries.filter fun e => e.1 ≠ k

/-- Entries in strictly ascending order of their names. -/
def Ascending (entries : List (String × α)) : Prop :=
  entries.Pairwise fun a b => a.1 < b.1

theorem mem_insert {k : String} {v : α} {e : String × α} {entries : List (String × α)}
    (h : e ∈ insert k v entries) : e = (k, v) ∨ e ∈ entries := by
  induction entries with
  | nil => simpa [insert] using h
  | cons head rest ih =>
    obtain ⟨k', v'⟩ := head
    by_cases hk : k = k'
    · simp only [insert, hk, if_true, List.mem_cons] at h ⊢
      grind
    · by_cases hlt : k < k'
      · simp only [insert, hk, hlt, if_true, if_false, List.mem_cons] at h ⊢
        exact h
      · simp only [insert, hk, hlt, if_false, List.mem_cons] at h ⊢
        grind

theorem ascending_insert {k : String} {v : α} {entries : List (String × α)}
    (h : Ascending entries) : Ascending (insert k v entries) := by
  induction entries with
  | nil => simp [insert, Ascending]
  | cons head rest ih =>
    obtain ⟨k', v'⟩ := head
    have hrest : Ascending rest := List.Pairwise.of_cons h
    have hhead : ∀ e ∈ rest, k' < e.1 := fun e he => List.rel_of_pairwise_cons h he
    by_cases hk : k = k'
    · subst hk
      simp only [insert, if_true]
      exact List.pairwise_cons.mpr ⟨fun e he => hhead e he, hrest⟩
    · by_cases hlt : k < k'
      · simp only [insert, hk, hlt, if_true, if_false]
        refine List.pairwise_cons.mpr ⟨fun e he => ?_, h⟩
        rcases List.mem_cons.mp he with rfl | he
        · exact hlt
        · exact String.lt_trans hlt (hhead e he)
      · simp only [insert, hk, hlt, if_false]
        refine List.pairwise_cons.mpr ⟨fun e he => ?_, ih hrest⟩
        rcases mem_insert he with rfl | he
        · rcases Std.lt_trichotomy k k' with h1 | h1 | h1
          · exact absurd h1 hlt
          · exact absurd h1 hk
          · exact h1
        · exact hhead e he

theorem ascending_erase {k : String} {entries : List (String × α)}
    (h : Ascending entries) : Ascending (erase k entries) :=
  List.Pairwise.filter _ h

theorem find?_insert (j k : String) (v : α) (entries : List (String × α)) :
    find? j (insert k v entries) = if j = k then some v else find? j entries := by
  induction entries with
  | nil => simp [insert, find?]
  | cons head rest ih =>
    obtain ⟨k', v'⟩ := head
    by_cases hk : k = k'
    · subst hk
      by_cases hj : j = k <;> simp [insert, find?, hj]
    · by_cases hlt : k < k'
      · simp [insert, find?, hk, hlt]
      · by_cases hj : j = k'
        · subst hj
          have : ¬ j = k := fun h => hk h.symm
          simp [insert, find?, hk, hlt, this]
        · simp [insert, find?, hk, hlt, hj, ih]

theorem find?_erase (j k : String) (entries : List (String × α)) :
    find? j (erase k entries) = if j = k then none else find? j entries := by
  induction entries with
  | nil => simp [erase, find?]
  | cons head rest ih =>
    obtain ⟨k', v'⟩ := head
    simp only [erase] at ih ⊢
    by_cases hk : k' = k
    · subst hk
      by_cases hj : j = k' <;> simp_all [find?]
    · by_cases hj : j = k'
      · subst hj; simp [find?, hk]
      · simp_all [find?]

theorem mem_of_find? {k : String} {v : α} {entries : List (String × α)}
    (h : find? k entries = some v) : (k, v) ∈ entries := by
  induction entries with
  | nil => simp [find?] at h
  | cons head rest ih =>
    obtain ⟨k', v'⟩ := head
    by_cases hk : k = k'
    · subst hk
      simp only [find?, if_true, Option.some.injEq] at h
      simp [h]
    · simp only [find?, hk, if_false] at h
      exact List.mem_cons_of_mem _ (ih h)

theorem find?_of_mem {k : String} {v : α} {entries : List (String × α)}
    (asc : Ascending entries) (h : (k, v) ∈ entries) : find? k entries = some v := by
  induction entries with
  | nil => simp at h
  | cons head rest ih =>
    obtain ⟨k', v'⟩ := head
    rcases List.mem_cons.mp h with h | h
    · obtain ⟨rfl, rfl⟩ := Prod.mk.injEq .. ▸ h
      simp [find?]
    · have hlt : k' < k := List.rel_of_pairwise_cons asc h
      have hk : ¬ k = k' := fun e => String.lt_irrefl k' (e ▸ hlt)
      simp only [find?, hk, if_false]
      exact ih (List.Pairwise.of_cons asc) h

theorem ext {a b : List (String × α)} (ha : Ascending a) (hb : Ascending b)
    (h : ∀ k, find? k a = find? k b) : a = b := by
  induction a generalizing b with
  | nil =>
    cases b with
    | nil => rfl
    | cons head rest =>
      have := h head.1
      simp [find?] at this
  | cons x xs ih =>
    cases b with
    | nil =>
      have := h x.1
      simp [find?] at this
    | cons y ys =>
      have hx : (x.1, x.2) ∈ y :: ys := mem_of_find? (by rw [← h x.1]; simp [find?])
      have hy : (y.1, y.2) ∈ x :: xs := mem_of_find? (by rw [h y.1]; simp [find?])
      have hxy : x = y := by
        rcases List.mem_cons.mp hx with e | m
        · exact e
        · rcases List.mem_cons.mp hy with e | m'
          · exact e.symm
          · have h1 : y.1 < x.1 := List.rel_of_pairwise_cons hb m
            have h2 : x.1 < y.1 := List.rel_of_pairwise_cons ha m'
            exact absurd h1 (String.lt_asymm h2)
      subst hxy
      have hnot : ∀ (l : List (String × α)), Ascending (x :: l) → find? x.1 l = none := by
        intro l hl
        cases hf : find? x.1 l with
        | none => rfl
        | some v =>
          have : x.1 < (x.1, v).1 := List.rel_of_pairwise_cons hl (mem_of_find? hf)
          exact absurd this (String.lt_irrefl _)
      have : xs = ys := by
        refine ih (List.Pairwise.of_cons ha) (List.Pairwise.of_cons hb) fun k => ?_
        by_cases hk : k = x.1
        · subst hk
          rw [hnot xs ha, hnot ys hb]
        · have := h k
          simpa [find?, hk] using this
      rw [this]

theorem ascending_map {f : String → α → β} {entries : List (String × α)}
    (h : Ascending entries) : Ascending (entries.map fun e => (e.1, f e.1 e.2)) :=
  List.pairwise_map.mpr h

theorem find?_map (f : String → α → β) (k : String) (entries : List (String × α)) :
    find? k (entries.map fun e => (e.1, f e.1 e.2)) = (find? k entries).map (f k) := by
  induction entries with
  | nil => rfl
  | cons head rest ih =>
    obtain ⟨k', v⟩ := head
    by_cases hk : k = k'
    · subst hk
      simp [find?]
    · simp [find?, hk, ih]

end Entries

/-! ## Tables -/

/-- A finite table from names to values. -/
structure Table (α : Type) where
  /-- The entries in ascending order of their names. -/
  entries : List (String × α)
  /-- Names ascend, so none occurs twice. -/
  ascending : Entries.Ascending entries

namespace Table

variable {α β : Type}

/-- The table without entries. -/
def empty : Table α := ⟨[], List.Pairwise.nil⟩

instance : EmptyCollection (Table α) := ⟨empty⟩
instance : Inhabited (Table α) := ⟨empty⟩

instance [DecidableEq α] : DecidableEq (Table α) := fun a b =>
  if h : a.entries = b.entries then
    .isTrue (by cases a; cases b; cases h; rfl)
  else .isFalse fun e => h (e ▸ rfl)

/-- The value under a name. -/
def get? (t : Table α) (k : String) : Option α := Entries.find? k t.entries

/-- Whether the table has an entry under the name. -/
def contains (t : Table α) (k : String) : Bool := (t.get? k).isSome

/-- Puts a value under a name, in the place of the one that was there. -/
def insert (t : Table α) (k : String) (v : α) : Table α :=
  ⟨Entries.insert k v t.entries, Entries.ascending_insert t.ascending⟩

/-- Drops the entry under a name. -/
def erase (t : Table α) (k : String) : Table α :=
  ⟨Entries.erase k t.entries, Entries.ascending_erase t.ascending⟩

/-- The number of entries. -/
def size (t : Table α) : Nat := t.entries.length

/-- The names in ascending order. -/
def keys (t : Table α) : List String := t.entries.map (·.1)

/-- The values in ascending order of their names. -/
def values (t : Table α) : List α := t.entries.map (·.2)

/-- Every value changed by a function of its name and itself. -/
def mapWithKey (f : String → α → β) (t : Table α) : Table β :=
  ⟨t.entries.map fun e => (e.1, f e.1 e.2), Entries.ascending_map t.ascending⟩

/-- Every value changed by a function. -/
def map (f : α → β) (t : Table α) : Table β := t.mapWithKey fun _ => f

/-- Entries put into a table one after the other: the last of a name stays. -/
def insertAll (t : Table α) (entries : List (String × α)) : Table α :=
  entries.foldl (fun t e => t.insert e.1 e.2) t

/-- The table of a list of entries: the last of a name stays. -/
def ofList (entries : List (String × α)) : Table α := empty.insertAll entries

/-- The first table overridden by the second. -/
def override (t u : Table α) : Table α := t.insertAll u.entries

/-! ## Look-ups after updates -/

@[simp] theorem get?_empty (k : String) : (empty : Table α).get? k = none := rfl

theorem get?_insert (t : Table α) (k : String) (v : α) (j : String) :
    (t.insert k v).get? j = if j = k then some v else t.get? j :=
  Entries.find?_insert j k v t.entries

theorem get?_erase (t : Table α) (k j : String) :
    (t.erase k).get? j = if j = k then none else t.get? j :=
  Entries.find?_erase j k t.entries

@[simp] theorem get?_mapWithKey (f : String → α → β) (t : Table α) (k : String) :
    (t.mapWithKey f).get? k = (t.get? k).map (f k) :=
  Entries.find?_map f k t.entries

@[simp] theorem keys_mapWithKey (f : String → α → β) (t : Table α) :
    (t.mapWithKey f).keys = t.keys := by
  simp [keys, mapWithKey]

/-- Entries put in one after the other, in ascending order of their names, hide those that were
there. -/
theorem get?_insertAll (t : Table α) {entries : List (String × α)}
    (asc : Entries.Ascending entries) (k : String) :
    (t.insertAll entries).get? k = (Entries.find? k entries).or (t.get? k) := by
  induction entries generalizing t with
  | nil => rfl
  | cons head rest ih =>
    obtain ⟨k', v⟩ := head
    show ((t.insert k' v).insertAll rest).get? k = _
    rw [ih _ (List.Pairwise.of_cons asc), get?_insert, Entries.find?]
    by_cases hk : k = k'
    · subst hk
      have later : Entries.find? k rest = none := by
        cases found : Entries.find? k rest with
        | none => rfl
        | some w =>
          have lt : k < k := List.rel_of_pairwise_cons asc (Entries.mem_of_find? found)
          exact absurd lt (String.lt_irrefl _)
      simp [later]
    · simp [hk]

/-- The second table answers first. -/
theorem get?_override (t u : Table α) (k : String) :
    (t.override u).get? k = (u.get? k).or (t.get? k) :=
  get?_insertAll t u.ascending k

theorem mem_entries_iff (t : Table α) (k : String) (v : α) :
    (k, v) ∈ t.entries ↔ t.get? k = some v :=
  ⟨Entries.find?_of_mem t.ascending, Entries.mem_of_find?⟩

/-- Tables that answer every look-up alike are equal. -/
theorem ext {t u : Table α} (h : ∀ k, t.get? k = u.get? k) : t = u := by
  obtain ⟨a, ha⟩ := t
  obtain ⟨b, hb⟩ := u
  have : a = b := Entries.ext ha hb h
  subst this
  rfl

end Table

end TriageDesk
