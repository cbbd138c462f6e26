/-
TriageDesk.Proofs.Table — tables and the order in which their entries come.

Under names that differ the order of entries makes no difference: putting them
in only moves them (`Entries.perm_insertAll`), a look-up finds the same
(`Entries.find?_of_perm`), and the table that they make is the same
(`Table.ofList_of_perm`). Where a name comes more than once the last entry stays,
so what is found is what is found first from behind (`Table.get?_insertAll_reverse`).
-/
import Mathlib.Data.List.Perm.Basic
import TriageDesk.Table

namespace TriageDesk

/-! ## Look-ups in lists of entries -/

namespace Entries

variable {α : Type}

theorem find?_eq_none_iff {k : String} {entries : List (String × α)} :
    find? k entries = none ↔ k ∉ entries.map (·.1) := by
  induction entries with
  | nil => simp [find?]
  | cons e rest ih =>
    obtain ⟨j, w⟩ := e
    rw [find?, List.map_cons, List.mem_cons, not_or, ← ih]
    split
    · rename_i same
      simp [same]
    · rename_i other
      simp [other]

theorem find?_append (k : String) (a b : List (String × α)) :
    find? k (a ++ b) = (find? k a).or (find? k b) := by
  induction a with
  | nil => rfl
  | cons e rest ih =>
    obtain ⟨j, w⟩ := e
    rw [List.cons_append, find?, find?]
    split
    · rfl
    · exact ih

/-- What is found depends on the entries of the name only. -/
theorem find?_filter (k : String) (entries : List (String × α)) :
    find? k (entries.filter (·.1 = k)) = find? k entries := by
  induction entries with
  | nil => rfl
  | cons e rest ih =>
    obtain ⟨j, w⟩ := e
    by_cases same : k = j
    · rw [List.filter_cons_of_pos (by simp [same]), find?, find?, if_pos same, if_pos same]
    · rw [List.filter_cons_of_neg (by simp [Ne.symm same]), ih, find?, if_neg same]

theorem count_names (k : String) (entries : List (String × α)) :
    (entries.map (·.1)).count k = (entries.filter (·.1 = k)).length := by
  rw [List.count, List.countP_map, List.countP_eq_length_filter]
  rfl

/-- Under names that differ every entry is found. -/
theorem find?_eq_some_iff {k : String} {v : α} {entries : List (String × α)}
    (distinct : (entries.map (·.1)).Nodup) : find? k entries = some v ↔ (k, v) ∈ entries := by
  refine ⟨mem_of_find?, fun among => ?_⟩
  obtain ⟨before, after, rfl⟩ := List.append_of_mem among
  rw [List.map_append, List.map_cons, List.nodup_append] at distinct
  obtain ⟨-, -, apart⟩ := distinct
  have missing : find? k before = none :=
    find?_eq_none_iff.mpr fun among => apart k among k List.mem_cons_self rfl
  rw [find?_append, missing, Option.none_or, find?, if_pos rfl]

/-- Under names that differ it makes no difference in which order entries come. -/
theorem find?_of_perm {a b : List (String × α)} (distinct : (a.map (·.1)).Nodup)
    (perm : a.Perm b) (k : String) : find? k a = find? k b := by
  have distinct' := (perm.map (·.1)).nodup_iff.mp distinct
  refine Option.ext fun v => ?_
  rw [find?_eq_some_iff distinct, find?_eq_some_iff distinct', perm.mem_iff]

/-- Among the entries that come from a list, what is found from behind under a name comes from
the last item that gives an entry of that name. -/
theorem find?_filterMap_reverse {β : Type} {f : β → Option (String × α)} {k : String}
    {v : α} {items : List β} :
    find? k (items.filterMap f).reverse = some v ↔
      ∃ earlier x later, items = earlier ++ x :: later ∧ f x = some (k, v) ∧
        ∀ y ∈ later, ∀ w, f y ≠ some (k, w) := by
  let named (x : β) : Option α := (f x).bind fun e => if k = e.1 then some e.2 else none
  have named_eq (x : β) (w : α) : named x = some w ↔ f x = some (k, w) := by
    simp only [named, Option.bind_eq_some_iff, Option.ite_none_right_eq_some, Option.some.injEq]
    constructor
    · rintro ⟨⟨j, w'⟩, read, rfl, rfl⟩
      exact read
    · exact fun read => ⟨(k, w), read, rfl, rfl⟩
  have lookup (items : List β) : find? k (items.filterMap f) = items.findSome? named := by
    induction items with
    | nil => rfl
    | cons x rest ih =>
      rw [List.filterMap_cons, List.findSome?_cons]
      cases read : f x with
      | none => simp only [named, read, Option.bind_none, ih]
      | some e =>
        simp only [named, read, Option.bind_some, find?, ih]
        split <;> rfl
  rw [← List.filterMap_reverse, lookup, List.findSome?_eq_some_iff]
  simp only [named_eq, Option.eq_none_iff_forall_ne_some, Ne]
  constructor
  · rintro ⟨before, x, after, cut, read, others⟩
    refine ⟨after.reverse, x, before.reverse, ?_, read, ?_⟩
    · rw [← List.reverse_inj, cut]
      simp
    · simpa only [List.mem_reverse] using others
  · rintro ⟨earlier, x, later, rfl, read, others⟩
    refine ⟨later.reverse, x, earlier.reverse, by simp, read, ?_⟩
    simpa only [List.mem_reverse] using others

end Entries

/-! ## Entries put in order -/

namespace Entries

variable {α : Type}

theorem perm_insert {k : String} {v : α} {entries : List (String × α)}
    (fresh : k ∉ entries.map (·.1)) : (insert k v entries).Perm ((k, v) :: entries) := by
  induction entries with
  | nil => rfl
  | cons e rest ih =>
    obtain ⟨j, w⟩ := e
    rw [List.map_cons, List.mem_cons, not_or] at fresh
    obtain ⟨other, fresh⟩ := fresh
    rw [insert, if_neg other]
    split
    · rfl
    · exact ((ih fresh).cons (j, w)).trans (List.Perm.swap (k, v) (j, w) rest)

/-- Entries with names of their own are put among others without any of them being lost. -/
theorem perm_insertAll {entries acc : List (String × α)}
    (distinct : ((acc ++ entries).map (·.1)).Nodup) :
    (entries.foldl (fun acc e => insert e.1 e.2 acc) acc).Perm (acc ++ entries) := by
  induction entries generalizing acc with
  | nil => rw [List.append_nil, List.foldl_nil]
  | cons e rest ih =>
    have moved : (acc ++ e :: rest).Perm (e :: acc ++ rest) := List.perm_middle
    have apart := (moved.map (·.1)).nodup_iff.mp distinct
    have fresh : e.1 ∉ acc.map (·.1) := by
      rw [List.cons_append, List.map_cons, List.nodup_cons, List.map_append,
        List.mem_append] at apart
      exact fun among => apart.1 (.inl among)
    have inserted : (insert e.1 e.2 acc ++ rest).Perm (e :: acc ++ rest) :=
      (perm_insert fresh).append_right rest
    have distinct' := (inserted.map (·.1)).nodup_iff.mpr apart
    rw [List.foldl_cons]
    exact (ih distinct').trans (inserted.trans moved.symm)

theorem perm_ofEntries {entries : List (String × α)} (distinct : (entries.map (·.1)).Nodup) :
    (entries.foldl (fun acc e => insert e.1 e.2 acc) []).Perm entries :=
  perm_insertAll distinct

theorem Ascending.nodup {entries : List (String × α)} (ascending : Ascending entries) :
    (entries.map (·.1)).Nodup := by
  refine List.pairwise_map.mpr (ascending.imp fun before same => ?_)
  rw [same] at before
  exact String.lt_irrefl _ before

/-- In ascending order the same entries make the same list. -/
theorem eq_of_perm {a b : List (String × α)} (ha : Ascending a) (hb : Ascending b)
    (perm : a.Perm b) : a = b := by
  refine ext ha hb fun k => Option.ext fun v => ?_
  constructor
  · intro found
    exact find?_of_mem hb (perm.mem_iff.mp (mem_of_find? found))
  · intro found
    exact find?_of_mem ha (perm.mem_iff.mpr (mem_of_find? found))

end Entries

namespace Table

variable {α : Type}

theorem entries_insertAll (t : Table α) (entries : List (String × α)) :
    (t.insertAll entries).entries =
      entries.foldl (fun acc e => Entries.insert e.1 e.2 acc) t.entries := by
  unfold insertAll
  induction entries generalizing t with
  | nil => rfl
  | cons e rest ih => exact ih (t.insert e.1 e.2)

theorem size_insert {t : Table α} {k : String} (fresh : t.get? k = none) (v : α) :
    (t.insert k v).size = t.size + 1 :=
  (Entries.perm_insert (Entries.find?_eq_none_iff.mp fresh)).length_eq

theorem mem_keys_iff {t : Table α} {k : String} : k ∈ t.keys ↔ ∃ v, t.get? k = some v := by
  rw [← Option.isSome_iff_exists, Option.isSome_iff_ne_none, get?, Ne, Entries.find?_eq_none_iff,
    not_not]
  rfl

/-- A table is made of its own entries, in whatever order they come. -/
theorem ofList_of_perm {t : Table α} {entries : List (String × α)}
    (perm : entries.Perm t.entries) : ofList entries = t := by
  have distinct := (perm.map (·.1)).nodup_iff.mpr t.ascending.nodup
  have made : (ofList entries).entries.Perm entries := by
    rw [ofList, entries_insertAll]
    exact Entries.perm_ofEntries distinct
  have same := Entries.eq_of_perm (ofList entries).ascending t.ascending (made.trans perm)
  exact ext fun k => congrArg (Entries.find? k) same

/-- Entries put in one after the other: the last of a name stays. -/
theorem get?_insertAll_reverse (t : Table α) (entries : List (String × α)) (k : String) :
    (t.insertAll entries).get? k = (Entries.find? k entries.reverse).or (t.get? k) := by
  induction entries generalizing t with
  | nil => rfl
  | cons e rest ih =>
    obtain ⟨j, w⟩ := e
    have latest := ih (t.insert j w)
    rw [get?_insert] at latest
    rw [List.reverse_cons, Entries.find?_append, Option.or_assoc]
    refine latest.trans (congrArg _ ?_)
    show (if k = j then some w else t.get? k) = (if k = j then some w else none).or (t.get? k)
    split <;> rfl

/-- The table of a list of entries answers with the last entry of a name. -/
theorem get?_ofList (entries : List (String × α)) (k : String) :
    (ofList entries).get? k = Entries.find? k entries.reverse := by
  rw [ofList, get?_insertAll_reverse, get?_empty, Option.or_none]

/-- Of two lists of entries in a row the second one goes before the first. -/
theorem ofList_append (a b : List (String × α)) :
    ofList (a ++ b) = (ofList a).override (ofList b) := by
  refine ext fun k => ?_
  rw [get?_override, get?_ofList, get?_ofList, get?_ofList, List.reverse_append,
    Entries.find?_append]

end Table

end TriageDesk
