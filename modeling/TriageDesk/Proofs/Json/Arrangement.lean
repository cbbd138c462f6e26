/-
TriageDesk.Proofs.Json.Arrangement — values whose members stand in another order.

A program may write the members of an object in any order: its own fields as it
declares them, and tables as they happen to be kept. All it has to keep to is
that no name occurs twice. An arrangement of a value is what it may write for
it (`Arranges`): with the members in order it is the value again.

Putting entries in order only moves them as long as their names differ
(`Entries.perm_insertAll`), so the members of an arrangement are those of the
value, one for one (`Arranges.object`), and an arrangement fits where the value
does (`Arranges.fits`).
-/
import TriageDesk.Proofs.Json.Reading
import TriageDesk.Proofs.Table

namespace TriageDesk

/-! ## Arrangements -/

namespace Json

/-- A value in whose objects no name occurs twice. -/
inductive Distinct : Json → Prop
  | null : Distinct .null
  | bool (b : Bool) : Distinct (.bool b)
  | number (n : Number) : Distinct (.number n)
  | string (s : String) : Distinct (.string s)
  | array {items : List Json} (each : ∀ v ∈ items, Distinct v) : Distinct (.array items)
  | object {members : List (String × Json)} (names : (members.map (·.1)).Nodup)
      (each : ∀ e ∈ members, Distinct e.2) : Distinct (.object members)

/-- A value with the members of another one, in any order. -/
structure Arranges (w v : Json) : Prop where
  distinct : Distinct w
  ordered : w.ordered = v

theorem orderedItems_eq_map (vs : List Json) : orderedItems vs = vs.map ordered := by
  induction vs with
  | nil => rfl
  | cons v vs ih => rw [orderedItems, ih, List.map_cons]

theorem orderedMembers_eq_map (ms : List (String × Json)) :
    orderedMembers ms = ms.map fun e => (e.1, e.2.ordered) := by
  induction ms with
  | nil => rfl
  | cons e ms ih => rw [orderedMembers, ih, List.map_cons]

/-- A value with its members in order arranges itself. -/
theorem Sorted.distinct {v : Json} (sorted : Sorted v) : Distinct v := by
  induction sorted with
  | null => exact .null
  | bool b => exact .bool b
  | number n => exact .number n
  | string s => exact .string s
  | array _ each => exact .array each
  | object ascending _ each => exact .object ascending.nodup each

theorem Sorted.arranges {v : Json} (sorted : Sorted v) : Arranges v v :=
  ⟨sorted.distinct, sorted.ordered_eq_self⟩

theorem exists_of_forall₂ {β γ : Type} {R : β → γ → Prop} {bs : List β} {cs : List γ}
    (related : List.Forall₂ R bs cs) {b : β} (among : b ∈ bs) : ∃ c ∈ cs, R b c := by
  induction related with
  | nil => cases among
  | @cons b' c bs cs here _ ih =>
    rcases List.mem_cons.mp among with rfl | among
    · exact ⟨c, List.mem_cons_self, here⟩
    · obtain ⟨c, there, here⟩ := ih among
      exact ⟨c, List.mem_cons_of_mem _ there, here⟩

theorem map_eq_of_forall₂ {β γ δ : Type} {f : β → δ} {g : γ → δ} {bs : List β} {cs : List γ}
    (same : List.Forall₂ (fun b c => f b = g c) bs cs) : bs.map f = cs.map g := by
  rw [← List.forall₂_eq_eq_eq, List.forall₂_map_left_iff, List.forall₂_map_right_iff]
  exact same

theorem arranges_array {ws vs : List Json} (each : List.Forall₂ Arranges ws vs) :
    Arranges (.array ws) (.array vs) where
  distinct := .array fun w among => by
    obtain ⟨_, _, arranges⟩ := exists_of_forall₂ each among
    exact arranges.distinct
  ordered := by
    have same := map_eq_of_forall₂ (g := id) (each.imp fun _ _ arranges => arranges.ordered)
    rw [ordered, orderedItems_eq_map, same, List.map_id]

/-- An object whose members are arranged, and stand as they come, arranges the object that is
made of them. -/
theorem arranges_object {es ms : List (String × Json)} (distinct : (ms.map (·.1)).Nodup)
    (each : List.Forall₂ (fun e m => e.1 = m.1 ∧ Arranges e.2 m.2) es ms) :
    Arranges (.object es) (.ofMembers ms) := by
  have names := map_eq_of_forall₂ (each.imp fun _ _ here => here.1)
  have same := map_eq_of_forall₂ (f := fun e => (e.1, e.2.ordered)) (g := id)
    (each.imp fun _ _ ⟨name, arranges⟩ => Prod.ext name arranges.ordered)
  rw [List.map_id] at same
  refine ⟨.object (names ▸ distinct) fun e among => ?_, ?_⟩
  · obtain ⟨_, _, _, arranges⟩ := exists_of_forall₂ each among
    exact arranges.distinct
  · rw [ordered, orderedMembers_eq_map, same]

theorem arranges_ofMembers {members : List (String × Json)}
    (distinct : (members.map (·.1)).Nodup) (sorted : ∀ e ∈ members, Sorted e.2) :
    Arranges (.object members) (.ofMembers members) :=
  arranges_object distinct (List.forall₂_same.mpr fun e among => ⟨rfl, (sorted e among).arranges⟩)

/-- An object that is made of members has them in order. -/
theorem Sorted.ofMembers {members : List (String × Json)}
    (distinct : (members.map (·.1)).Nodup) (sorted : ∀ e ∈ members, Sorted e.2) :
    Sorted (.ofMembers members) := by
  refine .object ?_ fun e among => ?_
  · rw [← show (Table.empty : Table Json).entries = [] from rfl, ← Table.entries_insertAll]
    exact (Table.empty.insertAll members).ascending
  · exact sorted e ((Entries.perm_ofEntries distinct).mem_iff.mp among)

/-- A table is arranged when its values are. -/
theorem arranges_ofTable {β : Type} {t : Table β} {f g : β → Json}
    (each : ∀ e ∈ t.entries, Arranges (f e.2) (g e.2)) :
    Arranges (.ofTable (t.map f)) (.ofTable (t.map g)) := by
  have ascending : Entries.Ascending (t.map g).entries := (t.map g).ascending
  have members : List.Forall₂ (fun e m : String × Json => e.1 = m.1 ∧ Arranges e.2 m.2)
      (t.map f).entries (t.map g).entries :=
    List.forall₂_map_left_iff.mpr (List.forall₂_map_right_iff.mpr
      (List.forall₂_same.mpr fun e among => ⟨rfl, each e among⟩))
  have arranges := arranges_object ascending.nodup members
  rwa [ofMembers_ascending ascending] at arranges

namespace Arranges

variable {w v : Json}

/-- What is arranged has its members in order. -/
theorem sorted (arranges : Arranges w v) : Sorted v := by
  obtain ⟨distinct, rfl⟩ := arranges
  induction distinct with
  | null => exact .null
  | bool b => exact .bool b
  | number n => exact .number n
  | string s => exact .string s
  | array _ each =>
    rw [Json.ordered, orderedItems_eq_map]
    exact .array (List.forall_mem_map.mpr each)
  | object names _ each =>
    rw [Json.ordered, orderedMembers_eq_map]
    refine .ofMembers ?_ (List.forall_mem_map.mpr each)
    rwa [List.map_map]

theorem eq_string {s : String} (arranges : Arranges w (.string s)) : w = .string s := by
  obtain ⟨_, ordered⟩ := arranges
  cases w <;> cases ordered
  rfl

theorem array {vs : List Json} (arranges : Arranges w (.array vs)) :
    ∃ ws, w = .array ws ∧ List.Forall₂ Arranges ws vs := by
  obtain ⟨distinct, ordered⟩ := arranges
  cases distinct with
  | @array ws each =>
    refine ⟨ws, rfl, ?_⟩
    rw [Json.ordered, orderedItems_eq_map] at ordered
    cases ordered
    exact List.forall₂_map_right_iff.mpr (List.forall₂_same.mpr fun u among => ⟨each u among, rfl⟩)
  | _ => cases ordered

/-- The members of an arrangement are those of the value, one for one. -/
theorem object {ms : List (String × Json)} (arranges : Arranges w (.object ms)) :
    ∃ es ds, w = .object es ∧ ds.Perm ms ∧ (es.map (·.1)).Nodup ∧
      List.Forall₂ (fun e d => e.1 = d.1 ∧ Arranges e.2 d.2) es ds := by
  obtain ⟨distinct, ordered⟩ := arranges
  cases distinct with
  | @object es names each =>
    have same : (es.map fun e => (e.1, e.2.ordered)).map (·.1) = es.map (·.1) := by
      rw [List.map_map]
      rfl
    have perm := Entries.perm_ofEntries (same.symm ▸ names)
    rw [Json.ordered, ofMembers, orderedMembers_eq_map] at ordered
    cases ordered
    refine ⟨es, _, rfl, perm.symm, names, List.forall₂_map_right_iff.mpr ?_⟩
    exact List.forall₂_same.mpr fun e among => ⟨rfl, each e among, rfl⟩
  | _ => cases ordered

/-- What is related to the members of a value, in some order, is related to those of an
arrangement, in another one. -/
theorem members {β : Type} {R : String × Json → β → Prop} {ms ns : List (String × Json)}
    {bs : List β} (arranges : Arranges w (.object ms)) (perm : ms.Perm ns)
    (related : List.Forall₂ R ns bs) :
    ∃ es bs', w = .object es ∧ bs'.Perm bs ∧ (es.map (·.1)).Nodup ∧
      (es.map (·.1)).Perm (ns.map (·.1)) ∧
      List.Forall₂ (fun e b => ∃ v, R (e.1, v) b ∧ Arranges e.2 v) es bs' := by
  obtain ⟨es, ds, rfl, moved, distinct, same⟩ := arranges.object
  obtain ⟨bs', related, perm'⟩ := List.perm_comp_forall₂ (moved.trans perm) related
  have names := map_eq_of_forall₂ (same.imp fun _ _ here => here.1)
  refine ⟨es, bs', rfl, perm', distinct, names ▸ (moved.trans perm).map _, ?_⟩
  clear perm' distinct names moved arranges
  induction same generalizing bs' with
  | nil =>
    cases related
    exact .nil
  | @cons e d es ds here _ ih =>
    cases related with
    | cons first rest =>
      obtain ⟨k, v⟩ := d
      obtain ⟨rfl, arranges⟩ := here
      exact .cons ⟨v, first, arranges⟩ (ih _ rest)

/-- An arrangement fits where the value does. -/
theorem fits {room : Nat} (fits : Fits room v) : ∀ {w}, Arranges w v → Fits room w := by
  induction fits with
  | null | bool | int =>
    intro w ⟨_, ordered⟩
    cases w <;> cases ordered
    constructor <;> assumption
  | string s =>
    intro w arranges
    rw [arranges.eq_string]
    exact .string s
  | array _ ih =>
    intro w arranges
    obtain ⟨ws, rfl, same⟩ := arranges.array
    refine .array fun u among => ?_
    obtain ⟨v, there, arranges⟩ := exists_of_forall₂ same among
    exact ih v there arranges
  | object _ ih =>
    intro w arranges
    obtain ⟨es, ds, rfl, perm, _, same⟩ := arranges.object
    refine .object fun e among => ?_
    obtain ⟨d, there, _, arranges⟩ := exists_of_forall₂ same among
    exact ih d (perm.mem_iff.mp there) arranges

end Arranges

end Json

end TriageDesk
