/-
TriageDesk.Proofs.Proposal.Resubmission — what handing a proposal in again does.

The values that are given are entered one after the other. A look-up after that is
a function of the look-up before and of the value that is given for the name
(`get?_entered`), so neither the order in which the values come nor the way by
which they came matters: entering them in any order gives one table
(`entered_of_perm`), and two hand-ins are one, with the values of the first
overridden by those of the second (`resubmitted_resubmitted`).

`ResubmissionLaws s id p` says it of a store that holds `p` under `id`, and
`resubmit_laws` is the theorem.
-/
import TriageDesk.Proofs.Proposal.Course
import TriageDesk.Proofs.Table

namespace TriageDesk

open Time

theorem Table.override_self {α : Type} (t : Table α) : t.override t = t := by
  refine Table.ext fun k => ?_
  rw [Table.get?_override, Option.or_self]

namespace Proposal

/-! ## Values that are entered -/

/-- A parameter with the value that is given for it, if one is. -/
def Param.withValue (a : Param) (given : Option String) : Param :=
  { a with value := given.getD a.value }

theorem Param.withValue_withValue (a : Param) (first second : Option String) :
    (a.withValue first).withValue second = a.withValue (second.or first) := by
  cases second <;> rfl

theorem Param.get?_enter (parameters : Table Param) (k v name : String) :
    (enter parameters (k, v)).get? name =
      (parameters.get? name).map (·.withValue (if name = k then some v else none)) := by
  cases found : parameters.get? k with
  | none =>
    simp only [enter, found]
    split
    · rename_i same
      rw [same, found]
      rfl
    · exact Option.map_id'.symm
  | some a =>
    simp only [enter, found, Table.get?_insert]
    split
    · rename_i same
      rw [same, found]
      rfl
    · exact Option.map_id'.symm

/-- What is found under a name once values have been entered under names that differ. -/
theorem Param.get?_entered {given : List (String × String)} (distinct : (given.map (·.1)).Nodup)
    (parameters : Table Param) (name : String) :
    (given.foldl enter parameters).get? name =
      (parameters.get? name).map (·.withValue (Entries.find? name given)) := by
  induction given generalizing parameters with
  | nil => exact Option.map_id'.symm
  | cons e rest ih =>
    obtain ⟨k, v⟩ := e
    rw [List.map_cons, List.nodup_cons] at distinct
    obtain ⟨fresh, distinct⟩ := distinct
    rw [List.foldl_cons, ih distinct, get?_enter, Option.map_map, Entries.find?]
    refine congrFun (congrArg _ (funext fun a => ?_)) _
    show (a.withValue _).withValue _ = _
    rw [withValue_withValue]
    split
    · -- the name does not come again
      rename_i same
      rw [same, Entries.find?_eq_none_iff.mpr fresh, Option.none_or]
    · rw [Option.or_none]

/-- The order in which the values of a table are entered makes no difference. -/
theorem Param.entered_of_perm {params : Parameters} {order : List (String × String)}
    (perm : order.Perm params.entries) (parameters : Table Param) :
    order.foldl enter parameters = params.entries.foldl enter parameters := by
  have distinct := params.ascending.nodup
  have distinct' := (perm.map (·.1)).nodup_iff.mpr distinct
  refine Table.ext fun name => ?_
  rw [get?_entered distinct, get?_entered distinct', Entries.find?_of_perm distinct' perm]

/-! ## Proposals that are handed in again -/

variable (p : Proposal) (params params' : Parameters) (t t' : Instant)

theorem resubmitted_parameters : (p.resubmitted params t).parameters =
    p.parameters.mapWithKey fun name a => a.withValue (params.get? name) := by
  refine Table.ext fun name => ?_
  rw [Table.get?_mapWithKey]
  exact Param.get?_entered params.ascending.nodup _ _

theorem get?_resubmitted (name : String) : (p.resubmitted params t).parameters.get? name =
    (p.parameters.get? name).map (·.withValue (params.get? name)) := by
  rw [resubmitted_parameters, Table.get?_mapWithKey]

/-- Apart from its parameters a proposal only depends on the moment of the last hand-in. -/
theorem resubmitted_eq : p.resubmitted params t = { p with
    parameters := (p.resubmitted params t).parameters, status := .modified, updatedAt := t } :=
  rfl

/-- Two hand-ins are one, with the values of the second before those of the first. -/
theorem resubmitted_resubmitted : (p.resubmitted params t).resubmitted params' t' =
    p.resubmitted (params.override params') t' := by
  have parameters : ((p.resubmitted params t).resubmitted params' t').parameters =
      (p.resubmitted (params.override params') t').parameters := by
    refine Table.ext fun name => ?_
    rw [get?_resubmitted, get?_resubmitted, get?_resubmitted, Table.get?_override, Option.map_map]
    exact congrFun (congrArg _ (funext fun a => a.withValue_withValue _ _)) _
  rw [resubmitted_eq, parameters]
  rfl

/-- A hand-in at another moment differs in that moment alone. -/
theorem resubmitted_at : p.resubmitted params t' =
    { p.resubmitted params t with updatedAt := t' } := rfl

/-! ## The laws -/

/-- The second proposal is the first one with given values: those of its parameters that are
named have them, and nothing else of it is different but the status and the moment. -/
structure Merges (p : Proposal) (params : Parameters) (q : Proposal) : Prop where
  names : q.parameters.keys = p.parameters.keys
  given : ∀ name a v, p.parameters.get? name = some a → params.get? name = some v →
    q.parameters.get? name = some { a with value := v }
  kept : ∀ name a, p.parameters.get? name = some a → params.get? name = none →
    q.parameters.get? name = some a
  status : q.status = .modified
  frame : q = { p with
    parameters := q.parameters, status := q.status, updatedAt := q.updatedAt }

theorem merges_resubmitted : Merges p params (p.resubmitted params t) where
  names := by rw [resubmitted_parameters, Table.keys_mapWithKey]
  given := by
    intro name a v found given
    rw [get?_resubmitted, found, given]
    rfl
  kept := by
    intro name a found missing
    rw [get?_resubmitted, found, missing]
    rfl
  status := rfl
  frame := rfl

namespace Store

/-- What can be said of every hand-in of the proposal that is stored under an id. -/
structure ResubmissionLaws (s : Store) (id : String) (p : Proposal) : Prop where
  /-- The result is what is stored then, and it has the given values. -/
  merges : ∀ params t, ∃ q, (resubmit id params t s).result = .ok q ∧
    (resubmit id params t s).world.get? id = some q ∧ q.updatedAt = t ∧ Merges p params q
  /-- Nothing else is touched. -/
  elsewhere : ∀ params t other, other ≠ id →
    (resubmit id params t s).world.get? other = s.get? other
  quiet : ∀ params t, (resubmit id params t s).world.channel = s.channel
  /-- The values may be entered in any order. -/
  unordered : ∀ (params : Parameters) (order : List (String × String)) t,
    order.Perm params.entries → ∃ q, (resubmit id params t s).result = .ok q ∧
      q.parameters = order.foldl Param.enter p.parameters
  /-- Two hand-ins give what one gives that has the values of both. -/
  composes : ∀ (params params' : Parameters) t t' t'', ∃ q,
    (resubmit id params' t' (resubmit id params t s).world).result = .ok q ∧
      (resubmit id (params.override params') t'' s).result = .ok { q with updatedAt := t'' }
  /-- The same values once more only change the moment. -/
  repeats : ∀ params t t', ∃ q, (resubmit id params t s).result = .ok q ∧
    (resubmit id params t' (resubmit id params t s).world).result = .ok { q with updatedAt := t' }

/-- Where a hand-in leads that follows another one. -/
theorem resubmit_again {s : Store} {id : String} {p : Proposal} (stored : s.get? id = some p)
    (params params' : Parameters) (t t' : Instant) :
    (resubmit id params' t' (resubmit id params t s).world).result =
      .ok (p.resubmitted (params.override params') t') := by
  have found : (resubmit id params t s).world.get? id = some (p.resubmitted params t) := by
    rw [resubmit_present stored, get?_mk, Table.get?_insert, if_pos rfl]
  rw [resubmit_present found, resubmitted_resubmitted]

/-- **A hand-in enters the given values into the parameters that are there**, in whatever order
they come, and two of them are one. -/
theorem resubmit_laws {s : Store} {id : String} {p : Proposal} (stored : s.get? id = some p) :
    ResubmissionLaws s id p where
  merges := by
    intro params t
    refine ⟨p.resubmitted params t, ?_, ?_, rfl, merges_resubmitted p params t⟩
    · rw [resubmit_present stored]
    · rw [resubmit_present stored, get?_mk, Table.get?_insert, if_pos rfl]
  elsewhere := by
    intro params t other apart
    rw [resubmit_present stored, get?_mk, Table.get?_insert, if_neg apart]
    rfl
  quiet := by
    intro params t
    rw [resubmit_present stored]
  unordered := by
    intro params order t perm
    refine ⟨p.resubmitted params t, by rw [resubmit_present stored], ?_⟩
    exact (Param.entered_of_perm perm p.parameters).symm
  composes := by
    intro params params' t t' t''
    refine ⟨_, resubmit_again stored params params' t t', ?_⟩
    rw [resubmit_present stored, ← resubmitted_at]
  repeats := by
    intro params t t'
    refine ⟨p.resubmitted params t, by rw [resubmit_present stored], ?_⟩
    rw [resubmit_again stored, Table.override_self, ← resubmitted_at]

/-- A proposal that was accepted, with a level to be selected and an empty note. -/
def accepted : Proposal :=
  { Proposal.new "risk" "Confirm" "seen often" ∅ ⟨0, 0⟩ with
    id := "a"
    status := .accepted
    parameters := Table.ofList
      [("note", .ofValue "note" ""),
       ("level", (Param.ofValue "level" "high").withOptions ["low", "high"])] }

/-- It is handed in with a level and a name that it does not have, and then with a note and
another level. -/
theorem resubmit_laws_accepted :
    let s := (Store.ofCapacity 1).put accepted
    let first := Parameters.ofText "spare=x, level=low"
    let second := Parameters.ofText "note=a=b, level=middle"
    s.get? "a" = some accepted ∧ ResubmissionLaws s "a" accepted ∧
      ((accepted.resubmitted first ⟨0, 1⟩).resubmitted second ⟨0, 2⟩).parameters.entries =
        [("level", ⟨"level", "level", .select, "middle", ["low", "high"]⟩),
         ("note", ⟨"note", "note", .text, "a=b", []⟩)] :=
  ⟨rfl, resubmit_laws rfl, by decide +kernel⟩

end Store

end Proposal

end TriageDesk
