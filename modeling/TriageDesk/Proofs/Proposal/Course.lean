/-
TriageDesk.Proofs.Proposal.Course — everything that can be asked of a store,
as data.

An `Operation` holds the moment and the fresh name that it takes, so a list
of operations says all that happens to a store. A statement about runs is one
about the record of such a list.

Each operation has its equations in the first section, and two lemmas draw
them together for whatever is asked:

* `get?_perform` — what the look-up of an id shows afterwards is a function,
  `Operation.leaves`, of what it showed before.
* `channel_perform` — the channel afterwards is a function,
  `Operation.passes`, of the channel before.

Read backwards, `leaves_cases` says where what is found afterwards has come
from.
-/
import TriageDesk.Proofs.Trace
import TriageDesk.Proposal.Store

namespace TriageDesk.Proposal.Store

open Time

/-! ## What each operation does -/

@[simp] theorem get?_mk (t : Table Proposal) (c : Channel) (id : String) :
    (Store.mk t c).get? id = t.get? id := rfl

theorem create_result (p : Proposal) (freshId : String) (now : Instant) (s : Store) :
    (create p freshId now s).result = (p.stamped freshId now).id := by
  simp only [create, Act.bind_apply, Act.look_apply, Act.change_apply]
  cases s.get? (p.stamped freshId now).id <;> cases s.channel.refusal? <;> rfl

theorem create_world (p : Proposal) (freshId : String) (now : Instant) (s : Store) :
    (create p freshId now s).world =
      ⟨s.proposals.insert (p.stamped freshId now).id (p.stamped freshId now),
        s.channel.offer (p.stamped freshId now)⟩ := by
  simp only [create, Act.bind_apply, Act.look_apply, Act.change_apply]
  cases s.get? (p.stamped freshId now).id <;> cases h : s.channel.refusal? with
  | none => rfl
  | some refusal => cases refusal <;> rfl

/-- A decision on an id that is not there. -/
theorem decide_absent {s : Store} {id : String} (h : s.get? id = none) (d : Decision)
    (now : Instant) : decide id d now s = ⟨.error (.notFound id), s, []⟩ := by
  simp [decide, h]

/-- A decision on a proposal that waits for one. -/
theorem decide_pending {s : Store} {id : String} {p : Proposal} (h : s.get? id = some p)
    (hp : p.status = .pending) (d : Decision) (now : Instant) :
    decide id d now s =
      ⟨.ok (), { s with proposals := s.proposals.insert id (p.decided d now) },
        [.proposalDecided p.id p.kind p.title d.status.name]⟩ := by
  simp [decide, h, isPending, hp]

/-- A decision on a proposal that does not wait for one any more. -/
theorem decide_settled {s : Store} {id : String} {p : Proposal} (h : s.get? id = some p)
    (hp : p.status ≠ .pending) (d : Decision) (now : Instant) :
    decide id d now s = ⟨.error (.alreadyProcessed id p.status), s, []⟩ := by
  simp [decide, h, isPending, hp]

theorem resubmit_absent {s : Store} {id : String} (h : s.get? id = none) (params : Parameters)
    (now : Instant) : resubmit id params now s = ⟨.error (.notFound id), s, []⟩ := by
  simp [resubmit, h]

theorem resubmit_present {s : Store} {id : String} {p : Proposal} (h : s.get? id = some p)
    (params : Parameters) (now : Instant) :
    resubmit id params now s =
      ⟨.ok (p.resubmitted params now),
        { s with proposals := s.proposals.insert id (p.resubmitted params now) },
        [.proposalResubmitted p.id p.kind p.title]⟩ := by
  simp [resubmit, h]

theorem delete_apply (id : String) (s : Store) :
    delete id s = ⟨(s.get? id).isSome, { s with proposals := s.proposals.erase id }, []⟩ := by
  simp [delete]

/-! ## Operations as data -/

/-- Something that can be asked of a store. -/
inductive Operation
  | create (p : Proposal) (freshId : String) (now : Instant)
  | decide (id : String) (d : Decision) (now : Instant)
  | resubmit (id : String) (params : Parameters) (now : Instant)
  | delete (id : String)
  | get (id : String)
  | all
  | pending
  | size
  | takeNotifications
  | receive
  | closeNotifications

/-- What a store answers. -/
inductive Answer
  | stored (id : String)
  | decided (result : Except Failure Unit)
  | resubmitted (result : Except Failure Proposal)
  | deleted (there : Bool)
  | found (p : Option Proposal)
  | listed (ps : List Proposal)
  | counted (n : Nat)
  | taken (there : Bool)
  | received (p : Option Proposal)
  | closed

namespace Operation

/-- Does what is asked. -/
def perform : Operation → Act Store Answer
  | .create p freshId now => do return .stored (← Store.create p freshId now)
  | .decide id d now => do return .decided (← Store.decide id d now)
  | .resubmit id params now => do return .resubmitted (← Store.resubmit id params now)
  | .delete id => do return .deleted (← Store.delete id)
  | .get id => do return .found ((← Act.look).get? id)
  | .all => do return .listed (← Act.look).all
  | .pending => do return .listed (← Act.look).pending
  | .size => do return .counted (← Act.look).proposals.size
  | .takeNotifications => do return .taken (← Store.takeNotifications)
  | .receive => do return .received (← Store.receive)
  | .closeNotifications => do
    Store.closeNotifications
    return .closed

/-- What an operation leaves under an id under which it finds something, or
nothing. -/
def leaves (op : Operation) (id : String) (before : Option Proposal) : Option Proposal :=
  match op with
  | .create p freshId now =>
    if id = (p.stamped freshId now).id then some (p.stamped freshId now) else before
  | .decide i d now =>
    if id = i then before.map fun p => if p.isPending then p.decided d now else p else before
  | .resubmit i params now =>
    if id = i then before.map fun p => p.resubmitted params now else before
  | .delete i => if id = i then none else before
  | _ => before

/-- What an operation makes of the channel. -/
def passes (op : Operation) (c : Channel) : Channel :=
  match op with
  | .create p freshId now => c.offer (p.stamped freshId now)
  | .takeNotifications => c.take.2
  | .receive => c.receive.2
  | .closeNotifications => c.close
  | _ => c

/-- The look-up of any id after an operation. -/
theorem get?_perform (op : Operation) (s : Store) (id : String) :
    (op.perform s).world.get? id = op.leaves id (s.get? id) := by
  cases op with
  | create p freshId now =>
    simp only [perform, leaves, Act.bind_apply, Act.pure_apply, create_world]
    exact Table.get?_insert _ _ _ _
  | decide i d now =>
    simp only [perform, leaves, Act.bind_apply, Act.pure_apply]
    cases h : s.get? i with
    | none =>
      rw [decide_absent h]
      by_cases hi : id = i
      · subst hi; simp [h]
      · simp [hi]
    | some p =>
      by_cases hp : p.status = .pending
      · rw [decide_pending h hp]
        by_cases hi : id = i
        · subst hi; simp [Table.get?_insert, h, isPending, hp]
        · simp [Table.get?_insert, hi, Store.get?]
      · rw [decide_settled h hp]
        by_cases hi : id = i
        · subst hi; simp [h, isPending, hp]
        · simp [hi]
  | resubmit i params now =>
    simp only [perform, leaves, Act.bind_apply, Act.pure_apply]
    cases h : s.get? i with
    | none =>
      rw [resubmit_absent h]
      by_cases hi : id = i
      · subst hi; simp [h]
      · simp [hi]
    | some p =>
      rw [resubmit_present h]
      by_cases hi : id = i
      · subst hi; simp [Table.get?_insert, h]
      · simp [Table.get?_insert, hi, Store.get?]
  | delete i =>
    simp only [perform, leaves, Act.bind_apply, Act.pure_apply, delete_apply]
    exact Table.get?_erase _ _ _
  | _ => rfl

/-- The channel after an operation. -/
theorem channel_perform (op : Operation) (s : Store) :
    (op.perform s).world.channel = op.passes s.channel := by
  cases op with
  | create p freshId now =>
    simp only [perform, passes, Act.bind_apply, Act.pure_apply, create_world]
  | decide i d now =>
    simp only [perform, passes, Act.bind_apply, Act.pure_apply]
    cases h : s.get? i with
    | none => rw [decide_absent h]
    | some p =>
      by_cases hp : p.status = .pending
      · rw [decide_pending h hp]
      · rw [decide_settled h hp]
  | resubmit i params now =>
    simp only [perform, passes, Act.bind_apply, Act.pure_apply]
    cases h : s.get? i with
    | none => rw [resubmit_absent h]
    | some p => rw [resubmit_present h]
  | delete i => simp only [perform, passes, Act.bind_apply, Act.pure_apply, delete_apply]
  | _ => rfl

/-- What is found after an operation was stored by it, or was found before: left as it
was, decided on, or handed in again. -/
theorem leaves_cases {op : Operation} {id : String} {before : Option Proposal} {q : Proposal}
    (h : op.leaves id before = some q) :
    (∃ p freshId now, op = .create p freshId now ∧ (p.stamped freshId now).id = id ∧
      q = p.stamped freshId now) ∨
    before = some q ∨
    (∃ p d now, op = .decide id d now ∧ before = some p ∧ p.isPending = true ∧
      q = p.decided d now) ∨
    (∃ p params now, op = .resubmit id params now ∧ before = some p ∧
      q = p.resubmitted params now) := by
  cases op with
  | create p freshId now =>
    simp only [leaves] at h
    split at h
    · rename_i hid
      exact Or.inl ⟨p, freshId, now, rfl, hid.symm, (Option.some.inj h).symm⟩
    · exact Or.inr (Or.inl h)
  | decide i d now =>
    simp only [leaves] at h
    split at h
    · rename_i hid
      subst hid
      obtain ⟨p, hp, hq⟩ := Option.map_eq_some_iff.mp h
      by_cases hw : p.isPending = true
      · rw [if_pos hw] at hq
        exact Or.inr (Or.inr (Or.inl ⟨p, d, now, rfl, hp, hw, hq.symm⟩))
      · rw [if_neg hw] at hq
        exact Or.inr (Or.inl (hq ▸ hp))
    · exact Or.inr (Or.inl h)
  | resubmit i params now =>
    simp only [leaves] at h
    split at h
    · rename_i hid
      subst hid
      obtain ⟨p, hp, hq⟩ := Option.map_eq_some_iff.mp h
      exact Or.inr (Or.inr (Or.inr ⟨p, params, now, rfl, hp, hq.symm⟩))
    · exact Or.inr (Or.inl h)
  | delete i =>
    simp only [leaves] at h
    split at h
    · cases h
    · exact Or.inr (Or.inl h)
  | _ => exact Or.inr (Or.inl h)

end Operation

/-! ## Records of runs -/

/-- What there is to say of an operation that was performed. -/
abbrev Entry := Trace.Entry Store Operation Answer

/-- The entry of an operation on a store. -/
abbrev Operation.entry (op : Operation) (s : Store) : Entry := Trace.entry Operation.perform op s

/-- The record of operations on a store. -/
abbrev record (s : Store) (ops : List Operation) : List Entry := Trace.record Operation.perform s ops

/-- The store after operations. -/
abbrev final (s : Store) (ops : List Operation) : Store := Trace.final Operation.perform s ops

end TriageDesk.Proposal.Store
