/-
TriageDesk.Proofs.Proposal.Decisions — a proposal is decided on at most once.

`DecisionLaws log id` says what a record of operations shows of one id:
when a decision succeeds and what it leaves, that between two creations at
most one succeeds, that none succeeds once the id was handed in again, and
what the failures mean. `record_decisionLaws` is the theorem: the record of
every run from a store without proposals keeps these laws, for every id.

The invariant is `Settled`: nothing under the id waits for a decision. Only a
creation of the id ends it (`settled_perform`), a decision and a hand-in bring
it about (`settled_of_decides`, `settled_of_resubmits`), and while it holds no
decision succeeds. That is why a proposal that enters the store already
decided, or is replaced, or deleted and created again, needs no case of its
own.
-/
import TriageDesk.Proofs.Proposal.Course

namespace TriageDesk.Proposal.Store

open Time

/-! ## What an entry says of an id -/

/-- Whether a proposal was stored under the id. -/
def Entry.creates (id : String) (e : Entry) : Bool :=
  match e.answer with
  | .stored i => i == id
  | _ => false

/-- Whether a decision on the id was asked for and succeeded. -/
def Entry.decides (id : String) (e : Entry) : Bool :=
  match e.move, e.answer with
  | .decide i _ _, .decided (.ok ()) => i == id
  | _, _ => false

/-- Whether it was asked to hand the id in again. -/
def Entry.resubmits (id : String) (e : Entry) : Bool :=
  match e.move with
  | .resubmit i _ _ => i == id
  | _ => false

/-- The failure that was answered, if one was. -/
def Entry.failure? (e : Entry) : Option Failure :=
  match e.answer with
  | .decided (.error f) => some f
  | .resubmitted (.error f) => some f
  | _ => none

/-- Nothing under the id waits for a decision. -/
def Settled (s : Store) (id : String) : Prop :=
  ∀ p, s.get? id = some p → p.status ≠ .pending

/-- What a record says of the decisions on an id. -/
structure DecisionLaws (log : List Entry) (id : String) : Prop where
  /-- A decision succeeds exactly if a pending proposal is there. -/
  succeeds_iff : ∀ e ∈ log, ∀ d now, e.move = .decide id d now →
    (e.decides id = true ↔ ∃ p, e.before.get? id = some p ∧ p.status = .pending)
  /-- It then leaves the proposal with the status that was decided on: accepted or ignored. -/
  leaves_status : ∀ e ∈ log, ∀ d now, e.move = .decide id d now → e.decides id = true →
    ∃ p, e.after.get? id = some p ∧ (d = .accept → p.status = .accepted) ∧
      (d = .ignore → p.status = .ignored)
  /-- Where the id is not created, at most one decision on it succeeds. -/
  once : ∀ pre mid post, log = pre ++ mid ++ post → (∀ e ∈ mid, e.creates id = false) →
    (mid.filter (·.decides id)).length ≤ 1
  /-- None succeeds before the id is created for the first time. -/
  none_before_creation : ∀ pre post, log = pre ++ post → (∀ e ∈ pre, e.creates id = false) →
    ∀ e ∈ pre, e.decides id = false
  /-- None succeeds after the id was handed in again, until it is created. -/
  none_after_resubmit : ∀ pre e mid post, log = pre ++ e :: (mid ++ post) →
    e.resubmits id = true → (∀ x ∈ mid, x.creates id = false) →
    ∀ x ∈ mid, x.decides id = false
  /-- What is pending was so before, or has just been created. -/
  pending_of_creates : ∀ e ∈ log, ∀ p, e.after.get? id = some p → p.status = .pending →
    e.creates id = true ∨ ∃ q, e.before.get? id = some q ∧ q.status = .pending
  /-- A failure, and the deletion of what is not there, leave everything as it was. -/
  failure_keeps : ∀ e ∈ log, e.failure? ≠ none ∨ e.answer = .deleted false →
    e.after = e.before
  /-- It is answered that the id was not found exactly if a decision on it or a hand-in
  finds nothing there. -/
  notFound_iff : ∀ e ∈ log,
    (e.failure? = some (.notFound id) ↔
      ((∃ d now, e.move = .decide id d now) ∨
        ∃ params now, e.move = .resubmit id params now) ∧ e.before.get? id = none)
  /-- It is answered that the id was processed already exactly if a decision on it finds
  a status other than pending, which the answer names. -/
  alreadyProcessed_iff : ∀ e ∈ log, ∀ status,
    (e.failure? = some (.alreadyProcessed id status) ↔
      (∃ d now, e.move = .decide id d now) ∧
        ∃ p, e.before.get? id = some p ∧ p.status = status ∧ status ≠ .pending)

/-! ## One operation -/

theorem creates_entry (op : Operation) (s : Store) (id : String) :
    (op.entry s).creates id = true ↔
      ∃ p freshId now, op = .create p freshId now ∧ (p.stamped freshId now).id = id := by
  cases op with
  | create p freshId now =>
    simp only [Entry.creates, Operation.entry, Trace.entry, Operation.perform, Act.bind_apply, Act.pure_apply,
      create_result, beq_iff_eq]
    constructor
    · intro h
      exact ⟨p, freshId, now, rfl, h⟩
    · rintro ⟨_, _, _, hop, h⟩
      cases hop
      exact h
  | _ => simp [Entry.creates, Operation.entry, Trace.entry, Operation.perform]

theorem decides_entry (op : Operation) (s : Store) (id : String) :
    (op.entry s).decides id = true ↔
      (∃ d now, op = .decide id d now) ∧ ∃ p, s.get? id = some p ∧ p.status = .pending := by
  cases op with
  | decide i d now =>
    simp only [Entry.decides, Operation.entry, Trace.entry, Operation.perform, Act.bind_apply, Act.pure_apply]
    cases h : s.get? i with
    | none =>
      rw [decide_absent h]
      constructor
      · intro hf; cases hf
      · rintro ⟨⟨_, _, hop⟩, p, hp, _⟩
        cases hop
        rw [h] at hp
        cases hp
    | some p =>
      by_cases hp : p.status = .pending
      · rw [decide_pending h hp]
        simp only [beq_iff_eq]
        constructor
        · rintro rfl
          exact ⟨⟨d, now, rfl⟩, p, h, hp⟩
        · rintro ⟨⟨_, _, hop⟩, _⟩
          cases hop
          rfl
      · rw [decide_settled h hp]
        constructor
        · intro hf; cases hf
        · rintro ⟨⟨_, _, hop⟩, q, hq, hpending⟩
          cases hop
          rw [h] at hq
          cases hq
          exact absurd hpending hp
  | _ => simp [Entry.decides, Operation.entry, Trace.entry]

theorem resubmits_entry (op : Operation) (s : Store) (id : String) :
    (op.entry s).resubmits id = true ↔ ∃ params now, op = .resubmit id params now := by
  cases op with
  | resubmit i params now =>
    simp only [Entry.resubmits, Operation.entry, Trace.entry, beq_iff_eq]
    constructor
    · rintro rfl
      exact ⟨params, now, rfl⟩
    · rintro ⟨_, _, hop⟩
      cases hop
      rfl
  | _ => simp [Entry.resubmits, Operation.entry, Trace.entry]

/-- What is found under an id after an operation that does not create it, in
terms of what was found before: the same, or the same with another status. -/
theorem found_after {op : Operation} {s : Store} {id : String} {p : Proposal}
    (hc : (op.entry s).creates id = false) (h : (op.entry s).after.get? id = some p) :
    ∃ q, s.get? id = some q ∧ (p.status = .pending → q.status = .pending) := by
  have hleaves : op.leaves id (s.get? id) = some p := by
    rw [← Operation.get?_perform]; exact h
  rcases Operation.leaves_cases hleaves with ⟨q, freshId, now, hop, hid, _⟩ | hsame |
    ⟨q, d, now, _, hq, hpending, _⟩ | ⟨q, params, now, _, hq, rfl⟩
  · rw [(creates_entry _ _ _).mpr ⟨q, freshId, now, hop, hid⟩] at hc
    cases hc
  · exact ⟨p, hsame, fun hp => hp⟩
  · exact ⟨q, hq, fun _ => by simpa [isPending] using hpending⟩
  · exact ⟨q, hq, fun hp => by cases hp⟩

/-! ## What is settled stays settled -/

theorem settled_ofCapacity (capacity : Nat) (id : String) : Settled (ofCapacity capacity) id := by
  intro p hp
  cases hp

/-- Only a creation of the id ends that it is settled. -/
theorem settled_perform {op : Operation} {s : Store} {id : String} (h : Settled s id)
    (hc : (op.entry s).creates id = false) : Settled (op.perform s).world id := by
  intro p hp hpending
  obtain ⟨q, hq, hstatus⟩ := found_after hc hp
  exact h q hq (hstatus hpending)

theorem not_settled_of_decides {op : Operation} {s : Store} {id : String}
    (h : (op.entry s).decides id = true) : ¬ Settled s id := by
  obtain ⟨_, p, hp, hpending⟩ := (decides_entry _ _ _).mp h
  exact fun hs => hs p hp hpending

/-- What a decision that succeeds leaves under its id. -/
theorem found_of_decides {d : Decision} {now : Instant} {s : Store} {id : String}
    (h : ((Operation.decide id d now).entry s).decides id = true) :
    ∃ p : Proposal, (Operation.perform (.decide id d now) s).world.get? id =
      some (p.decided d now) := by
  obtain ⟨_, p, hp, hpending⟩ := (decides_entry _ _ _).mp h
  refine ⟨p, ?_⟩
  rw [Operation.get?_perform]
  simp [Operation.leaves, hp, isPending, hpending]

theorem settled_of_decides {op : Operation} {s : Store} {id : String}
    (h : (op.entry s).decides id = true) : Settled (op.perform s).world id := by
  obtain ⟨⟨d, now, rfl⟩, _⟩ := (decides_entry _ _ _).mp h
  obtain ⟨p, hp⟩ := found_of_decides h
  intro q hq hpending
  rw [hp] at hq
  cases hq
  cases d <;> cases hpending

theorem settled_of_resubmits {op : Operation} {s : Store} {id : String}
    (h : (op.entry s).resubmits id = true) : Settled (op.perform s).world id := by
  obtain ⟨params, now, rfl⟩ := (resubmits_entry _ _ _).mp h
  intro p hp hpending
  rw [Operation.get?_perform] at hp
  simp only [Operation.leaves, if_true] at hp
  obtain ⟨q, _, rfl⟩ := Option.map_eq_some_iff.mp hp
  cases hpending

/-- While an id is settled and is not created, no decision on it succeeds. -/
theorem no_decision_of_settled {s : Store} {id : String} {ops : List Operation}
    (h : Settled s id) (hc : ∀ e ∈ record s ops, e.creates id = false) :
    ∀ e ∈ record s ops, e.decides id = false := by
  induction ops generalizing s with
  | nil => intro e he; cases he
  | cons op rest ih =>
    simp only [Trace.record, List.mem_cons, forall_eq_or_imp] at hc ⊢
    refine ⟨?_, ih (settled_perform h hc.1) hc.2⟩
    cases hd : (op.entry s).decides id with
    | false => rfl
    | true => exact absurd h (not_settled_of_decides hd)

/-- Where an id is not created, at most one decision on it succeeds: after the
first one it is settled. -/
theorem decisions_le_one {s : Store} {id : String} {ops : List Operation}
    (hc : ∀ e ∈ record s ops, e.creates id = false) :
    ((record s ops).filter (·.decides id)).length ≤ 1 := by
  induction ops generalizing s with
  | nil => exact Nat.zero_le 1
  | cons op rest ih =>
    simp only [Trace.record, List.mem_cons, forall_eq_or_imp] at hc ⊢
    cases hd : (op.entry s).decides id with
    | false =>
      rw [List.filter_cons_of_neg (by simp [hd])]
      exact ih hc.2
    | true =>
      have hrest : (record (op.perform s).world rest).filter (·.decides id) = [] := by
        rw [List.filter_eq_nil_iff]
        intro e he
        rw [no_decision_of_settled (settled_of_decides hd) hc.2 e he]
        exact Bool.false_ne_true
      rw [List.filter_cons_of_pos (by simp [hd]), hrest]
      exact Nat.le_refl 1

/-! ## Failures -/

/-- The failure of a decision. -/
theorem failure_decide (id : String) (d : Decision) (now : Instant) (s : Store) :
    ((Operation.decide id d now).entry s).failure? =
      match s.get? id with
      | none => some (.notFound id)
      | some p => if p.status = .pending then none else some (.alreadyProcessed id p.status) := by
  simp only [Entry.failure?, Operation.entry, Trace.entry, Operation.perform, Act.bind_apply, Act.pure_apply]
  cases h : s.get? id with
  | none => rw [decide_absent h]
  | some p =>
    by_cases hp : p.status = .pending
    · rw [decide_pending h hp]
      exact (if_pos hp).symm
    · rw [decide_settled h hp]
      exact (if_neg hp).symm

/-- The failure of a hand-in. -/
theorem failure_resubmit (id : String) (params : Parameters) (now : Instant) (s : Store) :
    ((Operation.resubmit id params now).entry s).failure? =
      match s.get? id with
      | none => some (.notFound id)
      | some _ => none := by
  simp only [Entry.failure?, Operation.entry, Trace.entry, Operation.perform, Act.bind_apply, Act.pure_apply]
  cases h : s.get? id with
  | none => rw [resubmit_absent h]
  | some p => rw [resubmit_present h]

/-- Nothing but a decision and a hand-in fails. -/
theorem operation_of_failure {op : Operation} {s : Store} (h : (op.entry s).failure? ≠ none) :
    (∃ id d now, op = .decide id d now) ∨ ∃ id params now, op = .resubmit id params now := by
  cases op with
  | decide id d now => exact Or.inl ⟨id, d, now, rfl⟩
  | resubmit id params now => exact Or.inr ⟨id, params, now, rfl⟩
  | _ => exact absurd rfl h

/-- An operation that fails does nothing. -/
theorem after_of_failure {op : Operation} {s : Store} (h : (op.entry s).failure? ≠ none) :
    (op.entry s).after = s := by
  rcases operation_of_failure h with ⟨id, d, now, rfl⟩ | ⟨id, params, now, rfl⟩
  · rw [failure_decide] at h
    cases hg : s.get? id with
    | none => simp [Operation.entry, Trace.entry, Operation.perform, decide_absent hg]
    | some p =>
      by_cases hp : p.status = .pending
      · rw [hg] at h
        exact absurd (if_pos hp) h
      · simp [Operation.entry, Trace.entry, Operation.perform, decide_settled hg hp]
  · rw [failure_resubmit] at h
    cases hg : s.get? id with
    | none => simp [Operation.entry, Trace.entry, Operation.perform, resubmit_absent hg]
    | some p =>
      rw [hg] at h
      exact absurd rfl h

/-- When an operation answers that an id was not found. -/
theorem failure_notFound_iff (op : Operation) (s : Store) (id : String) :
    (op.entry s).failure? = some (.notFound id) ↔
      ((∃ d now, op = .decide id d now) ∨ ∃ params now, op = .resubmit id params now) ∧
        s.get? id = none := by
  constructor
  · intro hf
    have failed : (op.entry s).failure? ≠ none := by
      rw [hf]
      exact Option.some_ne_none _
    rcases operation_of_failure failed with ⟨i, d, now, rfl⟩ | ⟨i, params, now, rfl⟩
    · rw [failure_decide] at hf
      cases hg : s.get? i with
      | none =>
        rw [hg] at hf
        cases hf
        exact ⟨Or.inl ⟨d, now, rfl⟩, hg⟩
      | some p => by_cases hp : p.status = .pending <;> simp [hg, hp] at hf
    · rw [failure_resubmit] at hf
      cases hg : s.get? i with
      | none =>
        rw [hg] at hf
        cases hf
        exact ⟨Or.inr ⟨params, now, rfl⟩, hg⟩
      | some p => rw [hg] at hf; cases hf
  · rintro ⟨⟨d, now, rfl⟩ | ⟨params, now, rfl⟩, hg⟩
    · rw [failure_decide, hg]
    · rw [failure_resubmit, hg]

/-- When an operation answers that an id was processed already. -/
theorem failure_alreadyProcessed_iff (op : Operation) (s : Store) (id : String)
    (status : Status) :
    (op.entry s).failure? = some (.alreadyProcessed id status) ↔
      (∃ d now, op = .decide id d now) ∧
        ∃ p, s.get? id = some p ∧ p.status = status ∧ status ≠ .pending := by
  constructor
  · intro hf
    have failed : (op.entry s).failure? ≠ none := by
      rw [hf]
      exact Option.some_ne_none _
    rcases operation_of_failure failed with ⟨i, d, now, rfl⟩ | ⟨i, params, now, rfl⟩
    · rw [failure_decide] at hf
      cases hg : s.get? i with
      | none => rw [hg] at hf; cases hf
      | some p =>
        by_cases hp : p.status = .pending
        · simp [hg, hp] at hf
        · simp only [hg, hp, if_false, Option.some.injEq, Failure.alreadyProcessed.injEq] at hf
          obtain ⟨rfl, rfl⟩ := hf
          exact ⟨⟨d, now, rfl⟩, p, hg, rfl, hp⟩
    · rw [failure_resubmit] at hf
      cases hg : s.get? i with
      | none => rw [hg] at hf; cases hf
      | some p => rw [hg] at hf; cases hf
  · rintro ⟨⟨d, now, rfl⟩, p, hg, rfl, hp⟩
    rw [failure_decide, hg]
    exact if_neg hp

/-- Dropping what is not there leaves a table as it was. -/
theorem erase_absent {t : Table Proposal} {id : String} (h : t.get? id = none) :
    t.erase id = t := by
  apply Table.ext
  intro k
  rw [Table.get?_erase]
  split
  · rename_i hk
    rw [hk, h]
  · rfl

/-- A deletion that finds nothing does nothing. -/
theorem after_of_deleted_false {op : Operation} {s : Store}
    (h : (op.entry s).answer = .deleted false) : (op.entry s).after = s := by
  cases op with
  | delete id =>
    simp only [Operation.entry, Trace.entry, Operation.perform, Act.bind_apply, Act.pure_apply,
      delete_apply, Answer.deleted.injEq] at h ⊢
    have hnone : s.proposals.get? id = none :=
      Option.isNone_iff_eq_none.mp (Option.isSome_eq_false_iff.mp h)
    rw [erase_absent hnone]
  | _ => cases h

/-! ## The laws -/

/-- **Decisions are taken at most once.** Whatever is asked of a store that
begins without proposals, its record keeps the laws of decisions for every id. -/
theorem record_decisionLaws (capacity : Nat) (ops : List Operation) (id : String) :
    DecisionLaws (record (ofCapacity capacity) ops) id where
  succeeds_iff := by
    intro e he d now hop
    obtain ⟨first, op, rfl⟩ := Trace.exists_of_mem_record he
    cases hop
    rw [decides_entry]
    exact and_iff_right ⟨d, now, rfl⟩
  leaves_status := by
    intro e he d now hop hd
    obtain ⟨first, op, rfl⟩ := Trace.exists_of_mem_record he
    cases hop
    obtain ⟨p, hp⟩ := found_of_decides hd
    refine ⟨p.decided d now, hp, ?_, ?_⟩
    · rintro rfl
      rfl
    · rintro rfl
      rfl
  once := by
    intro pre mid post hlog hc
    rw [List.append_assoc] at hlog
    obtain ⟨first, then_, _, _, hthen⟩ := Trace.exists_of_record_append hlog
    obtain ⟨second, _, _, rfl, _⟩ := Trace.exists_of_record_append hthen.symm
    exact decisions_le_one hc
  none_before_creation := by
    intro pre post hlog hc
    obtain ⟨first, _, _, rfl, _⟩ := Trace.exists_of_record_append hlog
    exact no_decision_of_settled (settled_ofCapacity capacity id) hc
  none_after_resubmit := by
    intro pre e mid post hlog hr hc
    obtain ⟨first, op, then_, _, _, rfl, hthen⟩ := Trace.exists_of_record_eq hlog
    obtain ⟨second, _, _, rfl, _⟩ := Trace.exists_of_record_append hthen.symm
    exact no_decision_of_settled (settled_of_resubmits hr) hc
  pending_of_creates := by
    intro e he p hp hpending
    obtain ⟨first, op, rfl⟩ := Trace.exists_of_mem_record he
    cases hc : (op.entry (final (ofCapacity capacity) first)).creates id with
    | true => exact Or.inl rfl
    | false =>
      obtain ⟨q, hq, hstatus⟩ := found_after hc hp
      exact Or.inr ⟨q, hq, hstatus hpending⟩
  failure_keeps := by
    intro e he h
    obtain ⟨first, op, rfl⟩ := Trace.exists_of_mem_record he
    rcases h with hf | hdel
    · exact after_of_failure hf
    · exact after_of_deleted_false hdel
  notFound_iff := by
    intro e he
    obtain ⟨first, op, rfl⟩ := Trace.exists_of_mem_record he
    exact failure_notFound_iff op _ id
  alreadyProcessed_iff := by
    intro e he status
    obtain ⟨first, op, rfl⟩ := Trace.exists_of_mem_record he
    exact failure_alreadyProcessed_iff op _ id status

-- a second decision fails, unless the proposal was replaced in the meantime
example (t : Instant) :
    let p := Proposal.new "risk" "title" "summary" ∅ t
    (record empty
      [.create p "a" t, .decide "a" .accept t, .decide "a" .ignore t,
       .create { p with id := "a" } "b" t, .decide "a" .ignore t]).map (·.decides "a") =
      [false, true, false, false, true] := by
  rfl

end TriageDesk.Proposal.Store
