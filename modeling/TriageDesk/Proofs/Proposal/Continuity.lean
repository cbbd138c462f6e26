/-
TriageDesk.Proofs.Proposal.Continuity — what a stored proposal is found under, and
what of it can change.

`ContinuityLaws log` says what a record of operations shows of the proposals
themselves: each is found under its own id and was not changed before it was
created, and from the creation of an id on only the status, the values of the
parameters and the moment of the last change are ever different (`Continues`).
`record_continuityLaws` is the theorem. It asks for what the surroundings
promise, `WellSupplied`: a clock that never goes back, and fresh names that are
not empty.

The invariant is `Sound s ops`, which speaks of the operations that are still to
come: nothing in the store is younger than any moment that they will take. A
creation needs none of it, since it brings its own moment; a decision and a
hand-in need it to keep the order of a proposal's two moments.
-/
import TriageDesk.Proofs.Proposal.Decisions
import TriageDesk.Proofs.Proposal.Resubmission
import TriageDesk.Proofs.Time.Order

namespace TriageDesk.Proposal

open Time

/-! ## What stays of a proposal -/

/-- The second proposal is the first one at a later time: only its status, the values of its
parameters and the moment of its last change may differ. -/
structure Continues (p q : Proposal) : Prop where
  id : q.id = p.id
  kind : q.kind = p.kind
  title : q.title = p.title
  summary : q.summary = p.summary
  details : q.details = p.details
  actions : q.actions = p.actions
  createdAt : q.createdAt = p.createdAt
  names : q.parameters.keys = p.parameters.keys
  /-- A parameter keeps its key, its label, its kind and its options. -/
  parameters : ∀ name a, p.parameters.get? name = some a →
    ∃ b, q.parameters.get? name = some b ∧
      b.key = a.key ∧ b.label = a.label ∧ b.kind = a.kind ∧ b.options = a.options
  updatedAt : p.updatedAt ≤ q.updatedAt

theorem Continues.refl (p : Proposal) : p.Continues p :=
  ⟨rfl, rfl, rfl, rfl, rfl, rfl, rfl, rfl, fun _ a ha => ⟨a, ha, rfl, rfl, rfl, rfl⟩,
    Instant.le_refl _⟩

theorem Continues.trans {p q r : Proposal} (h₁ : p.Continues q) (h₂ : q.Continues r) :
    p.Continues r where
  id := h₂.id.trans h₁.id
  kind := h₂.kind.trans h₁.kind
  title := h₂.title.trans h₁.title
  summary := h₂.summary.trans h₁.summary
  details := h₂.details.trans h₁.details
  actions := h₂.actions.trans h₁.actions
  createdAt := h₂.createdAt.trans h₁.createdAt
  names := h₂.names.trans h₁.names
  parameters := by
    intro name a ha
    obtain ⟨b, hb, key, label, kind, options⟩ := h₁.parameters name a ha
    obtain ⟨c, hc, key', label', kind', options'⟩ := h₂.parameters name b hb
    exact ⟨c, hc, key'.trans key, label'.trans label, kind'.trans kind, options'.trans options⟩
  updatedAt := Instant.le_trans h₁.updatedAt h₂.updatedAt

theorem continues_decided {p : Proposal} {now : Instant} (h : p.updatedAt ≤ now) (d : Decision) :
    p.Continues (p.decided d now) :=
  { Continues.refl p with updatedAt := h }

theorem continues_resubmitted {p : Proposal} {now : Instant} (h : p.updatedAt ≤ now)
    (params : Parameters) : p.Continues (p.resubmitted params now) :=
  { Continues.refl p with
    names := by rw [resubmitted_parameters, Table.keys_mapWithKey]
    parameters := by
      intro name a ha
      refine ⟨a.withValue (params.get? name), ?_, rfl, rfl, rfl, rfl⟩
      rw [get?_resubmitted, ha]
      rfl
    updatedAt := h }

namespace Store

/-! ## What the surroundings promise -/

/-- The moment that an operation takes. -/
def Operation.moment? : Operation → Option Instant
  | .create _ _ now | .decide _ _ now | .resubmit _ _ now => some now
  | _ => none

/-- The fresh name that an operation takes. -/
def Operation.freshName? : Operation → Option String
  | .create _ freshId _ => some freshId
  | _ => none

/-- The moments that operations take, in their order. -/
def moments (ops : List Operation) : List Instant := ops.filterMap Operation.moment?

/-- What operations take from their surroundings is as it should be. -/
structure WellSupplied (ops : List Operation) : Prop where
  /-- The clock never goes back. -/
  steady : (moments ops).Pairwise (· ≤ ·)
  /-- No fresh name is empty. -/
  named : ∀ name ∈ ops.filterMap Operation.freshName?, name ≠ ""

theorem moments_append (first then_ : List Operation) :
    moments (first ++ then_) = moments first ++ moments then_ :=
  List.filterMap_append

theorem mem_moments_cons {op : Operation} {rest : List Operation} {t : Instant}
    (h : t ∈ moments rest) : t ∈ moments (op :: rest) := by
  rw [show op :: rest = [op] ++ rest from rfl, moments_append]
  exact List.mem_append_right _ h

theorem moment_mem {op : Operation} {rest : List Operation} {now : Instant}
    (h : op.moment? = some now) : now ∈ moments (op :: rest) := by
  simp [moments, h]

theorem WellSupplied.of_append {first then_ : List Operation}
    (h : WellSupplied (first ++ then_)) : WellSupplied then_ where
  steady := by
    have steady := h.steady
    rw [moments_append, List.pairwise_append] at steady
    exact steady.2.1
  named := by
    intro name hname
    apply h.named
    rw [List.filterMap_append]
    exact List.mem_append_right _ hname

theorem WellSupplied.tail {op : Operation} {rest : List Operation}
    (h : WellSupplied (op :: rest)) : WellSupplied rest := by
  have split : WellSupplied ([op] ++ rest) := h
  exact split.of_append

/-- The moment of an operation is at most any that comes later. -/
theorem WellSupplied.moment_le {op : Operation} {rest : List Operation} {now t : Instant}
    (h : WellSupplied (op :: rest)) (hnow : op.moment? = some now) (ht : t ∈ moments rest) :
    now ≤ t := by
  have steady := h.steady
  simp only [moments, List.filterMap_cons, hnow, List.pairwise_cons] at steady
  exact steady.1 t ht

/-! ## Stores before what is still to come -/

/-- What is found in a store is found under its own id, and neither its creation nor the
operations to come disturb the order of its moments. -/
structure Sound (s : Store) (ops : List Operation) : Prop where
  keyed : ∀ id p, s.get? id = some p → id ≠ "" ∧ p.id = id
  ordered : ∀ id p, s.get? id = some p → p.createdAt ≤ p.updatedAt
  young : ∀ id p, s.get? id = some p → ∀ t ∈ moments ops, p.updatedAt ≤ t

theorem sound_ofCapacity (capacity : Nat) (ops : List Operation) :
    Sound (ofCapacity capacity) ops where
  keyed := by intro id p h; cases h
  ordered := by intro id p h; cases h
  young := by intro id p h; cases h

/-- What is created has an id. -/
theorem stamped_id_ne {p : Proposal} {freshId : String} (h : freshId ≠ "") (now : Instant) :
    (p.stamped freshId now).id ≠ "" := by
  unfold stamped
  split
  · exact h
  · assumption

/-- What is found after an operation is what the operation has created at its moment, or
continues what was found before. -/
theorem created_or_continues {op : Operation} {s : Store} {rest : List Operation} {id : String}
    {q : Proposal} (h : Sound s (op :: rest)) (hq : op.leaves id (s.get? id) = some q) :
    (∃ p freshId now, op = .create p freshId now ∧ (p.stamped freshId now).id = id ∧
      q = p.stamped freshId now) ∨
    ∃ p, s.get? id = some p ∧ p.Continues q ∧
      (q.updatedAt = p.updatedAt ∨ op.moment? = some q.updatedAt) := by
  rcases Operation.leaves_cases hq with hcreate | hsame | ⟨p, d, now, hop, hp, _, hdecided⟩ |
    ⟨p, params, now, hop, hp, hresubmitted⟩
  · exact Or.inl hcreate
  · exact Or.inr ⟨q, hsame, Continues.refl q, Or.inl rfl⟩
  · have moment : op.moment? = some now := by rw [hop]; rfl
    have hle := h.young id p hp now (moment_mem moment)
    rw [hdecided]
    exact Or.inr ⟨p, hp, continues_decided hle d, Or.inr moment⟩
  · have moment : op.moment? = some now := by rw [hop]; rfl
    have hle := h.young id p hp now (moment_mem moment)
    rw [hresubmitted]
    exact Or.inr ⟨p, hp, continues_resubmitted hle params, Or.inr moment⟩

/-- One operation keeps a store sound. -/
theorem Sound.perform {op : Operation} {s : Store} {rest : List Operation}
    (h : Sound s (op :: rest)) (hs : WellSupplied (op :: rest)) :
    Sound (op.perform s).world rest where
  keyed := by
    intro id q hq
    rw [Operation.get?_perform] at hq
    rcases created_or_continues h hq with ⟨p, freshId, now, rfl, hid, rfl⟩ | ⟨p, hp, hc, _⟩
    · have named : freshId ≠ "" := hs.named freshId (by simp [Operation.freshName?])
      exact ⟨hid ▸ stamped_id_ne named now, hid⟩
    · obtain ⟨hne, hid⟩ := h.keyed id p hp
      exact ⟨hne, hc.id.trans hid⟩
  ordered := by
    intro id q hq
    rw [Operation.get?_perform] at hq
    rcases created_or_continues h hq with ⟨p, freshId, now, _, _, rfl⟩ | ⟨p, hp, hc, _⟩
    · exact Instant.earlier_le p.createdAt now
    · rw [hc.createdAt]
      exact Instant.le_trans (h.ordered id p hp) hc.updatedAt
  young := by
    intro id q hq t ht
    rw [Operation.get?_perform] at hq
    rcases created_or_continues h hq with ⟨p, freshId, now, rfl, _, rfl⟩ | ⟨p, hp, _, hsame | hnow⟩
    · exact hs.moment_le rfl ht
    · rw [hsame]
      exact h.young id p hp t (mem_moments_cons ht)
    · exact hs.moment_le hnow ht

/-- The run lemma: operations keep a store sound for those that come after them. -/
theorem Sound.final {s : Store} {first then_ : List Operation} (h : Sound s (first ++ then_))
    (hs : WellSupplied (first ++ then_)) : Sound (final s first) then_ := by
  induction first generalizing s with
  | nil => exact h
  | cons op rest ih => exact ih (h.perform hs) hs.tail

/-! ## From a creation on -/

/-- Whether it was asked to drop what is under the id. -/
def Entry.deletes (id : String) (e : Entry) : Bool :=
  match e.move with
  | .delete i => i == id
  | _ => false

theorem deletes_entry (op : Operation) (s : Store) (id : String) :
    (op.entry s).deletes id = true ↔ op = .delete id := by
  cases op <;> simp [Entry.deletes, Operation.entry, Trace.entry]

/-- What is found under an id is still found after an operation that does not drop it. -/
theorem exists_found_after {op : Operation} {s : Store} {id : String} {p : Proposal}
    (hp : s.get? id = some p) (hd : (op.entry s).deletes id = false) :
    ∃ q, op.leaves id (s.get? id) = some q := by
  cases op with
  | create q freshId now =>
    simp only [Operation.leaves]
    split
    · exact ⟨_, rfl⟩
    · exact ⟨p, hp⟩
  | decide i d now =>
    simp only [Operation.leaves, hp]
    split
    · exact ⟨_, rfl⟩
    · exact ⟨p, rfl⟩
  | resubmit i params now =>
    simp only [Operation.leaves, hp]
    split
    · exact ⟨_, rfl⟩
    · exact ⟨p, rfl⟩
  | delete i =>
    have hne : ¬ id = i := by
      rintro rfl
      rw [(deletes_entry _ _ _).mpr rfl] at hd
      cases hd
    exact ⟨p, by simp [Operation.leaves, hne, hp]⟩
  | _ => exact ⟨p, hp⟩

/-- One operation that neither creates nor drops an id. -/
theorem continues_perform {op : Operation} {s : Store} {rest : List Operation} {id : String}
    {p : Proposal} (h : Sound s (op :: rest)) (hp : s.get? id = some p)
    (hc : (op.entry s).creates id = false) (hd : (op.entry s).deletes id = false) :
    ∃ q, (op.perform s).world.get? id = some q ∧ p.Continues q := by
  obtain ⟨q, hq⟩ := exists_found_after hp hd
  refine ⟨q, (Operation.get?_perform op s id).trans hq, ?_⟩
  rcases created_or_continues h hq with ⟨r, freshId, now, hop, hid, _⟩ | ⟨r, hr, hcontinues, _⟩
  · rw [(creates_entry _ _ _).mpr ⟨r, freshId, now, hop, hid⟩] at hc
    cases hc
  · rw [hp] at hr
    cases hr
    exact hcontinues

/-- A run in which an id is neither created nor dropped. -/
theorem continues_record {s : Store} {ops more : List Operation} {id : String} {p : Proposal}
    (h : Sound s (ops ++ more)) (hs : WellSupplied (ops ++ more)) (hp : s.get? id = some p)
    (hkept : ∀ e ∈ record s ops, e.creates id = false ∧ e.deletes id = false) :
    ∀ e ∈ record s ops, ∃ q, e.after.get? id = some q ∧ p.Continues q := by
  induction ops generalizing s p with
  | nil => intro e he; cases he
  | cons op rest ih =>
    simp only [Trace.record, List.mem_cons, forall_eq_or_imp] at hkept ⊢
    obtain ⟨q, hq, hpq⟩ := continues_perform h hp hkept.1.1 hkept.1.2
    refine ⟨⟨q, hq, hpq⟩, ?_⟩
    intro e he
    obtain ⟨r, hr, hqr⟩ := ih (h.perform hs) hs.tail hq hkept.2 e he
    exact ⟨r, hr, hpq.trans hqr⟩

/-! ## The laws -/

/-- The id that an operation may change something under. -/
def Operation.about? : Operation → Option String
  | .create p freshId now => some (p.stamped freshId now).id
  | .decide id _ _ | .resubmit id _ _ | .delete id => some id
  | _ => none

theorem leaves_elsewhere {op : Operation} {id : String} (h : op.about? ≠ some id)
    (before : Option Proposal) : op.leaves id before = before := by
  have other : ∀ {i : String}, op.about? = some i → ¬ id = i := by
    rintro i hi rfl
    exact h hi
  cases op with
  | create | decide | resubmit | delete => exact if_neg (other rfl)
  | _ => rfl

/-- What a record says of the proposals that were stored. -/
structure ContinuityLaws (log : List Entry) : Prop where
  /-- What is found has an id, and it is found under it. -/
  keyed : ∀ e ∈ log, ∀ id p, e.after.get? id = some p → id ≠ "" ∧ p.id = id
  /-- Nothing was changed before it was created. -/
  ordered : ∀ e ∈ log, ∀ id p, e.after.get? id = some p → p.createdAt ≤ p.updatedAt
  /-- What is found under an id goes on to be found there until the id is created again or
  dropped, and only its status, the values of its parameters and the moment of its last
  change, which never goes back, are different then. -/
  continues : ∀ pre e mid post id p, log = pre ++ e :: (mid ++ post) →
    e.after.get? id = some p →
    (∀ x ∈ mid, x.creates id = false ∧ x.deletes id = false) →
    ∀ x ∈ mid, ∃ q, x.after.get? id = some q ∧ p.Continues q
  /-- A decision that succeeds is the last change of its proposal. -/
  refreshed_by_decision : ∀ e ∈ log, ∀ id d now, e.move = .decide id d now →
    e.decides id = true → ∃ q, e.after.get? id = some q ∧ q.updatedAt = now
  /-- So is a hand-in that succeeds, and it answers what is stored then. -/
  refreshed_by_resubmission : ∀ e ∈ log, ∀ id params now q,
    e.move = .resubmit id params now → e.answer = .resubmitted (.ok q) →
    e.after.get? id = some q ∧ q.updatedAt = now
  /-- An operation on one id leaves what is found under any other as it was. -/
  elsewhere : ∀ e ∈ log, ∀ id, e.move.about? ≠ some id →
    e.after.get? id = e.before.get? id

theorem refreshed_resubmit {id : String} {params : Parameters} {now : Instant} {s : Store}
    {q : Proposal}
    (h : ((Operation.resubmit id params now).entry s).answer = .resubmitted (.ok q)) :
    (Operation.perform (.resubmit id params now) s).world.get? id = some q ∧
      q.updatedAt = now := by
  simp only [Operation.entry, Trace.entry, Operation.perform, Act.bind_apply, Act.pure_apply] at h
  cases hg : s.get? id with
  | none =>
    rw [resubmit_absent hg] at h
    cases h
  | some p =>
    rw [resubmit_present hg] at h
    cases h
    rw [Operation.get?_perform]
    exact ⟨by simp [Operation.leaves, hg], rfl⟩

/-- **A proposal is found under its own id and keeps what it says.** Whatever is asked of a
store that begins without proposals, its record keeps the laws of continuity, if the clock
never goes back and no fresh name is empty. -/
theorem record_continuityLaws (capacity : Nat) {ops : List Operation} (hs : WellSupplied ops) :
    ContinuityLaws (record (ofCapacity capacity) ops) where
  keyed := by
    intro e he
    obtain ⟨pre, post, hlog⟩ := List.append_of_mem he
    obtain ⟨first, op, then_, rfl, _, rfl, _⟩ := Trace.exists_of_record_eq hlog
    have sound := (sound_ofCapacity capacity _).final hs
    exact (sound.perform hs.of_append).keyed
  ordered := by
    intro e he
    obtain ⟨pre, post, hlog⟩ := List.append_of_mem he
    obtain ⟨first, op, then_, rfl, _, rfl, _⟩ := Trace.exists_of_record_eq hlog
    have sound := (sound_ofCapacity capacity _).final hs
    exact (sound.perform hs.of_append).ordered
  continues := by
    intro pre e mid post id p hlog hp hkept
    obtain ⟨first, op, then_, rfl, _, rfl, hthen⟩ := Trace.exists_of_record_eq hlog
    obtain ⟨second, third, rfl, rfl, _⟩ := Trace.exists_of_record_append hthen.symm
    have sound := (sound_ofCapacity capacity _).final hs
    exact continues_record (sound.perform hs.of_append) hs.of_append.tail hp hkept
  refreshed_by_decision := by
    intro e he id d now hop hd
    obtain ⟨first, op, rfl⟩ := Trace.exists_of_mem_record he
    cases hop
    obtain ⟨p, hp⟩ := found_of_decides hd
    exact ⟨p.decided d now, hp, rfl⟩
  refreshed_by_resubmission := by
    intro e he id params now q hop hanswer
    obtain ⟨first, op, rfl⟩ := Trace.exists_of_mem_record he
    cases hop
    exact refreshed_resubmit hanswer
  elsewhere := by
    intro e he id habout
    obtain ⟨first, op, rfl⟩ := Trace.exists_of_mem_record he
    exact (Operation.get?_perform op _ id).trans (leaves_elsewhere habout _)

/-- A proposal that is dated ahead is decided on and handed in again, while a second one is
stored; then it is dropped, and stored once more under its id. -/
def upheaval : List Operation :=
  let p : Proposal := { new "risk" "title" "summary" ∅ ⟨4102444800, 0⟩ with id := "a" }
  let p := p.withParam (.ofValue "level" "high")
  [.create p "x" ⟨1000, 5⟩, .decide "a" .accept ⟨1000, 7⟩,
    .resubmit "a" (Table.ofList [("level", "low"), ("other", "1")]) ⟨1000, 7⟩,
    .create { p with id := "" } "y" ⟨1001, 0⟩, .decide "y" .ignore ⟨1001, 1⟩, .delete "a",
    .create p "z" ⟨1002, 0⟩]

theorem record_continuityLaws_upheaval :
    WellSupplied upheaval ∧ ContinuityLaws (record (ofCapacity 1) upheaval) := by
  have supplied : WellSupplied upheaval := ⟨by decide, by decide⟩
  exact ⟨supplied, record_continuityLaws 1 supplied⟩

end Store

end TriageDesk.Proposal
