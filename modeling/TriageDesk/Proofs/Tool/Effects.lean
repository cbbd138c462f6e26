/-
TriageDesk.Proofs.Tool.Effects — what a call of a tool can do to the desk.

Of the three tools two only ever hand a request over. `Query.post_apply` and
`Disposal.send_apply` say how, and everything else comes from them:

* `Query.execute_world`, `Disposal.execute_world` — the desk is as it was, or
  has one more request (`Desk.AtMostSends`);
* `Query.run_closed`, `Disposal.run_closed` — where the way is closed they are refused.

The third files a proposal or does nothing at all:

* `Filing.file_unread` — arguments that cannot be read change nothing;
* `Filing.file_world` — arguments that can be read store one proposal,
  `Filing.stored`, under the next name of the supply, and word of it is given.

What is filed is always new: `Filing.stored_id`, `Filing.stored_status` and
`Filing.stored_actions` hold for every form, so nothing that a call says of an
id, a status or actions counts.
-/
import TriageDesk.Proofs.Proposal.Course
import TriageDesk.Tool.Disposal
import TriageDesk.Tool.Filing
import TriageDesk.Tool.Query

namespace TriageDesk

open Time

/-! ## Requests -/

/-- The second desk is the first, with at most one more request handed over. -/
def Desk.AtMostSends (d d' : Desk) : Prop :=
  d' = d ∨ ∃ request, d' = { d with requests := d.requests ++ [request] }

theorem Desk.AtMostSends.store_eq {d d' : Desk} (h : d.AtMostSends d') : d'.store = d.store := by
  obtain rfl | ⟨request, rfl⟩ := h
  · rfl
  · rfl

theorem Desk.AtMostSends.supply_eq {d d' : Desk} (h : d.AtMostSends d') :
    d'.supply = d.supply := by
  obtain rfl | ⟨request, rfl⟩ := h
  · rfl
  · rfl

theorem Desk.AtMostSends.ways_eq {d d' : Desk} (h : d.AtMostSends d') :
    d'.queriesOpen = d.queriesOpen ∧ d'.disposalsOpen = d.disposalsOpen := by
  obtain rfl | ⟨request, rfl⟩ := h
  · exact ⟨rfl, rfl⟩
  · exact ⟨rfl, rfl⟩

/-- What comes of a request that is handed over. -/
def Desk.exchange (d : Desk) (request : Http.Request) : Except Http.Failure (Nat × String) := do
  let url ← request.destination
  (d.supply.outcome d.requests.length request).read url

theorem Desk.send_apply (request : Http.Request) (d : Desk) :
    Desk.send request d =
      ⟨d.exchange request, { d with requests := d.requests ++ [request] }, []⟩ := rfl

/-- A query is sent where the way is open, and refused where it is not. -/
theorem Query.post_apply (q : Query) (sql : String) (d : Desk) : q.post sql d =
    if d.queriesOpen then
      ⟨accepted (d.exchange (q.request sql)),
        { d with requests := d.requests ++ [q.request sql] }, []⟩
    else ⟨.error .closed, d, []⟩ := by
  cases opened : d.queriesOpen with
  | true => simp [Query.post, opened, Desk.send_apply]
  | false => simp [Query.post, opened]

/-- A disposal is sent where the way is open, and refused where it is not. -/
theorem Disposal.send_apply (s : Disposal) (p : Prepared) (d : Desk) : s.send p d =
    if d.disposalsOpen then
      ⟨accepted (d.exchange (s.request p)), { d with requests := d.requests ++ [s.request p] }, []⟩
    else ⟨.error .closed, d, []⟩ := by
  cases opened : d.disposalsOpen with
  | true => simp [Disposal.send, opened, Desk.send_apply]
  | false => simp [Disposal.send, opened]

theorem Query.atMostSends_post (q : Query) (sql : String) (d : Desk) :
    d.AtMostSends (q.post sql d).world := by
  rw [Query.post_apply]
  split
  · exact Or.inr ⟨q.request sql, rfl⟩
  · exact Or.inl rfl

theorem Disposal.atMostSends_send (s : Disposal) (p : Prepared) (d : Desk) :
    d.AtMostSends (s.send p d).world := by
  rw [Disposal.send_apply]
  split
  · exact Or.inr ⟨s.request p, rfl⟩
  · exact Or.inl rfl

theorem Query.execute_unresolved (q : Query) {args : Json} {f : Failure}
    (unresolved : q.resolveArguments args = .error f) (d : Desk) :
    q.execute args d = ⟨.error f, d, []⟩ := by
  rw [Query.execute, unresolved]
  rfl

/-- A query that can be resolved is posted, and what comes of it is shown. -/
theorem Query.execute_resolved (q : Query) {args : Json} {sql : String}
    (resolved : q.resolveArguments args = .ok sql) (d : Desk) :
    (q.execute args d).result = (q.post sql d).result.map Rows.present ∧
      (q.execute args d).world = (q.post sql d).world := by
  rw [Query.execute, resolved]
  exact ⟨rfl, rfl⟩

theorem Disposal.execute_unresolved (s : Disposal) {args : Json} {f : Failure}
    (unresolved : s.prepareArguments args = .error f) (d : Desk) :
    s.execute args d = ⟨.error f, d, []⟩ := by
  rw [Disposal.execute, unresolved]
  rfl

/-- A disposal that can be prepared is sent. -/
theorem Disposal.execute_resolved (s : Disposal) {args : Json} {id : String} {p : Prepared}
    (resolved : s.prepareArguments args = .ok (id, p)) (d : Desk) :
    (s.execute args d).result = (s.send p d).result ∧
      (s.execute args d).world = (s.send p d).world := by
  rw [Disposal.execute, resolved]
  exact ⟨rfl, rfl⟩

theorem Query.execute_world (q : Query) (args : Json) (d : Desk) :
    d.AtMostSends (q.execute args d).world := by
  cases resolved : q.resolveArguments args with
  | error f =>
    rw [q.execute_unresolved resolved]
    exact Or.inl rfl
  | ok sql =>
    rw [(q.execute_resolved resolved d).2]
    exact q.atMostSends_post sql d

theorem Disposal.execute_world (s : Disposal) (args : Json) (d : Desk) :
    d.AtMostSends (s.execute args d).world := by
  cases resolved : s.prepareArguments args with
  | error f =>
    rw [s.execute_unresolved resolved]
    exact Or.inl rfl
  | ok prepared =>
    rw [(s.execute_resolved resolved d).2]
    exact s.atMostSends_send prepared.2 d

/-- A query that can be resolved is refused where the way is closed, and nothing is sent. -/
theorem Query.run_closed (q : Query) {args : Json} {sql : String}
    (resolved : q.resolveArguments args = .ok sql) {d : Desk} (closed : d.queriesOpen = false) :
    (q.tool.run args d).result = .returned 0 (.error "query_data is closed") ∧
      (q.tool.run args d).world = d := by
  have post : q.post sql d = ⟨.error .closed, d, []⟩ := by
    rw [Query.post_apply, closed]
    rfl
  obtain ⟨result, world⟩ := q.execute_resolved resolved d
  rw [post] at result world
  refine ⟨?_, world⟩
  show Tool.Outcome.returned 0 ((q.execute args d).result.mapError Failure.message) = _
  rw [result]
  rfl

/-- A disposal that can be resolved is refused where the way is closed, and nothing is sent. -/
theorem Disposal.run_closed (s : Disposal) {args : Json} {prepared : String × Prepared}
    (resolved : s.prepareArguments args = .ok prepared) {d : Desk}
    (closed : d.disposalsOpen = false) :
    (s.tool.run args d).result = .returned 0 (.error "sheikah_api is closed") ∧
      (s.tool.run args d).world = d := by
  have send : s.send prepared.2 d = ⟨.error .closed, d, []⟩ := by
    rw [Disposal.send_apply, closed]
    rfl
  obtain ⟨result, world⟩ := s.execute_resolved resolved d
  rw [send] at result world
  refine ⟨?_, world⟩
  show Tool.Outcome.returned 0 ((s.execute args d).result.mapError Failure.message) = _
  rw [result]
  rfl

/-! ## Filing -/

namespace Filing

/-- The proposal that is stored for a form: the clock is read before it is made and again
when it is stored, and its id is the next name of the supply. -/
def stored (form : Form) (s : Supply) : Proposal :=
  (form.proposal (s.instant s.instantsDrawn)).stamped (s.name s.namesDrawn)
    (s.instant (s.instantsDrawn + 1))

/-- Parameters are put in one after the other under their own keys, and change nothing else. -/
theorem foldl_withParam (params : List Proposal.Param) (p : Proposal) :
    params.foldl Proposal.withParam p =
      { p with parameters := p.parameters.insertAll (params.map fun q => (q.key, q)) } := by
  induction params generalizing p with
  | nil => rfl
  | cons q rest ih => exact ih (p.withParam q)

/-- The proposal that is stored is new and pending and offers the usual actions; the rest is of
the form. -/
theorem stored_eq (form : Form) (s : Supply) : stored form s =
    { id := s.name s.namesDrawn, kind := form.kind, title := form.title, summary := form.summary
      details := form.details, actions := Proposal.defaultActions
      parameters := Table.ofList (form.parameters.map fun q => (q.key, q)), status := .pending
      createdAt := (s.instant s.instantsDrawn).earlier (s.instant (s.instantsDrawn + 1))
      updatedAt := s.instant (s.instantsDrawn + 1) } := by
  rw [stored, Form.proposal, foldl_withParam]
  rfl

theorem stored_id (form : Form) (s : Supply) : (stored form s).id = s.name s.namesDrawn := by
  rw [stored_eq]

theorem stored_status (form : Form) (s : Supply) : (stored form s).status = .pending := by
  rw [stored_eq]

theorem stored_actions (form : Form) (s : Supply) :
    (stored form s).actions = Proposal.defaultActions := by
  rw [stored_eq]

/-- Arguments that cannot be read change nothing. -/
theorem file_unread {args : Json} {f : Failure} (h : Form.read args = .error f) (d : Desk) :
    file args d = ⟨.error f, d, []⟩ := by
  simp [file, h]

/-- Arguments that can be read store one proposal and give word of it, and nothing else. -/
theorem file_world {args : Json} {form : Form} (h : Form.read args = .ok form) (d : Desk) :
    (file args d).world =
      { d with
        store := ⟨d.store.proposals.insert (stored form d.supply).id (stored form d.supply),
          d.store.channel.offer (stored form d.supply)⟩
        supply := { d.supply with
          instantsDrawn := d.supply.instantsDrawn + 2
          namesDrawn := d.supply.namesDrawn + 1 } } := by
  have created := Proposal.Store.create_world
    (form.proposal (d.supply.instant d.supply.instantsDrawn)) (d.supply.name d.supply.namesDrawn)
    (d.supply.instant (d.supply.instantsDrawn + 1)) d.store
  rw [← stored] at created
  rw [← created]
  unfold file
  rw [h]
  rfl

theorem file_read {args : Json} {form : Form} (h : Form.read args = .ok form) (d : Desk) :
    (file args d).result = .ok (stored form d.supply).id ∧
      (file args d).world.store.proposals =
        d.store.proposals.insert (stored form d.supply).id (stored form d.supply) ∧
      (file args d).world.supply =
        { d.supply with
          instantsDrawn := d.supply.instantsDrawn + 2
          namesDrawn := d.supply.namesDrawn + 1 } := by
  refine ⟨?_, by rw [file_world h], by rw [file_world h]⟩
  unfold file
  rw [h]
  exact congrArg Except.ok (Proposal.Store.create_result _ _ _ d.store)

end Filing

end TriageDesk
