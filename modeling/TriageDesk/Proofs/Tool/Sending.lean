/-
TriageDesk.Proofs.Tool.Sending — what leaves the desk, and when.

Two tools send requests to other servers, each by a way of its own that can be
closed for good. An `Errand` is anything that can be asked of them; a record of
errands says how each was answered and what it left.

Whether an errand is refused (`Refuses`) or comes to a request (`Asks`) lies in the
errand alone, so it makes no difference to that whether the way is open. What is
then told of a request depends on what comes of it: `Answered` is the one case in
which there is a status and a body. `perform_refused` and `perform_asks` are the
cases of a step, `isOpen_perform` is what a step does to a way and `shut_record`
what a run does to it, and `record_sendingLaws` is the theorem.
-/
import TriageDesk.Proofs.Http.Form
import TriageDesk.Proofs.Json.Values
import TriageDesk.Proofs.Tool.Effects
import TriageDesk.Proofs.Tool.Forms
import TriageDesk.Proofs.Trace

namespace TriageDesk

open Text

/-! ## Errands -/

/-- The two ways out of the desk. -/
inductive Way
  | queries
  | disposals
deriving DecidableEq

namespace Way

/-- Whether a way is open. -/
def isOpen : Way → Desk → Bool
  | .queries, d => d.queriesOpen
  | .disposals, d => d.disposalsOpen

/-- The tool that sends by a way. -/
def toolName : Way → String
  | .queries => Query.toolName
  | .disposals => Disposal.toolName

/-- The desk with a way closed. -/
def closed : Way → Desk → Desk
  | .queries, d => { d with queriesOpen := false }
  | .disposals, d => { d with disposalsOpen := false }

end Way

/-- Something that is asked of the tools that send requests. -/
inductive Errand
  | query (args : Json)
  | rows (sql : String)
  | dispose (args : Json)
  | close (way : Way)

namespace Errand

/-- What the tools answer. -/
inductive Answer
  | shown (result : Except String String)
  | rows (result : Except String (List (List Json)))
  | closed

/-- The failure that an answer tells. -/
def Answer.failure? : Answer → Option String
  | .shown (.error message) | .rows (.error message) => some message
  | _ => none

/-- The way by which an errand is done. -/
def way : Errand → Way
  | .query _ | .rows _ => .queries
  | .dispose _ => .disposals
  | .close way => way

/-- Does an errand with a source of data and a server of disposals. -/
def perform (q : Query) (s : Disposal) : Errand → Act Desk Answer
  | .query args => do return .shown ((← q.execute args).mapError Query.Failure.message)
  | .rows sql => do return .rows ((← q.rows sql).mapError Query.Failure.message)
  | .dispose args => do return .shown ((← s.execute args).mapError Disposal.Failure.message)
  | .close .queries => do
    Query.close
    return .closed
  | .close .disposals => do
    Disposal.close
    return .closed

/-- What there is to say of an errand. -/
abbrev Entry := Trace.Entry Desk Errand Answer

/-- The record of errands. -/
abbrev record (q : Query) (s : Disposal) (d : Desk) (errands : List Errand) : List Entry :=
  Trace.record (perform q s) d errands

/-! ## What an errand comes to -/

/-- An errand is refused, with a message, for what it says. -/
inductive Refuses (q : Query) (s : Disposal) : Errand → String → Prop
  | query {args : Json} {f : Query.Failure}
      (unresolved : q.resolve (args.textMember? "sql_id")
        (Parameters.ofJson? (args.member? "params")) (args.textMember? "raw_sql") = .error f) :
      Refuses q s (.query args) f.message
  | unnamed {args : Json}
      (unnamed : ∀ id, args.member? "api" = some (.string id) → allBlank id = true) :
      Refuses q s (.dispose args) "api is required"
  | dispose {args : Json} {id : String} {f : Disposal.Failure}
      (named : args.member? "api" = some (.string id)) (solid : allBlank id = false)
      (unprepared : s.prepare (trimmed id) (Parameters.ofJson? (args.member? "params")) =
        .error f) :
      Refuses q s (.dispose args) f.message

/-- An errand comes to a request. -/
inductive Asks (q : Query) (s : Disposal) : Errand → Http.Request → Prop
  | query {args : Json} {sql : String}
      (resolved : q.resolve (args.textMember? "sql_id")
        (Parameters.ofJson? (args.member? "params")) (args.textMember? "raw_sql") = .ok sql) :
      Asks q s (.query args) (q.request sql)
  | rows (sql : String) : Asks q s (.rows sql) (q.request sql)
  | dispose {args : Json} {id : String} {p : Disposal.Prepared}
      (named : args.member? "api" = some (.string id)) (solid : allBlank id = false)
      (prepared : s.prepare (trimmed id) (Parameters.ofJson? (args.member? "params")) = .ok p) :
      Asks q s (.dispose args) (s.request p)

/-- A request is answered: it can be sent, a server answers, and the body comes whole. -/
structure Answered (d : Desk) (r : Http.Request) (a : Http.Response) : Prop where
  sent : ∃ url, r.destination = .ok url
  answer : d.supply.outcome d.requests.length r = .answer a
  whole : a.complete = true

/-- What is told of a body that came with a status below 400. -/
inductive Shows : Errand → String → Answer → Prop
  | query (args : Json) (body : String) :
      Shows (.query args) body (.shown (.ok (Rows.present body)))
  | rows (sql : String) {body : String} {rows : List (List Json)}
      (read : Rows.decoder.ofText body = .ok rows) : Shows (.rows sql) body (.rows (.ok rows))
  | unread (sql : String) {body reason : String}
      (unread : Rows.decoder.ofText body = .error reason) :
      Shows (.rows sql) body (.rows (.error ("invalid ClickHouse response: " ++ reason)))
  | dispose (args : Json) (body : String) :
      Shows (.dispose args) body (.shown (.ok (Disposal.present body)))

/-- A request holds a query in the form that it posts, and no other query. -/
structure Posts (q : Query) (sql : String) (r : Http.Request) : Prop where
  method : r.method = "POST"
  url : r.url = q.baseUrl
  body : ∃ body credentials, r.body = some body ∧
    Http.Form.read body.toList = ("query", sql) :: credentials ∧
    ∀ pair ∈ credentials, pair.1 ≠ "query"

/-! ## The laws -/

/-- The requests that were handed over in an errand. -/
def Entry.Hands (e : Entry) (requests : List Http.Request) : Prop :=
  e.after.requests = e.before.requests ++ requests

/-- A way was closed at first or has been closed since. -/
def Shut (way : Way) (first : Desk) (past : List Entry) : Prop :=
  way.isOpen first = false ∨ ∃ e ∈ past, e.move = .close way

/-- What is told of a request that was handed over. -/
structure Told (e : Entry) (r : Http.Request) : Prop where
  /-- The errand fails if nothing readable came back, if the status says so, and, where rows are
  asked for, if there are none in the body. -/
  fails_iff : (∃ message, e.answer.failure? = some message) ↔
    (¬ ∃ a, Answered e.before r a) ∨ ∃ a, Answered e.before r a ∧
      (400 ≤ a.status ∨ (∃ sql, e.move = .rows sql) ∧
        ∀ rows, Rows.decoder.ofText a.text ≠ .ok rows)
  /-- The failure for a status names the status and holds the whole body. -/
  refused : ∀ a, Answered e.before r a → 400 ≤ a.status → ∃ front between,
    e.answer.failure? = some (front ++ toString a.status ++ between ++ a.text)
  shown : ∀ a, Answered e.before r a → a.status < 400 → Shows e.move a.text e.answer

/-- What a record of errands shows. -/
structure SendingLaws (q : Query) (s : Disposal) (first : Desk) (log : List Entry) : Prop where
  /-- There are no other errands than those that close a way, are refused or come to a request. -/
  sorted : ∀ e : Errand, (∃ way, e = .close way) ∨ (∃ message, Refuses q s e message) ∨
    ∃ r, Asks q s e r
  /-- An errand hands over at most one request and changes nothing else, unless it closes its
  way. -/
  most : ∀ e ∈ log, e.before.AtMostSends e.after ∨
    (∃ way, e.move = .close way ∧ e.after = way.closed e.before)
  /-- What is refused for what it says is refused in the same words at any time, and nothing is
  handed over. -/
  refused : ∀ e ∈ log, ∀ message, Refuses q s e.move message →
    e.answer.failure? = some message ∧ e.Hands []
  /-- Once a way is closed nothing is handed over for it, and all that would be is refused. -/
  shut : ∀ past e later, log = past ++ e :: later → Shut e.move.way first past →
    e.Hands [] ∧ ∀ r, Asks q s e.move r →
      e.answer.failure? = some (e.move.way.toolName ++ " is closed")
  /-- Until then every errand that comes to a request hands it over, and says what came of it. -/
  opened : ∀ past e later, log = past ++ e :: later → ¬ Shut e.move.way first past →
    ∀ r, Asks q s e.move r → e.Hands [r] ∧ Told e r
  /-- A query that is given as text is posted as it is, whatever else is given. -/
  verbatim : ∀ past e later, log = past ++ e :: later → ¬ Shut .queries first past →
    ∀ sql, (e.move = .rows sql ∨ ∃ args, e.move = .query args ∧
      args.member? "raw_sql" = some (.string sql) ∧ allBlank sql = false) →
      ∃ r, e.Hands [r] ∧ Posts q sql r

/-! ## One errand -/

section

variable {q : Query} {s : Disposal} {e : Errand} {r : Http.Request}

/-- The endpoint that a call names is the text under `api` without the white space at its ends. -/
theorem endpointId?_cases (args : Json) :
    (∀ id, args.member? "api" = some (.string id) → allBlank id = true) ∧
        Disposal.endpointId? args = none ∨
      ∃ id, args.member? "api" = some (.string id) ∧ allBlank id = false ∧
        Disposal.endpointId? args = some (trimmed id) := by
  cases text : args.textMember? "api" with
  | none =>
    refine .inl ⟨?_, by simp [Disposal.endpointId?, text]⟩
    intro id named
    rw [Json.textMember?_eq_some_iff.mpr named] at text
    cases text
  | some id =>
    have named := Json.textMember?_eq_some_iff.mp text
    cases blank : allBlank id with
    | true =>
      refine .inl ⟨?_, by simp [Disposal.endpointId?, text, trimmed_eq_empty_iff.mpr blank]⟩
      intro id' named'
      rw [named] at named'
      cases named'
      exact blank
    | false =>
      have solid : trimmed id ≠ "" := by
        intro empty
        rw [trimmed_eq_empty_iff.mp empty] at blank
        cases blank
      exact .inr ⟨id, named, blank, by simp [Disposal.endpointId?, text, solid]⟩

theorem closes_or_refuses_or_asks (q : Query) (s : Disposal) (e : Errand) :
    (∃ way, e = .close way) ∨ (∃ message, Refuses q s e message) ∨ ∃ r, Asks q s e r := by
  cases e with
  | query args =>
    cases resolved : q.resolve (args.textMember? "sql_id")
        (Parameters.ofJson? (args.member? "params")) (args.textMember? "raw_sql") with
    | error f => exact .inr (.inl ⟨_, .query resolved⟩)
    | ok sql => exact .inr (.inr ⟨_, .query resolved⟩)
  | rows sql => exact .inr (.inr ⟨_, .rows sql⟩)
  | dispose args =>
    rcases endpointId?_cases args with ⟨unnamed, -⟩ | ⟨id, named, solid, -⟩
    · exact .inr (.inl ⟨_, .unnamed unnamed⟩)
    · cases prepared : s.prepare (trimmed id) (Parameters.ofJson? (args.member? "params")) with
      | error f => exact .inr (.inl ⟨_, .dispose named solid prepared⟩)
      | ok p => exact .inr (.inr ⟨_, .dispose named solid prepared⟩)
  | close way => exact .inl ⟨way, rfl⟩

theorem prepareArguments_named (s : Disposal) {args : Json} {id : String}
    (named : args.member? "api" = some (.string id)) (solid : allBlank id = false) :
    s.prepareArguments args =
      (s.prepare (trimmed id) (Parameters.ofJson? (args.member? "params"))).map
        (trimmed id, ·) := by
  rcases endpointId?_cases args with ⟨unnamed, -⟩ | ⟨id', named', -, found⟩
  · rw [unnamed id named] at solid
    cases solid
  · rw [named] at named'
    cases named'
    rw [Disposal.prepareArguments_eq, found]

theorem hands_nil {entry : Entry} (same : entry.after = entry.before) : entry.Hands [] := by
  rw [Entry.Hands, same, List.append_nil]

/-- What is refused for what it says is refused by any desk, and changes nothing. -/
theorem perform_refused {message : String} (refuses : Refuses q s e message) (d : Desk) :
    (e.perform q s d).result.failure? = some message ∧ (e.perform q s d).world = d := by
  cases refuses with
  | query unresolved =>
    rw [← Query.resolveArguments_eq] at unresolved
    simp only [perform, Act.bind_apply, Act.pure_apply, q.execute_unresolved unresolved]
    exact ⟨rfl, trivial⟩
  | @unnamed args unnamed =>
    have unresolved : s.prepareArguments args = .error .nothingAsked := by
      rcases endpointId?_cases args with ⟨-, missing⟩ | ⟨id, named, solid, -⟩
      · rw [Disposal.prepareArguments_eq, missing]
      · rw [unnamed id named] at solid
        cases solid
    simp only [perform, Act.bind_apply, Act.pure_apply, s.execute_unresolved unresolved]
    exact ⟨rfl, trivial⟩
  | @dispose args id f named solid unprepared =>
    have unresolved : s.prepareArguments args = .error f := by
      rw [prepareArguments_named s named solid, unprepared]
      rfl
    simp only [perform, Act.bind_apply, Act.pure_apply, s.execute_unresolved unresolved]
    exact ⟨rfl, trivial⟩

/-- What is told of what came of a request. -/
def tell : Errand → Except Http.Failure (Nat × String) → Answer
  | .query _, x => .shown (((Query.accepted x).map Rows.present).mapError Query.Failure.message)
  | .rows _, x =>
    .rows ((Query.accepted x >>= fun body => (Rows.decoder.ofText body).mapError
      Query.Failure.noRows).mapError Query.Failure.message)
  | .dispose _, x => .shown ((Disposal.accepted x).mapError Disposal.Failure.message)
  | .close _, _ => .closed

theorem rows_apply (q : Query) (sql : String) (d : Desk) :
    (q.rows sql d).result = (q.post sql d).result >>= (fun body =>
      (Rows.decoder.ofText body).mapError Query.Failure.noRows) ∧
      (q.rows sql d).world = (q.post sql d).world := by
  simp only [Query.rows, Act.bind_apply]
  cases (q.post sql d).result with
  | error f => exact ⟨rfl, rfl⟩
  | ok body => exact ⟨rfl, rfl⟩

/-- What is told where the way is closed. -/
def tellShut (e : Errand) : Answer :=
  match e with
  | .rows _ => .rows (.error (e.way.toolName ++ " is closed"))
  | _ => .shown (.error (e.way.toolName ++ " is closed"))

/-- What comes to a request is sent if the way is open. If it is closed the request is refused, and
nothing changes. -/
theorem perform_asks (asks : Asks q s e r) (d : Desk) :
    (e.perform q s d).result =
        (if e.way.isOpen d then e.tell (d.exchange r) else e.tellShut) ∧
      (e.perform q s d).world =
        if e.way.isOpen d then { d with requests := d.requests ++ [r] } else d := by
  cases asks with
  | @query args sql resolved =>
    rw [← Query.resolveArguments_eq] at resolved
    obtain ⟨result, world⟩ := q.execute_resolved resolved d
    simp only [perform, Act.bind_apply, Act.pure_apply, result, world, Query.post_apply, way,
      Way.isOpen]
    split
    · next opened => exact ⟨(if_pos opened).symm, (if_pos opened).symm⟩
    · next shut => exact ⟨(if_neg shut).symm, (if_neg shut).symm⟩
  | rows sql =>
    obtain ⟨result, world⟩ := rows_apply q sql d
    simp only [perform, Act.bind_apply, Act.pure_apply, result, world, Query.post_apply, way,
      Way.isOpen]
    split
    · next opened => exact ⟨(if_pos opened).symm, (if_pos opened).symm⟩
    · next shut => exact ⟨(if_neg shut).symm, (if_neg shut).symm⟩
  | @dispose args id p named solid prepared =>
    have resolved : s.prepareArguments args = .ok (trimmed id, p) := by
      rw [prepareArguments_named s named solid, prepared]
      rfl
    obtain ⟨result, world⟩ := s.execute_resolved resolved d
    simp only [perform, Act.bind_apply, Act.pure_apply, result, world, Disposal.send_apply, way,
      Way.isOpen]
    split
    · next opened => exact ⟨(if_pos opened).symm, (if_pos opened).symm⟩
    · next shut => exact ⟨(if_neg shut).symm, (if_neg shut).symm⟩

theorem failure?_tellShut (asks : Asks q s e r) :
    e.tellShut.failure? = some (e.way.toolName ++ " is closed") := by
  cases asks <;> rfl

/-! ## What is told of a request -/

theorem exchange_answered {d : Desk} {a : Http.Response} (answered : Answered d r a) :
    d.exchange r = .ok (a.status, a.text) := by
  obtain ⟨url, sent⟩ := answered.sent
  simp only [Desk.exchange, sent, answered.answer]
  show (if a.complete then _ else _) = _
  rw [if_pos answered.whole]

theorem answered_of_exchange {d : Desk} {status : Nat} {body : String}
    (came : d.exchange r = .ok (status, body)) :
    ∃ a, Answered d r a ∧ a.status = status ∧ a.text = body := by
  rw [Desk.exchange] at came
  cases sent : r.destination with
  | error f =>
    rw [sent] at came
    cases came
  | ok url =>
    rw [sent] at came
    cases outcome : d.supply.outcome d.requests.length r with
    | noServer =>
      rw [outcome] at came
      cases came
    | answer a =>
      rw [outcome] at came
      change (if a.complete then _ else _) = _ at came
      split at came
      · next whole =>
        cases came
        exact ⟨a, ⟨⟨url, sent⟩, outcome, whole⟩, rfl, rfl⟩
      · cases came

theorem Answered.unique {d : Desk} {a a' : Http.Response} (h : Answered d r a)
    (h' : Answered d r a') : a = a' := by
  have same := h.answer.symm.trans h'.answer
  cases same
  rfl

/-- Where nothing readable came back there is a failure. -/
theorem failure?_tell_error (asks : Asks q s e r) (f : Http.Failure) :
    (e.tell (.error f)).failure? = some f.message := by
  cases asks <;> rfl

/-- The failure for a status names it, and what came with it. -/
theorem failure?_tell_refused (asks : Asks q s e r) {status : Nat} (high : 400 ≤ status)
    (body : String) : ∃ front between,
    (e.tell (.ok (status, body))).failure? =
      some (front ++ toString status ++ between ++ body) := by
  have queries : Query.accepted (.ok (status, body)) = .error (.refused status body) := if_pos high
  have disposals : Disposal.accepted (.ok (status, body)) = .error (.refused status body) :=
    if_pos high
  cases asks with
  | query resolved =>
    refine ⟨"ClickHouse error ", ": ", ?_⟩
    rw [tell, queries]
    rfl
  | rows sql =>
    refine ⟨"ClickHouse error ", ": ", ?_⟩
    rw [tell, queries]
    rfl
  | dispose named solid prepared =>
    refine ⟨"API returned error: ", " - ", ?_⟩
    rw [tell, disposals]
    rfl

theorem shows_tell (asks : Asks q s e r) {status : Nat} (low : status < 400) (body : String) :
    Shows e body (e.tell (.ok (status, body))) := by
  have queries : Query.accepted (.ok (status, body)) = .ok body := if_neg (Nat.not_le.mpr low)
  have disposals : Disposal.accepted (.ok (status, body)) = .ok (Disposal.present body) :=
    if_neg (Nat.not_le.mpr low)
  cases asks with
  | @query args sql resolved =>
    rw [tell, queries]
    exact .query args body
  | rows sql =>
    have told : tell (.rows sql) (.ok (status, body)) = .rows (((Rows.decoder.ofText body).mapError
        Query.Failure.noRows).mapError Query.Failure.message) := by
      rw [tell, queries]
      rfl
    rw [told]
    cases read : Rows.decoder.ofText body with
    | ok rows => exact .rows sql read
    | error reason => exact .unread sql read
  | @dispose args id p named solid prepared =>
    rw [tell, disposals]
    exact .dispose args body

/-- A body that came with a status below 400 is a failure only where rows are asked for and there
are none. -/
theorem Shows.failure?_iff {body : String} {a : Answer} (shows : Shows e body a) :
    (∃ message, a.failure? = some message) ↔
      (∃ sql, e = .rows sql) ∧ ∀ rows, Rows.decoder.ofText body ≠ .ok rows := by
  cases shows with
  | query args body => simp [Answer.failure?]
  | rows sql read => simp [Answer.failure?, read]
  | unread sql unread => simp [Answer.failure?, unread]
  | dispose args body => simp [Answer.failure?]

theorem told_of_tell (asks : Asks q s e r) {d : Desk} {entry : Entry} (before : entry.before = d)
    (move : entry.move = e) (told : entry.answer = e.tell (d.exchange r)) : Told entry r := by
  subst before move
  constructor
  · rw [told]
    cases came : entry.before.exchange r with
    | error f =>
      have unanswered : ¬ ∃ a, Answered entry.before r a := by
        rintro ⟨a, answered⟩
        rw [exchange_answered answered] at came
        cases came
      exact iff_of_true ⟨_, failure?_tell_error asks f⟩ (.inl unanswered)
    | ok x =>
      obtain ⟨status, body⟩ := x
      obtain ⟨a, answered, rfl, rfl⟩ := answered_of_exchange came
      have only : (¬ ∃ a, Answered entry.before r a) ∨ (∃ a, Answered entry.before r a ∧
          (400 ≤ a.status ∨ (∃ sql, entry.move = .rows sql) ∧
            ∀ rows, Rows.decoder.ofText a.text ≠ .ok rows)) ↔
          400 ≤ a.status ∨ (∃ sql, entry.move = .rows sql) ∧
            ∀ rows, Rows.decoder.ofText a.text ≠ .ok rows := by
        constructor
        · rintro (none | ⟨a', answered', bad⟩)
          · exact absurd ⟨a, answered⟩ none
          · rwa [answered.unique answered']
        · exact fun bad => .inr ⟨a, answered, bad⟩
      refine Iff.trans ?_ only.symm
      by_cases high : 400 ≤ a.status
      · obtain ⟨front, between, failure⟩ := failure?_tell_refused asks high a.text
        exact iff_of_true ⟨_, failure⟩ (.inl high)
      · rw [(shows_tell asks (Nat.not_le.mp high) a.text).failure?_iff, or_iff_right high]
  · intro a answered high
    rw [told, exchange_answered answered]
    exact failure?_tell_refused asks high a.text
  · intro a answered low
    rw [told, exchange_answered answered]
    exact shows_tell asks low a.text

/-- Where the way is open a request is handed over, and what came of it is told. -/
theorem entry_open (asks : Asks q s e r) {d : Desk} (opened : e.way.isOpen d = true) :
    Entry.Hands (Trace.entry (perform q s) e d) [r] ∧ Told (Trace.entry (perform q s) e d) r := by
  obtain ⟨result, world⟩ := perform_asks asks d
  rw [if_pos opened] at result world
  exact ⟨congrArg Desk.requests world, told_of_tell asks rfl rfl result⟩

/-- Where the way is closed nothing is handed over. -/
theorem entry_shut (asks : Asks q s e r) {d : Desk} (shut : e.way.isOpen d = false) :
    Entry.Hands (Trace.entry (perform q s) e d) [] ∧
      (Trace.entry (perform q s) e d).answer.failure? = some (e.way.toolName ++ " is closed") := by
  have closed : ¬ e.way.isOpen d = true := by simp [shut]
  obtain ⟨result, world⟩ := perform_asks asks d
  rw [if_neg closed] at result world
  refine ⟨hands_nil world, ?_⟩
  show (e.perform q s d).result.failure? = _
  rw [result, failure?_tellShut asks]

/-! ## The text of a query -/

theorem resolve_text (q : Query) {sql : String} (solid : allBlank sql = false) (id : Option String)
    (params : Parameters) : q.resolve id params (some sql) = .ok sql := by
  simp only [Query.resolve, Query.resolveWith, Option.filter_some, solid, Bool.not_false, if_true]

theorem posts_request (q : Query) (sql : String) : Posts q sql (q.request sql) where
  method := rfl
  url := rfl
  body := by
    refine ⟨_, _, rfl, Http.Form.read_write (q.form sql), ?_⟩
    intro pair among
    rcases List.mem_append.mp among with user | password
    · split_ifs at user
      · cases user
      · simp [List.mem_singleton.mp user]
    · split_ifs at password
      · cases password
      · simp [List.mem_singleton.mp password]

end

/-! ## Many errands -/

section

variable {q : Query} {s : Disposal}

/-- An errand hands over at most one request and changes nothing else, or it closes its way. -/
theorem perform_world (e : Errand) (d : Desk) :
    (∀ way, e ≠ .close way) ∧ d.AtMostSends (e.perform q s d).world ∨
      ∃ way, e = .close way ∧ (e.perform q s d).world = way.closed d := by
  cases e with
  | query args => exact .inl ⟨by simp, q.execute_world args d⟩
  | rows sql =>
    refine .inl ⟨by simp, ?_⟩
    have world : ((rows sql).perform q s d).world = (q.post sql d).world := (rows_apply q sql d).2
    rw [world]
    exact q.atMostSends_post sql d
  | dispose args => exact .inl ⟨by simp, s.execute_world args d⟩
  | close way => cases way <;> exact .inr ⟨_, rfl, rfl⟩

/-- A way is closed after an errand if it was, or if it is the errand that closes it. -/
theorem isOpen_perform (way : Way) (e : Errand) (d : Desk) :
    way.isOpen (e.perform q s d).world = false ↔ way.isOpen d = false ∨ e = .close way := by
  rcases perform_world (q := q) (s := s) e d with ⟨other, sends⟩ | ⟨way', rfl, world⟩
  · have kept : way.isOpen (e.perform q s d).world = way.isOpen d := by
      cases way with
      | queries => exact sends.ways_eq.1
      | disposals => exact sends.ways_eq.2
    rw [kept, or_iff_left (other way)]
  · rw [world]
    cases way <;> cases way' <;> simp [Way.isOpen, Way.closed]

/-- What a run does to a way: it is closed at the end if it was closed at first or on the way. -/
theorem shut_record (way : Way) (first : Desk) (errands : List Errand) :
    Shut way first (record q s first errands) ↔
      way.isOpen (Trace.final (perform q s) first errands) = false := by
  induction errands generalizing first with
  | nil => simp [Shut, Trace.record, Trace.final]
  | cons e rest ih =>
    have cut : Shut way first (record q s first (e :: rest)) ↔
        Shut way (e.perform q s first).world (record q s (e.perform q s first).world rest) := by
      simp only [Shut, isOpen_perform, record, Trace.record, List.mem_cons, exists_eq_or_imp,
        or_assoc]
      rfl
    rw [cut, ih]
    rfl

/-- **What leaves the desk, and when.** -/
theorem record_sendingLaws (q : Query) (s : Disposal) (first : Desk) (errands : List Errand) :
    SendingLaws q s first (record q s first errands) where
  sorted := closes_or_refuses_or_asks q s
  most := by
    intro e among
    obtain ⟨firsts, m, rfl⟩ := Trace.exists_of_mem_record among
    exact (perform_world m _).imp_left And.right
  refused := by
    intro e among message refuses
    obtain ⟨firsts, m, rfl⟩ := Trace.exists_of_mem_record among
    obtain ⟨failure, world⟩ := perform_refused refuses (Trace.final (perform q s) first firsts)
    exact ⟨failure, hands_nil world⟩
  shut := by
    intro past e later cut shut
    obtain ⟨firsts, m, lasts, rfl, rfl, rfl, rfl⟩ := Trace.exists_of_record_eq cut
    rw [shut_record] at shut
    refine ⟨?_, fun r asks => (entry_shut asks shut).2⟩
    rcases closes_or_refuses_or_asks q s m with ⟨way, rfl⟩ | ⟨message, refuses⟩ | ⟨r, asks⟩
    · cases way <;> exact (List.append_nil _).symm
    · exact hands_nil (perform_refused refuses _).2
    · exact (entry_shut asks shut).1
  opened := by
    intro past e later cut opened r asks
    obtain ⟨firsts, m, lasts, rfl, rfl, rfl, rfl⟩ := Trace.exists_of_record_eq cut
    rw [shut_record, Bool.not_eq_false] at opened
    exact entry_open asks opened
  verbatim := by
    intro past e later cut opened sql asked
    obtain ⟨firsts, m, lasts, rfl, rfl, rfl, rfl⟩ := Trace.exists_of_record_eq cut
    rw [shut_record, Bool.not_eq_false] at opened
    have asks : Asks q s m (q.request sql) ∧ m.way = .queries := by
      obtain rows | ⟨args, query, given, solid⟩ := asked
      · cases rows
        exact ⟨.rows sql, rfl⟩
      · cases query
        refine ⟨.query ?_, rfl⟩
        rw [Json.textMember?_eq_some_iff.mpr given]
        exact resolve_text q solid _ _
    refine ⟨q.request sql, (entry_open asks.1 ?_).1, posts_request q sql⟩
    rw [asks.2]
    exact opened

end

end Errand

end TriageDesk
