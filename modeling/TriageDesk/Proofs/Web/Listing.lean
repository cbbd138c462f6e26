/-
TriageDesk.Proofs.Web.Listing — the list of proposals.

A list is asked for with a query, in which only the values of the field `status`
matter (`statusTexts`). They restrict the list to one status, or to none
(`Restricts`), or the request is refused.

`Lists` says what is listed: the stored proposals that pass, each once, the newest
first and by id among those of one moment. There is at most one such list
(`Lists.unique`), since no two proposals precede each other. That there is one rests
on the ids: whatever is stored is found under its own (`Store.Keyed`, which every
operation keeps), so of two stored proposals one precedes the other, however close
their moments are. `lists_newestFirst` is that the desk makes this list, in whatever
order the store is walked through, and `listing_laws` is the theorem.
-/
import TriageDesk.Proofs.Http.Form
import TriageDesk.Proofs.Proposal.Course
import TriageDesk.Proofs.Table
import TriageDesk.Proofs.Time.Order
import TriageDesk.Web.Answer

namespace TriageDesk

open Text
open Proposal (Store)

/-! ## What is stored is found under its own id -/

namespace Proposal.Store

/-- Whatever is stored is found under its own id. -/
def Keyed (s : Store) : Prop := ∀ id p, s.get? id = some p → p.id = id

theorem keyed_perform {s : Store} (keyed : s.Keyed) (op : Operation) :
    (op.perform s).world.Keyed := by
  intro id p found
  rw [Operation.get?_perform] at found
  rcases Operation.leaves_cases found with
    ⟨q, freshId, now, -, name, rfl⟩ | before | ⟨q, d, now, -, before, -, rfl⟩ |
      ⟨q, params, now, -, before, rfl⟩
  · exact name
  · exact keyed id p before
  · exact keyed id q before
  · exact keyed id q before

/-- So it is in every store that operations lead to. -/
theorem keyed_final (capacity : Nat) (ops : List Operation) :
    (final (ofCapacity capacity) ops).Keyed := by
  have empty : (ofCapacity capacity).Keyed := by
    intro id p found
    cases found
  exact Trace.keeps_final (P := Keyed) (fun _ op keyed => keyed_perform keyed op) empty ops

end Proposal.Store

namespace Web

/-! ## What is asked for -/

/-- A request for the list of proposals. -/
structure Request.AsksList (r : Request) : Prop where
  method : r.method = "GET"
  path : r.path = "/api/proposals".toList

/-- The values of the field `status` in a query. -/
def statusTexts (query : Option (List Char)) : List String :=
  (((query.map Http.Form.read).getD []).filter (·.1 = "status")).map (·.2)

/-- The texts restrict a list to a status, or do not restrict it. -/
inductive Restricts : List String → Option Proposal.Status → Prop
  | absent : Restricts [] none
  | blank {text : String} (blank : allBlank text = true) : Restricts [text] none
  | named {text : String} {status : Proposal.Status}
      (name : asciiLower (trimmed text) = status.name) : Restricts [text] (some status)

/-! ## What is listed -/

/-- A proposal is newer than another, or as old with an id that comes before. -/
def Precedes (p q : Proposal) : Prop :=
  q.createdAt.before p.createdAt = true ∨ p.createdAt = q.createdAt ∧ p.id < q.id

/-- The list of the stored proposals with a status, or of all. -/
structure Lists (s : Store) (restriction : Option Proposal.Status) (ps : List Proposal) :
    Prop where
  mem_iff : ∀ p, p ∈ ps ↔
    (∃ id, s.get? id = some p) ∧ ∀ status, restriction = some status → p.status = status
  once : (ps.map (·.id)).Nodup
  ordered : ps.Pairwise Precedes

/-- A row of a list tells which proposal it is about, and what it is. -/
structure Row (p : Proposal) (row : Json) : Prop where
  id : row.textMember? "id" = some p.id
  kind : row.textMember? "type" = some p.kind
  title : row.textMember? "title" = some p.title
  summary : row.textMember? "summary" = some p.summary
  status : row.textMember? "status" = some p.status.name

/-- How lists of proposals are answered at a desk. -/
structure ListLaws (d : Desk) : Prop where
  /-- Where a list is asked for, it is given. -/
  shown : ∀ activities (r : Request) restriction, r.AsksList →
    Restricts (statusTexts r.query) restriction → ∃ ps, Lists d.store restriction ps ∧
      (answer activities r d).result = .value (.array (ps.map summary))
  /-- Each row is about the proposal in its place. -/
  rows : ∀ p, Row p (summary p)
  /-- There is only one such list. -/
  unique : ∀ restriction ps ps', Lists d.store restriction ps → Lists d.store restriction ps' →
    ps = ps'
  /-- It is made of the stored proposals in whatever order they are walked through. -/
  walked : ∀ (yielded : List Proposal) restriction, yielded.Perm d.store.all →
    Lists d.store restriction (newestFirst (yielded.filter (passes restriction)))
  /-- What does not say what the list is to be restricted to is refused. -/
  refused : ∀ activities (r : Request), r.AsksList →
    (¬ ∃ restriction, Restricts (statusTexts r.query) restriction) →
      (answer activities r d).result.status = 400
  unknown : ∀ activities (r : Request) text, r.AsksList → statusTexts r.query = [text] →
    (¬ ∃ restriction, Restricts [text] restriction) →
      (answer activities r d).result = .text 400 ("unknown status: " ++ trimmed text)
  /-- Nothing changes. -/
  kept : ∀ activities (r : Request), r.AsksList → (answer activities r d).world = d
  /-- Whatever is written into a query is what is asked for. -/
  written : ∀ pairs : List (String × String),
    statusTexts (some (Http.Form.write pairs).toList) =
      (pairs.filter (·.1 = "status")).map (·.2)

/-! ## The order of a list -/

section

variable {p q r : Proposal}

theorem precedes_asymm (h : Precedes p q) : ¬ Precedes q p := by
  rintro (newer' | ⟨same', name'⟩)
  · obtain newer | ⟨same, name⟩ := h
    · rw [Time.Instant.before_asymm newer] at newer'
      cases newer'
    · rw [same, Time.Instant.before_irrefl] at newer'
      cases newer'
  · obtain newer | ⟨same, name⟩ := h
    · rw [same', Time.Instant.before_irrefl] at newer
      cases newer
    · exact String.lt_irrefl _ (String.lt_trans name name')

theorem listedBefore_iff : listedBefore p q = true ↔
    q.createdAt.before p.createdAt = true ∨ p.createdAt = q.createdAt ∧ p.id ≤ q.id := by
  simp [listedBefore]

/-- Proposals with different ids are listed one before the other. -/
theorem precedes_of_listedBefore (h : listedBefore p q = true) (differ : p.id ≠ q.id) :
    Precedes p q := by
  refine (listedBefore_iff.mp h).imp_right fun ⟨same, le⟩ => ⟨same, ?_⟩
  exact Std.lt_of_le_of_ne le differ

theorem listedBefore_trans (h₁ : listedBefore p q = true) (h₂ : listedBefore q r = true) :
    listedBefore p r = true := by
  rw [listedBefore_iff] at *
  rcases h₁ with newer | ⟨same, le⟩
  · rcases h₂ with newer' | ⟨same', -⟩
    · exact .inl (Time.Instant.before_trans newer' newer)
    · exact .inl (same' ▸ newer)
  · rcases h₂ with newer' | ⟨same', le'⟩
    · exact .inl (same ▸ newer')
    · exact .inr ⟨same.trans same', String.le_trans le le'⟩

theorem listedBefore_total (p q : Proposal) : (listedBefore p q || listedBefore q p) = true := by
  rw [Bool.or_eq_true, listedBefore_iff, listedBefore_iff]
  rcases Time.Instant.before_or_eq q.createdAt p.createdAt with newer | same | older
  · exact .inl (.inl newer)
  · rcases String.le_total p.id q.id with le | ge
    · exact .inl (.inr ⟨same.symm, le⟩)
    · exact .inr (.inr ⟨same, ge⟩)
  · exact .inr (.inl older)

theorem newestFirst_sorted (ps : List Proposal) :
    (newestFirst ps).Pairwise fun p q => listedBefore p q = true := by
  refine List.pairwise_mergeSort ?_ listedBefore_total ps
  intro p q r
  exact listedBefore_trans

end

/-! ## The list of a store -/

section

variable {s : Store} {restriction : Option Proposal.Status}

theorem mem_all_iff {p : Proposal} : p ∈ s.all ↔ ∃ id, s.get? id = some p := by
  simp [Store.all, Table.values, Store.get?, ← Table.mem_entries_iff]

/-- No two proposals of a store have the same id. -/
theorem nodup_ids (keyed : s.Keyed) : (s.all.map (·.id)).Nodup := by
  have own : s.all.map (·.id) = s.proposals.keys := by
    rw [Store.all, Table.values, List.map_map, Table.keys]
    refine List.map_congr_left fun e among => ?_
    exact keyed e.1 e.2 ((s.proposals.mem_entries_iff e.1 e.2).mp among)
  rw [own]
  exact s.proposals.ascending.nodup

theorem passes_iff {p : Proposal} : passes restriction p = true ↔
    ∀ status, restriction = some status → p.status = status := by
  cases restriction <;> simp [passes]

/-- In whatever order the store is walked through, the list is the one that is asked for. -/
theorem lists_newestFirst (keyed : s.Keyed) {yielded : List Proposal}
    (perm : yielded.Perm s.all) (restriction : Option Proposal.Status) :
    Lists s restriction (newestFirst (yielded.filter (passes restriction))) := by
  have sorted := List.mergeSort_perm (yielded.filter (passes restriction)) listedBefore
  have once : ((newestFirst (yielded.filter (passes restriction))).map (·.id)).Nodup := by
    refine (sorted.map _).nodup_iff.mpr ?_
    refine List.Nodup.sublist (List.filter_sublist.map _) ?_
    exact (perm.map _).nodup_iff.mpr (nodup_ids keyed)
  constructor
  · intro p
    rw [newestFirst, sorted.mem_iff, List.mem_filter, perm.mem_iff, mem_all_iff, passes_iff]
  · exact once
  · have ordered := newestFirst_sorted (yielded.filter (passes restriction))
    exact (ordered.and (List.pairwise_map.mp once)).imp fun both =>
      precedes_of_listedBefore both.1 both.2

theorem Lists.nodup {ps : List Proposal} (h : Lists s restriction ps) : ps.Nodup :=
  (List.pairwise_map.mp h.once).imp fun differ same => differ (congrArg Proposal.id same)

/-- There is only one list of the proposals with a status. -/
theorem Lists.unique {ps ps' : List Proposal} (h : Lists s restriction ps)
    (h' : Lists s restriction ps') : ps = ps' := by
  have perm : ps.Perm ps' := by
    refine (List.perm_ext_iff_of_nodup h.nodup h'.nodup).mpr fun p => ?_
    rw [h.mem_iff, h'.mem_iff]
  exact perm.eq_of_pairwise (fun _ _ _ _ first second => absurd second (precedes_asymm first))
    h.ordered h'.ordered

end

/-! ## What a query says -/

section

variable {query : Option (List Char)} {restriction : Option Proposal.Status} {text : String}

theorem lookup_status_iff {name : String} {status : Proposal.Status} :
    Proposal.Status.named.lookup name = some status ↔ name = status.name := by
  simp only [Proposal.Status.named, List.lookup_cons, List.lookup_nil]
  cases status <;> grind [Proposal.Status.name]

/-- A query is read by the values of its field alone. -/
theorem statusField_eq (query : Option (List Char)) : statusField query =
    match statusTexts query with
    | [] => .ok none
    | [text] => .ok (some text)
    | _ => .error (.text 400 "Failed to deserialize query string: duplicate field `status`") := by
  unfold statusField statusTexts
  generalize ((query.map Http.Form.read).getD []).filter (·.1 = "status") = fields
  rcases fields with _ | ⟨first, _ | ⟨second, rest⟩⟩ <;> rfl

theorem statusFilter_one (one : statusTexts query = [text]) : statusFilter query =
    if allBlank text then .ok none
    else match Proposal.Status.parse? text with
      | some status => .ok (some status)
      | none => .error (.text 400 ("unknown status: " ++ trimmed text)) := by
  rw [statusFilter, statusField_eq, one]
  show (if allBlank text then _ else _) = _
  split
  · rfl
  · cases Proposal.Status.parse? text <;> rfl

/-- A text that names a status is not blank. -/
theorem solid_of_named {status : Proposal.Status}
    (named : asciiLower (trimmed text) = status.name) : allBlank text = false := by
  cases blank : allBlank text with
  | false => rfl
  | true =>
    rw [trimmed_eq_empty_iff.mpr blank] at named
    cases status <;> exact absurd named (by decide)

theorem statusFilter_restricts (restricts : Restricts (statusTexts query) restriction) :
    statusFilter query = .ok restriction := by
  generalize texts : statusTexts query = ts at restricts
  cases restricts with
  | absent =>
    rw [statusFilter, statusField_eq, texts]
    rfl
  | blank blank => rw [statusFilter_one texts, if_pos blank]
  | named name =>
    rw [statusFilter_one texts, solid_of_named name, Proposal.Status.parse?,
      lookup_status_iff.mpr name]
    rfl

theorem statusFilter_unknown (one : statusTexts query = [text])
    (unknown : ¬ ∃ restriction, Restricts [text] restriction) :
    statusFilter query = .error (.text 400 ("unknown status: " ++ trimmed text)) := by
  have solid : ¬ allBlank text = true := fun blank => unknown ⟨none, .blank blank⟩
  rw [statusFilter_one one, if_neg solid]
  cases named : Proposal.Status.parse? text with
  | none => rfl
  | some status => exact absurd ⟨_, .named (lookup_status_iff.mp named)⟩ unknown

theorem statusFilter_refused
    (refused : ¬ ∃ restriction, Restricts (statusTexts query) restriction) :
    ∃ reason, statusFilter query = .error (.text 400 reason) := by
  rcases texts : statusTexts query with _ | ⟨first, _ | ⟨second, rest⟩⟩
  · rw [texts] at refused
    exact absurd ⟨none, .absent⟩ refused
  · rw [texts] at refused
    exact ⟨_, statusFilter_unknown texts refused⟩
  · refine ⟨"Failed to deserialize query string: duplicate field `status`", ?_⟩
    rw [statusFilter, statusField_eq, texts]
    rfl

end

/-! ## The answer -/

theorem row_summary (p : Proposal) : Row p (summary p) := by
  constructor <;> simp [summary, Json.textMember?, Json.member?, Json.ofMembers,
    Entries.find?_insert, Json.text?]

theorem answer_list (activities : List Activity.Snapshot) {r : Request} (asks : r.AsksList) :
    answer activities r = showList r.query := by
  have route : Route.ofPath r.path = some .proposals := by
    rw [asks.path]
    decide
  simp [answer, route, asks.method, Route.methods, answerAt]

theorem showList_ok {query : Option (List Char)} {restriction : Option Proposal.Status}
    (restricts : statusFilter query = .ok restriction) (d : Desk) : (showList query d).result =
      .value (.array ((newestFirst (d.store.all.filter (passes restriction))).map summary)) := by
  simp only [showList, listed, restricts, Act.bind_apply, Act.look_apply]
  rfl

theorem showList_error {query : Option (List Char)} {a : Answer}
    (refused : statusFilter query = .error a) (d : Desk) : (showList query d).result = a := by
  simp only [showList, listed, refused, Act.bind_apply, Act.look_apply]
  rfl

/-- **The list of proposals** is complete, restricted as asked for and in one order, in every
store that operations lead to. -/
theorem listing_laws (d : Desk) (capacity : Nat) (ops : List Store.Operation) :
    ListLaws { d with store := Store.final (Store.ofCapacity capacity) ops } where
  shown := by
    intro activities r restriction asks restricts
    have keyed := Store.keyed_final capacity ops
    refine ⟨_, lists_newestFirst keyed (.refl _) restriction, ?_⟩
    rw [answer_list activities asks]
    exact showList_ok (statusFilter_restricts restricts) _
  rows := row_summary
  unique := by
    intro restriction ps ps' lists lists'
    exact lists.unique lists'
  walked := by
    intro yielded restriction perm
    exact lists_newestFirst (Store.keyed_final capacity ops) perm restriction
  refused := by
    intro activities r asks unrestricted
    obtain ⟨reason, refused⟩ := statusFilter_refused unrestricted
    rw [answer_list activities asks, showList_error refused]
    rfl
  unknown := by
    intro activities r text asks one unknown
    rw [answer_list activities asks]
    exact showList_error (statusFilter_unknown one unknown) _
  kept := by
    intro activities r asks
    rw [answer_list activities asks]
    rfl
  written := by
    intro pairs
    rw [statusTexts, Option.map_some, Option.getD_some, Http.Form.read_write]

end Web

end TriageDesk
