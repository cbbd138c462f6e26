/-
TriageDesk.Proofs.Service.Filings — reasoning adds pending proposals and
touches no other.

The engine of a service is run over a model whose replies may be anything.
`Files` is what some calls do to the desk: each that filed something has put
one proposal into the store, under the next name of the supply. It holds of
one call (`files_call`), of calls one after the other (`Files.append`), and so
of all calls of a run (`process_files`), with no assumption on the names.

Only the last step needs names that are fresh: what was put under a fresh name
replaced nothing (`get?_filed`). `process_onlyFiles` draws the two together.
-/
import Mathlib.Data.List.Forall2
import TriageDesk.Live
import TriageDesk.Proofs.Agent.Histories
import TriageDesk.Proofs.Tool.Effects

namespace TriageDesk

open Agent

/-! ## Filings -/

namespace Filing

/-- Whether a call filed a proposal: it is one of the tool for it, and the tool
returned a result. -/
def succeeded : Call × Tool.Outcome → Bool
  | (c, .returned _ (.ok _)) => c.tool = toolName
  | _ => false

/-- A proposal stems from a call: it is the one that is stored for the form of the
arguments, with what some supply gave, and the call answered with its id. -/
def Stems (call : Call × Tool.Outcome) (p : Proposal) : Prop :=
  ∃ form supply, Form.read call.1.args = .ok form ∧ p = stored form supply ∧
    call.2 = .returned 0 (present (.ok p.id))

/-- The proposals in a table after some more were filed. -/
def filed (t : Table Proposal) (added : List Proposal) : Table Proposal :=
  added.foldl (fun t p => t.insert p.id p) t

theorem Stems.status_eq {call : Call × Tool.Outcome} {p : Proposal} (h : Stems call p) :
    p.status = .pending := by
  obtain ⟨form, supply, _, rfl, _⟩ := h
  exact stored_status form supply

theorem Stems.actions_eq {call : Call × Tool.Outcome} {p : Proposal} (h : Stems call p) :
    p.actions = Proposal.defaultActions := by
  obtain ⟨form, supply, _, rfl, _⟩ := h
  exact stored_actions form supply

theorem exists_stems {calls : List (Call × Tool.Outcome)} {added : List Proposal}
    (h : List.Forall₂ Stems calls added) {p : Proposal} (hp : p ∈ added) :
    ∃ call, Stems call p := by
  induction h with
  | nil => cases hp
  | @cons call q calls added stems _ ih =>
    rcases List.mem_cons.mp hp with rfl | hp
    · exact ⟨call, stems⟩
    · exact ih hp

/-- What is found under an id after proposals with different ids were filed. -/
theorem get?_filed (t : Table Proposal) {added : List Proposal}
    (distinct : (added.map (·.id)).Nodup) (id : String) (p : Proposal) :
    (filed t added).get? id = some p ↔
      (p ∈ added ∧ p.id = id) ∨ (id ∉ added.map (·.id) ∧ t.get? id = some p) := by
  induction added generalizing t with
  | nil => simp [filed]
  | cons q rest ih =>
    rw [List.map_cons, List.nodup_cons] at distinct
    obtain ⟨hq, hrest⟩ := distinct
    show (filed (t.insert q.id q) rest).get? id = some p ↔ _
    rw [ih _ hrest, Table.get?_insert]
    by_cases same : id = q.id
    · subst same
      have absent : ¬ (p ∈ rest ∧ p.id = q.id) :=
        fun h => hq (List.mem_map.mpr ⟨p, h.1, h.2⟩)
      constructor
      · rintro (h | ⟨_, h⟩)
        · exact absurd h absent
        · rw [if_pos rfl] at h
          cases h
          exact Or.inl ⟨List.mem_cons_self, rfl⟩
      · rintro (⟨h, hid⟩ | ⟨h, _⟩)
        · rcases List.mem_cons.mp h with rfl | h
          · exact Or.inr ⟨hq, if_pos rfl⟩
          · exact absurd ⟨h, hid⟩ absent
        · exact absurd (List.mem_map.mpr ⟨q, List.mem_cons_self, rfl⟩) h
    · have other : ∀ h : p = q, ¬ p.id = id := by
        rintro rfl hid
        exact same hid.symm
      rw [if_neg same, List.map_cons, List.mem_cons, List.mem_cons]
      constructor
      · rintro (⟨h, hid⟩ | ⟨h, ht⟩)
        · exact Or.inl ⟨Or.inr h, hid⟩
        · exact Or.inr ⟨fun hmem => hmem.elim same h, ht⟩
      · rintro (⟨h, hid⟩ | ⟨h, ht⟩)
        · exact Or.inl ⟨h.resolve_left fun hpq => other hpq hid, hid⟩
        · exact Or.inr ⟨fun hmem => h (Or.inr hmem), ht⟩

/-- What some calls do to the desk, with the proposals that they file. -/
structure Files (calls : List (Call × Tool.Outcome)) (d d' : Desk) (added : List Proposal) :
    Prop where
  /-- Each call that filed something filed one of the proposals, in this order. -/
  stems : List.Forall₂ Stems (calls.filter succeeded) added
  proposals : d'.store.proposals = filed d.store.proposals added
  /-- The ids are names that were drawn meanwhile, each once. -/
  ids : added.map (·.id) = (List.range' d.supply.namesDrawn added.length).map d.supply.name
  drawn : d'.supply.namesDrawn = d.supply.namesDrawn + added.length
  name : d'.supply.name = d.supply.name

/-- What leaves the proposals and the names alone files nothing. -/
theorem Files.of_quiet {calls : List (Call × Tool.Outcome)} {d d' : Desk}
    (nothing : calls.filter succeeded = []) (proposals : d'.store.proposals = d.store.proposals)
    (name : d'.supply.name = d.supply.name)
    (drawn : d'.supply.namesDrawn = d.supply.namesDrawn) : Files calls d d' [] where
  stems := by
    rw [nothing]
    exact .nil
  proposals := proposals
  ids := rfl
  drawn := drawn
  name := name

theorem Files.append {cs ds : List (Call × Tool.Outcome)} {u v w : Desk}
    {first then_ : List Proposal} (h : Files cs u v first) (h' : Files ds v w then_) :
    Files (cs ++ ds) u w (first ++ then_) where
  stems := by
    rw [List.filter_append]
    exact List.rel_append h.stems h'.stems
  proposals := by
    rw [h'.proposals, h.proposals, filed, filed, filed, List.foldl_append]
  ids := by
    rw [List.map_append, h.ids, h'.ids, h.name, h.drawn, ← List.map_append,
      List.range'_append_1, List.length_append]
  drawn := by
    rw [h'.drawn, h.drawn, List.length_append]
    omega
  name := by rw [h'.name, h.name]

end Filing

/-! ## Calls -/

namespace Service

variable {Model : Type}

/-- A tool of the desk, at the workplace. -/
def atDesk (t : Tool Desk) : Tool (Workplace Model) :=
  t.within (·.desk) fun desk w => { w with desk }

theorem registry_get? (s : Service) (name : String) :
    (s.registry : Registry (Workplace Model)).get? name =
      if name = Filing.toolName then some (atDesk Filing.tool)
      else if name = Disposal.toolName then some (atDesk s.disposal.tool)
      else if name = Query.toolName then some (atDesk s.query.tool)
      else none := by
  show (((Table.empty.insert _ _).insert _ _).insert _ _).get? name = _
  rw [Table.get?_insert, Table.get?_insert, Table.get?_insert]
  rfl

/-- A call of the tool for filings, on the desk. -/
theorem registry_run_filing (s : Service) (args : Json) (w : Workplace Model) :
    (s.registry.run Filing.toolName args w).result =
        .returned 0 (Filing.present (Filing.file args w.desk).result) ∧
      (s.registry.run Filing.toolName args w).world.desk = (Filing.file args w.desk).world := by
  unfold Registry.run
  rw [registry_get?, if_pos rfl]
  exact ⟨rfl, rfl⟩

/-- A call of any other name hands over a request, or does nothing to the desk. -/
theorem registry_run_other (s : Service) {name : String} (other : name ≠ Filing.toolName)
    (args : Json) (w : Workplace Model) :
    w.desk.AtMostSends (s.registry.run name args w).world.desk := by
  unfold Registry.run
  rw [registry_get?, if_neg other]
  by_cases disposal : name = Disposal.toolName
  · rw [if_pos disposal]
    exact s.disposal.execute_world args w.desk
  · rw [if_neg disposal]
    by_cases query : name = Query.toolName
    · rw [if_pos query]
      exact s.query.execute_world args w.desk
    · rw [if_neg query]
      exact Or.inl rfl

/-- **One call.** It files one proposal if it is a call of the tool for filings that returns a
result, and nothing otherwise. -/
theorem files_call (s : Service) (c : Call) (w : Workplace Model) :
    ∃ added, Filing.Files [(c, (s.registry.run c.tool c.args w).result)] w.desk
      (s.registry.run c.tool c.args w).world.desk added := by
  by_cases filing : c.tool = Filing.toolName
  · rw [filing]
    obtain ⟨hresult, hworld⟩ := s.registry_run_filing c.args w
    rw [hresult, hworld]
    cases hread : Filing.Form.read c.args with
    | error f =>
      rw [Filing.file_unread hread]
      exact ⟨[], .of_quiet (by simp [Filing.succeeded, Filing.present]) rfl rfl rfl⟩
    | ok form =>
      obtain ⟨hid, hproposals, hsupply⟩ := Filing.file_read hread w.desk
      refine ⟨[Filing.stored form w.desk.supply], ?_⟩
      rw [hid]
      constructor
      · have counts : Filing.succeeded
            (c, .returned 0 (Filing.present (.ok (Filing.stored form w.desk.supply).id))) = true := by
          simp [Filing.succeeded, Filing.present, filing]
        rw [List.filter_cons, if_pos counts]
        exact .cons ⟨form, w.desk.supply, hread, rfl, rfl⟩ .nil
      · exact hproposals
      · simp [Filing.stored_id]
      · rw [hsupply]
        rfl
      · rw [hsupply]
  · have nothing : [(c, (s.registry.run c.tool c.args w).result)].filter Filing.succeeded = [] := by
      rw [List.filter_cons]
      unfold Filing.succeeded
      split
      · simp_all
      · rfl
    have quiet := s.registry_run_other filing c.args w
    refine ⟨[], .of_quiet nothing ?_ ?_ ?_⟩
    · rw [quiet.store_eq]
    · rw [quiet.supply_eq]
    · rw [quiet.supply_eq]

/-! ## Pieces of reasoning -/

/-- Asking a model files nothing: it leaves the proposals and the names alone. -/
def FilesNothing (ask : Asking Model) : Prop :=
  ∀ messages w,
    (ask messages w).world.desk.store.proposals = w.desk.store.proposals ∧
      (ask messages w).world.desk.supply.name = w.desk.supply.name ∧
      (ask messages w).world.desk.supply.namesDrawn = w.desk.supply.namesDrawn

/-- The models that the desk can choose file nothing. -/
theorem filesNothing_ask (choice : TriageDesk.Model.Choice) : FilesNothing choice.ask := by
  intro messages w
  cases choice with
  | script => exact ⟨rfl, rfl, rfl⟩
  | remote r =>
    simp only [TriageDesk.Model.Choice.ask, Act.bind_apply]
    generalize TriageDesk.Model.Remote.read _ _ = answer
    cases answer <;> exact ⟨rfl, rfl, rfl⟩

/-- The engine of a service, where anything may be the reason to give the waits up. -/
def engineUntil (s : Service) (ask : Asking Model) (cancelled : Workplace Model → Bool) :
    Engine (Workplace Model) :=
  { s.engine ask with cancelled }

/-- What a piece of reasoning does to the desk, whatever the model replies and whenever the
waits are given up. -/
theorem process_files (s : Service) {ask : Asking Model} (quiet : FilesNothing ask)
    (cancelled : Workplace Model → Bool) (prompt channel session : String)
    (before : Sessions (Workplace Model)) :
    ∃ added, Filing.Files
      ((s.engineUntil ask cancelled).callsOf prompt channel session before) before.world.desk
      ((s.engineUntil ask cancelled).process prompt channel session before).world.world.desk
      added := by
  refine (s.engineUntil ask cancelled).process_relates (R := fun calls w w' => ∃ added, Filing.Files calls w.desk w'.desk added)
    ?_ ?_ ?_ ?_ prompt channel session before
  · intro w
    exact ⟨[], .of_quiet rfl rfl rfl rfl⟩
  · rintro cs ds u v w ⟨first, h⟩ ⟨then_, h'⟩
    exact ⟨first ++ then_, h.append h'⟩
  · intro messages w
    obtain ⟨proposals, name, drawn⟩ := quiet messages w
    exact ⟨[], .of_quiet rfl proposals name drawn⟩
  · intro c w
    exact s.files_call c w

/-- The names that were drawn from a supply up to some number are fresh for a store: none is
empty, none is an id there, and no two are the same. -/
structure FreshNames (supply : Supply) (upTo : Nat) (store : Proposal.Store) : Prop where
  nonempty : ∀ n, supply.namesDrawn ≤ n → n < upTo → supply.name n ≠ ""
  unused : ∀ n, supply.namesDrawn ≤ n → n < upTo → store.get? (supply.name n) = none
  distinct : ∀ m n, supply.namesDrawn ≤ m → m < n → n < upTo → supply.name m ≠ supply.name n

/-- Between two states of a store some calls have filed proposals, and nothing else has
happened. -/
structure OnlyFiles (calls : List (Call × Tool.Outcome)) (before after : Proposal.Store) :
    Prop where
  /-- What was stored is still stored under its id, with every field as it was. -/
  kept : ∀ id p, before.get? id = some p → after.get? id = some p
  /-- What is stored besides are the proposals of the calls that filed one, each under an id
  of its own. -/
  added : ∃ added, List.Forall₂ Filing.Stems (calls.filter Filing.succeeded) added ∧
    (added.map (·.id)).Nodup ∧
    (∀ p ∈ added, p.id ≠ "" ∧ p.status = .pending ∧ p.actions = Proposal.defaultActions ∧
      before.get? p.id = none) ∧
    ∀ id p, after.get? id = some p ↔ before.get? id = some p ∨ (p ∈ added ∧ p.id = id)

/-- Filing under fresh names replaces nothing. -/
theorem onlyFiles_of_files {calls : List (Call × Tool.Outcome)} {d d' : Desk}
    {added : List Proposal} (files : Filing.Files calls d d' added)
    (fresh : FreshNames d.supply d'.supply.namesDrawn d.store) :
    OnlyFiles calls d.store d'.store := by
  have drawn : ∀ id ∈ added.map (·.id),
      ∃ n, d.supply.namesDrawn ≤ n ∧ n < d'.supply.namesDrawn ∧ d.supply.name n = id := by
    intro id hid
    rw [files.ids, List.mem_map] at hid
    obtain ⟨n, hn, rfl⟩ := hid
    rw [List.mem_range'_1] at hn
    exact ⟨n, hn.1, by rw [files.drawn]; exact hn.2, rfl⟩
  have unused : ∀ id ∈ added.map (·.id), d.store.get? id = none := by
    intro id hid
    obtain ⟨n, hle, hlt, rfl⟩ := drawn id hid
    exact fresh.unused n hle hlt
  have distinct : (added.map (·.id)).Nodup := by
    rw [files.ids]
    refine List.pairwise_map.mpr ((List.pairwise_lt_range').imp_of_mem ?_)
    intro m n hm hn hlt
    rw [List.mem_range'_1] at hm hn
    exact fresh.distinct m n hm.1 hlt (by rw [files.drawn]; exact hn.2)
  have found : ∀ id p, d'.store.get? id = some p ↔
      d.store.get? id = some p ∨ (p ∈ added ∧ p.id = id) := by
    intro id p
    show d'.store.proposals.get? id = some p ↔ _
    rw [files.proposals, Filing.get?_filed _ distinct]
    constructor
    · rintro (h | ⟨_, h⟩)
      · exact Or.inr h
      · exact Or.inl h
    · rintro (h | h)
      · refine Or.inr ⟨fun hid => ?_, h⟩
        rw [unused id hid] at h
        cases h
      · exact Or.inl h
  refine ⟨fun id p h => (found id p).mpr (Or.inl h), added, files.stems, distinct, ?_, found⟩
  intro p hp
  have hid : p.id ∈ added.map (·.id) := List.mem_map.mpr ⟨p, hp, rfl⟩
  obtain ⟨call, stems⟩ := Filing.exists_stems files.stems hp
  obtain ⟨n, hle, hlt, hname⟩ := drawn p.id hid
  refine ⟨?_, stems.status_eq, stems.actions_eq, unused p.id hid⟩
  rw [← hname]
  exact fresh.nonempty n hle hlt

/-- **Reasoning only adds pending proposals.** Whatever a model replies, whatever comes of the
requests and whenever the waits are given up: a piece of reasoning leaves every proposal
as it was, and what it adds are new pending proposals, one for each call that filed one.
The names that it drew are taken to be fresh. -/
theorem process_onlyFiles (s : Service) {ask : Asking Model} (quiet : FilesNothing ask)
    (cancelled : Workplace Model → Bool) (prompt channel session : String)
    (before : Sessions (Workplace Model))
    (fresh : FreshNames before.world.desk.supply
      ((s.engineUntil ask cancelled).process prompt channel session
        before).world.world.desk.supply.namesDrawn
      before.world.desk.store) :
    OnlyFiles ((s.engineUntil ask cancelled).callsOf prompt channel session before)
      before.world.desk.store
      ((s.engineUntil ask cancelled).process prompt channel session
        before).world.world.desk.store := by
  obtain ⟨added, files⟩ := s.process_files quiet cancelled prompt channel session before
  exact onlyFiles_of_files files fresh

/-- A service with nothing to ask and nothing to apply. -/
def bare : Service :=
  { activities := [], query := ⟨∅, "", "", ""⟩, disposal := ⟨∅, "", ""⟩
    toolTimeout := 1, maxSteps := 3, maxHistory := 4 }

/-- A call that files a proposal and asks for an id and a status. -/
def overbearingCall : String :=
  "\x7b\"tool\": \"create_proposal\", \"args\": \x7b\"type\": \"risk\", \"title\": \"t\", " ++
    "\"id\": \"p1\", \"status\": \"accepted\", \"actions\": []\x7d\x7d"

/-- A workplace with a proposal under the id that the call asks for, and a model that makes
the call twice. -/
def besieged : Sessions (Workplace TriageDesk.Model.Memory) :=
  let old : Proposal := { Proposal.new "risk" "old" "" ∅ ⟨0, 0⟩ with id := "p1", status := .ignored }
  let desk := { Desk.fresh (.still ⟨0, 0⟩ 7) with store := Proposal.Store.empty.put old }
  let replies := [some (.ok overbearingCall), some (.ok overbearingCall)]
  ⟨∅, ⟨desk, ⟨.ofReplies replies, .none⟩, false⟩⟩

/-- The engine in that place. -/
def besiegedEngine : Engine (Workplace TriageDesk.Model.Memory) :=
  bare.engineUntil TriageDesk.Model.Choice.script.ask fun w => w.signalled

/-- Two calls that ask for the id of a proposal file two others. -/
theorem process_onlyFiles_besieged :
    (besiegedEngine.callsOf "look" "desk" "night" besieged).length = 2 ∧
      OnlyFiles (besiegedEngine.callsOf "look" "desk" "night" besieged) besieged.world.desk.store
        (besiegedEngine.process "look" "desk" "night" besieged).world.world.desk.store := by
  have drawn : (besiegedEngine.process "look" "desk" "night"
      besieged).world.world.desk.supply.namesDrawn = 2 := by
    decide +kernel
  have names : ∀ n, n < 2 → besieged.world.desk.supply.name n ≠ "" ∧
      besieged.world.desk.store.get? (besieged.world.desk.supply.name n) = none ∧
      ∀ m, m < n → besieged.world.desk.supply.name m ≠ besieged.world.desk.supply.name n := by
    decide +kernel
  have fresh : FreshNames besieged.world.desk.supply (besiegedEngine.process "look" "desk" "night"
      besieged).world.world.desk.supply.namesDrawn besieged.world.desk.store := by
    rw [drawn]
    exact ⟨fun n _ h => (names n h).1, fun n _ h => (names n h).2.1,
      fun m n _ hlt h => (names n h).2.2 m hlt⟩
  refine ⟨by decide +kernel, ?_⟩
  unfold besiegedEngine at fresh ⊢
  exact bare.process_onlyFiles (filesNothing_ask .script) (fun w => w.signalled) "look" "desk"
    "night" besieged fresh

end Service

end TriageDesk
