/-
TriageDesk.Proofs.Activity.Accounts — what snapshots tell of the activities.

What happens to the activities of a scheduler is kept as `News`: one is started,
a run of one begins or ends. `newsOf` are the news of a history.

The snapshot of an activity follows the news of it, whatever happens
(`telemetry_after`). Whether a run is in flight, on the other hand, follows the
news only in order: two loops of one name would begin a second run before the
first one ends. `Follows` is that invariant, kept by each move that finds the
loops of a name alone (`Follows.next`).

The counts are then a matter of the news alone (`News.account`): if runs are
begun only when none is in flight, those that were begun since the last start are
those that failed, those that succeeded, and the one in flight. `snapshots_laws`
puts the two together.
-/
import Mathlib.Data.List.Induction
import Mathlib.Tactic.IntervalCases
import TriageDesk.Proofs.Activity.Overlaps

namespace TriageDesk.Activity

open Time

/-! ## News -/

/-- What happens to an activity. -/
inductive News
  | started (a : Activity)
  | begun (name : String) (moment : Instant)
  | ended (name : String) (moment : Instant) (result : Except Agent.Failure String)

namespace News

/-- The name of the activity. -/
def name : News → String
  | .started a => a.name
  | .begun n _ => n
  | .ended n .. => n

/-- The activity that was started, if it has a name. -/
def start? (name : String) : News → Option Activity
  | .started a => if a.name = name then some a else none
  | _ => none

/-- Whether a run of an activity was begun. -/
def begins (name : String) : News → Bool
  | .begun n _ => n = name
  | _ => false

/-- Whether a run of an activity succeeded. -/
def succeeds (name : String) : News → Bool
  | .ended n _ (.ok _) => n = name
  | _ => false

/-- The message of a run of an activity that failed. -/
def error? (name : String) : News → Option String
  | .ended n _ (.error f) => if n = name then some f.message else none
  | _ => none

/-- What is known of an activity after news. -/
def tell (name : String) (known : Option Snapshot) : News → Option Snapshot
  | .started a => if a.name = name then some (.ofActivity a) else known
  | .begun n moment => if n = name then known.map (·.begun moment) else known
  | .ended n moment (.ok _) => if n = name then known.map (·.succeeded moment) else known
  | .ended n moment (.error f) => if n = name then known.map (·.failed moment f.message) else known

/-- Whether a run of an activity is in flight after news. -/
def fly (name : String) (flying : Bool) : News → Bool
  | .started a => if a.name = name then false else flying
  | .begun n _ => if n = name then true else flying
  | .ended n .. => if n = name then false else flying

/-- Whether a run of an activity is in flight in the end. -/
def inFlight (name : String) (log : List News) : Bool := log.foldl (fly name) false

/-- News that can follow others: a run begins where none is in flight, and ends where one is. -/
def Fits (log : List News) : News → Prop
  | .started _ => True
  | .begun n _ => inFlight n log = false
  | .ended n .. => inFlight n log = true

/-- Runs begin and end in turns. -/
def Paired (log : List News) : Prop := ∀ pre x post, log = pre ++ x :: post → x.Fits pre

@[simp] theorem inFlight_concat (name : String) (log : List News) (x : News) :
    inFlight name (log ++ [x]) = fly name (inFlight name log) x := by
  simp [inFlight]

theorem paired_nil : Paired [] := by
  intro pre x post same
  simp at same

theorem paired_concat {log : List News} {x : News} :
    Paired (log ++ [x]) ↔ Paired log ∧ x.Fits log := by
  constructor
  · intro paired
    refine ⟨?_, paired log x [] rfl⟩
    rintro pre y post rfl
    exact paired pre y (post ++ [x]) (by simp)
  · rintro ⟨paired, fits⟩ pre y post same
    rcases List.eq_nil_or_concat post with rfl | ⟨post, z, rfl⟩
    · obtain ⟨rfl, last⟩ := List.append_inj' same rfl
      cases last
      exact fits
    · rw [List.concat_eq_append, ← List.cons_append, ← List.append_assoc] at same
      exact paired pre y post (List.append_inj' same rfl).1

/-- News of another activity. -/
structure Other (name : String) (x : News) : Prop where
  tell (known : Option Snapshot) : x.tell name known = known
  fly (flying : Bool) : x.fly name flying = flying
  begins : x.begins name = false
  succeeds : x.succeeds name = false
  error? : x.error? name = none

theorem other_of_ne {name : String} {x : News} (other : x.name ≠ name) : x.Other name := by
  cases x with
  | started a | begun n moment => constructor <;> intros <;> first | rfl | exact if_neg other
  | ended n moment result =>
    cases result <;> constructor <;> intros <;> first | rfl | exact if_neg other

end News

/-- What a snapshot says of an activity, and what has happened since it was started. -/
structure Snapshot.Tells (known : Snapshot) (a : Activity) (since : List News) : Prop where
  entry : known.name = a.name ∧ known.schedule = a.schedule ∧ known.mode = a.mode ∧
    known.interval = a.interval
  /-- All runs that were begun are counted. -/
  runs : known.runs = since.countP (News.begins a.name)
  /-- And those that failed. -/
  failures : known.failures = (since.filterMap (News.error? a.name)).length
  /-- The error is that of the latest run that failed. -/
  lastError : known.lastError = (since.filterMap (News.error? a.name)).getLast?
  /-- Each run failed, succeeded, or is in flight. -/
  balance : known.failures + since.countP (News.succeeds a.name) + known.isRunning.toNat =
    known.runs

namespace Snapshot.Tells

variable {known : Snapshot} {a : Activity} {since : List News}

theorem of_started (a : Activity) : Tells (.ofActivity a) a [] where
  entry := ⟨rfl, rfl, rfl, rfl⟩
  runs := rfl
  failures := rfl
  lastError := rfl
  balance := rfl

/-- News of other activities make no difference. -/
theorem other (tells : known.Tells a since) {x : News} (other : x.Other a.name) :
    known.Tells a (since ++ [x]) where
  entry := tells.entry
  runs := by simp [tells.runs, other.begins]
  failures := by simp [tells.failures, other.error?]
  lastError := by simp [tells.lastError, other.error?]
  balance := by simpa [other.succeeds] using tells.balance

/-- A run begins, where none is in flight. -/
theorem begun (tells : known.Tells a since) (idle : known.isRunning = false) (moment : Instant) :
    (known.begun moment).Tells a (since ++ [.begun a.name moment]) where
  entry := tells.entry
  runs := by simp [Snapshot.begun, News.begins, tells.runs]
  failures := by simp [Snapshot.begun, News.error?, tells.failures]
  lastError := by simp [Snapshot.begun, News.error?, tells.lastError]
  balance := by
    have balance := tells.balance
    rw [idle, Bool.toNat_false, Nat.add_zero] at balance
    simp [Snapshot.begun, News.succeeds, balance]

/-- The run in flight succeeds. -/
theorem succeeded (tells : known.Tells a since) (busy : known.isRunning = true) (moment : Instant)
    (reply : String) :
    (known.succeeded moment).Tells a (since ++ [.ended a.name moment (.ok reply)]) where
  entry := tells.entry
  runs := by simp [Snapshot.succeeded, News.begins, tells.runs]
  failures := by simp [Snapshot.succeeded, News.error?, tells.failures]
  lastError := by simp [Snapshot.succeeded, News.error?, tells.lastError]
  balance := by
    have balance := tells.balance
    rw [busy, Bool.toNat_true] at balance
    simp [Snapshot.succeeded, News.succeeds]
    omega

/-- The run in flight fails. -/
theorem failed (tells : known.Tells a since) (busy : known.isRunning = true) (moment : Instant)
    (f : Agent.Failure) :
    (known.failed moment f.message).Tells a (since ++ [.ended a.name moment (.error f)]) where
  entry := tells.entry
  runs := by simp [Snapshot.failed, News.begins, tells.runs]
  failures := by simp [Snapshot.failed, News.error?, tells.failures]
  lastError := by simp [Snapshot.failed, News.error?]
  balance := by
    have balance := tells.balance
    rw [busy, Bool.toNat_true] at balance
    simp [Snapshot.failed, News.succeeds]
    omega

end Snapshot.Tells

/-- **The news of an activity make up its snapshot**, if its runs begin and end in turns. -/
theorem News.account {pre since : List News} {a : Activity}
    (paired : Paired (pre ++ .started a :: since)) (last : since.filterMap (start? a.name) = []) :
    ∃ known, (pre ++ .started a :: since).foldl (tell a.name) none = some known ∧
      known.Tells a since ∧ known.isRunning = inFlight a.name (pre ++ .started a :: since) := by
  induction since using List.reverseRecOn with
  | nil =>
    refine ⟨.ofActivity a, by simp [tell], .of_started a, ?_⟩
    simp only [inFlight_concat, fly, if_true]
    rfl
  | append_singleton since x ih =>
    rw [← List.cons_append, ← List.append_assoc] at paired ⊢
    obtain ⟨paired, fits⟩ := paired_concat.mp paired
    rw [List.filterMap_append, List.append_eq_nil_iff] at last
    obtain ⟨known, whole, tells, flies⟩ := ih paired last.1
    rw [List.foldl_append, whole, inFlight_concat, ← flies]
    by_cases own : x.name = a.name
    · cases x with
      | started b =>
        have later := last.2
        simp [start?, show b.name = a.name from own] at later
      | begun n moment =>
        obtain rfl : n = a.name := own
        rw [Fits, ← flies] at fits
        exact ⟨known.begun moment, by simp [tell], tells.begun fits moment,
          by simp [fly, Snapshot.begun]⟩
      | ended n moment result =>
        obtain rfl : n = a.name := own
        rw [Fits, ← flies] at fits
        cases result with
        | ok reply =>
          exact ⟨known.succeeded moment, by simp [tell], tells.succeeded fits moment reply,
            by simp [fly, Snapshot.succeeded]⟩
        | error f =>
          exact ⟨known.failed moment f.message, by simp [tell], tells.failed fits moment f,
            by simp [fly, Snapshot.failed]⟩
    · have other := other_of_ne own
      exact ⟨known, other.tell _, tells.other other, (other.fly _).symm⟩

/-- Something is known of exactly the activities that were started. -/
theorem News.isSome_tell_iff {name : String} {known : Option Snapshot} {log : List News} :
    (log.foldl (tell name) known).isSome = true ↔
      known.isSome = true ∨ ∃ a, .started a ∈ log ∧ a.name = name := by
  induction log generalizing known with
  | nil => simp
  | cons x rest ih =>
    have here : (x.tell name known).isSome = true ↔
        known.isSome = true ∨ ∃ a, .started a = x ∧ a.name = name := by
      cases x with
      | started a =>
        simp only [tell]
        split_ifs with own <;> simp [own]
      | begun n moment =>
        simp only [tell]
        split_ifs <;> simp
      | ended n moment result =>
        cases result <;> simp only [tell] <;> split_ifs <;> simp
    rw [List.foldl_cons, ih, here, or_assoc]
    simp only [List.mem_cons, or_and_right, exists_or]

/-- What is known of an activity has its name. -/
theorem News.name_of_tell {name : String} {log : List News} {known : Snapshot}
    (whole : log.foldl (tell name) none = some known) : known.name = name := by
  induction log using List.reverseRecOn generalizing known with
  | nil => cases whole
  | append_singleton log x ih =>
    rw [List.foldl_append, List.foldl_cons, List.foldl_nil] at whole
    have changed {f : Snapshot → Snapshot} (whole : (log.foldl (tell name) none).map f = some known)
        (keeps : ∀ k, (f k).name = k.name) : known.name = name := by
      obtain ⟨before, known', rfl⟩ := Option.map_eq_some_iff.mp whole
      exact (keeps before).trans (ih known')
    cases x with
    | started a =>
      simp only [tell] at whole
      split_ifs at whole with own
      · cases whole
        exact own
      · exact ih whole
    | begun n moment =>
      simp only [tell] at whole
      split_ifs at whole
      · exact changed whole fun _ => rfl
      · exact ih whole
    | ended n moment result =>
      cases result <;> simp only [tell] at whole <;> split_ifs at whole
      · exact changed whole fun _ => rfl
      · exact ih whole
      · exact changed whole fun _ => rfl
      · exact ih whole

/-- A run is due only in a loop that is alive and has none in flight. -/
theorem Loop.idle_of_due {Job : Type} {l : Loop Job} {now due : Nat}
    (found : l.dueAfter? now = some due) : l.isOver = false ∧ l.isRunning = false := by
  obtain ⟨a, stopped, phase⟩ := l
  cases phase with
  | spawned | waiting => exact ⟨rfl, rfl⟩
  | running | ended | aborted => cases found

namespace Scheduler

variable {Job : Type}

/-! ## The news of a history -/

/-- The news of starting activities one after the other. -/
def startNews (s : Scheduler Job) : List Activity → List News
  | [] => []
  | a :: rest =>
    (if a.enabled ∧ s.isRunning a.name = false then [.started a] else []) ++
      startNews (s.started a) rest

/-- The news of a move. A run begins, that is, the engine is called, if one is due. -/
def Move.news (s : Scheduler Job) : Move Job → List News
  | .start activities => if s.shutDown then [] else s.startNews activities
  | .beginRun n now moment _ =>
    match s.loops[n]? with
    | some l => if (l.dueAfter? now).isSome then [.begun l.activity.name moment] else []
    | none => []
  | .endRun n moment result =>
    match s.loops[n]? with
    | some l => if l.isRunning then [.ended l.activity.name moment result] else []
    | none => []
  | _ => []

/-- The news of a history. -/
def newsOf (s : Scheduler Job) : List (Move Job) → List News
  | [] => []
  | m :: rest => m.news s ++ newsOf (m.next s) rest

theorem newsOf_concat (s : Scheduler Job) (moves : List (Move Job)) (m : Move Job) :
    newsOf s (moves ++ [m]) = newsOf s moves ++ m.news (s.after moves) := by
  induction moves generalizing s with
  | nil => simp [newsOf, after]
  | cons first rest ih =>
    rw [List.cons_append, newsOf, newsOf, after_cons, ih, List.append_assoc]

theorem spawn_handles (s : Scheduler Job) (a : Activity) (name : String) :
    (s.spawn a).handles.get? name =
      if name = a.name then some s.loops.length else s.handles.get? name :=
  Table.get?_insert _ _ _ _

theorem spawn_telemetry (s : Scheduler Job) (a : Activity) (name : String) :
    (s.spawn a).telemetry.get? name =
      if name = a.name then some (.ofActivity a) else s.telemetry.get? name :=
  Table.get?_insert _ _ _ _

theorem isRunning_started (s : Scheduler Job) (a : Activity) (name : String) :
    (s.started a).isRunning name = (s.isRunning name || (a.enabled && decide (a.name = name))) := by
  unfold started
  split_ifs with idle
  · rw [isRunning, Table.contains, spawn_handles, idle.1]
    by_cases same : name = a.name <;> simp [same, Ne.symm, isRunning, Table.contains]
  · cases enabled : a.enabled with
    | false => simp
    | true =>
      rw [Bool.true_and]
      by_cases same : a.name = name
      · subst same
        have running : s.isRunning a.name = true := by simpa [enabled] using idle
        simp [running]
      · simp [same]

/-- **What a start starts**: of the activities of one name the first that is enabled, unless the
name has a handle. -/
theorem startNews_of_name (s : Scheduler Job) (activities : List Activity) (name : String) :
    (s.startNews activities).filterMap (News.start? name) =
      if s.isRunning name then []
      else (activities.filter fun a => a.enabled && decide (a.name = name)).take 1 := by
  induction activities generalizing s with
  | nil => simp [startNews]
  | cons a rest ih =>
    rw [startNews, List.filterMap_append, ih, isRunning_started]
    by_cases own : a.enabled = true ∧ a.name = name
    · obtain ⟨enabled, rfl⟩ := own
      cases running : s.isRunning a.name <;> simp [enabled, News.start?]
    · have other : (a.enabled && decide (a.name = name)) = false := by simpa using own
      have nothing : (if a.enabled ∧ s.isRunning a.name = false then
          [News.started a] else []).filterMap (News.start? name) = [] := by
        split_ifs with idle
        · simpa [News.start?] using fun same => own ⟨idle.1, same⟩
        · rfl
      rw [nothing, other, Bool.or_false, List.nil_append, List.filter_cons_of_neg (by simp [other])]

/-! ## Snapshots follow the news -/

theorem note_telemetry (s : Scheduler Job) (own name : String) (f : Snapshot → Snapshot) :
    (s.note own f).telemetry.get? name =
      if own = name then (s.telemetry.get? name).map f else s.telemetry.get? name := by
  unfold note
  by_cases same : own = name
  · subst same
    cases known : s.telemetry.get? own with
    | none => simp [known]
    | some snapshot => simp [Table.get?_insert]
  · rw [if_neg same]
    cases known : s.telemetry.get? own with
    | none => rfl
    | some snapshot => rw [Table.get?_insert, if_neg (Ne.symm same)]

theorem telemetry_started (s : Scheduler Job) (activities : List Activity) (name : String) :
    (activities.foldl started s).telemetry.get? name =
      (s.startNews activities).foldl (News.tell name) (s.telemetry.get? name) := by
  induction activities generalizing s with
  | nil => rfl
  | cons a rest ih =>
    rw [List.foldl_cons, ih, startNews, List.foldl_append]
    congr 1
    unfold started
    split_ifs with idle
    · simp only [spawn_telemetry, List.foldl_cons, List.foldl_nil, News.tell, eq_comm]
    · rfl

/-- **Snapshots follow the news.** -/
theorem Move.next_telemetry (m : Move Job) (s : Scheduler Job) (name : String) :
    (m.next s).telemetry.get? name = (m.news s).foldl (News.tell name) (s.telemetry.get? name) := by
  cases m with
  | start activities =>
    rw [next_start, Move.news]
    split_ifs
    · rfl
    · exact telemetry_started s activities name
  | beginStopActivity other =>
    rw [next_beginStopActivity]
    cases s.handles.get? other <;> rfl
  | endStopActivity n =>
    rw [next_endStopActivity]
    rfl
  | endStop taken =>
    rw [next_endStop]
    rfl
  | beginRun n now moment job =>
    rw [next_beginRun, Move.news]
    cases s.loops[n]? with
    | none => rfl
    | some l =>
      cases due : l.dueAfter? now with
      | none => simp [due]
      | some time =>
        simp only [due, note_telemetry, Option.isSome_some, if_true, List.foldl_cons,
          List.foldl_nil, News.tell]
        rfl
  | endRun n moment result =>
    rw [next_endRun, Move.news]
    cases s.loops[n]? with
    | none => rfl
    | some l =>
      obtain ⟨a, stopped, phase⟩ := l
      cases phase with
      | running due job =>
        simp only [note_telemetry]
        cases result <;> rfl
      | spawned | waiting | ended | aborted => rfl
  | beginStop | shutdown | proceed | abortRun | leave => rfl

theorem telemetry_after (history : List (Move Job)) (name : String) :
    ((empty : Scheduler Job).after history).telemetry.get? name =
      (newsOf (empty : Scheduler Job) history).foldl (News.tell name) none := by
  induction history using List.reverseRecOn with
  | nil => rfl
  | append_singleton history m ih =>
    rw [after_append, newsOf_concat, List.foldl_append, ← ih]
    exact m.next_telemetry _ name

/-! ## The runs in flight follow the news -/

/-- A run of an activity is in flight. -/
def Flies (s : Scheduler Job) (name : String) : Prop :=
  ∃ (n : Nat) (l : Loop Job), s.loops[n]? = some l ∧ l.activity.name = name ∧ l.isRunning = true

/-- The runs in flight are those that the news tell of, which begin and end in turns. -/
structure Follows (log : List News) (s : Scheduler Job) : Prop where
  flies : ∀ name, s.Flies name ↔ News.inFlight name log = true
  paired : News.Paired log

theorem follows_empty : Follows [] (empty : Scheduler Job) where
  flies name := by simp [Flies, empty, News.inFlight]
  paired := News.paired_nil

theorem flies_started (s : Scheduler Job) (a : Activity) (name : String) :
    (s.started a).Flies name ↔ s.Flies name := by
  have grown := grown_started s a
  constructor
  · rintro ⟨n, l, found, own, running⟩
    rcases grown.loops n l found with old | ⟨fresh, -⟩
    · exact ⟨n, l, old, own, running⟩
    · simp [Loop.isRunning, fresh.unbegun] at running
  · rintro ⟨n, l, found, own, running⟩
    exact ⟨n, l, grown.kept n l found, own, running⟩

/-- Activities are started of which no run is in flight. -/
theorem Follows.starts {log : List News} {s : Scheduler Job} (follows : Follows log s)
    {activities : List Activity}
    (ready : ∀ a ∈ activities, a.enabled = true → s.isRunning a.name = false → ¬ s.Flies a.name) :
    Follows (log ++ s.startNews activities) (activities.foldl started s) := by
  induction activities generalizing log s with
  | nil =>
    rw [startNews, List.append_nil]
    exact follows
  | cons a rest ih =>
    rw [startNews, ← List.append_assoc]
    refine ih ?_ ?_
    · split_ifs with idle
      · refine ⟨fun name => ?_, News.paired_concat.mpr ⟨follows.paired, trivial⟩⟩
        rw [flies_started, News.inFlight_concat, News.fly]
        split_ifs with own
        · have grounded := ready a List.mem_cons_self idle.1 idle.2
          rw [own] at grounded
          simp [grounded]
        · exact follows.flies name
      · rw [List.append_nil, started, if_neg idle]
        exact follows
    · intro b among enabled idle
      rw [isRunning_started, Bool.or_eq_false_iff] at idle
      rw [flies_started]
      exact ready b (List.mem_cons_of_mem _ among) enabled idle.1

/-- Where there are no news, a loop does not begin or end a run. -/
theorem Move.steady {m : Move Job} (unbroken : ∀ n, m ≠ .abortRun n) {s : Scheduler Job}
    (quiet : m.news s = []) {n : Nat} (made : m.maker? = some n) {l : Loop Job}
    (found : s.loops[n]? = some l) :
    ({ l with phase := m.phaseAfter s l } : Loop Job).isRunning = l.isRunning := by
  cases m with
  | start | beginStopActivity | endStopActivity | beginStop | endStop | shutdown => cases made
  | abortRun k => exact absurd rfl (unbroken k)
  | beginRun k now moment job =>
    cases made
    cases due : l.dueAfter? now with
    | none => simp [Move.phaseAfter, due]
    | some time => simp [Move.news, found, due] at quiet
  | endRun k moment result =>
    cases made
    obtain ⟨a, stopped, phase⟩ := l
    cases phase with
    | running => simp [Move.news, found, Loop.isRunning] at quiet
    | spawned | waiting | ended | aborted => rfl
  | proceed k job =>
    obtain ⟨a, stopped, phase⟩ := l
    cases phase <;> rfl
  | leave k =>
    obtain ⟨a, stopped, phase⟩ := l
    cases phase with
    | waiting due =>
      simp only [Move.phaseAfter]
      split_ifs <;> rfl
    | spawned | running | ended | aborted => rfl

/-- A move by which no run begins or ends. -/
theorem Follows.still {log : List News} {s : Scheduler Job} (follows : Follows log s) {m : Move Job}
    (starts : ∀ activities, m ≠ .start activities) (unbroken : ∀ n, m ≠ .abortRun n)
    (quiet : m.news s = []) : Follows (log ++ m.news s) (m.next s) := by
  have loops (n : Nat) : ∃ f : Loop Job → Loop Job, (m.next s).loops[n]? = s.loops[n]?.map f ∧
      ∀ l, s.loops[n]? = some l → (f l).activity = l.activity ∧ (f l).isRunning = l.isRunning := by
    by_cases made : m.maker? = some n
    · exact ⟨_, found_of_maker made s, fun l found => ⟨rfl, Move.steady unbroken quiet made found⟩⟩
    · obtain ⟨f, moved, kept⟩ := (m.shrinks starts s).loops n
      refine ⟨f, moved, fun l _ => ⟨(kept l).1, ?_⟩⟩
      rw [Loop.isRunning, Loop.isRunning, (kept l).2.2 made]
  rw [quiet, List.append_nil]
  refine ⟨fun name => Iff.trans (exists_congr fun n => ?_) (follows.flies name), follows.paired⟩
  obtain ⟨f, moved, kept⟩ := loops n
  rw [moved]
  cases found : s.loops[n]? with
  | none => simp
  | some l =>
    obtain ⟨activity, same⟩ := kept l found
    simp [activity, same]

/-- The move of a loop is nothing to other names. -/
theorem flies_of_other {s : Scheduler Job} {m : Move Job} {n : Nat} {l : Loop Job} {name : String}
    (made : m.maker? = some n) (found : s.loops[n]? = some l) (other : l.activity.name ≠ name) :
    (m.next s).Flies name ↔ s.Flies name := by
  refine exists_congr fun k => ?_
  by_cases here : k = n
  · subst here
    rw [found_of_maker made s, found]
    simp [other]
  · have same : (m.next s).loops[k]? = s.loops[k]? := by
      rw [(next_of_maker made s).2.2, List.getElem?_modify]
      simp [Ne.symm here]
    rw [same]

/-- Whether a run of the name of a loop is in flight is a matter of that loop. -/
theorem Alone.flies_iff {s : Scheduler Job} (alone : Alone s) {n : Nat} {l : Loop Job}
    (found : s.loops[n]? = some l) (alive : l.isOver = false) :
    s.Flies l.activity.name ↔ l.isRunning = true := by
  constructor
  · rintro ⟨k, l', found', own, running⟩
    obtain rfl := alone k n l' l found' found own (Loop.isOver_of_isRunning running) alive
    rw [found] at found'
    cases found'
    exact running
  · exact fun running => ⟨n, l, found, rfl, running⟩

/-- A loop begins or ends a run. -/
theorem Follows.turn {log : List News} {s : Scheduler Job} (follows : Follows log s) {m : Move Job}
    (alone : Alone (m.next s)) {n : Nat} {l : Loop Job} {phase : Loop.Phase Job} {x : News}
    (made : m.maker? = some n) (found : s.loops[n]? = some l) (moved : m.phaseAfter s l = phase)
    (alive : ({ l with phase } : Loop Job).isOver = false) (news : m.news s = [x])
    (own : x.name = l.activity.name) (fits : x.Fits log)
    (flies : ∀ b, x.fly x.name b = ({ l with phase } : Loop Job).isRunning) :
    Follows (log ++ m.news s) (m.next s) := by
  have here : (m.next s).loops[n]? = some { l with phase } := by
    rw [found_of_maker made s, found, Option.map_some, moved]
  rw [news]
  refine ⟨fun name => ?_, News.paired_concat.mpr ⟨follows.paired, fits⟩⟩
  rw [News.inFlight_concat]
  by_cases same : l.activity.name = name
  · subst same
    rw [← own, flies, own]
    exact alone.flies_iff here alive
  · rw [flies_of_other made found same, (News.other_of_ne (own.trans_ne same)).fly]
    exact follows.flies name

/-- **The runs in flight follow the news** in each move in order, unless a run breaks down. -/
theorem Follows.next {log : List News} {s : Scheduler Job} (follows : Follows log s)
    (alone : Alone s) {m : Move Job} (order : m.InOrder s) (unbroken : ∀ n, m ≠ .abortRun n) :
    Follows (log ++ m.news s) (m.next s) := by
  cases m with
  | start activities =>
    rw [next_start, Move.news]
    split_ifs with down
    · rw [List.append_nil]
      exact follows
    · refine follows.starts fun a among enabled idle => ?_
      rintro ⟨n, l, found, own, running⟩
      have ended := order (eq_false_of_ne_true down) a among enabled idle l
        (List.mem_of_getElem? found) own
      rw [Loop.isOver_of_isRunning running] at ended
      cases ended
  | beginRun n now moment job =>
    cases found : s.loops[n]? with
    | none => exact follows.still (by simp) unbroken (by simp [Move.news, found])
    | some l =>
      cases due : l.dueAfter? now with
      | none => exact follows.still (by simp) unbroken (by simp [Move.news, found, due])
      | some time =>
        obtain ⟨alive, idle⟩ := Loop.idle_of_due due
        have moved : (Move.beginRun n now moment job).phaseAfter s l = .running time job := by
          simp [Move.phaseAfter, due]
        have news : (Move.beginRun n now moment job).news s = [.begun l.activity.name moment] := by
          simp [Move.news, found, due]
        have grounded : News.inFlight l.activity.name log = false := by
          rw [← Bool.not_eq_true, ← follows.flies, alone.flies_iff found alive, idle]
          simp
        exact follows.turn (alone.next trivial) rfl found moved rfl news rfl grounded
          fun _ => if_pos rfl
  | endRun n moment result =>
    cases found : s.loops[n]? with
    | none => exact follows.still (by simp) unbroken (by simp [Move.news, found])
    | some l =>
      obtain ⟨a, stopped, phase⟩ := l
      cases phase with
      | running due job =>
        have moved : (Move.endRun n moment result).phaseAfter s ⟨a, stopped, .running due job⟩ =
          .waiting due := rfl
        have news : (Move.endRun n moment result).news s = [.ended a.name moment result] := by
          simp [Move.news, found, Loop.isRunning]
        have aloft : News.inFlight a.name log = true :=
          (follows.flies a.name).mp ⟨n, _, found, rfl, rfl⟩
        exact follows.turn (alone.next trivial) rfl found moved rfl news rfl aloft
          fun _ => if_pos rfl
      | spawned | waiting | ended | aborted =>
        exact follows.still (by simp) unbroken (by simp [Move.news, found, Loop.isRunning])
  | abortRun n => exact absurd rfl (unbroken n)
  | beginStopActivity | endStopActivity | beginStop | endStop | shutdown | proceed | leave =>
    exact follows.still (by simp) unbroken rfl

theorem follows_after {history : List (Move Job)} (order : InOrder (empty : Scheduler Job) history)
    (unbroken : ∀ n, .abortRun n ∉ history) :
    Follows (newsOf (empty : Scheduler Job) history) (empty.after history) := by
  induction history using List.reverseRecOn with
  | nil => exact follows_empty
  | append_singleton history m ih =>
    obtain ⟨before, here⟩ := inOrder_append.mp order
    have follows := ih before fun n among => unbroken n (List.mem_append_left _ among)
    rw [newsOf_concat, after_append]
    refine follows.next (alone_empty.after before) here.1 fun n same => unbroken n ?_
    rw [same]
    exact List.mem_append_right _ List.mem_cons_self

/-! ## What snapshots tell -/

/-- Every name with a handle or a loop has a snapshot. -/
structure Registered (s : Scheduler Job) : Prop where
  handles : ∀ name n, s.handles.get? name = some n → (s.telemetry.get? name).isSome = true
  loops : ∀ l ∈ s.loops, (s.telemetry.get? l.activity.name).isSome = true

theorem Registered.started {s : Scheduler Job} (registered : Registered s) (a : Activity) :
    Registered (s.started a) := by
  unfold Scheduler.started
  split_ifs
  · constructor
    · intro name n handle
      rw [spawn_handles] at handle
      rw [spawn_telemetry]
      split_ifs at handle ⊢
      · rfl
      · exact registered.handles name n handle
    · intro l among
      rw [spawn_telemetry]
      split_ifs with own
      · rfl
      · rcases List.mem_append.mp among with old | new
        · exact registered.loops l old
        · rw [List.mem_singleton.mp new] at own
          exact absurd rfl own
  · exact registered

theorem Registered.next {s : Scheduler Job} (registered : Registered s) (m : Move Job) :
    Registered (m.next s) := by
  by_cases starts : ∃ activities, m = .start activities
  · obtain ⟨activities, rfl⟩ := starts
    rw [next_start]
    split_ifs with down
    · exact registered
    · clear down
      induction activities generalizing s with
      | nil => exact registered
      | cons a rest ih => exact ih (registered.started a)
  · have shrinks := m.shrinks (fun activities same => starts ⟨activities, same⟩) s
    constructor
    · intro name n handle
      have before := registered.handles name n (shrinks.handles name n handle)
      rw [m.next_telemetry]
      exact News.isSome_tell_iff.mpr (.inl before)
    · intro l' among
      obtain ⟨n, found'⟩ := List.mem_iff_getElem?.mp among
      obtain ⟨f, moved, kept⟩ := shrinks.loops n
      rw [moved, Option.map_eq_some_iff] at found'
      obtain ⟨l, found, rfl⟩ := found'
      rw [(kept l).1, m.next_telemetry]
      exact News.isSome_tell_iff.mpr (.inl (registered.loops l (List.mem_of_getElem? found)))

theorem registered_after (history : List (Move Job)) :
    Registered ((empty : Scheduler Job).after history) := by
  induction history using List.reverseRecOn with
  | nil => exact ⟨fun _ _ handle => (by cases handle), fun _ among => (by cases among)⟩
  | append_singleton history m ih =>
    rw [after_append]
    exact ih.next m

/-- The names of the snapshots. -/
def names (s : Scheduler Job) : List String := s.snapshots.map (·.name)

/-- What the snapshots of a scheduler tell of the news. -/
structure Accounts (log : List News) (s : Scheduler Job) : Prop where
  /-- Names ascend, so none is listed twice. -/
  ascending : s.names.Pairwise (· < ·)
  /-- The names that were ever started are listed. -/
  listed : ∀ name, name ∈ s.names ↔ ∃ a, .started a ∈ log ∧ a.name = name
  /-- And those with a handle, or with a run in flight, are among them. -/
  running : ∀ name, s.isRunning name = true ∨ s.Flies name → name ∈ s.names
  /-- Each tells what has happened since the last start of its name, and whether a run is in
  flight. -/
  told : ∀ pre a since, log = pre ++ .started a :: since →
    since.filterMap (News.start? a.name) = [] →
      ∃ known ∈ s.snapshots, known.Tells a since ∧ (known.isRunning = true ↔ s.Flies a.name)

theorem mem_snapshots_of_telemetry {s : Scheduler Job} {name : String} {known : Snapshot}
    (there : s.telemetry.get? name = some known) : known ∈ s.snapshots :=
  List.mem_map_of_mem ((Table.mem_entries_iff _ _ _).mpr there)

/-- Snapshots are listed by the names under which they are kept. -/
theorem names_after (history : List (Move Job)) :
    ((empty : Scheduler Job).after history).names =
      ((empty : Scheduler Job).after history).telemetry.keys := by
  rw [names, snapshots, Table.values, Table.keys, List.map_map]
  refine List.map_congr_left fun e among => ?_
  have there := (Table.mem_entries_iff _ _ _).mp among
  rw [telemetry_after] at there
  exact News.name_of_tell there

theorem mem_names_after (history : List (Move Job)) (name : String) :
    name ∈ ((empty : Scheduler Job).after history).names ↔
      (((empty : Scheduler Job).after history).telemetry.get? name).isSome = true := by
  rw [names_after, Table.keys, List.mem_map, Option.isSome_iff_exists]
  simp only [← Table.mem_entries_iff]
  constructor
  · rintro ⟨⟨_, known⟩, among, rfl⟩
    exact ⟨known, among⟩
  · rintro ⟨known, among⟩
    exact ⟨⟨name, known⟩, among, rfl⟩

theorem accounts_of_inOrder {history : List (Move Job)}
    (order : InOrder (empty : Scheduler Job) history) (unbroken : ∀ n, .abortRun n ∉ history) :
    Accounts (newsOf (empty : Scheduler Job) history) (empty.after history) := by
  have follows := follows_after order unbroken
  have registered := registered_after history
  constructor
  · rw [names_after]
    exact List.pairwise_map.mpr (Table.ascending _)
  · intro name
    rw [mem_names_after, telemetry_after, News.isSome_tell_iff]
    simp
  · intro name here
    rw [mem_names_after]
    rcases here with handle | ⟨n, l, found, rfl, -⟩
    · obtain ⟨n, found⟩ := Option.isSome_iff_exists.mp handle
      exact registered.handles name n found
    · exact registered.loops l (List.mem_of_getElem? found)
  · intro pre a since whole last
    have paired := follows.paired
    rw [whole] at paired
    obtain ⟨known, told, tells, flies⟩ := News.account paired last
    rw [← whole, ← telemetry_after] at told
    refine ⟨known, mem_snapshots_of_telemetry told, tells, ?_⟩
    rw [flies, ← whole, follows.flies]

/-- Every stop has come to its end when something is started. -/
def StopsReturned (history : List (Move Job)) : Prop :=
  ∀ pre activities, pre ++ [.start activities] <+: history →
    ∀ n ∈ takenIn (empty : Scheduler Job) pre, ((empty : Scheduler Job).after pre).isOver n = true

/-- **Snapshots tell the truth.** Take any history in which no start comes before the end of a
stop and no run breaks down. Its snapshots list the activities that were ever started, and tell
what has happened to each since its last start; and a start is that of the first enabled entry of
a name that has no handle. -/
theorem snapshots_laws {history : List (Move Job)} (returned : StopsReturned history)
    (unbroken : ∀ n, .abortRun n ∉ history) :
    Accounts (newsOf (empty : Scheduler Job) history) (empty.after history) ∧
      ∀ (s : Scheduler Job) (activities : List Activity) (name : String),
        ((Move.start activities).news s).filterMap (News.start? name) =
          if s.shutDown || s.isRunning name then []
          else (activities.filter fun a => a.enabled && decide (a.name = name)).take 1 := by
  refine ⟨accounts_of_inOrder (inOrder_of_stops_done returned) unbroken, ?_⟩
  intro s activities name
  rw [Move.news]
  cases s.shutDown with
  | true => simp
  | false => simpa using startNews_of_name s activities name

/-- An activity runs twice, and a run of another one is in flight while it is stopped; it is
started again with the second of its entries. -/
def restart : List (Move Unit) :=
  [.start [⟨"watch", "1s", .manual, true⟩, ⟨"hunt", "1s", .auto, true⟩,
     ⟨"hunt", "9s", .auto, true⟩],
   .beginRun 0 0 ⟨0, 0⟩ (), .beginRun 1 0 ⟨0, 0⟩ (), .endRun 0 ⟨1, 0⟩ (.error .cancelled),
   .beginStopActivity "hunt", .beginRun 0 1000 ⟨1, 0⟩ (), .endRun 0 ⟨2, 0⟩ (.ok "done"),
   .endRun 1 ⟨2, 0⟩ (.error (.tooManySteps 4)), .leave 1, .endStopActivity 1,
   .start [⟨"hunt", "1s", .auto, false⟩, ⟨"hunt", "9s", .manual, true⟩,
     ⟨"watch", "9s", .auto, true⟩],
   .beginRun 2 3000 ⟨3, 0⟩ ()]

theorem snapshots_laws_restart :
    StopsReturned restart ∧ (∀ n, .abortRun n ∉ restart) ∧
      Accounts (newsOf (empty : Scheduler Unit) restart) (empty.after restart) ∧
      ((empty : Scheduler Unit).after restart).snapshots.map
          (fun known => (known.name, known.schedule, known.runs, known.failures, known.isRunning)) =
        [("hunt", "9s", 1, 0, true), ("watch", "1s", 2, 1, false)] := by
  have returned : StopsReturned restart := by
    rintro pre activities ⟨post, same⟩
    have front : pre = restart.take pre.length := by simp [← same]
    have next : restart[pre.length]? = some (.start activities) := by simp [← same]
    have short : pre.length < restart.length := by simp [← same]
    rw [front]
    generalize pre.length = k at next short
    -- the second start is the only one with a stop before it
    have starts : k = 0 ∨ k = 10 := by
      have below : k < 12 := short
      interval_cases k <;> first | decide | cases next
    rcases starts with rfl | rfl <;> decide
  have unbroken : ∀ n, .abortRun n ∉ restart := by simp [restart]
  exact ⟨returned, unbroken, (snapshots_laws returned unbroken).1, by decide +kernel⟩

end Scheduler

end TriageDesk.Activity
