/-
TriageDesk.Proofs.Activity.Course — what can happen to a scheduler, move by
move.

Whoever calls a scheduler, and each of its loops, makes one `Move` at a time,
and between two moves of one of them the others may make any number of theirs.
A history is a list of moves; `after` is what it makes of a scheduler.

What the moves of all kinds have in common is said here once:

* `Move.next_loop` — a loop keeps its number and its activity, and once it is
  over it stays so;
* `Move.next_new` — a loop that is new has not begun, and has a handle;
* `Watched.next` — every loop that is alive has a handle, or its handle has
  been taken by a stop;
* `Move.next_shutDown`, `Move.next_handles` — what was shut down stays so, and
  no handle comes back;
* `Dead.next` — nothing more happens to a scheduler that was shut down and
  whose loops are over.
-/
import Mathlib.Data.List.Basic
import TriageDesk.Activity.Scheduler

namespace TriageDesk.Activity.Scheduler

open Time

variable {Job : Type}

/-! ## Moves -/

/-- One thing that happens to a scheduler. -/
inductive Move (Job : Type)
  | start (activities : List Activity)
  /-- The handle of an activity is taken, and its loop told to end. -/
  | beginStopActivity (name : String)
  /-- The one who stopped an activity comes back, with the end of its loop. -/
  | endStopActivity (n : Nat)
  /-- Everything is shut down, and all handles are taken. -/
  | beginStop
  /-- The one who stopped everything comes back, with the end of some loops. -/
  | endStop (taken : List Nat)
  /-- Everything is shut down from outside. -/
  | shutdown
  | beginRun (n now : Nat) (moment : Instant) (job : Job)
  | proceed (n : Nat) (job : Job)
  | endRun (n : Nat) (moment : Instant) (result : Except Agent.Failure String)
  | abortRun (n : Nat)
  | leave (n : Nat)

namespace Move

/-- The work that a move is. -/
def act : Move Job → Act (Scheduler Job) Unit
  | .start activities => Scheduler.start activities
  | .beginStopActivity name => do let _ ← Scheduler.beginStopActivity name
  | .endStopActivity n => reportEnd n
  | .beginStop => do let _ ← Scheduler.beginStop
  | .endStop taken => Scheduler.endStop taken
  | .shutdown => Scheduler.shutdown
  | .beginRun n now moment job => Scheduler.beginRun n now moment job
  | .proceed n job => Scheduler.proceed n job
  | .endRun n moment result => Scheduler.endRun n moment result
  | .abortRun n => Scheduler.abortRun n
  | .leave n => Scheduler.leave n

/-- The scheduler after a move. -/
def next (m : Move Job) (s : Scheduler Job) : Scheduler Job := (m.act s).world

/-- The number of the loop that makes a move; none if one who calls the scheduler does. -/
def maker? : Move Job → Option Nat
  | .beginRun n .. | .proceed n _ | .endRun n .. | .abortRun n | .leave n => some n
  | _ => none

/-- The numbers of the loops whose handles a move takes. -/
def taken (m : Move Job) (s : Scheduler Job) : List Nat :=
  match m with
  | .beginStopActivity name => (s.handles.get? name).toList
  | .beginStop => s.handles.values
  | _ => []

end Move

/-- A scheduler after some moves. -/
def after (s : Scheduler Job) (moves : List (Move Job)) : Scheduler Job :=
  moves.foldl (fun s m => m.next s) s

theorem after_cons (s : Scheduler Job) (m : Move Job) (moves : List (Move Job)) :
    s.after (m :: moves) = (m.next s).after moves := rfl

theorem after_append (s : Scheduler Job) (first then_ : List (Move Job)) :
    s.after (first ++ then_) = (s.after first).after then_ :=
  List.foldl_append

/-! ## What each move does -/

@[simp] theorem note_loops (s : Scheduler Job) (name : String) (f : Snapshot → Snapshot) :
    (s.note name f).loops = s.loops := by
  unfold note
  split <;> rfl

@[simp] theorem note_handles (s : Scheduler Job) (name : String) (f : Snapshot → Snapshot) :
    (s.note name f).handles = s.handles := by
  unfold note
  split <;> rfl

@[simp] theorem note_shutDown (s : Scheduler Job) (name : String) (f : Snapshot → Snapshot) :
    (s.note name f).shutDown = s.shutDown := by
  unfold note
  split <;> rfl

/-- A scheduler after an activity was started, if it is enabled and has no handle. -/
def started (s : Scheduler Job) (a : Activity) : Scheduler Job :=
  if a.enabled ∧ s.isRunning a.name = false then s.spawn a else s

theorem startOne_world (s : Scheduler Job) (a : Activity) :
    (startOne a s).world = s.started a := by
  unfold startOne started
  cases enabled : a.enabled
  · rfl
  · simp only [Bool.not_true, Bool.false_eq_true, if_false, true_and, Act.bind_apply]
    have looked : (Act.look s).result.isRunning a.name = s.isRunning a.name := rfl
    rw [Act.ite_apply, looked]
    cases s.isRunning a.name <;> rfl

/-- Starting activities starts one after the other, unless everything is shut down. -/
theorem next_start (s : Scheduler Job) (activities : List Activity) :
    (Move.start activities).next s =
      if s.shutDown then s else activities.foldl started s := by
  show (Scheduler.start activities s).world = _
  unfold Scheduler.start
  simp only [Act.bind_apply]
  have looked : (Act.look s).result.shutDown = s.shutDown := rfl
  rw [Act.ite_apply, looked]
  cases s.shutDown
  · show (Act.each startOne activities s).world = activities.foldl started s
    simp only [Act.each_world, startOne_world]
  · rfl

/-- Taking the handle of an activity. -/
theorem next_beginStopActivity (s : Scheduler Job) (name : String) :
    (Move.beginStopActivity name).next s =
      match s.handles.get? name with
      | none => s
      | some n =>
        { s.adjust n (fun l => { l with stopped := true }) with handles := s.handles.erase name } := by
  show ((do let _ ← Scheduler.beginStopActivity name : Act (Scheduler Job) Unit) s).world = _
  unfold Scheduler.beginStopActivity
  simp only [Act.bind_apply, Act.look_apply]
  cases s.handles.get? name <;> rfl

theorem beginStopActivity_result (s : Scheduler Job) (name : String) :
    (Scheduler.beginStopActivity name s).result = s.handles.get? name := by
  unfold Scheduler.beginStopActivity
  simp only [Act.bind_apply, Act.look_apply]
  cases s.handles.get? name <;> rfl

theorem next_beginStop (s : Scheduler Job) :
    Move.beginStop.next s =
      { s with
        shutDown := true
        handles := ∅
        loops := s.loops.mapIdx fun n l =>
          if n ∈ s.handles.values then { l with stopped := true } else l } := rfl

theorem next_endStopActivity (s : Scheduler Job) (n : Nat) : (Move.endStopActivity n).next s = s := by
  show (reportEnd n s).world = s
  unfold reportEnd
  simp only [Act.bind_apply, Act.look_apply]
  cases s.loops[n]? with
  | none => rfl
  | some l =>
    obtain ⟨a, stopped, phase⟩ := l
    cases phase <;> rfl

theorem next_endStop (s : Scheduler Job) (taken : List Nat) : (Move.endStop taken).next s = s := by
  show (Scheduler.endStop taken s).world = s
  unfold Scheduler.endStop
  rw [Act.ite_apply]
  have quiet : ∀ n (s : Scheduler Job), (reportEnd n s).world = s := fun n s =>
    next_endStopActivity s n
  split
  · rfl
  · simp only [Act.bind_apply, Act.report_apply, Act.each_world, quiet]
    exact List.foldl_fixed' (fun _ => rfl) taken

/-- What a move of a loop makes of the phase of the loop. -/
def Move.phaseAfter (s : Scheduler Job) (l : Loop Job) : Move Job → Loop.Phase Job
  | .beginRun _ now _ job =>
    match l.dueAfter? now with
    | some due => .running due job
    | none => l.phase
  | .proceed _ job =>
    match l.phase with
    | .running due _ => .running due job
    | phase => phase
  | .endRun .. =>
    match l.phase with
    | .running due _ => .waiting due
    | phase => phase
  | .abortRun _ =>
    match l.phase with
    | .running .. => .aborted
    | phase => phase
  | .leave _ =>
    match l.phase with
    | .waiting due => if s.isTold l then .ended else .waiting due
    | phase => phase
  | _ => l.phase

/-- Two changes of one loop are the same if they come to the same there. -/
theorem modify_congr {loops : List (Loop Job)} {n : Nat} {f g : Loop Job → Loop Job}
    (same : ∀ l, loops[n]? = some l → f l = g l) : loops.modify n f = loops.modify n g := by
  refine List.ext_getElem? fun k => ?_
  rw [List.getElem?_modify, List.getElem?_modify]
  by_cases here : n = k
  · subst here
    cases found : loops[n]? with
    | none => rfl
    | some l => simp [same l found]
  · simp [here]

theorem next_beginRun (s : Scheduler Job) (n now : Nat) (moment : Instant) (job : Job) :
    (Move.beginRun n now moment job).next s =
      match s.loops[n]? with
      | none => s
      | some l =>
        match l.dueAfter? now with
        | none => s
        | some due => (s.setPhase n (.running due job)).note l.activity.name (·.begun moment) := by
  show (Scheduler.beginRun n now moment job s).world = _
  unfold Scheduler.beginRun
  simp only [Act.bind_apply, Act.look_apply]
  cases s.loops[n]? with
  | none => rfl
  | some l =>
    obtain ⟨a, stopped, phase⟩ := l
    cases phase <;> simp only [] <;> cases Loop.dueAfter? _ now <;> rfl

theorem next_endRun (s : Scheduler Job) (n : Nat) (moment : Instant)
    (result : Except Agent.Failure String) :
    (Move.endRun n moment result).next s =
      match s.loops[n]? with
      | some ⟨a, _, .running due _⟩ =>
        (s.setPhase n (.waiting due)).note a.name fun known =>
          match result with
          | .ok _ => known.succeeded moment
          | .error f => known.failed moment f.message
      | _ => s := by
  show (Scheduler.endRun n moment result s).world = _
  unfold Scheduler.endRun
  simp only [Act.bind_apply, Act.look_apply]
  cases s.loops[n]? with
  | none => rfl
  | some l =>
    obtain ⟨a, stopped, phase⟩ := l
    cases phase with
    | running due job => cases result <;> rfl
    | spawned | waiting | ended | aborted => rfl

/-- **A move of a loop** changes nothing but the phase of the loop, and what is known of
its activity. -/
theorem next_of_maker {m : Move Job} {n : Nat} (made : m.maker? = some n) (s : Scheduler Job) :
    (m.next s).handles = s.handles ∧ (m.next s).shutDown = s.shutDown ∧
      (m.next s).loops = s.loops.modify n fun l => { l with phase := m.phaseAfter s l } := by
  have stays : ∀ f : Loop Job → Loop Job, (∀ l, s.loops[n]? = some l → f l = l) →
      s.loops = s.loops.modify n f := by
    intro f same
    rw [modify_congr (g := id) same, List.modify_id]
  cases m with
  | start | beginStopActivity | endStopActivity | beginStop | endStop | shutdown => cases made
  | beginRun k now moment job =>
    cases made
    rw [next_beginRun]
    cases found : s.loops[n]? with
    | none => exact ⟨rfl, rfl, stays _ fun l h => by rw [found] at h; cases h⟩
    | some l =>
      cases due : l.dueAfter? now with
      | none =>
        simp only [due]
        refine ⟨trivial, trivial, stays _ fun l' h => ?_⟩
        rw [found] at h
        cases h
        simp only [Move.phaseAfter, due]
      | some time =>
        simp only [due, note_handles, note_shutDown, note_loops]
        refine ⟨rfl, rfl, modify_congr fun l' h => ?_⟩
        rw [found] at h
        cases h
        simp only [Move.phaseAfter, due]
  | endRun k moment result =>
    cases made
    rw [next_endRun]
    cases found : s.loops[n]? with
    | none => exact ⟨rfl, rfl, stays _ fun l h => by rw [found] at h; cases h⟩
    | some l =>
      obtain ⟨a, stopped, phase⟩ := l
      cases phase with
      | running due job =>
        simp only [note_handles, note_shutDown, note_loops]
        refine ⟨rfl, rfl, modify_congr fun l' h => ?_⟩
        rw [found] at h
        cases h
        rfl
      | spawned | waiting | ended | aborted =>
        refine ⟨rfl, rfl, stays _ fun l' h => ?_⟩
        rw [found] at h
        cases h
        rfl
  | proceed k job | abortRun k =>
    cases made
    refine ⟨rfl, rfl, modify_congr fun l _ => ?_⟩
    obtain ⟨a, stopped, phase⟩ := l
    cases phase <;> rfl
  | leave k =>
    cases made
    refine ⟨rfl, rfl, modify_congr fun l _ => ?_⟩
    obtain ⟨a, stopped, phase⟩ := l
    cases phase with
    | waiting due =>
      simp only [Move.phaseAfter]
      split <;> rfl
    | spawned | running | ended | aborted => rfl

/-! ## Loops that are started -/

/-- A loop that a start has added, under a number that was not in use. -/
structure Fresh (s t : Scheduler Job) (n : Nat) (l : Loop Job) : Prop where
  found : t.loops[n]? = some l
  unused : s.loops.length ≤ n
  unbegun : l.phase = .spawned
  enabled : l.activity.enabled = true
  /-- Its activity had no handle, and has one that leads to it. -/
  idle : s.handles.get? l.activity.name = none
  handle : t.handles.get? l.activity.name = some n

/-- What a start makes of a scheduler. -/
structure Grown (s : Scheduler Job) (activities : List Activity) (t : Scheduler Job) : Prop where
  shutDown : t.shutDown = s.shutDown
  kept : ∀ (n : Nat) l, s.loops[n]? = some l → t.loops[n]? = some l
  loops : ∀ (n : Nat) l, t.loops[n]? = some l →
    s.loops[n]? = some l ∨ (Fresh s t n l ∧ l.activity ∈ activities)
  handles : ∀ name n, s.handles.get? name = some n → t.handles.get? name = some n
  origin : ∀ name n, t.handles.get? name = some n →
    s.handles.get? name = some n ∨ ∃ l, Fresh s t n l ∧ l.activity.name = name
  served : ∀ a ∈ activities, a.enabled = true → ∃ n, t.handles.get? a.name = some n

theorem isRunning_eq_false {s : Scheduler Job} {name : String} :
    s.isRunning name = false ↔ s.handles.get? name = none := by
  unfold isRunning Table.contains
  cases s.handles.get? name <;> simp

theorem grown_refl (s : Scheduler Job) : Grown s [] s where
  shutDown := rfl
  kept _ _ h := h
  loops _ _ h := Or.inl h
  handles _ _ h := h
  origin _ _ h := Or.inl h
  served _ h := by cases h

theorem grown_started (s : Scheduler Job) (a : Activity) : Grown s [a] (s.started a) := by
  unfold started
  split
  · rename_i idle
    obtain ⟨enabled, idle⟩ := idle
    rw [isRunning_eq_false] at idle
    have last : (s.spawn a).loops[s.loops.length]? = some ⟨a, false, .spawned⟩ := by
      simp [spawn]
    have handles : ∀ name, (s.spawn a).handles.get? name =
        if name = a.name then some s.loops.length else s.handles.get? name :=
      Table.get?_insert _ _ _
    have fresh : Fresh s (s.spawn a) s.loops.length ⟨a, false, .spawned⟩ :=
      ⟨last, Nat.le_refl _, rfl, enabled, idle, by rw [handles, if_pos rfl]⟩
    constructor
    · rfl
    · intro n l found
      have below : n < s.loops.length := (List.getElem?_eq_some_iff.mp found).1
      simp only [spawn]
      rw [List.getElem?_append_left below, found]
    · intro n l found
      by_cases below : n < s.loops.length
      · left
        simp only [spawn] at found
        rwa [List.getElem?_append_left below] at found
      · right
        have here : n = s.loops.length := by
          have := (List.getElem?_eq_some_iff.mp found).1
          simp only [spawn, List.length_append, List.length_cons, List.length_nil] at this
          omega
        subst here
        rw [last] at found
        cases found
        exact ⟨fresh, List.mem_singleton_self a⟩
    · intro name n found
      have other : name ≠ a.name := by
        rintro rfl
        rw [idle] at found
        cases found
      rw [handles, if_neg other, found]
    · intro name n found
      rw [handles] at found
      split at found
      · rename_i same
        cases found
        exact Or.inr ⟨_, fresh, same.symm⟩
      · exact Or.inl found
    · intro b hb _
      rw [List.mem_singleton.mp hb]
      exact ⟨_, fresh.handle⟩
  · rename_i blocked
    refine { grown_refl s with loops := fun _ _ h => Or.inl h, served := ?_ }
    intro b hb enabled
    rw [List.mem_singleton.mp hb] at enabled ⊢
    cases running : s.handles.get? a.name with
    | none => exact absurd ⟨enabled, isRunning_eq_false.mpr running⟩ blocked
    | some n => exact ⟨n, rfl⟩

theorem Grown.trans {s t u : Scheduler Job} {as bs : List Activity} (h : Grown s as t)
    (h' : Grown t bs u) : Grown s (as ++ bs) u := by
  have longer : s.loops.length ≤ t.loops.length := by
    by_contra shorter
    have below : t.loops.length < s.loops.length := Nat.lt_of_not_le shorter
    have found := h.kept t.loops.length _ (List.getElem?_eq_getElem below)
    rw [List.getElem?_eq_none (Nat.le_refl _)] at found
    cases found
  have early : ∀ n l, Fresh s t n l → Fresh s u n l := fun n l f =>
    ⟨h'.kept n l f.found, f.unused, f.unbegun, f.enabled, f.idle, h'.handles _ n f.handle⟩
  have late : ∀ n l, Fresh t u n l → Fresh s u n l := by
    intro n l f
    refine ⟨f.found, Nat.le_trans longer f.unused, f.unbegun, f.enabled, ?_, f.handle⟩
    cases had : s.handles.get? l.activity.name with
    | none => rfl
    | some k =>
      have idle := f.idle
      rw [h.handles _ k had] at idle
      cases idle
  constructor
  · rw [h'.shutDown, h.shutDown]
  · exact fun n l found => h'.kept n l (h.kept n l found)
  · intro n l found
    rcases h'.loops n l found with found | ⟨f, hmem⟩
    · rcases h.loops n l found with found | ⟨f, hmem⟩
      · exact Or.inl found
      · exact Or.inr ⟨early n l f, List.mem_append_left _ hmem⟩
    · exact Or.inr ⟨late n l f, List.mem_append_right _ hmem⟩
  · exact fun name n found => h'.handles name n (h.handles name n found)
  · intro name n found
    rcases h'.origin name n found with found | ⟨l, f, hname⟩
    · rcases h.origin name n found with found | ⟨l, f, hname⟩
      · exact Or.inl found
      · exact Or.inr ⟨l, early n l f, hname⟩
    · exact Or.inr ⟨l, late n l f, hname⟩
  · intro a ha enabled
    rcases List.mem_append.mp ha with ha | ha
    · obtain ⟨n, found⟩ := h.served a ha enabled
      exact ⟨n, h'.handles _ n found⟩
    · exact h'.served a ha enabled

/-- Starting activities one after the other. -/
theorem grown_foldl (s : Scheduler Job) (activities : List Activity) :
    Grown s activities (activities.foldl started s) := by
  induction activities generalizing s with
  | nil => exact grown_refl s
  | cons a rest ih => exact (grown_started s a).trans (ih (s.started a))

/-! ## What all moves have in common -/

/-- What a move other than a start does to a scheduler. -/
structure Shrinks (m : Move Job) (s : Scheduler Job) : Prop where
  shutDown : s.shutDown = true → (m.next s).shutDown = true
  /-- No loop is added; each keeps its activity, and stays over if it is. Only the loop that
  makes a move changes its phase. -/
  loops : ∀ n : Nat, ∃ f : Loop Job → Loop Job, (m.next s).loops[n]? = s.loops[n]?.map f ∧
    ∀ l, (f l).activity = l.activity ∧ (l.isOver = true → (f l).isOver = true) ∧
      (m.maker? ≠ some n → (f l).phase = l.phase)
  handles : ∀ name n, (m.next s).handles.get? name = some n → s.handles.get? name = some n
  /-- A handle that is lost has been taken. -/
  lost : ∀ name n, s.handles.get? name = some n →
    (m.next s).handles.get? name = some n ∨ n ∈ m.taken s

theorem shrinks_of_same {m : Move Job} {s : Scheduler Job} (loops : (m.next s).loops = s.loops)
    (handles : (m.next s).handles = s.handles)
    (shutDown : s.shutDown = true → (m.next s).shutDown = true) : Shrinks m s where
  shutDown := shutDown
  loops n := ⟨id, by simp [loops], fun _ => ⟨rfl, id, fun _ => rfl⟩⟩
  handles name n h := by rwa [handles] at h
  lost name n h := by
    rw [handles]
    exact Or.inl h

/-- No move of a loop changes a phase that is the end. -/
theorem Move.phaseAfter_over (m : Move Job) (s : Scheduler Job) {l : Loop Job}
    (finished : l.isOver = true) : m.phaseAfter s l = l.phase := by
  obtain ⟨a, stopped, phase⟩ := l
  cases phase with
  | spawned | running | waiting => cases finished
  | ended | aborted => cases m <;> rfl

/-- A move of a loop adds nothing and takes nothing. -/
theorem shrinks_of_maker {m : Move Job} {k : Nat} (made : m.maker? = some k) (s : Scheduler Job) :
    Shrinks m s := by
  obtain ⟨handles, down, loops⟩ := next_of_maker made s
  constructor
  · exact fun h => down.trans h
  · intro n
    rw [loops, List.getElem?_modify, made]
    refine ⟨_, rfl, fun l => ?_⟩
    by_cases here : k = n
    · rw [if_pos here]
      refine ⟨rfl, fun finished => ?_, fun other => absurd (congrArg some here) other⟩
      rw [m.phaseAfter_over s finished]
      exact finished
    · rw [if_neg here]
      exact ⟨rfl, id, fun _ => rfl⟩
  · intro name n h
    rwa [handles] at h
  · intro name n h
    rw [handles]
    exact Or.inl h

theorem shrinks_beginStopActivity (s : Scheduler Job) (name : String) :
    Shrinks (.beginStopActivity name) s := by
  have after := next_beginStopActivity s name
  cases found : s.handles.get? name with
  | none =>
    rw [found] at after
    exact shrinks_of_same (by rw [after]) (by rw [after]) (by rw [after]; exact id)
  | some k =>
    rw [found] at after
    have handles : ∀ other, ((Move.beginStopActivity name).next s).handles.get? other =
        if other = name then none else s.handles.get? other := by
      rw [after]
      exact Table.get?_erase _ _
    constructor
    · rw [after]
      exact id
    · intro n
      rw [after]
      simp only [adjust]
      rw [List.getElem?_modify]
      refine ⟨_, rfl, fun l => ?_⟩
      split <;> exact ⟨rfl, id, fun _ => rfl⟩
    · intro other n h
      rw [handles] at h
      split at h
      · cases h
      · exact h
    · intro other n h
      rw [handles]
      by_cases same : other = name
      · subst same
        rw [h]
        right
        rw [Move.taken, h]
        exact List.mem_singleton_self n
      · rw [if_neg same]
        exact Or.inl h

theorem shrinks_beginStop (s : Scheduler Job) : Shrinks .beginStop s where
  shutDown _ := rfl
  loops n := by
    rw [next_beginStop, List.getElem?_mapIdx]
    refine ⟨_, rfl, fun l => ?_⟩
    split <;> exact ⟨rfl, id, fun _ => rfl⟩
  handles name n h := by cases h
  lost name n h := Or.inr (List.mem_map_of_mem ((Table.mem_entries_iff _ _ _).mpr h))

/-- **Every move but a start** adds nothing, and takes what it says. -/
theorem Move.shrinks {m : Move Job} (other : ∀ activities, m ≠ .start activities)
    (s : Scheduler Job) : Shrinks m s := by
  cases m with
  | start activities => exact absurd rfl (other activities)
  | beginStopActivity name => exact shrinks_beginStopActivity s name
  | beginStop => exact shrinks_beginStop s
  | shutdown => exact shrinks_of_same rfl rfl fun _ => rfl
  | endStopActivity n =>
    have same := next_endStopActivity s n
    exact shrinks_of_same (by rw [same]) (by rw [same]) (by rw [same]; exact id)
  | endStop taken =>
    have same := next_endStop s taken
    exact shrinks_of_same (by rw [same]) (by rw [same]) (by rw [same]; exact id)
  | beginRun | proceed | endRun | abortRun | leave => exact shrinks_of_maker rfl s

/-- **Loops stay.** A loop keeps its number and its activity in every move, and once it is
over it stays so. -/
theorem Move.next_loop (m : Move Job) (s : Scheduler Job) {n : Nat} {l : Loop Job}
    (found : s.loops[n]? = some l) :
    ∃ l', (m.next s).loops[n]? = some l' ∧ l'.activity = l.activity ∧
      (l.isOver = true → l'.isOver = true) := by
  by_cases starts : ∃ activities, m = .start activities
  · obtain ⟨activities, rfl⟩ := starts
    rw [next_start]
    split
    · exact ⟨l, found, rfl, id⟩
    · exact ⟨l, (grown_foldl s activities).kept n l found, rfl, id⟩
  · obtain ⟨f, hf, same⟩ :=
      (m.shrinks (fun activities h => starts ⟨activities, h⟩) s).loops n
    rw [found] at hf
    exact ⟨f l, hf, (same l).1, (same l).2.1⟩

/-- **New loops** come from a start, have not begun, and have a handle. -/
theorem Move.next_new (m : Move Job) (s : Scheduler Job) {n : Nat} {l : Loop Job}
    (found : (m.next s).loops[n]? = some l) (new : s.loops[n]? = none) :
    s.shutDown = false ∧ Fresh s (m.next s) n l ∧
      ∃ activities, m = .start activities ∧ l.activity ∈ activities := by
  by_cases starts : ∃ activities, m = .start activities
  · obtain ⟨activities, rfl⟩ := starts
    rw [next_start] at found ⊢
    cases down : s.shutDown with
    | true =>
      rw [down, if_pos rfl, new] at found
      cases found
    | false =>
      rw [down] at found
      rcases (grown_foldl s activities).loops n l found with old | ⟨fresh, hmem⟩
      · rw [new] at old
        cases old
      · exact ⟨rfl, fresh, activities, rfl, hmem⟩
  · obtain ⟨f, hf, _⟩ := (m.shrinks (fun activities h => starts ⟨activities, h⟩) s).loops n
    rw [found, new] at hf
    cases hf

/-- A scheduler that is shut down stays so. -/
theorem Move.next_shutDown (m : Move Job) {s : Scheduler Job} (down : s.shutDown = true) :
    (m.next s).shutDown = true := by
  by_cases starts : ∃ activities, m = .start activities
  · obtain ⟨activities, rfl⟩ := starts
    rw [next_start, if_pos down, down]
  · exact (m.shrinks (fun activities h => starts ⟨activities, h⟩) s).shutDown down

/-- A handle stays unless it is taken. -/
theorem Move.next_handle (m : Move Job) (s : Scheduler Job) {name : String} {n : Nat}
    (handle : s.handles.get? name = some n) :
    (m.next s).handles.get? name = some n ∨ n ∈ m.taken s := by
  by_cases starts : ∃ activities, m = .start activities
  · obtain ⟨activities, rfl⟩ := starts
    rw [next_start]
    split
    · exact Or.inl handle
    · exact Or.inl ((grown_foldl s activities).handles _ n handle)
  · exact (m.shrinks (fun activities h => starts ⟨activities, h⟩) s).lost _ n handle

/-- A scheduler that is shut down gives out no handle. -/
theorem Move.next_handles (m : Move Job) {s : Scheduler Job} (down : s.shutDown = true)
    (none : s.handles = ∅) : (m.next s).handles = ∅ := by
  by_cases starts : ∃ activities, m = .start activities
  · obtain ⟨activities, rfl⟩ := starts
    rw [next_start, if_pos down, none]
  · refine Table.ext fun name => ?_
    have kept := (m.shrinks (fun activities h => starts ⟨activities, h⟩) s).handles name
    rw [none] at kept
    cases found : (m.next s).handles.get? name with
    | none => rfl
    | some n => cases kept n found

/-! ## The runs in flight -/

theorem job?_of_phase {s t : Scheduler Job} {n : Nat}
    (same : t.loops[n]?.map Loop.phase = s.loops[n]?.map Loop.phase) : t.job? n = s.job? n := by
  unfold job?
  cases hs : s.loops[n]? with
  | none =>
    cases ht : t.loops[n]? with
    | none => rfl
    | some l => simp [hs, ht] at same
  | some k =>
    cases ht : t.loops[n]? with
    | none => simp [hs, ht] at same
    | some l =>
      obtain ⟨a, stopped, phase⟩ := k
      obtain ⟨b, stopped', phase'⟩ := l
      simp only [hs, ht, Option.map_some, Option.some.injEq] at same
      subst same
      cases phase' <;> rfl

/-- What is in flight in a loop changes only in its own moves. -/
theorem job?_of_not_maker {m : Move Job} {n : Nat} (other : m.maker? ≠ some n)
    (s : Scheduler Job) : (m.next s).job? n = s.job? n := by
  by_cases starts : ∃ activities, m = .start activities
  · cases found : s.loops[n]? with
    | some l =>
      obtain ⟨activities, rfl⟩ := starts
      refine job?_of_phase ?_
      rw [next_start]
      split
      · rfl
      · rw [(grown_foldl s activities).kept n l found, found]
    | none =>
      have nothing : s.job? n = none := by simp [job?, found]
      rw [nothing]
      cases found' : (m.next s).loops[n]? with
      | none => simp [job?, found']
      | some l =>
        have unbegun := (m.next_new s found' found).2.1.unbegun
        obtain ⟨a, stopped, phase⟩ := l
        cases unbegun
        simp [job?, found']
  · obtain ⟨f, hf, same⟩ := (m.shrinks (fun activities h => starts ⟨activities, h⟩) s).loops n
    refine job?_of_phase ?_
    rw [hf]
    cases s.loops[n]? with
    | none => rfl
    | some l => exact congrArg some ((same l).2.2 other)

/-- The loop that makes a move is in the phase to which the move leads. -/
theorem found_of_maker {m : Move Job} {n : Nat} (made : m.maker? = some n) (s : Scheduler Job) :
    (m.next s).loops[n]? = s.loops[n]?.map fun l => { l with phase := m.phaseAfter s l } := by
  rw [(next_of_maker made s).2.2, List.getElem?_modify]
  cases s.loops[n]? with
  | none => rfl
  | some l => simp

theorem job?_beginRun (s : Scheduler Job) (n now : Nat) (moment : Instant) (job : Job) :
    ((Move.beginRun n now moment job).next s).job? n = s.job? n ∨
      (s.job? n = none ∧ ((Move.beginRun n now moment job).next s).job? n = some job) := by
  unfold job?
  rw [found_of_maker (m := .beginRun n now moment job) rfl]
  cases s.loops[n]? with
  | none => exact Or.inl rfl
  | some l =>
    simp only [Option.map_some, Move.phaseAfter]
    cases due : l.dueAfter? now with
    | none => exact Or.inl rfl
    | some time =>
      obtain ⟨a, stopped, phase⟩ := l
      cases phase with
      | spawned | waiting => exact Or.inr ⟨rfl, rfl⟩
      | running | ended | aborted => cases due

theorem job?_beginRun_of_due {s : Scheduler Job} {n now time : Nat} {l : Loop Job}
    (found : s.loops[n]? = some l) (due : l.dueAfter? now = some time) (moment : Instant)
    (job : Job) : ((Move.beginRun n now moment job).next s).job? n = some job := by
  unfold job?
  rw [found_of_maker (m := .beginRun n now moment job) rfl, found]
  simp only [Option.map_some, Move.phaseAfter, due]

theorem job?_proceed (s : Scheduler Job) (n : Nat) (job : Job) :
    ((Move.proceed n job).next s).job? n = (s.job? n).map fun _ => job := by
  unfold job?
  rw [found_of_maker (m := .proceed n job) rfl]
  cases s.loops[n]? with
  | none => rfl
  | some l =>
    obtain ⟨a, stopped, phase⟩ := l
    cases phase <;> rfl

theorem job?_endRun (s : Scheduler Job) (n : Nat) (moment : Instant)
    (result : Except Agent.Failure String) :
    ((Move.endRun n moment result).next s).job? n = none := by
  unfold job?
  rw [found_of_maker (m := .endRun n moment result) rfl]
  cases s.loops[n]? with
  | none => rfl
  | some l =>
    obtain ⟨a, stopped, phase⟩ := l
    cases phase <;> rfl

theorem job?_abortRun (s : Scheduler Job) (n : Nat) :
    ((Move.abortRun n).next s).job? n = none := by
  unfold job?
  rw [found_of_maker (m := .abortRun n) rfl]
  cases s.loops[n]? with
  | none => rfl
  | some l =>
    obtain ⟨a, stopped, phase⟩ := l
    cases phase <;> rfl

theorem job?_leave (s : Scheduler Job) (n : Nat) :
    ((Move.leave n).next s).job? n = s.job? n := by
  unfold job?
  rw [found_of_maker (m := .leave n) rfl]
  cases s.loops[n]? with
  | none => rfl
  | some l =>
    obtain ⟨a, stopped, phase⟩ := l
    cases phase with
    | waiting due =>
      simp only [Option.map_some, Move.phaseAfter]
      cases s.isTold ⟨a, stopped, .waiting due⟩ <;> rfl
    | spawned | running | ended | aborted => rfl

/-! ## After the end -/

/-- Nothing is alive any more, and nothing can be started or stopped. -/
structure Dead (s : Scheduler Job) : Prop where
  shutDown : s.shutDown = true
  handles : s.handles = ∅
  finished : ∀ l ∈ s.loops, l.isOver = true

theorem Dead.job? {s : Scheduler Job} (dead : Dead s) (n : Nat) : s.job? n = none := by
  unfold Scheduler.job?
  cases found : s.loops[n]? with
  | none => rfl
  | some l =>
    have finished := dead.finished l (List.mem_of_getElem? found)
    obtain ⟨a, stopped, phase⟩ := l
    cases phase with
    | ended | aborted => rfl
    | spawned | running | waiting => cases finished

/-- **The end is final.** No move changes anything then. -/
theorem Dead.next {s : Scheduler Job} (dead : Dead s) (m : Move Job) : m.next s = s := by
  have finished : ∀ {n : Nat} {l : Loop Job}, s.loops[n]? = some l → l.isOver = true :=
    fun found => dead.finished _ (List.mem_of_getElem? found)
  have still : ∀ {n : Nat} {f : Loop Job → Loop Job}, (∀ l : Loop Job, l.isOver = true → f l = l) →
      s.adjust n f = s := by
    intro n f same
    have loops : s.loops.modify n f = s.loops := by
      rw [modify_congr (g := id) fun l found => same l (finished found), List.modify_id]
    simp only [adjust, loops]
  cases m with
  | start activities => rw [next_start, if_pos dead.shutDown]
  | beginStopActivity name =>
    rw [next_beginStopActivity, dead.handles]
    rfl
  | endStopActivity n => exact next_endStopActivity s n
  | endStop taken => exact next_endStop s taken
  | shutdown =>
    show { s with shutDown := true } = s
    rw [← dead.shutDown]
  | beginStop =>
    have untaken : s.handles.values = [] := by
      rw [dead.handles]
      rfl
    have loops : s.loops.mapIdx (fun n l =>
        if n ∈ s.handles.values then { l with stopped := true } else l) = s.loops := by
      simp [untaken, List.mapIdx_eq_zipIdx_map]
    rw [next_beginStop, loops, ← dead.handles, ← dead.shutDown]
  | beginRun n now moment job =>
    rw [next_beginRun]
    cases found : s.loops[n]? with
    | none => rfl
    | some l =>
      have ended := finished found
      obtain ⟨a, stopped, phase⟩ := l
      cases phase with
      | ended | aborted => rfl
      | spawned | running | waiting => cases ended
  | endRun n moment result =>
    rw [next_endRun]
    cases found : s.loops[n]? with
    | none => rfl
    | some l =>
      have ended := finished found
      obtain ⟨a, stopped, phase⟩ := l
      cases phase with
      | ended | aborted => rfl
      | spawned | running | waiting => cases ended
  | proceed n job | abortRun n | leave n =>
    refine still fun l ended => ?_
    obtain ⟨a, stopped, phase⟩ := l
    cases phase with
    | ended | aborted => rfl
    | spawned | running | waiting => cases ended

/-! ## Who waits for the end of a loop -/

/-- Every loop that is alive can be stopped, or its handle has been taken by someone who waits
for its end. -/
def Watched (awaited : List Nat) (s : Scheduler Job) : Prop :=
  ∀ n l, s.loops[n]? = some l → l.isOver = false →
    s.handles.get? l.activity.name = some n ∨ n ∈ awaited

/-- **The watch is kept.** Whoever takes a handle has to wait for the loop. -/
theorem Watched.next {awaited : List Nat} {s : Scheduler Job} (watched : Watched awaited s)
    (m : Move Job) : Watched (m.taken s ++ awaited) (m.next s) := by
  intro n l' found' alive'
  cases found : s.loops[n]? with
  | none => exact Or.inl (m.next_new s found' found).2.1.handle
  | some l =>
    obtain ⟨k, hk, activity, finished⟩ := m.next_loop s found
    rw [found'] at hk
    cases hk
    have alive : l.isOver = false := by
      cases h : l.isOver with
      | false => rfl
      | true => rw [finished h] at alive'; cases alive'
    rw [activity]
    rcases watched n l found alive with handle | mem
    · exact (m.next_handle s handle).imp id (List.mem_append_left _)
    · exact Or.inr (List.mem_append_right _ mem)

/-- The numbers of the loops whose handles a history takes, the latest first. -/
def takenIn (s : Scheduler Job) : List (Move Job) → List Nat
  | [] => []
  | m :: rest => takenIn (m.next s) rest ++ m.taken s

theorem Watched.after {awaited : List Nat} {s : Scheduler Job} (watched : Watched awaited s)
    (moves : List (Move Job)) : Watched (takenIn s moves ++ awaited) (s.after moves) := by
  induction moves generalizing s awaited with
  | nil => exact watched
  | cons m rest ih =>
    rw [after_cons, takenIn, List.append_assoc]
    exact ih (watched.next m)

theorem Watched.mono {awaited more : List Nat} {s : Scheduler Job} (watched : Watched awaited s)
    (within : ∀ n ∈ awaited, n ∈ more ∨ s.isOver n = true) : Watched more s := by
  intro n l found alive
  rcases watched n l found alive with handle | mem
  · exact Or.inl handle
  · rcases within n mem with mem | finished
    · exact Or.inr mem
    · rw [isOver, found, Option.all_some] at finished
      rw [finished] at alive
      cases alive

end TriageDesk.Activity.Scheduler
