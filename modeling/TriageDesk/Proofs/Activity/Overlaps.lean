/-
TriageDesk.Proofs.Activity.Overlaps — when two runs of one activity are in
flight at once.

A handle is taken out of the table before its loop has ended, and a start asks
the table alone. So a start between the two halves of a stop gives an activity
a second loop while a run of the first is in flight (`overlap_between_halves`),
and nothing keeps the second from running.

`overlaps_never_iff` says that this is the only way: whatever the loops do and
whenever they do it, no two runs of one activity are in flight at once exactly
if every start is `InOrder`, that is, the loops of what it starts are over.
The invariant behind it is `Alone`; `inOrder_of_stops_done` says that it is
enough to let every stop come to its end before the next start.
-/
import TriageDesk.Proofs.Activity.Course

namespace TriageDesk.Activity

open Time

/-- Whether a run of a loop is in flight. -/
def Loop.isRunning {Job : Type} (l : Loop Job) : Bool :=
  match l.phase with
  | .running .. => true
  | _ => false

theorem Loop.isOver_of_isRunning {Job : Type} {l : Loop Job} (running : l.isRunning = true) :
    l.isOver = false := by
  obtain ⟨a, stopped, phase⟩ := l
  cases phase with
  | running => rfl
  | spawned | waiting | ended | aborted => cases running

namespace Scheduler

variable {Job : Type}

/-! ## Overlaps and order -/

/-- Two runs of activities of one name are in flight. -/
def Overlaps (s : Scheduler Job) : Prop :=
  ∃ (m n : Nat) (k l : Loop Job), m ≠ n ∧ s.loops[m]? = some k ∧ s.loops[n]? = some l ∧
    k.activity.name = l.activity.name ∧ k.isRunning = true ∧ l.isRunning = true

/-- A start is in order if the loops of every activity that it gives a loop are over; any
other move always is. -/
def Move.InOrder (s : Scheduler Job) : Move Job → Prop
  | .start activities => s.shutDown = false → ∀ a ∈ activities, a.enabled = true →
      s.isRunning a.name = false → ∀ l ∈ s.loops, l.activity.name = a.name → l.isOver = true
  | _ => True

/-- Every move of a history is in order when it is made. -/
def InOrder (s : Scheduler Job) : List (Move Job) → Prop
  | [] => True
  | m :: rest => m.InOrder s ∧ InOrder (m.next s) rest

/-- No two loops of one name are alive. -/
def Alone (s : Scheduler Job) : Prop :=
  ∀ (m n : Nat) (k l : Loop Job), s.loops[m]? = some k → s.loops[n]? = some l →
    k.activity.name = l.activity.name → k.isOver = false → l.isOver = false → m = n

theorem Alone.not_overlaps {s : Scheduler Job} (alone : Alone s) : ¬ Overlaps s := by
  rintro ⟨m, n, k, l, different, hk, hl, name, hkrun, hlrun⟩
  exact different (alone m n k l hk hl name (Loop.isOver_of_isRunning hkrun)
    (Loop.isOver_of_isRunning hlrun))

theorem alone_empty : Alone (empty : Scheduler Job) := by
  intro m n k l hk
  cases hk

/-! ## Order keeps loops alone -/

/-- Where a loop that is alive after a move comes from: it was alive before, or it is new and
the loops of its name are over. -/
theorem Move.InOrder.origin {m : Move Job} {s : Scheduler Job} (order : m.InOrder s) {n : Nat}
    {l' : Loop Job} (found' : (m.next s).loops[n]? = some l') (alive' : l'.isOver = false) :
    (∃ l, s.loops[n]? = some l ∧ l.activity = l'.activity ∧ l.isOver = false) ∨
      (Fresh s (m.next s) n l' ∧
        ∀ l ∈ s.loops, l.activity.name = l'.activity.name → l.isOver = true) := by
  cases found : s.loops[n]? with
  | some l =>
    obtain ⟨k, hk, activity, finished⟩ := m.next_loop s found
    rw [found'] at hk
    cases hk
    refine Or.inl ⟨l, rfl, activity.symm, ?_⟩
    cases h : l.isOver with
    | false => rfl
    | true => rw [finished h] at alive'; cases alive'
  | none =>
    obtain ⟨up, fresh, activities, rfl, mem⟩ := m.next_new s found' found
    exact Or.inr ⟨fresh, order up l'.activity mem fresh.enabled (isRunning_eq_false.mpr fresh.idle)⟩

/-- **A move in order** keeps the loops of each name alone. -/
theorem Alone.next {s : Scheduler Job} (alone : Alone s) {m : Move Job} (order : m.InOrder s) :
    Alone (m.next s) := by
  intro i j k' l' hk' hl' name hkalive hlalive
  rcases order.origin hk' hkalive with ⟨k, hk, hka, hkold⟩ | ⟨hkfresh, hkothers⟩
  · rcases order.origin hl' hlalive with ⟨l, hl, hla, hlold⟩ | ⟨hlfresh, hlothers⟩
    · exact alone i j k l hk hl (by rw [hka, hla, name]) hkold hlold
    · rw [hlothers k (List.mem_of_getElem? hk) (by rw [hka, name])] at hkold
      cases hkold
  · rcases order.origin hl' hlalive with ⟨l, hl, hla, hlold⟩ | ⟨hlfresh, hlothers⟩
    · rw [hkothers l (List.mem_of_getElem? hl) (by rw [hla, name])] at hlold
      cases hlold
    · -- both are new, and the one handle of their name leads to both
      have handle := hkfresh.handle
      rw [name, hlfresh.handle] at handle
      cases handle
      rfl

theorem Alone.after {s : Scheduler Job} (alone : Alone s) {moves : List (Move Job)}
    (order : InOrder s moves) : Alone (s.after moves) := by
  induction moves generalizing s with
  | nil => exact alone
  | cons m rest ih => exact ih (alone.next order.1) order.2

theorem inOrder_append {s : Scheduler Job} {first then_ : List (Move Job)} :
    InOrder s (first ++ then_) ↔ InOrder s first ∧ InOrder (s.after first) then_ := by
  induction first generalizing s with
  | nil => simp [InOrder, after]
  | cons m rest ih =>
    rw [List.cons_append, after_cons]
    simp only [InOrder]
    rw [ih, and_assoc]

/-- What the loops do is always in order. -/
theorem inOrder_of_makers {s : Scheduler Job} {moves : List (Move Job)}
    (made : ∀ m ∈ moves, m.maker?.isSome = true) : InOrder s moves := by
  induction moves generalizing s with
  | nil => trivial
  | cons m rest ih =>
    refine ⟨?_, ih fun m' h => made m' (List.mem_cons_of_mem _ h)⟩
    have byLoop := made m List.mem_cons_self
    cases m with
    | start => cases byLoop
    | _ => trivial

/-! ## A start out of order -/

/-- A loop that is alive comes to run, if it only takes its turns and no other loop does
anything. -/
theorem exists_running [Inhabited Job] {s : Scheduler Job} {n : Nat} {l : Loop Job}
    (found : s.loops[n]? = some l) (alive : l.isOver = false) :
    ∃ turns : List (Move Job), (∀ m ∈ turns, m.maker?.isSome = true) ∧
      (∃ l', (s.after turns).loops[n]? = some l' ∧ l'.activity = l.activity ∧
        l'.isRunning = true) ∧
      ∀ k, k ≠ n → (s.after turns).loops[k]? = s.loops[k]? := by
  have begins : ∀ now due, l.dueAfter? now = some due →
      ∃ turns : List (Move Job), (∀ m ∈ turns, m.maker?.isSome = true) ∧
        (∃ l', (s.after turns).loops[n]? = some l' ∧ l'.activity = l.activity ∧
          l'.isRunning = true) ∧
        ∀ k, k ≠ n → (s.after turns).loops[k]? = s.loops[k]? := by
    intro now due h
    obtain ⟨_, _, loops⟩ := next_of_maker (m := .beginRun n now ⟨0, 0⟩ default) (n := n) rfl s
    refine ⟨[.beginRun n now ⟨0, 0⟩ default], ?_, ?_, ?_⟩
    · intro m hm
      rw [List.mem_singleton.mp hm]
      rfl
    · refine ⟨{ l with phase := .running due default }, ?_, rfl, rfl⟩
      show (Move.next _ s).loops[n]? = _
      rw [loops, List.getElem?_modify, found]
      simp [Move.phaseAfter, h]
    · intro k other
      show (Move.next _ s).loops[k]? = _
      rw [loops, List.getElem?_modify]
      simp [Ne.symm other]
  obtain ⟨a, stopped, phase⟩ := l
  cases phase with
  | spawned => exact begins 0 _ rfl
  | waiting due => exact begins due _ (if_pos (Nat.le_refl due))
  | running due job => exact ⟨[], by simp, ⟨_, found, rfl, rfl⟩, fun _ _ => rfl⟩
  | ended | aborted => cases alive

/-- After a start that is out of order two loops of one name can run at once. -/
theorem exists_overlap [Inhabited Job] {s : Scheduler Job} {activities : List Activity}
    (disorder : ¬ Move.InOrder s (.start activities)) :
    ∃ turns : List (Move Job), (∀ m ∈ turns, m.maker?.isSome = true) ∧
      Overlaps (((Move.start activities).next s).after turns) := by
  simp only [Move.InOrder, not_forall] at disorder
  obtain ⟨up, a, ha, enabled, idle, l, hl, name, alive⟩ := disorder
  rw [Bool.not_eq_true] at alive
  obtain ⟨m, hm⟩ := List.mem_iff_getElem?.mp hl
  have grown := grown_foldl s activities
  have begun : (Move.start activities).next s = activities.foldl started s := by
    rw [next_start, up]
    rfl
  rw [begun]
  -- the activity has got a second loop
  obtain ⟨n, handle⟩ := grown.served a ha enabled
  obtain ⟨k, fresh, hname⟩ : ∃ k, Fresh s (activities.foldl started s) n k ∧
      k.activity.name = a.name := by
    rcases grown.origin _ n handle with h | h
    · rw [isRunning_eq_false.mp idle] at h
      cases h
    · exact h
  have different : m ≠ n := by
    have below := (List.getElem?_eq_some_iff.mp hm).1
    have := fresh.unused
    omega
  -- the first one comes to run, and then the second
  obtain ⟨first, hfirst, ⟨l', hl', hla, hlrun⟩, kept⟩ := exists_running (grown.kept m l hm) alive
  have still : ((activities.foldl started s).after first).loops[n]? = some k := by
    rw [kept n (Ne.symm different), fresh.found]
  have unbegun : k.isOver = false := by
    simp [Loop.isOver, fresh.unbegun]
  obtain ⟨second, hsecond, ⟨k', hk', hka, hkrun⟩, kept'⟩ := exists_running still unbegun
  refine ⟨first ++ second, ?_, m, n, l', k', different, ?_, ?_, ?_, hlrun, hkrun⟩
  · intro move hmove
    exact (List.mem_append.mp hmove).elim (hfirst move) (hsecond move)
  · rw [after_append, kept' m different, hl']
  · rw [after_append, hk']
  · rw [hla, hka, name, hname]

/-- The first start of a history that is out of order. -/
theorem exists_disorder {s : Scheduler Job} {moves : List (Move Job)} (disorder : ¬ InOrder s moves) :
    ∃ pre activities, pre ++ [.start activities] <+: moves ∧
      ¬ Move.InOrder (s.after pre) (.start activities) := by
  induction moves generalizing s with
  | nil => exact absurd trivial disorder
  | cons m rest ih =>
    by_cases here : m.InOrder s
    · obtain ⟨pre, activities, within, h⟩ := ih fun later => disorder ⟨here, later⟩
      exact ⟨m :: pre, activities, (List.cons_prefix_cons).mpr ⟨rfl, within⟩, h⟩
    · cases m with
      | start activities => exact ⟨[], activities, List.prefix_append _ _, here⟩
      | _ => exact absurd trivial here

/-- A history in which every stop comes to its end before the next start is in order. -/
theorem inOrder_of_stops_done {history : List (Move Job)}
    (done : ∀ pre activities, pre ++ [.start activities] <+: history →
      ∀ n ∈ takenIn (empty : Scheduler Job) pre, (empty.after pre).isOver n = true) :
    InOrder (empty : Scheduler Job) history := by
  by_contra disorder
  obtain ⟨pre, activities, within, here⟩ := exists_disorder disorder
  refine here fun _ a _ _ idle l hl name => ?_
  have watched : Watched (takenIn (empty : Scheduler Job) pre ++ []) (empty.after pre) :=
    Watched.after (fun n l found => by cases found) pre
  obtain ⟨n, found⟩ := List.mem_iff_getElem?.mp hl
  cases finished : l.isOver with
  | true => rfl
  | false =>
    rcases watched n l found finished with handle | taken
    · rw [name, isRunning_eq_false.mp idle] at handle
      cases handle
    · rw [List.append_nil] at taken
      have ended := done pre activities within n taken
      rw [isOver, found, Option.all_some, finished] at ended
      cases ended

/-! ## When runs overlap -/

/-- **Runs that overlap.** Take any history of a scheduler: the calls of those who start and
stop activities, in whatever order their halves come, and the moves of the loops between
them. However the loops go on from any point of it, no two runs of one activity are in
flight at once, exactly if every start of the history is in order. -/
theorem overlaps_never_iff [Inhabited Job] (history : List (Move Job)) :
    (∀ pre, pre <+: history → ∀ turns : List (Move Job), (∀ m ∈ turns, m.maker?.isSome = true) →
        ¬ Overlaps ((empty : Scheduler Job).after (pre ++ turns))) ↔
      InOrder (empty : Scheduler Job) history := by
  constructor
  · intro never
    by_contra disorder
    obtain ⟨pre, activities, within, here⟩ := exists_disorder disorder
    obtain ⟨turns, made, overlaps⟩ := exists_overlap here
    refine never _ within turns made ?_
    rwa [after_append, after_append]
  · rintro order pre ⟨post, rfl⟩ turns made
    have orderly : InOrder (empty : Scheduler Job) (pre ++ turns) :=
      inOrder_append.mpr ⟨(inOrder_append.mp order).1, inOrder_of_makers made⟩
    exact (alone_empty.after orderly).not_overlaps

/-- An activity that is due once in a hundred hours. -/
def rare : Activity := ⟨"a", "100h", .auto, true⟩

/-- An activity is started, and a run of it begins. It is stopped, and, while the one who
stopped it waits for the end of the run, started again: a second run begins. -/
theorem overlap_between_halves :
    Overlaps ((empty : Scheduler Unit).after
      [.start [rare], .beginRun 0 0 ⟨0, 0⟩ (), .beginStopActivity "a", .start [rare],
        .beginRun 1 0 ⟨0, 0⟩ ()]) := by
  refine ⟨0, 1, ⟨rare, true, .running 360000000 ()⟩, ⟨rare, false, .running 360000000 ()⟩, ?_⟩
  decide +kernel

end Scheduler

end TriageDesk.Activity
