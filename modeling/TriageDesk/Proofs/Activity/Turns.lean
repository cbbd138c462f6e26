/-
TriageDesk.Proofs.Activity.Turns — what the turn of a loop does, and to what.

A turn touches nothing but its loop (`touches_turned`). A run begins in it only if
one is due (`begin_of_due`), and in a loop that has begun and been told to end
none is (`runs_turned_of_spent`). Those who call a scheduler can tell a loop to
end, and do nothing else to it (`Move.next_called`).
-/
import TriageDesk.Proofs.Activity.Recording

namespace TriageDesk.Activity

open Time

/-! ## Loops that are told to end -/

/-- No run begins in a loop any more: it is over, or it has been told to end and has begun. -/
def Loop.Spent {Job : Type} (l : Loop Job) : Prop :=
  l.isOver = true ∨ l.stopped = true ∧ l.phase ≠ .spawned

namespace Scheduler

variable {Job : Type} {s : Scheduler Job} {n : Nat} {l : Loop Job}

/-- A loop has been told to end, alone or with all others. -/
def Told (n : Nat) (s : Scheduler Job) : Prop := ∃ l, s.loops[n]? = some l ∧ s.isTold l = true

instance (n : Nat) (s : Scheduler Job) : Decidable (Told n s) :=
  decidable_of_iff (s.loops[n]?.any s.isTold = true) (Option.any_eq_true _ _)

/-- Those who call a scheduler may tell a loop to end, and leave it as it is else. -/
theorem Move.next_called {m : Move Job} (called : m.maker? = none) (found : s.loops[n]? = some l) :
    ∃ stopped, (m.next s).loops[n]? = some { l with stopped } ∧
      (l.stopped = true → stopped = true) := by
  cases m with
  | beginRun | proceed | endRun | abortRun | leave => cases called
  | start activities =>
    rw [next_start]
    split
    · exact ⟨l.stopped, found, id⟩
    · exact ⟨l.stopped, (grown_foldl s activities).kept n l found, id⟩
  | shutdown => exact ⟨l.stopped, found, id⟩
  | endStopActivity k =>
    rw [next_endStopActivity]
    exact ⟨l.stopped, found, id⟩
  | endStop taken =>
    rw [next_endStop]
    exact ⟨l.stopped, found, id⟩
  | beginStop =>
    rw [next_beginStop, List.getElem?_mapIdx, found]
    by_cases taken : n ∈ s.handles.values
    · exact ⟨true, by simp [taken], fun _ => rfl⟩
    · exact ⟨l.stopped, by simp [taken], id⟩
  | beginStopActivity name =>
    rw [next_beginStopActivity]
    cases s.handles.get? name with
    | none => exact ⟨l.stopped, found, id⟩
    | some k =>
      simp only [adjust]
      rw [List.getElem?_modify, found]
      by_cases here : k = n
      · exact ⟨true, by simp [here], fun _ => rfl⟩
      · exact ⟨l.stopped, by simp [here], id⟩

/-- What has begun does not begin again. -/
theorem Move.phaseAfter_begun (m : Move Job) (s : Scheduler Job) (begun : l.phase ≠ .spawned) :
    m.phaseAfter s l ≠ .spawned := by
  cases m with
  | beginRun k now moment job =>
    simp only [phaseAfter]
    cases l.dueAfter? now <;> simp [begun]
  | proceed | endRun | abortRun =>
    simp only [phaseAfter]
    split
    · simp
    · exact begun
  | leave =>
    simp only [phaseAfter]
    split
    · split <;> simp
    · exact begun
  | _ => exact begun

theorem Told.next {m : Move Job} (called : m.maker? = none) (told : Told n s) :
    Told n (m.next s) := by
  obtain ⟨l, found, told⟩ := told
  obtain ⟨stopped, found', kept⟩ := m.next_called called found
  refine ⟨_, found', ?_⟩
  rw [isTold, Bool.or_eq_true] at told ⊢
  exact told.imp kept m.next_shutDown

/-- A loop whose handle is taken is told to end. -/
theorem told_of_taken {m : Move Job} (found : s.loops[n]? = some l) (taken : n ∈ m.taken s) :
    Told n (m.next s) := by
  cases m with
  | beginStop =>
    obtain ⟨stopped, found', _⟩ := Move.next_called (m := .beginStop) rfl found
    exact ⟨_, found', by simp [isTold, next_beginStop]⟩
  | beginStopActivity name =>
    have handle : s.handles.get? name = some n := by simpa [Move.taken] using taken
    refine ⟨{ l with stopped := true }, ?_, by simp [isTold]⟩
    rw [next_beginStopActivity, handle]
    simp [adjust, found]
  | _ => cases taken

end Scheduler

namespace Timeline

variable {World : Type} {around : Surroundings World} {n m : Nat} {l : Loop Job}
  {t t' t'' : Timeline (Recorded World)}

/-! ## What a turn touches -/

/-- A part of a turn of a loop touches nothing but that loop. -/
structure Touches (n : Nat) (t t' : Timeline (Recorded World)) : Prop where
  now : t'.now = t.now
  waits : t'.waits = t.waits
  handles : t'.scheduler.handles = t.scheduler.handles
  shutDown : t.scheduler.shutDown = true → t'.scheduler.shutDown = true
  loops : ∃ f : Loop Job → Loop Job, t'.scheduler.loops = t.scheduler.loops.modify n f ∧
    ∀ l, (f l).activity = l.activity ∧ (f l).stopped = l.stopped ∧
      (l.isOver = true → (f l).isOver = true) ∧ (l.phase ≠ .spawned → (f l).phase ≠ .spawned)
  /-- The runs that begin are those of the loop. -/
  runs : ∃ more, t'.world.runs = t.world.runs ++ more ∧
    ∀ r ∈ more, ∃ l, t.scheduler.loops[n]? = some l ∧ r.call.session = l.activity.name

namespace Touches

theorem refl (n : Nat) (t : Timeline (Recorded World)) : Touches n t t where
  now := rfl
  waits := rfl
  handles := rfl
  shutDown := id
  loops := ⟨id, by simp, by simp⟩
  runs := ⟨[], by simp, by simp⟩

theorem trans (first : Touches n t t') (second : Touches n t' t'') : Touches n t t'' where
  now := second.now.trans first.now
  waits := second.waits.trans first.waits
  handles := second.handles.trans first.handles
  shutDown down := second.shutDown (first.shutDown down)
  loops := by
    obtain ⟨f, loops, keeps⟩ := first.loops
    obtain ⟨g, loops', keeps'⟩ := second.loops
    refine ⟨g ∘ f, by rw [loops', loops, List.modify_modify_eq], fun l => ?_⟩
    obtain ⟨activity, stopped, past, begun⟩ := keeps l
    obtain ⟨activity', stopped', past', begun'⟩ := keeps' (f l)
    exact ⟨activity'.trans activity, stopped'.trans stopped, fun h => past' (past h),
      fun h => begun' (begun h)⟩
  runs := by
    obtain ⟨f, loops, keeps⟩ := first.loops
    obtain ⟨more, runs, own⟩ := first.runs
    obtain ⟨more', runs', own'⟩ := second.runs
    refine ⟨more ++ more', by rw [runs', runs, List.append_assoc], fun r among => ?_⟩
    rcases List.mem_append.mp among with among | among
    · exact own r among
    · obtain ⟨l', found', session⟩ := own' r among
      rw [loops, List.getElem?_modify_eq] at found'
      obtain ⟨l, found, rfl⟩ := Option.map_eq_some_iff.mp found'
      exact ⟨l, found, session.trans (congrArg _ (keeps l).1)⟩

/-- Other loops are left alone. -/
theorem loop_ne (touches : Touches m t t') (other : n ≠ m) :
    t'.scheduler.loops[n]? = t.scheduler.loops[n]? := by
  obtain ⟨f, loops, -⟩ := touches.loops
  rw [loops, List.getElem?_modify]
  simp [Ne.symm other]

/-- Where a loop comes from after a turn. -/
theorem origin (touches : Touches m t t') {l' : Loop Job}
    (found' : t'.scheduler.loops[n]? = some l') :
    ∃ l, t.scheduler.loops[n]? = some l ∧ l'.activity = l.activity ∧ l'.stopped = l.stopped ∧
      (l.isOver = true → l'.isOver = true) ∧ (l.phase ≠ .spawned → l'.phase ≠ .spawned) := by
  obtain ⟨f, loops, keeps⟩ := touches.loops
  rw [loops, List.getElem?_modify] at found'
  obtain ⟨l, found, rfl⟩ := Option.map_eq_some_iff.mp found'
  refine ⟨l, found, ?_⟩
  by_cases here : m = n
  · simpa [here] using keeps l
  · simp [here]

theorem found (touches : Touches m t t') (found : t.scheduler.loops[n]? = some l) :
    ∃ l', t'.scheduler.loops[n]? = some l' := by
  obtain ⟨f, loops, -⟩ := touches.loops
  rw [loops, List.getElem?_modify, found]
  exact ⟨_, rfl⟩

theorem told (touches : Touches m t t') (told : Scheduler.Told n t.scheduler) :
    Scheduler.Told n t'.scheduler := by
  obtain ⟨l, found, told⟩ := told
  obtain ⟨l', found'⟩ := touches.found found
  obtain ⟨k, found'', -, stopped, -⟩ := touches.origin found'
  obtain rfl : l = k := Option.some.inj (found.symm.trans found'')
  refine ⟨l', found', ?_⟩
  rw [Scheduler.isTold, Bool.or_eq_true] at told ⊢
  exact told.imp stopped.trans touches.shutDown

/-- A loop that is spent stays so. -/
theorem spent (touches : Touches m t t') {l' : Loop Job}
    (found' : t'.scheduler.loops[n]? = some l')
    (spent : ∀ l, t.scheduler.loops[n]? = some l → l.Spent) : l'.Spent := by
  obtain ⟨l, found, -, stopped, past, begun⟩ := touches.origin found'
  exact (spent l found).imp past fun told => ⟨stopped.trans told.1, begun told.2⟩

end Touches

theorem touches_move {m : Scheduler.Move Job} (made : m.maker? = some n)
    (t : Timeline (Recorded World)) : Touches n t { t with scheduler := m.next t.scheduler } := by
  obtain ⟨handles, down, loops⟩ := Scheduler.next_of_maker made t.scheduler
  refine ⟨rfl, rfl, handles, fun h => down.trans h, ⟨_, loops, fun l => ⟨rfl, rfl, ?_, ?_⟩⟩,
    [], by simp, by simp⟩
  · intro past
    simpa only [Loop.isOver, m.phaseAfter_over t.scheduler past] using past
  · exact m.phaseAfter_begun t.scheduler

theorem touches_world {w : Recorded World} {more : List Begun}
    (runs : w.runs = t.world.runs ++ more)
    (own : ∀ r ∈ more, ∃ l, t.scheduler.loops[n]? = some l ∧ r.call.session = l.activity.name) :
    Touches n t { t with world := w } :=
  ⟨rfl, rfl, rfl, id, ⟨id, by simp, by simp⟩, more, runs, own⟩

theorem touches_shutdown (n : Nat) (t : Timeline (Recorded World)) :
    Touches n t { t with scheduler := Scheduler.Move.shutdown.next t.scheduler } :=
  ⟨rfl, rfl, rfl, fun _ => rfl, ⟨id, by simp [Scheduler.Move.next, Scheduler.Move.act,
    Scheduler.shutdown], by simp⟩, [], by simp, by simp⟩

/-! ## The parts of a turn -/

section

variable {World α : Type}

/-- What the end of a run does. -/
theorem conclude_world (around : Surroundings World) (n : Nat) (t : Timeline World) :
    (conclude around n t).world =
      match t.scheduler.job? n with
      | some (.working ends ending) =>
        if t.now < ends then t
        else
          match ending with
          | .returns result =>
            { t with
              scheduler :=
                (Scheduler.Move.endRun n (around.clock t.world).result result).next t.scheduler
              world := (around.clock t.world).world }
          | .breaksDown => { t with scheduler := (Scheduler.Move.abortRun n).next t.scheduler }
          | .awaitsShutdown =>
            if t.scheduler.shutDown then
              { t with
                scheduler := (Scheduler.Move.endRun n (around.clock t.world).result
                  (.error .cancelled)).next t.scheduler
                world := (around.clock t.world).world }
            else { t with scheduler := (Scheduler.Move.proceed n .held).next t.scheduler }
      | some .held =>
        if t.scheduler.shutDown then
          { t with
            scheduler := (Scheduler.Move.endRun n (around.clock t.world).result
              (.error .cancelled)).next t.scheduler
            world := (around.clock t.world).world }
        else t
      | _ => t := by
  simp only [conclude, Act.bind_apply]
  have looked : (Act.look t).result = t := rfl
  rw [looked]
  cases t.scheduler.job? n with
  | none => rfl
  | some job =>
    cases job with
    | asked call => rfl
    | held =>
      simp only []
      rw [Act.ite_apply]
      split_ifs <;> rfl
    | working ends ending =>
      simp only []
      rw [Act.ite_apply]
      cases ending <;> split_ifs <;> rfl

/-- Where no run is due, none begins. -/
theorem begin_of_undue (around : Surroundings World) {n : Nat} {t : Timeline World}
    (undue : ∀ l, t.scheduler.loops[n]? = some l → l.dueAfter? t.now = none) :
    (begin around n t).world = t := by
  have looked : (Act.look t).result = t := rfl
  simp only [begin, Act.bind_apply]
  rw [looked]
  cases found : t.scheduler.loops[n]? with
  | none => rfl
  | some l =>
    simp only []
    rw [Act.ite_apply, if_pos (by simp [undue l found])]
    rfl

/-- Work on the world, after which everything may be shut down. -/
theorem inWorld_eq (around : Surroundings World) (act : Act World α) (t : Timeline World) :
    (inWorld around act t).result = (act t.world).result ∧
      (inWorld around act t).world =
        if around.shutDown (act t.world).world then
          { t with
            scheduler := Scheduler.Move.shutdown.next t.scheduler, world := (act t.world).world }
        else { t with world := (act t.world).world } := by
  simp only [inWorld, Act.bind_apply]
  have looked : (Act.look (onWorld act t).world).result.world = (act t.world).world := rfl
  rw [Act.ite_apply, looked]
  split_ifs
  · exact ⟨rfl, rfl⟩
  · exact ⟨rfl, rfl⟩

/-- A timeline in which a run begins that is due, before the engine has taken it up. -/
def askedFor (around : Surroundings World) (n : Nat) (a : Activity) (t : Timeline World) :
    Timeline World :=
  { t with
    scheduler := (Scheduler.Move.beginRun n t.now (around.clock t.world).result
      (.asked (call a))).next t.scheduler
    world := (around.clock t.world).world }

/-- What the engine makes of a run that begins. -/
def answerTo (around : Surroundings World) (n : Nat) (a : Activity) (t : Timeline World) :
    Act.Done World Plan :=
  around.answer t.now t.scheduler.shutDown (call a) (askedFor around n a t).world

/-- Where a run is due, it is handed to the engine. -/
theorem begin_world (around : Surroundings World) {n : Nat} {t : Timeline World} {l : Loop Job}
    {time : Nat} (found : t.scheduler.loops[n]? = some l) (due : l.dueAfter? t.now = some time) :
    (begin around n t).world = { t with
      scheduler := (Scheduler.Move.proceed n (.working
          (t.now + (answerTo around n l.activity t).result.work)
          (answerTo around n l.activity t).result.ending)).next
        (if around.shutDown (answerTo around n l.activity t).world then
          Scheduler.Move.shutdown.next (askedFor around n l.activity t).scheduler
        else (askedFor around n l.activity t).scheduler)
      world := (answerTo around n l.activity t).world } := by
  have looked : (Act.look t).result = t := rfl
  obtain ⟨result, world⟩ := inWorld_eq around
    (around.answer t.now t.scheduler.shutDown (call l.activity)) (askedFor around n l.activity t)
  have whole : (begin around n t).world =
      { (inWorld around (around.answer t.now t.scheduler.shutDown (call l.activity))
          (askedFor around n l.activity t)).world with
        scheduler := (Scheduler.Move.proceed n (.working
          (t.now + (answerTo around n l.activity t).result.work)
          (answerTo around n l.activity t).result.ending)).next
            (inWorld around (around.answer t.now t.scheduler.shutDown (call l.activity))
              (askedFor around n l.activity t)).world.scheduler } := by
    unfold answerTo
    rw [← result]
    simp only [begin, Act.bind_apply]
    rw [looked, found]
    simp only []
    rw [Act.ite_apply, if_neg (by simp [due])]
    rfl
  rw [whole, world]
  show _ = { t with
    scheduler := (Scheduler.Move.proceed n _).next (if around.shutDown (around.answer _ _ _ _).world
      then _ else _)
    world := (around.answer _ _ _ _).world }
  split_ifs <;> rfl

/-- Where everything is over, the turn of a loop does nothing. -/
theorem turn_of_dead (around : Surroundings World) {t : Timeline World}
    (dead : Scheduler.Dead t.scheduler) (n : Nat) :
    (turn around n t).world.scheduler = t.scheduler ∧ (turn around n t).world.world = t.world := by
  let left (t : Timeline World) : Timeline World :=
    { t with scheduler := (Scheduler.Move.leave n).next t.scheduler }
  have leaves : left t = t := congrArg (fun scheduler => { t with scheduler }) (dead.next _)
  have concludes : (conclude around n t).world = t := by
    rw [conclude_world, dead.job?]
  have begins : (begin around n t).world = t := by
    refine begin_of_undue around fun l found => ?_
    have finished := dead.finished l (List.mem_of_getElem? found)
    obtain ⟨a, stopped, phase⟩ := l
    cases phase with
    | ended | aborted => rfl
    | spawned | running | waiting => cases finished
  have whole : left (conclude around n
      (begin around n (left (conclude around n t).world)).world).world = t := by
    rw [concludes, leaves, begins, concludes, leaves]
  have scheduler := congrArg Timeline.scheduler whole
  have world := congrArg Timeline.world whole
  exact ⟨scheduler, world⟩

end

/-- What the end of a run does where a record is kept, at a moment that the clock shows. -/
theorem conclude_eq (around : Surroundings World) (n : Nat) (t : Timeline (Recorded World)) :
    ∃ moment w, w.runs = t.world.runs ∧ (conclude (recording around) n t).world =
      match t.scheduler.job? n with
      | some (.working ends ending) =>
        if t.now < ends then t
        else
          match ending with
          | .returns result =>
            { t with
              scheduler := (Scheduler.Move.endRun n moment result).next t.scheduler, world := w }
          | .breaksDown => { t with scheduler := (Scheduler.Move.abortRun n).next t.scheduler }
          | .awaitsShutdown =>
            if t.scheduler.shutDown then
              { t with
                scheduler := (Scheduler.Move.endRun n moment (.error .cancelled)).next t.scheduler
                world := w }
            else { t with scheduler := (Scheduler.Move.proceed n .held).next t.scheduler }
      | some .held =>
        if t.scheduler.shutDown then
          { t with
            scheduler := (Scheduler.Move.endRun n moment (.error .cancelled)).next t.scheduler
            world := w }
        else t
      | _ => t :=
  ⟨((recording around).clock t.world).result, ((recording around).clock t.world).world, rfl,
    conclude_world (recording around) n t⟩

/-- Where a run is due and a record is kept, it is handed to the engine, which may shut everything
down. -/
theorem begin_of_due (around : Surroundings World) {l : Loop Job} {time : Nat}
    (found : t.scheduler.loops[n]? = some l) (due : l.dueAfter? t.now = some time) :
    ∃ moment plan w s, w.runs = t.world.runs ++ [⟨t.now, call l.activity, plan⟩] ∧
      (s = (Scheduler.Move.beginRun n t.now moment (.asked (call l.activity))).next t.scheduler ∨
        s = Scheduler.Move.shutdown.next
          ((Scheduler.Move.beginRun n t.now moment (.asked (call l.activity))).next t.scheduler)) ∧
      (begin (recording around) n t).world = { t with
        scheduler := (Scheduler.Move.proceed n (.working (t.now + plan.work) plan.ending)).next s
        world := w } := by
  refine ⟨((recording around).clock t.world).result, (answerTo (recording around) n l.activity
    t).result, (answerTo (recording around) n l.activity t).world, _, rfl, ?_,
    begin_world (recording around) found due⟩
  split_ifs
  · exact Or.inr rfl
  · exact Or.inl rfl

theorem touches_conclude (around : Surroundings World) (n : Nat) (t : Timeline (Recorded World)) :
    Touches n t (conclude (recording around) n t).world ∧
      (conclude (recording around) n t).world.world.runs = t.world.runs := by
  obtain ⟨moment, w, same, done⟩ := conclude_eq around n t
  have moved : ∀ m : Scheduler.Move Job, m.maker? = some n →
      Touches n t { t with scheduler := m.next t.scheduler, world := w } := fun m made =>
    (touches_move made t).trans (touches_world (same.trans (List.append_nil _).symm) (by simp))
  rw [done]
  split
  · split
    · exact ⟨.refl n t, rfl⟩
    · split
      · exact ⟨moved _ rfl, same⟩
      · exact ⟨touches_move rfl t, rfl⟩
      · split
        · exact ⟨moved _ rfl, same⟩
        · exact ⟨touches_move rfl t, rfl⟩
  · split
    · exact ⟨moved _ rfl, same⟩
    · exact ⟨.refl n t, rfl⟩
  · exact ⟨.refl n t, rfl⟩

theorem touches_begin (around : Surroundings World) (n : Nat) (t : Timeline (Recorded World)) :
    Touches n t (begin (recording around) n t).world := by
  by_cases due : ∃ l time, t.scheduler.loops[n]? = some l ∧ l.dueAfter? t.now = some time
  · obtain ⟨l, time, found, due⟩ := due
    obtain ⟨moment, plan, w, s, runs, asked, done⟩ := begin_of_due around found due
    have noted : Touches n t { t with world := w } :=
      touches_world runs fun r among => ⟨l, found, by rw [List.mem_singleton.mp among]; rfl⟩
    have begun := noted.trans (touches_move
      (m := .beginRun n t.now moment (.asked (call l.activity))) rfl { t with world := w })
    rw [done]
    rcases asked with rfl | rfl
    · exact begun.trans (touches_move rfl _)
    · exact (begun.trans (touches_shutdown n _)).trans (touches_move rfl _)
  · rw [begin_of_undue (recording around) fun l found => ?_]
    · exact .refl n t
    · by_contra some
      obtain ⟨time, some⟩ := Option.ne_none_iff_exists'.mp some
      exact due ⟨l, time, found, some⟩

/-- A timeline after a loop has ended its run if that is done, and has gone if it was told to. -/
def close (around : Surroundings World) (n : Nat) (t : Timeline (Recorded World)) :
    Timeline (Recorded World) :=
  let t := (conclude (recording around) n t).world
  { t with scheduler := (Scheduler.Move.leave n).next t.scheduler }

theorem touches_close (around : Surroundings World) (n : Nat) (t : Timeline (Recorded World)) :
    Touches n t (close around n t) :=
  (touches_conclude around n t).1.trans (touches_move rfl _)

theorem runs_close (around : Surroundings World) (n : Nat) (t : Timeline (Recorded World)) :
    (close around n t).world.runs = t.world.runs :=
  (touches_conclude around n t).2

/-- A timeline after the turn of a loop, but for its wait. -/
def turned (around : Surroundings World) (n : Nat) (t : Timeline (Recorded World)) :
    Timeline (Recorded World) :=
  close around n (begin (recording around) n (close around n t)).world

theorem turn_eq (around : Surroundings World) (n : Nat) (t : Timeline (Recorded World)) :
    (turn (recording around) n t).world = { turned around n t with
      waits := (turned around n t).waits ++ (wait? (turned around n t).scheduler n).toList } := rfl

theorem touches_turned (around : Surroundings World) (n : Nat) (t : Timeline (Recorded World)) :
    Touches n t (turned around n t) :=
  ((touches_close around n t).trans (touches_begin around n _)).trans (touches_close around n _)

/-- No run begins in the turn of a loop that is spent. -/
theorem runs_turned_of_spent (around : Surroundings World)
    (spent : ∀ l, t.scheduler.loops[n]? = some l → l.Spent) :
    (turned around n t).world.runs = t.world.runs := by
  have undue : ∀ l, (close around n t).scheduler.loops[n]? = some l →
      l.dueAfter? (close around n t).now = none := by
    intro l' found'
    simp only [close] at found'
    rw [Scheduler.found_of_maker (m := .leave n) rfl] at found'
    obtain ⟨l, found, rfl⟩ := Option.map_eq_some_iff.mp found'
    have spent := (touches_conclude around n t).1.spent found spent
    obtain ⟨a, stopped, phase⟩ := l
    cases phase with
    | ended | aborted | running => rfl
    | spawned => simp [Loop.Spent, Loop.isOver] at spent
    | waiting due =>
      obtain rfl : stopped = true := by simpa [Loop.Spent, Loop.isOver] using spent
      simp [Scheduler.Move.phaseAfter, Scheduler.isTold, Loop.dueAfter?]
  rw [turned, runs_close, begin_of_undue (recording around) undue, runs_close]

/-! ## Turns one after the other -/

theorem turnWaiting_eq (around : Surroundings World) (concerned : Scheduler Job → Wait → Bool)
    (t : Timeline (Recorded World)) : (turnWaiting (recording around) concerned t).world =
      ((t.waits.filter (concerned t.scheduler)).map Wait.loop).foldl
        (fun t n => (turn (recording around) n t).world)
        { t with waits := t.waits.filter fun w => !concerned t.scheduler w } := by
  have looked : (Act.look t).result = t := rfl
  simp only [turnWaiting, Act.bind_apply]
  rw [looked, List.partition_eq_filter_filter, Act.each_world, List.foldl_map]
  rfl

theorem settle_eq (around : Surroundings World) (t : Timeline (Recorded World)) :
    (settle (recording around) t).world = (turnWaiting (recording around) isTold
      ((unbegun t.scheduler).foldl (fun t n => (turn (recording around) n t).world) t)).world := by
  have looked : (Act.look t).result = t := rfl
  simp only [settle, Act.bind_apply]
  rw [looked, Act.each_world]
  rfl

end Timeline

end TriageDesk.Activity
