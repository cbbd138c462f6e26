/-
TriageDesk.Proofs.Trace — moves that are made one after the other, and the
record that is kept of them.

Whatever can be done in a world is given as data, its moves, and performed by
a function. The record of a run has an entry for each move: the worlds before
and after it, its answer, and what was reported. What one move keeps, every run
keeps (`keeps_record`), and where a record is cut, the run is cut too
(`exists_of_record_append`).
-/
import TriageDesk.Act

namespace TriageDesk.Trace

variable {World Move Answer : Type}

/-- What there is to say of a move that was made. -/
structure Entry (World Move Answer : Type) where
  before : World
  move : Move
  answer : Answer
  events : List Event
  after : World

/-- The entry of a move in a world. -/
def entry (perform : Move → Act World Answer) (m : Move) (w : World) : Entry World Move Answer :=
  ⟨w, m, (perform m w).result, (perform m w).events, (perform m w).world⟩

/-- The entries of moves that are made one after the other. -/
def record (perform : Move → Act World Answer) : World → List Move → List (Entry World Move Answer)
  | _, [] => []
  | w, m :: rest => entry perform m w :: record perform (perform m w).world rest

/-- The world after moves that are made one after the other. -/
def final (perform : Move → Act World Answer) : World → List Move → World
  | w, [] => w
  | w, m :: rest => final perform (perform m w).world rest

variable {perform : Move → Act World Answer}

theorem final_append (w : World) (first last : List Move) :
    final perform w (first ++ last) = final perform (final perform w first) last := by
  induction first generalizing w with
  | nil => rfl
  | cons m first ih => simp only [List.cons_append, final, ih]

theorem record_append (w : World) (first last : List Move) :
    record perform w (first ++ last) =
      record perform w first ++ record perform (final perform w first) last := by
  induction first generalizing w with
  | nil => rfl
  | cons m first ih => simp only [List.cons_append, record, final, ih]

/-- Where a record is cut, the moves are cut too. -/
theorem exists_of_record_append {w : World} {moves : List Move}
    {pre post : List (Entry World Move Answer)} (h : record perform w moves = pre ++ post) :
    ∃ first last, moves = first ++ last ∧ pre = record perform w first ∧
      post = record perform (final perform w first) last := by
  induction pre generalizing w moves with
  | nil => exact ⟨[], moves, rfl, rfl, h.symm⟩
  | cons e pre ih =>
    cases moves with
    | nil => cases h
    | cons m moves =>
      simp only [record, List.cons_append, List.cons.injEq] at h
      obtain ⟨rfl, h⟩ := h
      obtain ⟨first, last, rfl, rfl, rfl⟩ := ih h
      exact ⟨m :: first, last, rfl, rfl, rfl⟩

/-- An entry of a record belongs to one of the moves, in the world that those before it have
left. -/
theorem exists_of_record_eq {w : World} {moves : List Move}
    {pre post : List (Entry World Move Answer)} {e : Entry World Move Answer}
    (h : record perform w moves = pre ++ e :: post) :
    ∃ first m last, moves = first ++ m :: last ∧ pre = record perform w first ∧
      e = entry perform m (final perform w first) ∧ post = record perform e.after last := by
  obtain ⟨first, later, rfl, rfl, rest⟩ := exists_of_record_append h
  cases later with
  | nil => cases rest
  | cons m last =>
    simp only [record, List.cons.injEq] at rest
    obtain ⟨rfl, rfl⟩ := rest
    exact ⟨first, m, last, rfl, rfl, rfl, rfl⟩

theorem exists_of_mem_record {w : World} {moves : List Move} {e : Entry World Move Answer}
    (h : e ∈ record perform w moves) : ∃ first m, e = entry perform m (final perform w first) := by
  obtain ⟨pre, post, cut⟩ := List.append_of_mem h
  obtain ⟨first, m, _, _, _, he, _⟩ := exists_of_record_eq cut
  exact ⟨first, m, he⟩

/-- What every move keeps holds after every run. -/
theorem keeps_final {P : World → Prop} (step : ∀ w m, P w → P (perform m w).world) {w : World}
    (h : P w) (moves : List Move) : P (final perform w moves) := by
  induction moves generalizing w with
  | nil => exact h
  | cons m moves ih => exact ih (step w m h)

/-- What holds of a record and its world, and is kept by every move, holds after every run. -/
theorem keeps_record {P : List (Entry World Move Answer) → World → Prop}
    (step : ∀ log w m, P log w → P (log ++ [entry perform m w]) (perform m w).world)
    {log : List (Entry World Move Answer)} {w : World} (h : P log w) (moves : List Move) :
    P (log ++ record perform w moves) (final perform w moves) := by
  induction moves generalizing log w with
  | nil => simpa only [record, final, List.append_nil] using h
  | cons m moves ih =>
    have rest := ih (step log w m h)
    rwa [List.append_assoc] at rest

end TriageDesk.Trace
