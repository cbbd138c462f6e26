/-
TriageDesk.Act — work that changes a world and reports events.

An `Act World α` takes a world and comes to a result, a world and the events
that it reports, in their order. Work on a part of a world is work on the
whole by `Act.within`.
-/
import TriageDesk.Event

namespace TriageDesk

/-- What a piece of work has come to. -/
structure Act.Done (World α : Type) where
  result : α
  world : World
  events : List Event

/-- A piece of work in a world. -/
def Act (World α : Type) := World → Act.Done World α

namespace Act

variable {World Part α β : Type}

/-- A result without work. -/
def pure (a : α) : Act World α := fun w => ⟨a, w, []⟩

/-- One piece of work after the other. -/
def bind (act : Act World α) (next : α → Act World β) : Act World β := fun w =>
  let first := act w
  let second := next first.result first.world
  ⟨second.result, second.world, first.events ++ second.events⟩

instance : Monad (Act World) where
  pure := pure
  bind := bind

/-- Reports an event. -/
def report (e : Event) : Act World Unit := fun w => ⟨(), w, [e]⟩

/-- Looks at the world. -/
def look : Act World World := fun w => ⟨w, w, []⟩

/-- Changes the world. -/
def change (f : World → World) : Act World Unit := fun w => ⟨(), f w, []⟩

/-- Work on a part of the world: `part` shows it and `put` replaces it. -/
def within (part : World → Part) (put : Part → World → World) (act : Act Part α) : Act World α :=
  fun w =>
    let done := act (part w)
    ⟨done.result, put done.world w, done.events⟩

/-- Work on each of some things, in their order. -/
def each (act : α → Act World Unit) : List α → Act World Unit
  | [] => pure ()
  | a :: rest => bind (act a) fun _ => each act rest

/-! ## What has been done -/

@[simp] theorem pure_apply (a : α) (w : World) : (Pure.pure a : Act World α) w = ⟨a, w, []⟩ := rfl

@[simp] theorem bind_apply (act : Act World α) (next : α → Act World β) (w : World) :
    (act >>= next) w =
      ⟨(next (act w).result (act w).world).result, (next (act w).result (act w).world).world,
        (act w).events ++ (next (act w).result (act w).world).events⟩ := rfl

@[simp] theorem report_apply (e : Event) (w : World) : report e w = ⟨(), w, [e]⟩ := rfl

@[simp] theorem look_apply (w : World) : look w = ⟨w, w, []⟩ := rfl

@[simp] theorem change_apply (f : World → World) (w : World) : change f w = ⟨(), f w, []⟩ := rfl

@[simp] theorem within_apply (part : World → Part) (put : Part → World → World)
    (act : Act Part α) (w : World) :
    within part put act w = ⟨(act (part w)).result, put (act (part w)).world w, (act (part w)).events⟩ :=
  rfl

@[simp] theorem map_apply (f : α → β) (act : Act World α) (w : World) :
    (f <$> act) w = ⟨f (act w).result, (act w).world, (act w).events⟩ := by
  show (⟨_, _, (act w).events ++ []⟩ : Done World β) = _
  rw [List.append_nil]
  rfl

theorem each_world (act : α → Act World Unit) (things : List α) (w : World) :
    (each act things w).world = things.foldl (fun w a => (act a w).world) w := by
  induction things generalizing w with
  | nil => rfl
  | cons a rest ih => exact ih (act a w).world

theorem ite_apply (c : Prop) [Decidable c] (a b : Act World α) (w : World) :
    (if c then a else b) w = if c then a w else b w := by
  split <;> rfl

theorem id_map (act : Act World α) : id <$> act = act := by
  funext w
  show (⟨_, _, (act w).events ++ []⟩ : Done World _) = act w
  rw [List.append_nil]
  rfl

theorem pure_bind (a : α) (next : α → Act World β) : (Pure.pure a >>= next) = next a := by
  funext w
  show (⟨_, _, [] ++ (next a w).events⟩ : Done World _) = next a w
  rw [List.nil_append]
  rfl

theorem bind_assoc {γ : Type} (act : Act World α) (next : α → Act World β) (last : β → Act World γ) :
    (act >>= next) >>= last = act >>= fun a => next a >>= last := by
  funext w
  show (⟨_, _, ((act w).events ++ _) ++ _⟩ : Done World _) = ⟨_, _, (act w).events ++ (_ ++ _)⟩
  rw [List.append_assoc]
  rfl

instance : LawfulMonad (Act World) := LawfulMonad.mk' (Act World) id_map pure_bind bind_assoc

end Act

end TriageDesk
