/-
TriageDesk.Proofs.Time.Order — moments in the order of time.

A moment is at most another when the other does not come before it. This is an
order in which any two moments compare: the seconds decide, and of equal seconds
the nanoseconds (`Instant.le_iff`).
-/
import TriageDesk.Time.Instant

namespace TriageDesk.Time

instance : LE Instant := ⟨fun a b => b.before a = false⟩

instance (a b : Instant) : Decidable (a ≤ b) := inferInstanceAs (Decidable (b.before a = false))

namespace Instant

theorem le_iff (a b : Instant) :
    a ≤ b ↔ a.seconds < b.seconds ∨ a.seconds = b.seconds ∧ a.nanos ≤ b.nanos := by
  show b.before a = false ↔ _
  simp only [before, Bool.or_eq_false_iff, Bool.and_eq_false_iff, decide_eq_false_iff_not,
    beq_eq_false_iff_ne, ne_eq]
  omega

theorem before_iff (a b : Instant) :
    a.before b = true ↔ a.seconds < b.seconds ∨ a.seconds = b.seconds ∧ a.nanos < b.nanos := by
  simp [before]

theorem before_trans {a b c : Instant} (h₁ : a.before b = true) (h₂ : b.before c = true) :
    a.before c = true := by
  rw [before_iff] at *
  omega

theorem before_asymm {a b : Instant} (h : a.before b = true) : b.before a = false := by
  rw [Bool.eq_false_iff, Ne, before_iff]
  rw [before_iff] at h
  omega

theorem before_irrefl (a : Instant) : a.before a = false := by
  simp [before]

/-- Of two moments that differ one comes before the other. -/
theorem before_or_eq (a b : Instant) : a.before b = true ∨ a = b ∨ b.before a = true := by
  obtain ⟨s, n⟩ := a
  obtain ⟨t, m⟩ := b
  simp only [before_iff, mk.injEq]
  omega

theorem le_refl (a : Instant) : a ≤ a := (le_iff a a).mpr (Or.inr ⟨rfl, Nat.le_refl _⟩)

theorem le_trans {a b c : Instant} (h₁ : a ≤ b) (h₂ : b ≤ c) : a ≤ c := by
  rw [le_iff] at *
  omega

/-- The earlier of two moments is at most the second. -/
theorem earlier_le (a b : Instant) : a.earlier b ≤ b := by
  unfold earlier
  split
  · exact le_refl b
  · rename_i h
    exact Bool.eq_false_iff.mpr h

end Instant

end TriageDesk.Time
