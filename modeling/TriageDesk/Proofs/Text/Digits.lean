/-
TriageDesk.Proofs.Text.Digits — the decimal digits of a number.

The digits of a number begin with a zero only if it is zero, none of them is
white space, and reading on never makes a value smaller (`le_ofDigitChars`), so
that a limit which the whole number keeps is kept on the way.
-/
import TriageDesk.Text.Blank

namespace TriageDesk.Text

theorem le_ofDigitChars (ds : List Char) (v : Nat) : v ≤ Nat.ofDigitChars 10 ds v := by
  induction ds generalizing v with
  | nil => simp
  | cons d ds ih =>
    rw [Nat.ofDigitChars_cons]
    have := ih (10 * v + (d.toNat - '0'.toNat))
    omega

/-- The digits of a number that is not zero do not begin with a zero. -/
theorem exists_head_toDigits {n : Nat} (positive : 0 < n) :
    ∃ d ds, Nat.toDigits 10 n = d :: ds ∧ d ≠ '0' := by
  induction n using Nat.strongRecOn with
  | _ n ih =>
    by_cases small : n < 10
    · refine ⟨n.digitChar, [], Nat.toDigits_of_lt_base small, ?_⟩
      have : ∀ k < 10, 0 < k → Nat.digitChar k ≠ '0' := by decide
      exact this n small positive
    · obtain ⟨d, ds, digits, head⟩ := ih (n / 10) (by omega) (by omega)
      refine ⟨d, ds ++ [(n % 10).digitChar], ?_, head⟩
      rw [Nat.toDigits_of_base_le (by decide) (by omega), digits]
      rfl

/-- A number has a first digit. -/
theorem exists_digit (n : Nat) : ∃ d ds, Nat.toDigits 10 n = d :: ds ∧ d.isDigit = true := by
  cases digits : Nat.toDigits 10 n with
  | nil =>
    have := Nat.length_toDigits_pos (b := 10) (n := n)
    simp [digits] at this
  | cons d ds =>
    refine ⟨d, ds, rfl, Nat.isDigit_of_mem_toDigits (b := 10) (n := n) (by decide) (by decide) ?_⟩
    rw [digits]
    exact List.mem_cons_self

theorem isBlank_of_isDigit {c : Char} (digit : c.isDigit = true) : isBlank c = false := by
  have bounds : 48 ≤ c.toNat ∧ c.toNat ≤ 57 := by
    simpa [Char.isDigit, Char.le_def, UInt32.le_iff_toNat_le] using digit
  simp [isBlank]
  omega

end TriageDesk.Text
