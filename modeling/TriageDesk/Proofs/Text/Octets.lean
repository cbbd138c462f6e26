/-
TriageDesk.Proofs.Text.Octets — a text is read from its octets.

A character takes one to four octets: the first one says how many follow and
what the second one may be, each of the others contributes six bits.
`readOctets_encoded` reads one character back, by the number of its octets, and
`ofOctets_octetsOf` a whole text; so octets that were a text are one
(`decode?_octetsOf`).
-/
import Mathlib.Tactic.SplitIfs
import TriageDesk.Text.Rune

namespace TriageDesk.Text

/-! ## The octets of a character -/

theorem toNat_octet {n : Nat} (octet : n < 256) : (UInt8.ofNat n).toNat = n :=
  UInt8.toNat_ofNat_of_lt' octet

theorem leadOctet_two {b : Nat} (low : 0xC2 ≤ b) (high : b ≤ 0xDF) :
    leadOctet b = some (1, 0x80, 0xBF, b - 0xC0) := by
  rw [leadOctet, if_pos ⟨low, high⟩]

/-- The second of three octets is neither one of an overlong form nor of a surrogate. -/
theorem leadOctet_three {b : Nat} (low : 0xE0 ≤ b) (high : b ≤ 0xEF) :
    leadOctet b = some (2, if b = 0xE0 then 0xA0 else 0x80, if b = 0xED then 0x9F else 0xBF,
      b - 0xE0) := by
  unfold leadOctet
  split_ifs <;> first | omega | simp [*]

/-- The second of four octets is neither one of an overlong form nor beyond the last character. -/
theorem leadOctet_four {b : Nat} (low : 0xF0 ≤ b) (high : b ≤ 0xF4) :
    leadOctet b = some (3, if b = 0xF0 then 0x90 else 0x80, if b = 0xF4 then 0x8F else 0xBF,
      b - 0xF0) := by
  unfold leadOctet
  split_ifs <;> first | omega | simp [*]

theorem readOctets_ascii {n low high read bits : Nat} (ascii : n < 0x80) (rest : List UInt8) :
    readOctets 0 low high read bits (UInt8.ofNat n :: rest) =
      .char (Char.ofNat n) :: readOctets 0 0 0 0 0 rest := by
  rw [readOctets, toNat_octet (by omega), if_pos ascii]

theorem readOctets_lead {n low high read bits missing low' high' bits' : Nat} (octet : n < 256)
    (lead : leadOctet n = some (missing, low', high', bits')) (beyond : 0x80 ≤ n)
    (rest : List UInt8) :
    readOctets 0 low high read bits (UInt8.ofNat n :: rest) =
      readOctets missing low' high' 1 bits' rest := by
  rw [readOctets, toNat_octet octet, if_neg (by omega), lead]

theorem readOctets_next {n low high read bits missing : Nat} (above : low ≤ n) (below : n ≤ high)
    (octet : n < 256) (rest : List UInt8) :
    readOctets (missing + 2) low high read bits (UInt8.ofNat n :: rest) =
      readOctets (missing + 1) 0x80 0xBF (read + 1) (bits * 64 + (n - 0x80)) rest := by
  rw [readOctets, toNat_octet octet, if_pos ⟨above, below⟩, if_neg (by omega)]

theorem readOctets_last {n low high read bits : Nat} (above : low ≤ n) (below : n ≤ high)
    (octet : n < 256) (rest : List UInt8) :
    readOctets 1 low high read bits (UInt8.ofNat n :: rest) =
      .char (Char.ofNat (bits * 64 + (n - 0x80))) :: readOctets 0 0 0 0 0 rest := by
  rw [readOctets, toNat_octet octet, if_pos ⟨above, below⟩, if_pos rfl]

/-! ## Texts -/

/-- A character is read from its octets. -/
theorem readOctets_encoded (c : Char) (rest : List UInt8) :
    readOctets 0 0 0 0 0 (String.utf8EncodeChar c ++ rest) =
      .char c :: readOctets 0 0 0 0 0 rest := by
  have valid : c.val.toNat < 0xD800 ∨ 0xDFFF < c.val.toNat ∧ c.val.toNat < 0x110000 := c.valid
  have whole : ∀ n, n = c.val.toNat → Rune.char (Char.ofNat n) = .char c := by
    rintro n rfl
    exact congrArg Rune.char (Char.ofNat_toNat c)
  simp only [String.utf8EncodeChar]
  generalize c.val.toNat = v at valid whole ⊢
  split_ifs with one two three
  · rw [List.singleton_append, readOctets_ascii (by omega), whole v rfl]
  · rw [List.cons_append, List.singleton_append,
      readOctets_lead (by omega) (leadOctet_two (by omega) (by omega)) (by omega),
      readOctets_last (by omega) (by omega) (by omega), whole _ (by omega)]
  · rw [List.cons_append, List.cons_append, List.singleton_append,
      readOctets_lead (by omega) (leadOctet_three (by omega) (by omega)) (by omega),
      readOctets_next (by split_ifs <;> omega) (by split_ifs <;> omega) (by omega),
      readOctets_last (by omega) (by omega) (by omega), whole _ (by omega)]
  · rw [List.cons_append, List.cons_append, List.cons_append, List.singleton_append,
      readOctets_lead (by omega) (leadOctet_four (by omega) (by omega)) (by omega),
      readOctets_next (by split_ifs <;> omega) (by split_ifs <;> omega) (by omega),
      readOctets_next (by omega) (by omega) (by omega),
      readOctets_last (by omega) (by omega) (by omega), whole _ (by omega)]

theorem readOctets_flatMap (cs : List Char) :
    readOctets 0 0 0 0 0 (cs.flatMap String.utf8EncodeChar) = cs.map .char := by
  induction cs with
  | nil => rfl
  | cons c cs ih => rw [List.flatMap_cons, readOctets_encoded, ih, List.map_cons]

theorem octetsOf_eq_flatMap (s : String) :
    octetsOf s = s.toList.flatMap String.utf8EncodeChar := by
  show s.toByteArray.data.toList = _
  rw [← String.utf8Encode_toList]
  exact List.toList_data_toByteArray

/-- **A text is read from its octets.** -/
theorem ofOctets_octetsOf (s : String) : Rune.ofOctets (octetsOf s) = Rune.ofText s := by
  rw [Rune.ofOctets, octetsOf_eq_flatMap, readOctets_flatMap]
  rfl

theorem toChars?_ofText (s : String) : Rune.toChars? (Rune.ofText s) = some s.toList := by
  unfold Rune.ofText
  induction s.toList with
  | nil => rfl
  | cons c cs ih => rw [List.map_cons, Rune.toChars?, ih]; rfl

theorem decode?_octetsOf (s : String) : decode? (octetsOf s) = some s := by
  rw [decode?, ofOctets_octetsOf, toChars?_ofText, Option.map_some, String.ofList_toList]

end TriageDesk.Text
