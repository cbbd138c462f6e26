/-
TriageDesk.Proofs.Http.Form — a form is read as it was written.

Octets with percent signs are decoded to themselves (`percentDecode_octets`), and
so is every other octet of a form, once the plus signs are blanks again
(`percentDecode_writeOctet`): a plus sign that is meant is never written as one. A
name or a value holds neither of the two separators (`notMem_writePart`), so what is
between them is read back piece by piece (`read_write`).
-/
import TriageDesk.Http.Form
import TriageDesk.Proofs.Text.Octets
import TriageDesk.Proofs.Text.Search

namespace TriageDesk

open Text

/-! ## Percent signs -/

namespace Http

theorem hexValue?_hexDigit : ∀ n < 16, hexValue? (hexDigit n) = some n := by decide

theorem percentDecode_octet (b : UInt8) (rest : List Char) :
    percentDecode (percentOctet b ++ rest) = b :: percentDecode rest := by
  have high := hexValue?_hexDigit (b.toNat / 16) (by have := b.toNat_lt; omega)
  have low := hexValue?_hexDigit (b.toNat % 16) (by omega)
  have whole : UInt8.ofNat (16 * (b.toNat / 16) + b.toNat % 16) = b := by
    rw [Nat.div_add_mod, UInt8.ofNat_toNat]
  show percentDecode ('%' :: hexDigit (b.toNat / 16) :: hexDigit (b.toNat % 16) :: rest) = _
  rw [percentDecode, high, low]
  simp only [whole]

theorem percentDecode_octets (bs : List UInt8) : percentDecode (bs.flatMap percentOctet) = bs := by
  induction bs with
  | nil => simp [percentDecode]
  | cons b bs ih => rw [List.flatMap_cons, percentDecode_octet, ih]

/-- A digit has no other meaning in an address or a form. -/
theorem hexDigit_notMem : ∀ n < 16, hexDigit n ∉ ['%', '+', '&', '=', '/'] := by decide

/-- Any character but a percent sign stands for its octets. -/
theorem percentDecode_cons {c : Char} (plain : c ≠ '%') (rest : List Char) :
    percentDecode (c :: rest) = octetsOf (String.singleton c) ++ percentDecode rest := by
  rw [percentDecode]
  intro h l tail percent
  exact absurd percent plain

end Http

/-! ## Texts from their octets -/

namespace Text

theorem decodeLossy_octetsOf (s : String) : decodeLossy (octetsOf s) = s := by
  have chars : Rune.toCharsLossy (Rune.ofText s) = s.toList := by
    rw [Rune.toCharsLossy, Rune.ofText, List.map_map]
    exact List.map_id _
  rw [decodeLossy, ofOctets_octetsOf, chars, String.ofList_toList]

end Text

namespace Http.Form

/-! ## Names and values -/

/-- A character of a form, plus signs being blanks. -/
def unplus (c : Char) : Char := if c = '+' then ' ' else c

/-- What stands for itself in a form has no other meaning there. -/
theorem plain_octet : ∀ n < 128,
    (Char.ofNat n).isAlphanum ∨ "*-._".toList.contains (Char.ofNat n) →
      Char.ofNat n ∉ ['%', '+', '&', '='] ∧
        octetsOf (String.singleton (Char.ofNat n)) = [UInt8.ofNat n] := by
  decide +kernel

/-- How an octet is written: as itself if it has no other meaning, as a plus sign if it is a blank,
or with a percent sign. -/
theorem writeOctet_cases (b : UInt8) :
    (∃ c, writeOctet b = [c] ∧ c ∉ ['%', '+', '&', '='] ∧ octetsOf (String.singleton c) = [b]) ∨
      writeOctet b = ['+'] ∧ b = 0x20 ∨ writeOctet b = percentOctet b := by
  simp only [writeOctet]
  split_ifs with plain blank
  · obtain ⟨special, octet⟩ := plain_octet b.toNat plain.1 plain.2
    rw [UInt8.ofNat_toNat] at octet
    exact .inl ⟨_, rfl, special, octet⟩
  · have same : ∀ n < 256, Char.ofNat n = ' ' → n = 0x20 := by decide +kernel
    exact .inr (.inl ⟨rfl, UInt8.toNat_inj.mp (same b.toNat b.toNat_lt blank)⟩)
  · exact .inr (.inr rfl)

/-- An octet of a form is read as it was written. -/
theorem percentDecode_writeOctet (b : UInt8) (rest : List Char) :
    percentDecode ((writeOctet b).map unplus ++ rest) = b :: percentDecode rest := by
  rcases writeOctet_cases b with ⟨c, written, special, octet⟩ | ⟨written, rfl⟩ | written
  · have meant : unplus c = c := if_neg fun plus => special (by simp [plus])
    rw [written, List.map_singleton, meant, List.singleton_append,
      percentDecode_cons fun percent => special (by simp [percent]), octet, List.singleton_append]
  · rw [written, List.map_singleton, List.singleton_append]
    exact percentDecode_cons (by decide) rest
  · have high := hexDigit_notMem (b.toNat / 16) (by have := b.toNat_lt; omega)
    have low := hexDigit_notMem (b.toNat % 16) (by omega)
    have kept : (percentOctet b).map unplus = percentOctet b := by
      simp_all [percentOctet, unplus]
    rw [written, kept, percentDecode_octet]

/-- A name or a value is read as it was written. -/
theorem readPart_writePart (s : String) : readPart (writePart s) = s := by
  have octets (bs : List UInt8) :
      percentDecode ((bs.flatMap writeOctet).map unplus) = bs := by
    induction bs with
    | nil => simp [percentDecode]
    | cons b bs ih => rw [List.flatMap_cons, List.map_append, percentDecode_writeOctet, ih]
  show decodeLossy (percentDecode ((writePart s).map unplus)) = s
  rw [writePart, octets, decodeLossy_octetsOf]

/-- Neither of the separators is written in a name or a value. -/
theorem notMem_writePart (s : String) : '&' ∉ writePart s ∧ '=' ∉ writePart s := by
  have octet (b : UInt8) {c : Char} (among : c ∈ writeOctet b) : c ≠ '&' ∧ c ≠ '=' := by
    rcases writeOctet_cases b with ⟨d, written, special, -⟩ | ⟨written, -⟩ | written
    · rw [written, List.mem_singleton] at among
      subst among
      constructor <;> rintro rfl <;> exact special (by decide)
    · rw [written, List.mem_singleton] at among
      subst among
      decide
    · have high := hexDigit_notMem (b.toNat / 16) (by have := b.toNat_lt; omega)
      have low := hexDigit_notMem (b.toNat % 16) (by omega)
      simp only [written, percentOctet, List.mem_cons, List.not_mem_nil, or_false] at among
      rcases among with rfl | rfl | rfl
      · decide
      · exact ⟨fun same => high (by simp [same]), fun same => high (by simp [same])⟩
      · exact ⟨fun same => low (by simp [same]), fun same => low (by simp [same])⟩
  constructor
  · intro among
    obtain ⟨b, -, inside⟩ := List.mem_flatMap.mp among
    exact (octet b inside).1 rfl
  · intro among
    obtain ⟨b, -, inside⟩ := List.mem_flatMap.mp among
    exact (octet b inside).2 rfl

/-! ## Forms -/

/-- A pair as it is written. -/
def writePair (pair : String × String) : List Char := writePart pair.1 ++ '=' :: writePart pair.2

theorem readPair_writePair (pair : String × String) : readPair (writePair pair) = pair := by
  rw [readPair, writePair, splitOnce_append (notMem_writePart pair.1).2]
  simp only [readPart_writePart]

theorem notMem_writePair (pair : String × String) : '&' ∉ writePair pair := by
  simp [writePair, notMem_writePart]

/-- **A form is read as it was written.** -/
theorem read_write (pairs : List (String × String)) : read (write pairs).toList = pairs := by
  have pieces : write pairs = String.ofList (join ['&'] (pairs.map writePair)) := rfl
  rw [pieces, String.toList_ofList, read]
  cases pairs with
  | nil => rfl
  | cons pair rest =>
    have filled : ∀ piece ∈ (pair :: rest).map writePair, decide (piece ≠ []) = true := by
      intro piece among
      obtain ⟨p, -, rfl⟩ := List.mem_map.mp among
      simp [writePair]
    have plain : ∀ piece ∈ (pair :: rest).map writePair, '&' ∉ piece := by
      intro piece among
      obtain ⟨p, -, rfl⟩ := List.mem_map.mp among
      exact notMem_writePair p
    rw [splitOn_join (by simp) plain, List.filter_eq_self.mpr filled, List.map_map]
    have same : readPair ∘ writePair = id := funext readPair_writePair
    rw [same, List.map_id]

end Http.Form

end TriageDesk
