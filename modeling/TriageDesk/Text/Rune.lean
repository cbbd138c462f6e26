/-
TriageDesk.Text.Rune — octets as characters, with the octets that form none.

A run of octets is read as UTF-8. What is no character becomes a stray: the
longest start of a character that cannot be completed, or a single octet
that starts none. A text consists of characters only.
-/

namespace TriageDesk.Text

/-- A character, or octets of which none can be made. -/
inductive Rune
  | char (c : Char)
  | stray (octets : Nat)
deriving DecidableEq, Repr

namespace Rune

/-- The number of octets. -/
def width : Rune → Nat
  | .char c => c.utf8Size
  | .stray n => n

/-- The runes of a text. -/
def ofText (s : String) : List Rune := s.toList.map .char

/-- The number of octets of a run. -/
def octets (runes : List Rune) : Nat := runes.foldl (fun n r => n + r.width) 0

/-- The runes as text, if there is no stray among them. -/
def toChars? : List Rune → Option (List Char)
  | [] => some []
  | .char c :: rest => (toChars? rest).map (c :: ·)
  | .stray _ :: _ => none

/-- The runes as text, every stray replaced by the replacement character. -/
def toCharsLossy (runes : List Rune) : List Char :=
  runes.map fun
    | .char c => c
    | .stray _ => '\uFFFD'

end Rune

/-! ## Reading octets -/

/-- What may follow the first octet of a character: the number of octets to
come, the range of the next one, and the bits that the first contributes. -/
def leadOctet (b : Nat) : Option (Nat × Nat × Nat × Nat) :=
  if 0xC2 ≤ b ∧ b ≤ 0xDF then some (1, 0x80, 0xBF, b - 0xC0)
  else if b = 0xE0 then some (2, 0xA0, 0xBF, 0)
  else if b = 0xED then some (2, 0x80, 0x9F, 0xD)
  else if 0xE1 ≤ b ∧ b ≤ 0xEF then some (2, 0x80, 0xBF, b - 0xE0)
  else if b = 0xF0 then some (3, 0x90, 0xBF, 0)
  else if 0xF1 ≤ b ∧ b ≤ 0xF3 then some (3, 0x80, 0xBF, b - 0xF0)
  else if b = 0xF4 then some (3, 0x80, 0x8F, 4)
  else none

/-- Reads octets in the midst of a character: `missing` more are due, the next
in the given range; `read` have been read and their bits are `bits`. With
nothing missing a new character starts. -/
def readOctets : (missing low high read bits : Nat) → List UInt8 → List Rune
  | 0, _, _, _, _, [] => []
  | _ + 1, _, _, read, _, [] => [.stray read]
  | 0, _, _, _, _, b :: rest =>
    if b.toNat < 0x80 then .char (Char.ofNat b.toNat) :: readOctets 0 0 0 0 0 rest
    else
      match leadOctet b.toNat with
      | some (missing, low, high, bits) => readOctets missing low high 1 bits rest
      | none => .stray 1 :: readOctets 0 0 0 0 0 rest
  | missing + 1, low, high, read, bits, b :: rest =>
    if low ≤ b.toNat ∧ b.toNat ≤ high then
      let bits := bits * 64 + (b.toNat - 0x80)
      if missing = 0 then .char (Char.ofNat bits) :: readOctets 0 0 0 0 0 rest
      else readOctets missing 0x80 0xBF (read + 1) bits rest
    else if b.toNat < 0x80 then
      .stray read :: .char (Char.ofNat b.toNat) :: readOctets 0 0 0 0 0 rest
    else
      match leadOctet b.toNat with
      | some (missing, low, high, bits) => .stray read :: readOctets missing low high 1 bits rest
      | none => .stray read :: .stray 1 :: readOctets 0 0 0 0 0 rest

/-- The runes of a run of octets. -/
def Rune.ofOctets (octets : List UInt8) : List Rune := readOctets 0 0 0 0 0 octets

/-- Octets as text, what is no character replaced. -/
def decodeLossy (octets : List UInt8) : String :=
  String.ofList (Rune.toCharsLossy (Rune.ofOctets octets))

/-- Octets as text, if they form one. -/
def decode? (octets : List UInt8) : Option String :=
  (Rune.toChars? (Rune.ofOctets octets)).map String.ofList

/-- The octets of a text. -/
def octetsOf (s : String) : List UInt8 := s.toUTF8.data.toList

end TriageDesk.Text
