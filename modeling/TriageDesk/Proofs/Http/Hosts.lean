/-
TriageDesk.Proofs.Http.Hosts — what no host has in its name.

A blank or a control character of ASCII never disappears on the way from the
text of a host to its name: percent signs do not swallow it
(`octet_mem_percentDecode`), reading octets keeps it (`mem_decode?`), its usual
form is of the same kind (`usualForm_edge`), and writing a label in ASCII copies
it (`mem_encodeLabel`). There it is forbidden, so a text that ends in one is no
host (`webHost?_edge`) and no port (`port?_edge`).
-/
import Mathlib.Data.List.Basic
import TriageDesk.Http.Url
import TriageDesk.Proofs.Text.Octets
import TriageDesk.Proofs.Text.Search

namespace TriageDesk.Http

open Text Url

/-! ## Blanks and control characters -/

/-- Whether a character falls away at the ends of an address: the blank and the control
characters of ASCII below it. -/
def isEdge (c : Char) : Bool := c.toNat ≤ 0x20

/-- What holds of each of these characters. -/
theorem edge_cases {P : Char → Prop} (each : ∀ n < 0x21, P (Char.ofNat n)) {c : Char}
    (edge : isEdge c = true) : P c := by
  have low : c.toNat < 0x21 := Nat.lt_succ_of_le (of_decide_eq_true edge)
  simpa using each c.toNat low

theorem ascii_of_edge {c : Char} (edge : isEdge c = true) : c.toNat < 0x80 :=
  Nat.lt_of_le_of_lt (of_decide_eq_true edge) (by decide)

/-- A character that is none of these is not met among them. -/
theorem ne_of_edge {c d : Char} (edge : isEdge c = true) (inner : isEdge d = false) : c ≠ d := by
  rintro rfl
  simp [edge] at inner

theorem hexValue?_edge {c : Char} (edge : isEdge c = true) : hexValue? c = none :=
  edge_cases (P := fun c => hexValue? c = none) (by decide) edge

theorem isDigit_edge {c : Char} (edge : isEdge c = true) : c.isDigit = false :=
  edge_cases (P := fun c => c.isDigit = false) (by decide) edge

theorem isForbiddenInDomain_edge {c : Char} (edge : isEdge c = true) :
    isForbiddenInDomain c = true :=
  edge_cases (P := fun c => isForbiddenInDomain c = true) (by decide) edge

/-- The usual form of such a character has one, too. -/
theorem usualForm_edge {c : Char} (edge : isEdge c = true) :
    ∃ d ∈ Punycode.usualForm c, isEdge d = true := by
  have any : (Punycode.usualForm c).any isEdge = true :=
    edge_cases (P := fun c => (Punycode.usualForm c).any isEdge = true) (by decide +kernel) edge
  simpa using any

/-! ## Reading octets -/

/-- Decoding keeps a character of ASCII that is neither a percent sign nor a digit. -/
theorem octet_mem_percentDecode {c : Char} (ascii : c.toNat < 0x80) (noDigit : hexValue? c = none)
    (noSign : c ≠ '%') {cs : List Char} (among : c ∈ cs) :
    UInt8.ofNat c.toNat ∈ percentDecode cs := by
  have own : UInt8.ofNat c.toNat ∈ octetsOf (String.singleton c) := by
    rw [octetsOf_eq_flatMap]
    simp [String.utf8EncodeChar, Nat.le_of_lt_succ ascii]
  fun_induction percentDecode cs with
  | case1 => simp at among
  | case2 h l tail x y first second ih =>
    have behind : c ∈ tail := by
      simp only [List.mem_cons] at among
      rcases among with rfl | rfl | rfl | among
      · exact absurd rfl noSign
      · rw [noDigit] at second
        cases second
      · rw [noDigit] at first
        cases first
      · exact among
    exact List.mem_cons_of_mem _ (ih behind)
  | case3 h l tail _ ih =>
    exact List.mem_append_right _ (ih ((List.mem_cons.mp among).resolve_left noSign))
  | case4 d rest _ ih =>
    rcases List.mem_cons.mp among with rfl | among
    · exact List.mem_append_left _ own
    · exact List.mem_append_right _ (ih among)

theorem le_of_leadOctet {b missing low high bits : Nat}
    (lead : leadOctet b = some (missing, low, high, bits)) : 0x80 ≤ low := by
  unfold leadOctet at lead
  split_ifs at lead <;> cases lead <;> decide

/-- A character of ASCII is read wherever its octet stands: in the midst of another character only
octets beyond ASCII are in range. -/
theorem char_mem_readOctets {b : UInt8} (ascii : b.toNat < 0x80) {octets : List UInt8}
    (among : b ∈ octets) {missing low high read bits : Nat} (beyond : missing ≠ 0 → 0x80 ≤ low) :
    .char (Char.ofNat b.toNat) ∈ readOctets missing low high read bits octets := by
  fun_induction readOctets missing low high read bits octets with
  | case1 => simp at among
  | case2 => simp at among
  | case3 _ _ _ _ d octets here ih =>
    rcases List.mem_cons.mp among with rfl | among
    · exact List.mem_cons_self
    · exact List.mem_cons_of_mem _ (ih among (by simp))
  | case4 _ _ _ _ d octets here _ _ _ _ lead ih =>
    have other : b ≠ d := fun same => here (same ▸ ascii)
    exact ih (List.mem_of_ne_of_mem other among) fun _ => le_of_leadOctet lead
  | case5 _ _ _ _ d octets here _ ih =>
    have other : b ≠ d := fun same => here (same ▸ ascii)
    exact List.mem_cons_of_mem _ (ih (List.mem_of_ne_of_mem other among) (by simp))
  | case6 _ _ _ _ d octets range _ ih =>
    have other : b ≠ d := fun same => by have := beyond (by simp); subst same; omega
    exact List.mem_cons_of_mem _ (ih (List.mem_of_ne_of_mem other among) (by simp))
  | case7 _ _ _ _ _ d octets range _ _ ih =>
    have other : b ≠ d := fun same => by have := beyond (by simp); subst same; omega
    exact ih (List.mem_of_ne_of_mem other among) (by simp)
  | case8 _ _ _ _ _ d octets _ here ih =>
    rcases List.mem_cons.mp among with rfl | among
    · simp
    · simp [ih among (by simp)]
  | case9 _ _ _ _ _ d octets _ here _ _ _ _ lead ih =>
    have other : b ≠ d := fun same => here (same ▸ ascii)
    exact List.mem_cons_of_mem _
      (ih (List.mem_of_ne_of_mem other among) fun _ => le_of_leadOctet lead)
  | case10 _ _ _ _ _ d octets _ here _ ih =>
    have other : b ≠ d := fun same => here (same ▸ ascii)
    simp [ih (List.mem_of_ne_of_mem other among) (by simp)]

/-- Runes that form a text are its characters. -/
theorem mem_toChars? {c : Char} {runes : List Rune} {cs : List Char} (among : .char c ∈ runes)
    (formed : Rune.toChars? runes = some cs) : c ∈ cs := by
  induction runes generalizing cs with
  | nil => simp at among
  | cons rune runes ih =>
    cases rune with
    | stray n => simp [Rune.toChars?] at formed
    | char d =>
      obtain ⟨rest, chars, rfl⟩ := Option.map_eq_some_iff.mp formed
      rcases List.mem_cons.mp among with same | among
      · simp [Rune.char.inj same]
      · exact List.mem_cons_of_mem _ (ih among chars)

theorem mem_decode? {b : UInt8} (ascii : b.toNat < 0x80) {octets : List UInt8} (among : b ∈ octets)
    {text : String} (formed : decode? octets = some text) : Char.ofNat b.toNat ∈ text.toList := by
  obtain ⟨cs, chars, rfl⟩ := Option.map_eq_some_iff.mp formed
  rw [String.toList_ofList]
  exact mem_toChars? (char_mem_readOctets ascii among (by simp)) chars

/-- Decoding keeps a blank or a control character. -/
theorem mem_decode?_percentDecode {c : Char} (edge : isEdge c = true) {cs : List Char}
    (among : c ∈ cs) {text : String} (formed : decode? (percentDecode cs) = some text) :
    c ∈ text.toList := by
  have octet := octet_mem_percentDecode (ascii_of_edge edge) (hexValue?_edge edge)
    (ne_of_edge edge (by decide)) among
  have value : (UInt8.ofNat c.toNat).toNat = c.toNat :=
    toNat_octet (Nat.lt_trans (ascii_of_edge edge) (by decide))
  have read := mem_decode? (by rw [value]; exact ascii_of_edge edge) octet formed
  rwa [value, Char.ofNat_toNat] at read

/-! ## Writing names -/

theorem output_pass (code : Nat) (p : Punycode.Progress) (c : Char) :
    p.output <+: (p.pass code c).output := by
  unfold Punycode.Progress.pass
  split_ifs <;> simp

theorem output_foldl_pass (code : Nat) (label : List Char) (p : Punycode.Progress) :
    p.output <+: (label.foldl (Punycode.Progress.pass code) p).output := by
  induction label generalizing p with
  | nil => exact List.prefix_refl _
  | cons c label ih => exact (output_pass code p c).trans (ih _)

/-- What has been written of a label stays. -/
theorem output_writeCodes (label : List Char) (next : Nat) (codes : List Nat)
    (p : Punycode.Progress) : p.output <+: (Punycode.writeCodes label next codes p).output := by
  induction codes generalizing next p with
  | nil => exact List.prefix_refl _
  | cons code codes ih =>
    refine List.IsPrefix.trans ?_ (ih _ _)
    exact output_foldl_pass code label
      { p with distance := p.distance + (code - next) * (p.written + 1) }

/-- A label keeps its characters of ASCII. -/
theorem mem_encodeLabel {c : Char} (ascii : c.toNat < 0x80) {label : List Char} (among : c ∈ label) :
    c ∈ Punycode.encodeLabel label := by
  have basic : c ∈ label.filter (·.toNat < 0x80) := by simp [among, ascii]
  simp only [Punycode.encodeLabel]
  split_ifs with plain nothing
  · exact among
  · simp [nothing] at basic
  · refine List.mem_append_right _ ((output_writeCodes _ _ _ _).subset ?_)
    exact List.mem_append_left _ basic

theorem mem_splitOn {sep c : Char} (other : c ≠ sep) {text : List Char} (among : c ∈ text) :
    ∃ piece ∈ splitOn sep text, c ∈ piece := by
  induction text with
  | nil => simp at among
  | cons d text ih =>
    rw [splitOn]
    split_ifs with cut
    · obtain ⟨piece, part, inside⟩ := ih ((List.mem_cons.mp among).resolve_left (cut ▸ other))
      exact ⟨piece, List.mem_cons_of_mem _ part, inside⟩
    · cases pieces : splitOn sep text with
      | nil =>
        rw [pieces] at ih
        rcases List.mem_cons.mp among with rfl | among
        · simp
        · simpa using ih among
      | cons first rest =>
        rw [pieces] at ih
        rcases List.mem_cons.mp among with rfl | among
        · simp
        · obtain ⟨piece, part, inside⟩ := ih among
          rcases List.mem_cons.mp part with rfl | part
          · exact ⟨_, List.mem_cons_self, List.mem_cons_of_mem _ inside⟩
          · exact ⟨piece, List.mem_cons_of_mem _ part, inside⟩

theorem mem_join {sep : List Char} {c : Char} {pieces : List (List Char)} {piece : List Char}
    (part : piece ∈ pieces) (among : c ∈ piece) : c ∈ join sep pieces := by
  fun_induction join sep pieces with
  | case1 => simp at part
  | case2 only => simpa [List.mem_singleton.mp part] using among
  | case3 first rest _ ih =>
    rcases List.mem_cons.mp part with rfl | part
    · simp [among]
    · simp [ih part]

/-- A name in ASCII has such a character if the name has. -/
theorem encode?_edge {c : Char} (edge : isEdge c = true) {name domain : List Char} (among : c ∈ name)
    (written : Punycode.encode? name = some domain) : ∃ d ∈ domain, isEdge d = true := by
  obtain ⟨d, form, edge'⟩ := usualForm_edge edge
  have usual : d ∈ name.flatMap Punycode.usualForm := List.mem_flatMap.mpr ⟨c, among, form⟩
  obtain ⟨piece, part, inside⟩ := mem_splitOn (ne_of_edge edge' (by decide : isEdge '.' = false)) usual
  simp only [Punycode.encode?] at written
  split_ifs at written
  obtain rfl := Option.some.inj written
  exact ⟨d, mem_join (List.mem_map_of_mem part) (mem_encodeLabel (ascii_of_edge edge') inside), edge'⟩

/-! ## Hosts and ports -/

/-- A text that ends in a blank or a control character is no host. -/
theorem webHost?_edge {c : Char} (edge : isEdge c = true) (front : List Char) :
    webHost? (front ++ [c]) = none := by
  unfold webHost?
  split
  · rfl
  · next rest text =>
    -- a host that begins with a bracket has to end with one
    have last : (front ++ [c]).getLast? = ('[' :: rest).getLast? := congrArg _ text
    rw [List.getLast?_concat, List.getLast?_cons] at last
    split
    · next bracket =>
      rw [bracket] at last
      obtain rfl := Option.some.inj last
      cases edge
    · rfl
  · next _ _ =>
    cases formed : decode? (percentDecode (front ++ [c])) with
    | none => rfl
    | some text =>
      cases written : Punycode.encode? text.toList with
      | none => simp [written]
      | some domain =>
        have kept := mem_decode?_percentDecode edge (by simp) formed
        obtain ⟨d, inside, edge'⟩ := encode?_edge edge kept written
        have forbidden : domain.any isForbiddenInDomain = true :=
          List.any_eq_true.mpr ⟨d, inside, isForbiddenInDomain_edge edge'⟩
        simp only [Option.bind_eq_bind, Option.bind_some, written]
        rw [if_pos (.inr forbidden)]

theorem port?_edge {c : Char} (edge : isEdge c = true) (scheme : String) (front : List Char) :
    port? scheme (some (front ++ [c])) = none := by
  simp [port?, isDigit_edge edge]

end TriageDesk.Http
