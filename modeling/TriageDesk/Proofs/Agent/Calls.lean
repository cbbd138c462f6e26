/-
TriageDesk.Proofs.Agent.Calls — calls that are written and read again.

A reply is searched before it is read as JSON: first for a fenced block, then
for its outermost braces. A reply that is a written call and nothing else is
found as a whole by its braces (`candidate?_object`) and decoded to the call it
was written from (`Call.decoder_written`), so the call survives whatever its
strings say (`Reply.read_compact`). The one exception is a string that holds the
mark of a fenced block: what follows the mark is then taken for the call
(`Reply.read_compact_fencing`).

The same holds among other words (`Reply.read_laws`). The mark of a fence cannot
reach across a brace, which it does not have, nor across the start of another
mark, for it does not begin as it ends (`cutAtFirst_word`); so the search meets
the braces of the call, or its block, and nothing that the words around it and
the call have together.
-/
import TriageDesk.Agent.Reply
import TriageDesk.Proofs.Json.Decoding
import TriageDesk.Proofs.Json.Occurrences

namespace TriageDesk.Agent

open Text Json Reader Decoder

/-! ## Calls as text -/

/-- A call as it is written, with its members in the order of its fields. -/
def Call.written (c : Call) : Json := .object [("tool", .string c.tool), ("args", c.args)]

theorem Call.writeWith_written (g : Gaps) (c : Call) :
    writeWith g 0 c.written = '{' :: (g.first 0 ++ (writeString "tool" ++ ':' :: (g.colon ++
      (writeString c.tool ++ writeMoreMembers g 0 [("args", c.args)])))) := rfl

theorem Call.compact_written (c : Call) :
    c.written.compact = String.ofList (writeWith .none 0 c.written) := by
  rw [writeWith_none, compact]

/-- A written call is decoded. -/
theorem Call.decoder_written (g : Gaps) {c : Call} (fits : Fits 126 c.args)
    (sorted : Sorted c.args) :
    Call.decoder.ofText (String.ofList (writeWith g 0 c.written)) = .ok c := by
  have tool := (decodes_textAs "a string" 126 c.tool).map fun x (c : Call) => { c with tool := x }
  have args := (decodes_any fits).map fun x (c : Call) => { c with args := x }
  have distinct : ([("tool", .string c.tool), ("args", c.args)].map (·.1)).Nodup := by simp
  have decodes : Call.decoder.Decodes maxDepth
      (.ofMembers [("tool", .string c.tool), ("args", c.args)]) c :=
    decodes_record (.cons ⟨_, rfl, tool⟩ (.cons ⟨_, rfl, args⟩ .nil)) distinct
      (by simp [Field.needed, Field.optional])
      (by simp) rfl
  exact decodes.ofText (arranges_ofMembers distinct (by simp [sorted, Sorted.string])) g

/-- A written call is an object as a whole. -/
theorem Call.braces_written (g : Gaps) (c : Call) :
    ∃ inner, writeWith g 0 c.written = '{' :: (inner ++ ['}']) := by
  refine ⟨g.first 0 ++ (writeString "tool" ++ ':' :: (g.colon ++ (writeString c.tool ++
    ',' :: (g.next 0 ++ (writeString "args" ++ ':' :: (g.colon ++ (writeWith g 1 c.args ++
      g.last 0))))))), ?_⟩
  simp [writeWith_written, writeMoreMembers]

/-! ## Looking for a call -/

/-- A written call fits where its arguments do. -/
theorem Call.fits_written {c : Call} {room : Nat} (fits : Fits room c.args) :
    Fits (room + 1) c.written := by
  refine .object fun e among => ?_
  simp only [List.mem_cons, List.not_mem_nil, or_false] at among
  rcases among with rfl | rfl
  · exact .string c.tool
  · exact fits

/-- The fence stands in the text of a call exactly when it stands in one of its strings. -/
theorem Call.fence_written (g : Gaps) {c : Call} {room : Nat} (fits : Fits room c.args) :
    fenceOpener <:+: writeWith g 0 c.written ↔ Holds fenceOpener c.written.strings := by
  have plain : ∀ d ∈ "``json".toList, Plain d := plain_of_all (by decide)
  exact isInfix_writeWith plain g 0 (Call.fits_written fits)

/-- Without a fence, what is looked at is the text from the first opening brace to the last
closing one. -/
theorem candidate?_around {before inner after : List Char} (opens : '{' ∉ before)
    (closes : '}' ∉ after)
    (free : ¬ fenceOpener <:+: before ++ ('{' :: (inner ++ ['}']) ++ after)) :
    candidate? (before ++ ('{' :: (inner ++ ['}']) ++ after)) = some ('{' :: (inner ++ ['}'])) := by
  have noBlock : fenced? (before ++ ('{' :: (inner ++ ['}']) ++ after)) = none := by
    rw [fenced?, cutAtFirst_eq_none_iff.mpr free]
    rfl
  have outermost : braced? (before ++ ('{' :: (inner ++ ['}']) ++ after)) =
      some ('{' :: (inner ++ ['}'])) := by
    have last := throughLast_append closes ('{' :: inner)
    rw [braced?, List.cons_append, fromFirst_append opens, List.append_assoc,
      List.singleton_append, ← List.cons_append, last]
    rfl
  rw [candidate?, noBlock, outermost]

/-- With a fence, what is looked at is what stands between it and the next end of a block,
without the white space around it. -/
theorem candidate?_fenced {before inner gap gap' : List Char} (after : List Char)
    (unfenced : ¬ fenceOpener <:+: before) (blank : gap.all isBlank = true)
    (blank' : gap'.all isBlank = true) (free : ¬ fenceCloser <:+: '{' :: (inner ++ ['}'])) :
    candidate? (before ++ (fenceOpener ++
        (gap ++ ('{' :: (inner ++ ['}']) ++ gap') ++ (fenceCloser ++ after)))) =
      some ('{' :: (inner ++ ['}'])) := by
  have lacking {gap : List Char} (blank : gap.all isBlank = true) : '`' ∉ gap := by
    intro among
    exact absurd (List.all_eq_true.mp blank _ among) (by decide)
  have lacks : '}' ∉ fenceCloser := by decide
  have free : ¬ fenceCloser <:+: gap ++ '{' :: inner := by
    rw [isInfix_append_cons (by decide)]
    rintro (inside | inside)
    · exact lacking blank (inside.subset (by decide))
    · exact free (inside.trans ⟨['{'], ['}'], by simp⟩)
  have opened : cutAtFirst fenceOpener (before ++ (fenceOpener ++
      (gap ++ ('{' :: (inner ++ ['}']) ++ gap') ++ (fenceCloser ++ after)))) =
        some (before, gap ++ ('{' :: (inner ++ ['}']) ++ gap') ++ (fenceCloser ++ after)) :=
    cutAtFirst_word (by decide) unfenced _
  have closed : cutAtFirst fenceCloser
      (gap ++ ('{' :: (inner ++ ['}']) ++ gap') ++ (fenceCloser ++ after)) =
        some (gap ++ ('{' :: (inner ++ ['}']) ++ gap'), after) := by
    -- the end of the block is neither before the last brace nor in the blanks behind it
    have behind : cutAtFirst fenceCloser (gap' ++ (fenceCloser ++ after)) = some (gap', after) := by
      have marks : fenceCloser = '`' :: ['`', '`'] := rfl
      rw [marks, cutAtFirst_lacking (lacking blank'), cutAtFirst_front]
      simp
    have across := cutAtFirst_append_cons lacks free (gap' ++ (fenceCloser ++ after))
    rw [behind] at across
    simpa using across
  have block : fenced? (before ++ (fenceOpener ++
      (gap ++ ('{' :: (inner ++ ['}']) ++ gap') ++ (fenceCloser ++ after)))) =
        some ('{' :: (inner ++ ['}'])) := by
    rw [fenced?, opened]
    simp only [Option.bind_eq_bind, Option.bind_some, closed]
    rw [trim_blanks (by decide) (by decide) blank blank']
    rfl
  rw [candidate?, block]

/-- A written call is read as that call, in every layout, from between texts that have neither
braces on the side of the call nor a fence. -/
theorem Reply.read_around (g : Gaps) {c : Call} (named : allBlank c.tool = false)
    (fits : Fits 126 c.args) (sorted : Sorted c.args) {before after : List Char}
    (free : ¬ fenceOpener <:+: writeWith g 0 c.written)
    (opens : '{' ∉ before) (free_before : ¬ fenceOpener <:+: before)
    (closes : '}' ∉ after) (free_after : ¬ fenceOpener <:+: after) :
    Reply.read (String.ofList (before ++ (writeWith g 0 c.written ++ after))) = .ok (.call c) := by
  have decoded := Call.decoder_written g fits sorted
  obtain ⟨inner, text⟩ := Call.braces_written g c
  rw [text] at free decoded ⊢
  rw [Reply.read, String.toList_ofList, trim_around (by decide) (by decide)]
  rw [candidate?_around]
  · simp only [decoded, named]
    rfl
  · exact fun among => opens ((trimLeft_isSuffix before).subset among)
  · exact fun among => closes ((trimRight_isPrefix after).subset among)
  · rw [List.cons_append, isInfix_append_cons (by decide), List.append_assoc,
      List.singleton_append, isInfix_append_cons (by decide)]
    rintro (inside | inside | inside)
    · exact free_before (inside.trans (trimLeft_isSuffix before).isInfix)
    · exact free (inside.trans ⟨['{'], ['}'], by simp⟩)
    · exact free_after (inside.trans (trimRight_isPrefix after).isInfix)

/-- A written call is read as that call, in every layout, from a fenced block behind a text
without a fence. -/
theorem Reply.read_fenced (g : Gaps) {c : Call} (named : allBlank c.tool = false)
    (fits : Fits 126 c.args) (sorted : Sorted c.args) {before gap gap' : List Char}
    (after : List Char) (free : ¬ fenceCloser <:+: writeWith g 0 c.written)
    (unfenced : ¬ fenceOpener <:+: before) (blank : gap.all isBlank = true)
    (blank' : gap'.all isBlank = true) :
    Reply.read (String.ofList (before ++ (fenceOpener ++
      (gap ++ (writeWith g 0 c.written ++ gap') ++ (fenceCloser ++ after))))) = .ok (.call c) := by
  have decoded := Call.decoder_written g fits sorted
  obtain ⟨inner, text⟩ := Call.braces_written g c
  rw [text] at free decoded ⊢
  -- the marks at both ends of the block stop the trimming of the reply
  have ends : fenceOpener ++ (gap ++ ('{' :: (inner ++ ['}']) ++ gap') ++ (fenceCloser ++ after)) =
      '`' :: (("``json".toList ++ (gap ++ ('{' :: (inner ++ ['}']) ++ gap') ++ ['`', '`'])) ++
        ['`']) ++ after := by
    simp [fenceOpener, fenceCloser]
  have trimmed : trim (before ++ (fenceOpener ++
      (gap ++ ('{' :: (inner ++ ['}']) ++ gap') ++ (fenceCloser ++ after)))) =
        trimLeft before ++ (fenceOpener ++
          (gap ++ ('{' :: (inner ++ ['}']) ++ gap') ++ (fenceCloser ++ trimRight after))) := by
    rw [ends, trim_around (by decide) (by decide)]
    simp [fenceOpener, fenceCloser]
  rw [Reply.read, String.toList_ofList, trimmed, candidate?_fenced _ _ blank blank' free]
  · simp only [decoded, named]
    rfl
  · exact fun inside => unfenced (inside.trans (trimLeft_isSuffix before).isInfix)

/-- A written call is read as that call, in every layout, unless one of its strings holds the
mark that opens a fenced block. -/
theorem Reply.read_writeWith (g : Gaps) {c : Call} (named : allBlank c.tool = false)
    (fits : Fits 126 c.args) (sorted : Sorted c.args)
    (free : ¬ Holds fenceOpener c.written.strings) :
    Reply.read (String.ofList (writeWith g 0 c.written)) = .ok (.call c) := by
  rw [← Call.fence_written g fits] at free
  have nothing : ¬ fenceOpener <:+: [] := by decide
  have read := Reply.read_around g named fits sorted free List.not_mem_nil nothing
    List.not_mem_nil nothing
  rwa [List.nil_append, List.append_nil] at read

/-- **A call survives being written**, whatever its strings say, as long as none of them holds
the mark that opens a fenced block. -/
theorem Reply.read_compact {c : Call} (named : allBlank c.tool = false) (fits : Fits 126 c.args)
    (sorted : Sorted c.args) (free : ∀ s ∈ c.written.strings, ¬ fenceOpener <:+: s.toList) :
    Reply.read c.written.compact = .ok (.call c) := by
  have unfenced : ¬ Holds fenceOpener c.written.strings := fun ⟨s, among, holds⟩ =>
    free s among holds
  have read := Reply.read_writeWith .none named fits sorted unfenced
  rwa [writeWith_none] at read

/-- A call whose arguments quote braces, fences and another call. -/
def quoting : Call :=
  ⟨"query_data", .object [
    ("limit", .number (.int 18446744073709551615)),
    ("sql", .string "SELECT '\x7d', \"\x7b\\\" -- ```\n``json"),
    ("then", .array [.string "\x7b\"tool\": \"create_proposal\"\x7d", .null, .bool true])]⟩

theorem Reply.read_compact_quoting : allBlank quoting.tool = false ∧
    Reply.read quoting.written.compact = .ok (.call quoting) := by
  have fits : Fits 126 quoting.args := by
    refine .object fun e among => ?_
    simp only [List.mem_cons, List.not_mem_nil, or_false] at among
    rcases among with rfl | rfl | rfl
    · exact .int (by decide) (by decide)
    · exact .string _
    · refine .array fun v among => ?_
      simp only [List.mem_cons, List.not_mem_nil, or_false] at among
      rcases among with rfl | rfl | rfl <;> constructor
  have sorted : Sorted quoting.args := by
    refine .object (by unfold Entries.Ascending; decide) fun e among => ?_
    simp only [List.mem_cons, List.not_mem_nil, or_false] at among
    rcases among with rfl | rfl | rfl
    · exact .number _
    · exact .string _
    · refine .array fun v among => ?_
      simp only [List.mem_cons, List.not_mem_nil, or_false] at among
      rcases among with rfl | rfl | rfl <;> constructor
  exact ⟨by decide, Reply.read_compact (by decide) fits sorted (by decide)⟩

/-- A call with the mark of a fenced block in a string. -/
def fencing : Call := ⟨"t", .object [("x", .string "```json")]⟩

/-- The mark is taken for the start of a block, and what follows it is no call. -/
theorem Reply.read_compact_fencing : allBlank fencing.tool = false ∧ Fits 126 fencing.args ∧
    Sorted fencing.args ∧ Reply.read fencing.written.compact =
      .error "EOF while parsing a string at line 1 column 3: \"\x7d\x7d" := by
  have only {P : Json → Prop} (holds : P (.string "```json")) :
      ∀ e ∈ [("x", Json.string "```json")], P e.2 := by
    intro e among
    rwa [List.mem_singleton.mp among]
  exact ⟨by decide, .object (only (.string _)),
    .object (List.pairwise_singleton _ _) (only (.string _)), rfl⟩

/-! ## Calls among other words -/

/-- Where the text of a call is read as that call. -/
structure Call.Found (c : Call) : Prop where
  /-- Between words without a fence, none of which has a brace on the side of the call, if there
  is no fence in the call itself. -/
  bare : ¬ fenceOpener <:+: c.written.compact.toList → ∀ before after : String,
    '{' ∉ before.toList → ¬ fenceOpener <:+: before.toList →
    '}' ∉ after.toList → ¬ fenceOpener <:+: after.toList →
    Reply.read (before ++ c.written.compact ++ after) = .ok (.call c)
  /-- In the first fenced block, with white space around it and whatever words behind it, if
  the call does not hold the end of a block. -/
  fenced : ¬ fenceCloser <:+: c.written.compact.toList → ∀ before gap gap' after : String,
    ¬ fenceOpener <:+: before.toList → allBlank gap = true → allBlank gap' = true →
    Reply.read (before ++ "```json" ++ gap ++ c.written.compact ++ gap' ++ "```" ++ after) =
      .ok (.call c)

/-- **Calls are found among other words, and words alone are never refused.** What is refused
begins with a brace or has a fence, and an answer is the reply without the white space around
it. -/
theorem Reply.read_laws :
    (∀ c : Call, allBlank c.tool = false → Fits 126 c.args → Sorted c.args → c.Found) ∧
      (∀ output reason, Reply.read output = .error reason →
        (trim output.toList).head? = some '{' ∨ fenceOpener <:+: trim output.toList) ∧
      ∀ output text, Reply.read output = .ok (.answer text) → text = trimmed output := by
  refine ⟨fun c named fits sorted => ⟨?_, ?_⟩, ?_, fun _ _ => Reply.eq_of_read_answer⟩
  · intro free before after opens unfenced closes unfenced'
    rw [c.compact_written, String.toList_ofList] at free
    rw [c.compact_written,
      ← Reply.read_around .none named fits sorted free opens unfenced closes unfenced']
    congr 1
    simp [← String.toList_inj]
  · intro free before gap gap' after unfenced blank blank'
    rw [c.compact_written, String.toList_ofList] at free
    rw [c.compact_written,
      ← Reply.read_fenced .none named fits sorted after.toList free unfenced blank blank']
    congr 1
    simp [← String.toList_inj, fenceOpener, fenceCloser]
  · intro output reason refused
    have meant := Reply.meansCall_of_read_error refused
    rw [meansCall, Bool.or_eq_true] at meant
    rcases meant with fenced | braced
    · right
      by_contra free
      simp [fenced?, cutAtFirst_eq_none_iff.mpr free] at fenced
    · left
      obtain ⟨rest, same⟩ := startsWith_iff.mp braced
      simp [← same]

/-- A call with braces in a string. -/
def bracing : Call := ⟨"upper", .object [("text", .string "\x7da\x7b")]⟩

/-- The call is found behind a closing brace and before an opening one, and in a block that
begins behind other marks and before another block. -/
theorem Reply.read_laws_bracing : allBlank bracing.tool = false ∧ Fits 126 bracing.args ∧
    Sorted bracing.args ∧
    Reply.read ("(x\x7d) " ++ bracing.written.compact ++ " \x7b") = .ok (.call bracing) ∧
    Reply.read ("``js \x7b ``" ++ "```json" ++ "\n" ++ bracing.written.compact ++ " " ++ "```" ++
      " ```json\n\x7b") = .ok (.call bracing) := by
  have only {P : Json → Prop} (holds : P (.string "\x7da\x7b")) :
      ∀ e ∈ [("text", Json.string "\x7da\x7b")], P e.2 := by
    intro e among
    rwa [List.mem_singleton.mp among]
  have fits : Fits 126 bracing.args := .object (only (.string _))
  have sorted : Sorted bracing.args := .object (List.pairwise_singleton _ _) (only (.string _))
  have found := Reply.read_laws.1 bracing (by decide) fits sorted
  exact ⟨by decide, fits, sorted,
    found.bare (by decide) _ _ (by decide) (by decide) (by decide) (by decide),
    found.fenced (by decide) _ _ _ _ (by decide) (by decide) (by decide)⟩

end TriageDesk.Agent
