/-
TriageDesk.Proofs.Tool.Rows — how the rows of a query are shown, and what can be read
back.

`IsCell` and `IsLine` say how a cell and a row are written, without the functions that
write them. `TableLaws` says that what is shown of a table are its size and its first
ten rows, and that there is a last line exactly where there are more.

The size stands between two fixed words and digits end where the second begins. Where
no cell holds a tab or a line break, lines and cells are cut where they were joined
(`splitOn_lines`), so what was shown is read back (`readBack?_write`). An empty row
would be read back as a row with one empty cell, which is why there may be none.
`present_tableLaws` is the theorem.
-/
import Mathlib.Data.List.Forall2
import TriageDesk.Proofs.Text.Digits
import TriageDesk.Proofs.Text.Search
import TriageDesk.Tool.Rows

namespace TriageDesk.Rows

open Json Text

/-! ## Cells and lines -/

/-- How a cell is written: nothing as a word, a string as it is, and any other value as JSON. -/
inductive IsCell : Json → String → Prop
  | nothing : IsCell .null "NULL"
  | text (s : String) : IsCell (.string s) s
  | value {v : Json} (something : v ≠ .null) (textless : ∀ s, v ≠ .string s) : IsCell v v.compact

/-- How a row is written: its cells with tabs between them, and the end of the line. -/
def IsLine (row : List Json) (l : String) : Prop :=
  ∃ cells, List.Forall₂ IsCell row cells ∧ l = joined "\t" cells ++ "\n"

theorem isCell_iff {v : Json} {s : String} : IsCell v s ↔ cell v = s := by
  constructor
  · intro isCell
    cases isCell with
    | nothing => rfl
    | text s => rfl
    | value something textless =>
      cases v with
      | null => exact absurd rfl something
      | string s => exact absurd rfl (textless s)
      | _ => rfl
  · rintro rfl
    cases v with
    | null => exact .nothing
    | string s => exact .text s
    | _ => exact .value (by simp) (by simp)

theorem isCells_iff {row : List Json} {cells : List String} :
    List.Forall₂ IsCell row cells ↔ cells = row.map cell := by
  have relation : IsCell = fun v s => cell v = s := by
    funext v s
    exact propext isCell_iff
  rw [relation, List.forall₂_map_left_iff.symm, List.forall₂_eq_eq_eq]
  exact eq_comm

theorem isLine_line (row : List Json) : IsLine row (line row) :=
  ⟨row.map cell, isCells_iff.mpr rfl, rfl⟩

/-! ## Reading back -/

/-- Reads the size of a table and the cells that are shown of it. -/
def readBack? (output : String) : Option (Nat × List (List String)) := do
  let rest ← after? "Total ".toList output.toList
  let size := Nat.ofDigitChars 10 (rest.takeWhile Char.isDigit) 0
  let table ← after? " rows:\n\n".toList (rest.dropWhile Char.isDigit)
  let lines := (splitOn '\n' table).take (min size 10)
  return (size, lines.map fun l => (splitOn '\t' l).map String.ofList)

/-- Rows that can be told apart when they are written. -/
structure Readable (rows : List (List Json)) : Prop where
  full : ∀ row ∈ rows, row ≠ []
  plain : ∀ row ∈ rows, ∀ v ∈ row, ∀ s, IsCell v s → '\t' ∉ s.toList ∧ '\n' ∉ s.toList

/-- How a table is shown. -/
structure TableLaws (rows : List (List Json)) (output : String) : Prop where
  /-- The size, the first ten rows with a line for each, and then what is left out, if anything. -/
  layout : ∃ lines rest, List.Forall₂ IsLine (rows.take 10) lines ∧
    output = "Total " ++ toString rows.length ++ " rows:\n\n" ++ String.join lines ++ rest ∧
    (rows.length ≤ 10 → rest = "") ∧
    (10 < rows.length → rest = "\n... " ++ toString (rows.length - 10) ++ " more rows")
  /-- It ends with a number of more rows exactly where there are that many more. -/
  ending : ∀ k : Nat, (∃ front, output = front ++ "... " ++ toString k ++ " more rows") ↔
    10 < rows.length ∧ k = rows.length - 10
  /-- The size and the cells that are shown can be read back. -/
  readable : Readable (rows.take 10) → ∃ cells,
    List.Forall₂ (List.Forall₂ IsCell) (rows.take 10) cells ∧
      readBack? output = some (rows.length, cells)
  /-- Nothing else is shown. -/
  same : ∀ body' rows', decoder.ofText body' = .ok rows' → rows'.length = rows.length →
    rows'.take 10 = rows.take 10 → present body' = output

/-! ## What is written -/

section

variable {rows : List (List Json)}

/-- What is said of the rows that are left out. -/
def more (rows : List (List Json)) : String :=
  if 10 < rows.length then "\n... " ++ toString (rows.length - 10) ++ " more rows" else ""

theorem write_eq (some : rows ≠ []) : write rows =
    "Total " ++ toString rows.length ++ " rows:\n\n" ++ String.join ((rows.take 10).map line) ++
      more rows := by
  rw [write, if_neg (by simpa using some)]
  rfl

theorem toList_line (row : List Json) :
    (line row).toList = join ['\t'] (row.map fun v => (cell v).toList) ++ ['\n'] := by
  simp [line, joined, Function.comp_def]

theorem toList_toString (n : Nat) : (toString n).toList = Nat.toDigits 10 n := by
  show (Nat.repr n).toList = _
  simp [Nat.repr]

theorem toList_write (some : rows ≠ []) : (write rows).toList =
    "Total ".toList ++ (Nat.toDigits 10 rows.length ++ (" rows:\n\n".toList ++
      ((rows.take 10).flatMap (fun row => (line row).toList) ++ (more rows).toList))) := by
  rw [write_eq some]
  simp only [String.toList_append, toList_toString, String.toList_join, List.flatMap_map,
    List.append_assoc]

/-! ## Reading what is written -/

theorem Readable.lacks_break {shown : List (List Json)} (readable : Readable shown)
    {row : List Json} (among : row ∈ shown) :
    '\n' ∉ join ['\t'] (row.map fun v => (cell v).toList) := by
  refine notMem_join (by decide) fun piece inside => ?_
  obtain ⟨v, there, rfl⟩ := List.mem_map.mp inside
  exact (readable.plain row among v there _ (isCell_iff.mpr rfl)).2

/-- The lines are cut where they end. -/
theorem splitOn_lines {shown : List (List Json)} (readable : Readable shown) (rest : List Char) :
    splitOn '\n' (shown.flatMap (fun row => (line row).toList) ++ rest) =
      shown.map (fun row => join ['\t'] (row.map fun v => (cell v).toList)) ++
        splitOn '\n' rest := by
  induction shown with
  | nil => rfl
  | cons row shown ih =>
    have others : Readable shown :=
      ⟨fun r among => readable.full r (List.mem_cons_of_mem _ among),
        fun r among => readable.plain r (List.mem_cons_of_mem _ among)⟩
    rw [List.flatMap_cons, toList_line, List.append_assoc, List.append_assoc, List.singleton_append,
      splitOn_piece (readable.lacks_break List.mem_cons_self), ih others]
    rfl

/-- The cells of a line are cut where they were joined. -/
theorem splitOn_cells {shown : List (List Json)} (readable : Readable shown) {row : List Json}
    (among : row ∈ shown) :
    (splitOn '\t' (join ['\t'] (row.map fun v => (cell v).toList))).map String.ofList =
      row.map cell := by
  have some : row.map (fun v => (cell v).toList) ≠ [] := by
    simpa using readable.full row among
  rw [splitOn_join some, List.map_map]
  · exact List.map_congr_left fun v _ => String.ofList_toList
  · intro piece inside
    obtain ⟨v, there, rfl⟩ := List.mem_map.mp inside
    exact (readable.plain row among v there _ (isCell_iff.mpr rfl)).1

/-- **What was shown of a table is read back.** -/
theorem readBack?_write (some : rows ≠ []) (readable : Readable (rows.take 10)) :
    readBack? (write rows) = .some (rows.length, (rows.take 10).map (·.map cell)) := by
  have digits : ∀ d ∈ Nat.toDigits 10 rows.length, d.isDigit = true :=
    fun d among => Nat.isDigit_of_mem_toDigits (by decide) (by decide) among
  have size (tail : List Char) : ((Nat.toDigits 10 rows.length ++
      (" rows:\n\n".toList ++ tail)).takeWhile Char.isDigit) = Nat.toDigits 10 rows.length := by
    rw [List.takeWhile_append_of_pos digits]
    exact List.append_nil _
  have table (tail : List Char) : ((Nat.toDigits 10 rows.length ++
      (" rows:\n\n".toList ++ tail)).dropWhile Char.isDigit) = " rows:\n\n".toList ++ tail := by
    rw [List.dropWhile_append_of_pos digits]
    rfl
  have lines (rest : List Char) : ((splitOn '\n' ((rows.take 10).flatMap
      (fun row => (line row).toList) ++ rest)).take (min rows.length 10)).map
        (fun l => (splitOn '\t' l).map String.ofList) = (rows.take 10).map (·.map cell) := by
    have count : min rows.length 10 = ((rows.take 10).map fun row =>
        join ['\t'] (row.map fun v => (cell v).toList)).length := by
      rw [List.length_map, List.length_take, Nat.min_comm]
    rw [splitOn_lines readable, count, List.take_left, List.map_map]
    exact List.map_congr_left fun row among => splitOn_cells readable among
  rw [readBack?, toList_write some, after?_eq_some_iff.mpr rfl]
  simp only [Option.bind_eq_bind, Option.bind_some, size, table, after?_eq_some_iff.mpr rfl,
    Nat.ofDigitChars_toDigits (show 1 < 10 by decide) (by decide), lines]
  rfl

/-! ## The last line -/

theorem more_small (small : rows.length ≤ 10) : more rows = "" := if_neg (Nat.not_lt.mpr small)

theorem more_large (large : 10 < rows.length) :
    more rows = "\n... " ++ toString (rows.length - 10) ++ " more rows" := if_pos large

/-- A number at the end of a text is read in one way only. -/
theorem number_inj {front front' : List Char} {n k : Nat}
    (same : front ++ ' ' :: Nat.toDigits 10 n = front' ++ ' ' :: Nat.toDigits 10 k) : n = k := by
  have blankless (m : Nat) : ' ' ∉ (Nat.toDigits 10 m).reverse := by
    intro among
    have digit := Nat.isDigit_of_mem_toDigits (by decide) (by decide) (List.mem_reverse.mp among)
    exact absurd digit (by decide)
  have reversed := congrArg List.reverse same
  simp only [List.reverse_append, List.reverse_cons, List.append_assoc, List.singleton_append]
    at reversed
  have digits := List.reverse_injective (append_cons_inj (blankless n) (blankless k) reversed).1
  have values := congrArg (Nat.ofDigitChars 10 · 0) digits
  simpa only [Nat.ofDigitChars_toDigits (show 1 < 10 by decide) (show 10 ≤ 10 by decide)]
    using values

/-- A table that is shown whole ends with the end of a line. -/
theorem getLast?_write (some : rows ≠ []) (small : rows.length ≤ 10) :
    (write rows).toList.getLast? = .some '\n' := by
  obtain ⟨init, last, cut⟩ : ∃ init last, rows.take 10 = init ++ [last] := by
    rcases List.eq_nil_or_concat (rows.take 10) with none | ⟨init, last, cut⟩
    · simp_all
    · exact ⟨init, last, by rw [cut, List.concat_eq_append]⟩
  rw [toList_write some, more_small small, cut, List.flatMap_append, List.flatMap_singleton,
    toList_line]
  simp only [String.toList_empty, List.append_nil, ← List.append_assoc, List.getLast?_concat]

theorem write_ends_iff (some : rows ≠ []) (k : Nat) :
    (∃ front, write rows = front ++ "... " ++ toString k ++ " more rows") ↔
      10 < rows.length ∧ k = rows.length - 10 := by
  constructor
  · rintro ⟨front, same⟩
    have large : 10 < rows.length := by
      refine Nat.not_le.mp fun small => ?_
      have ends := getLast?_write some small
      have last : " more rows".toList.getLast? = .some 's' := rfl
      rw [same, String.toList_append, List.getLast?_append, last, Option.some_or] at ends
      exact absurd ends (by decide)
    refine ⟨large, ?_⟩
    rw [write_eq some, more_large large] at same
    have texts := congrArg String.toList same
    simp only [String.toList_append, toList_toString, ← List.append_assoc] at texts
    have numbers := List.append_cancel_right texts
    have dots : "... ".toList = "...".toList ++ [' '] := rfl
    have dots' : "\n... ".toList = "\n...".toList ++ [' '] := rfl
    rw [dots, dots', ← List.append_assoc, ← List.append_assoc, List.append_assoc _ [' '],
      List.append_assoc _ [' ']] at numbers
    exact (number_inj numbers).symm
  · rintro ⟨large, rfl⟩
    refine ⟨"Total " ++ toString rows.length ++ " rows:\n\n" ++
      String.join ((rows.take 10).map line) ++ "\n", ?_⟩
    have dots : "\n... " = "\n" ++ "... " := rfl
    rw [write_eq some, more_large large, dots]
    simp only [String.append_assoc]

/-! ## Tables -/

/-- Tables of one size that begin with the same ten rows are shown alike. -/
theorem write_congr {rows' : List (List Json)} (size : rows'.length = rows.length)
    (shown : rows'.take 10 = rows.take 10) : write rows' = write rows := by
  cases rows with
  | nil => rw [List.length_eq_zero_iff.mp size]
  | cons row rest =>
    have some : rows' ≠ [] := by
      rintro rfl
      cases size
    rw [write_eq some, write_eq (List.cons_ne_nil _ _), more, more, size, shown]

/-- **How a table is shown.** -/
theorem present_tableLaws {body : String} (decoded : decoder.ofText body = .ok rows)
    (some : rows ≠ []) : TableLaws rows (present body) := by
  have shown : present body = write rows := by rw [present, decoded]
  rw [shown]
  exact {
    layout := by
      refine ⟨(rows.take 10).map line, more rows, ?_, write_eq some, more_small, more_large⟩
      exact List.forall₂_map_right_iff.mpr (List.forall₂_same.mpr fun row _ => isLine_line row)
    ending := write_ends_iff some
    readable := by
      intro readable
      refine ⟨_, ?_, readBack?_write some readable⟩
      refine List.forall₂_map_right_iff.mpr (List.forall₂_same.mpr fun row _ => ?_)
      exact isCells_iff.mpr rfl
    same := by
      intro body' rows' decoded' size same
      rw [present, decoded']
      exact write_congr size same }

end

/-- A body with a table of eleven rows, the last of which could not be read back. -/
def elevenBody : String :=
  "\x7b\"meta\": [], \"data\": [[1, null, \"a b\"], [\"\", true], [[1, \"2\"]], " ++
    "[4], [5], [6], [7], [8], [9], [\x7b\x7d], [\"\\t\"]]\x7d"

/-- The rows of the body. -/
def elevenRows : List (List Json) :=
  [[.number (.int 1), .null, .string "a b"], [.string "", .bool true],
    [.array [.number (.int 1), .string "2"]], [.number (.int 4)], [.number (.int 5)],
    [.number (.int 6)], [.number (.int 7)], [.number (.int 8)], [.number (.int 9)], [.object []],
    [.string "\t"]]

set_option maxRecDepth 4000 in
theorem decoded_eleven : decoder.ofText elevenBody = .ok elevenRows := by rfl

theorem present_tableLaws_eleven : decoder.ofText elevenBody = .ok elevenRows ∧
    elevenRows ≠ [] ∧ TableLaws elevenRows (present elevenBody) :=
  ⟨decoded_eleven, by decide, present_tableLaws decoded_eleven (by decide)⟩

end TriageDesk.Rows
