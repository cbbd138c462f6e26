/-
TriageDesk.Proofs.Template.Filling — what filling makes of a placeholder.

Parameters are filled in one after the other, longer names first
(`fillOrder_sorted`), so a placeholder that stands alone is left until its own
name comes and becomes the value of that name (`fillText_hole`). A text without
the marks of a placeholder stays as it is (`fillText_plain`).
-/
import Mathlib.Data.List.Basic
import TriageDesk.Proofs.Text.Search
import TriageDesk.Template

namespace TriageDesk.Template

open Text

/-! ## The order of filling -/

theorem fillsBefore_iff {a b : String × String} : fillsBefore a b = true ↔
    b.1.utf8ByteSize < a.1.utf8ByteSize ∨ a.1.utf8ByteSize = b.1.utf8ByteSize ∧ a.1 ≤ b.1 := by
  unfold fillsBefore
  split_ifs with same
  · simp [same]
  · simp [same]

theorem fillsBefore_trans (a b c : String × String) (first : fillsBefore a b = true)
    (second : fillsBefore b c = true) : fillsBefore a c = true := by
  rw [fillsBefore_iff] at first second ⊢
  rcases first with longer | ⟨same, first⟩ <;> rcases second with longer' | ⟨same', second⟩
  · exact .inl (Nat.lt_trans longer' longer)
  · exact .inl (same' ▸ longer)
  · exact .inl (same ▸ longer')
  · exact .inr ⟨same.trans same', String.le_trans first second⟩

theorem fillsBefore_total (a b : String × String) : (fillsBefore a b || fillsBefore b a) = true := by
  rw [Bool.or_eq_true, fillsBefore_iff, fillsBefore_iff]
  rcases Nat.lt_trichotomy a.1.utf8ByteSize b.1.utf8ByteSize with longer | same | longer
  · exact .inr (.inl longer)
  · exact (String.le_total a.1 b.1).imp (fun le => .inr ⟨same, le⟩) fun le => .inr ⟨same.symm, le⟩
  · exact .inl (.inl longer)

/-- Parameters are filled in longer names first. -/
theorem fillOrder_sorted (params : Parameters) :
    (fillOrder params).Pairwise fun a b => fillsBefore a b = true :=
  List.pairwise_mergeSort fillsBefore_trans fillsBefore_total _

/-- No name is filled in twice. -/
theorem fillOrder_distinct (params : Parameters) :
    (fillOrder params).Pairwise fun a b => a.1 ≠ b.1 := by
  have distinct : params.entries.Pairwise fun a b => a.1 ≠ b.1 :=
    params.ascending.imp fun before same => absurd (same ▸ before) (String.lt_irrefl _)
  exact (List.mergeSort_perm _ _).symm.pairwise distinct fun other => other.symm

theorem mem_fillOrder {params : Parameters} {e : String × String} :
    e ∈ fillOrder params ↔ e ∈ params.entries := List.mem_mergeSort

/-- Parameters that stand in the order of filling are filled in as they stand. -/
theorem fillOrder_eq_entries {params : Parameters}
    (sorted : params.entries.Pairwise fun a b => fillsBefore a b = true) :
    fillOrder params = params.entries := List.mergeSort_of_pairwise sorted

/-! ## Filling one parameter -/

variable {text : List Char} {name value : String}

theorem spellings_eq (name : String) : spellings name =
    ['{' :: '{' :: '.' :: (name.toList ++ ['}', '}']), '{' :: '{' :: (name.toList ++ ['}', '}']),
      '$' :: name.toList] := by
  simp [spellings]

/-- A text in which a name is spelled in none of the three ways stays as it is. -/
theorem fillOne_eq_self (noBraces : ¬ ['{', '{'] <:+: text)
    (noDollar : ¬ ('$' :: name.toList) <:+: text) : fillOne text (name, value) = text := by
  have braced (rest : List Char) : replaceAll ('{' :: '{' :: rest) value.toList text = text :=
    replaceAll_eq_self _ fun inside =>
      noBraces ((List.prefix_append ['{', '{'] rest).isInfix.trans inside)
  have dollar : replaceAll ('$' :: name.toList) value.toList text = text :=
    replaceAll_eq_self _ noDollar
  simp only [fillOne, spellings_eq, List.foldl_cons, List.foldl_nil, braced, dollar]

/-- A placeholder becomes the value of its name. -/
theorem fillOne_hole (noBrace : '{' ∉ name.toList) :
    fillOne ('$' :: name.toList) (name, value) = value.toList := by
  have braced (rest : List Char) : replaceAll ('{' :: '{' :: rest) value.toList ('$' :: name.toList) =
      '$' :: name.toList := by
    refine replaceAll_eq_self _ fun inside => ?_
    have among := inside.subset List.mem_cons_self
    exact (List.mem_cons.mp among).elim (by decide) noBrace
  simp only [fillOne, spellings_eq, List.foldl_cons, List.foldl_nil, braced]
  exact replaceAll_self _

/-! ## Filling all parameters -/

/-- The characters of a template filled with parameters. -/
def fillText (params : Parameters) (text : List Char) : List Char :=
  (fillOrder params).foldl fillOne text

theorem fill_eq (template : String) (params : Parameters) :
    fill template params = String.ofList (fillText params template.toList) := rfl

theorem foldl_fillOne_eq_self {entries : List (String × String)}
    (untouched : ∀ e ∈ entries, fillOne text e = text) : entries.foldl fillOne text = text := by
  induction entries with
  | nil => rfl
  | cons e rest ih =>
    rw [List.foldl_cons, untouched e List.mem_cons_self]
    exact ih fun f h => untouched f (List.mem_cons_of_mem _ h)

/-- A text without dollars and braces has nothing to be filled in. -/
theorem fillOne_plain (noDollar : '$' ∉ text) (noBrace : '{' ∉ text) (e : String × String) :
    fillOne text e = text :=
  fillOne_eq_self (fun inside => noBrace (inside.subset List.mem_cons_self))
    fun inside => noDollar (inside.subset List.mem_cons_self)

/-- A text without dollars and braces stays as it is. -/
theorem fillText_plain (params : Parameters) (noDollar : '$' ∉ text) (noBrace : '{' ∉ text) :
    fillText params text = text :=
  foldl_fillOne_eq_self fun e _ => fillOne_plain noDollar noBrace e

/-- A character that begins no placeholder is copied. -/
theorem fillOne_cons {c : Char} (noDollar : c ≠ '$') (noBrace : c ≠ '{') (e : String × String) :
    fillOne (c :: text) e = c :: fillOne text e := by
  have copied {d : Char} (other : c ≠ d) (word value text : List Char) :
      replaceAll (d :: word) value (c :: text) = c :: replaceAll (d :: word) value text :=
    replaceAll_cons value fun front => other (List.cons_prefix_cons.mp front).1.symm
  simp only [fillOne, spellings_eq, List.foldl_cons, List.foldl_nil, copied noDollar,
    copied noBrace]

/-- A character in front that begins no placeholder stays in front, whatever the names and the
values are. -/
theorem fillText_cons (params : Parameters) {c : Char} (noDollar : c ≠ '$') (noBrace : c ≠ '{')
    (text : List Char) : fillText params (c :: text) = c :: fillText params text := by
  unfold fillText
  induction fillOrder params generalizing text with
  | nil => rfl
  | cons e rest ih => rw [List.foldl_cons, List.foldl_cons, fillOne_cons noDollar noBrace, ih]

/-- A name that is as long as another one and not the same does not begin it. -/
theorem not_prefix_of_size {a b : String} (size : b.utf8ByteSize ≤ a.utf8ByteSize) (other : a ≠ b) :
    ¬ a.toList <+: b.toList := by
  rintro ⟨rest, whole⟩
  have parts : b = a ++ String.ofList rest := by
    rw [← String.toList_inj, String.toList_append, String.toList_ofList, whole]
  have none : (String.ofList rest).utf8ByteSize = 0 := by
    have := congrArg String.utf8ByteSize parts
    rw [String.utf8ByteSize_append] at this
    omega
  rw [String.utf8ByteSize_eq_zero_iff] at none
  rw [none, String.append_empty] at parts
  exact other parts.symm

/-- **A placeholder is filled with its value**, whatever other parameters there are. -/
theorem fillText_hole {params : Parameters} (given : params.get? name = some value)
    (noDollar : '$' ∉ name.toList) (noBrace : '{' ∉ name.toList) (plain : '$' ∉ value.toList)
    (unbraced : '{' ∉ value.toList) : fillText params ('$' :: name.toList) = value.toList := by
  have among : (name, value) ∈ fillOrder params :=
    mem_fillOrder.mpr ((params.mem_entries_iff name value).mpr given)
  obtain ⟨before, after, order⟩ := List.append_of_mem among
  have sorted := fillOrder_sorted params
  have distinct := fillOrder_distinct params
  rw [order, List.pairwise_append] at sorted distinct
  -- what comes before is as long as the name, so it is not found at the placeholder
  have untouched : ∀ e ∈ before, fillOne ('$' :: name.toList) e = '$' :: name.toList := by
    intro e among
    have size : name.utf8ByteSize ≤ e.1.utf8ByteSize := by
      rcases fillsBefore_iff.mp (sorted.2.2 e among _ List.mem_cons_self) with longer | ⟨same, _⟩
      · exact Nat.le_of_lt longer
      · exact Nat.le_of_eq same.symm
    have other : e.1 ≠ name := distinct.2.2 e among _ List.mem_cons_self
    refine fillOne_eq_self (fun inside => ?_) fun inside => ?_
    · exact (List.mem_cons.mp (inside.subset List.mem_cons_self)).elim (by decide) noBrace
    · rw [List.infix_cons_iff, List.cons_prefix_cons] at inside
      rcases inside with ⟨_, front⟩ | inside
      · exact not_prefix_of_size size other front
      · exact noDollar (inside.subset List.mem_cons_self)
  rw [fillText, order, List.foldl_append, foldl_fillOne_eq_self untouched, List.foldl_cons,
    fillOne_hole noBrace]
  exact foldl_fillOne_eq_self fun e _ => fillOne_plain plain unbraced e

end TriageDesk.Template
