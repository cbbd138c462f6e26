/-
TriageDesk.Proofs.Config.Overlay — what settings that are laid over one another say.

A layer says what it says in `Word`s: a way to a setting, in small letters, and the
single value that it has there, or that it is an empty table. `hear` is what is known
of a way once a word has been heard: the value, if the word is about this way; that
there is a table, if it is about a way further on; nothing any more, if a single value
was put somewhere on the way.

Laying a layer over settings is hearing its words one after the other
(`nodeAt_withLayer`), whatever was there. If no setting is a single value in one
layer and a table in another one, what was heard before does not change what is heard
later (`hearAll_or`): of several layers the highest one that says anything decides
(`nodeAt_layers`). Merged settings of which the same is known are equal (`Merged.ext`).
-/
import Mathlib.Data.List.Basic
import TriageDesk.Config.Setting
import TriageDesk.Proofs.Table
import TriageDesk.Proofs.Text.Search

namespace TriageDesk.Config

open Text

/-! ## Ways and what is at them -/

/-- What a setting is: a single value, or a table of further settings. -/
inductive Node
  | single (v : Setting)
  | table

/-- A way to a setting, and the single value or empty table that is put there. -/
structure Word where
  way : List String
  value : Setting

/-- A word, seen from further out. -/
def Word.under (steps : List String) (w : Word) : Word := ⟨steps ++ w.way, w.value⟩

namespace Setting

/-- Whether a setting is a table. -/
def isTable : Setting → Bool
  | .table .. => true
  | .scalar .. | .list .. => false

/-- What a setting is. -/
def node : Setting → Node
  | .table .. => .table
  | v => .single v

theorem node_of_single {s : Setting} (single : s.isTable = false) : s.node = .single s := by
  cases s <;> first | rfl | cases single

/-- The setting at the end of a way through tables. -/
def at? : List String → Setting → Option Setting
  | [], s => some s
  | k :: steps, .table members _ => (Entries.find? k members).bind (at? steps)
  | _ :: _, _ => none

/-- What there is at the end of a way. -/
def nodeAt (steps : List String) (s : Setting) : Option Node := (s.at? steps).map node

theorem nodeAt_nil (s : Setting) : nodeAt [] s = some s.node := rfl

theorem nodeAt_table (k : String) (steps : List String) (members : Settings)
    (origin : Option String) :
    nodeAt (k :: steps) (.table members origin) =
      (Entries.find? k members).bind (nodeAt steps) := by
  rw [nodeAt, at?, Option.map_bind]
  rfl

theorem nodeAt_single {k : String} {steps : List String} {s : Setting}
    (single : s.isTable = false) : nodeAt (k :: steps) s = none := by
  cases s <;> first | rfl | cases single

/-! ## Words -/

mutual

/-- The words of a setting. -/
def words : Setting → List Word
  | .table members origin =>
    if members.isEmpty then [⟨[], .table [] origin⟩] else memberWords members
  | v => [⟨[], v⟩]

/-- The words of the members of a table. -/
def memberWords : Settings → List Word
  | [] => []
  | (k, v) :: rest => (words v).map (Word.under [lower k]) ++ memberWords rest

end

/-- The words of a layer, whose names are ways themselves. -/
def layerWords (layer : Settings) : List Word :=
  layer.flatMap fun (name, v) => (words v).map (Word.under ((way name).map lower))

/-- What is known of a way once one more word has been heard. -/
def hear (steps : List String) (known : Option Node) (w : Word) : Option Node :=
  if w.way = steps then
    if w.value.isTable then some (known.getD .table) else some (.single w.value)
  else if steps <+: w.way then some .table
  else if w.way <+: steps ∧ w.value.isTable = false then none
  else known

/-- What is known of a way once some words have been heard. -/
def hearAll (steps : List String) (known : Option Node) (ws : List Word) : Option Node :=
  ws.foldl (hear steps) known

/-! ## Hearing -/

section

variable {k : String} {steps : List String} {known : Option Node} {w : Word} {ws : List Word}

theorem hearAll_append (vs ws : List Word) :
    hearAll steps known (vs ++ ws) = hearAll steps (hearAll steps known vs) ws :=
  List.foldl_append

theorem hear_under (k : String) (w : Word) :
    hear (k :: steps) known (w.under [k]) = hear steps known w := by
  simp only [hear, Word.under, List.singleton_append, List.cons.injEq, true_and,
    List.cons_prefix_cons]
  rfl

/-- A word about another name is not heard. -/
theorem hear_under_other {j : String} (other : k ≠ j) (w : Word) :
    hear (k :: steps) known (w.under [j]) = known := by
  simp only [hear, Word.under, List.singleton_append, List.cons.injEq, List.cons_prefix_cons,
    other, Ne.symm other, false_and, if_false]

theorem hearAll_under (k : String) (ws : List Word) :
    hearAll (k :: steps) known (ws.map (Word.under [k])) = hearAll steps known ws := by
  rw [hearAll, List.foldl_map]
  simp only [hear_under]
  rfl

theorem hearAll_under_other {j : String} (other : k ≠ j) (ws : List Word) :
    hearAll (k :: steps) known (ws.map (Word.under [j])) = known := by
  induction ws with
  | nil => rfl
  | cons w rest ih =>
    rw [List.map_cons, hearAll, List.foldl_cons, hear_under_other other]
    exact ih

theorem hear_further (further : w.way ≠ []) : hear [] known w = some .table := by
  rw [hear, if_neg further, if_pos List.nil_prefix]

/-- Of the beginning of all ways words further on tell that there is a table. -/
theorem hearAll_further (any : ws ≠ []) (further : ∀ w ∈ ws, w.way ≠ []) :
    hearAll [] known ws = some .table := by
  rcases List.eq_nil_or_concat ws with none | ⟨front, w, rfl⟩
  · exact absurd none any
  · rw [List.concat_eq_append] at further ⊢
    rw [hearAll_append]
    exact hear_further (further w (by simp))

end

/-! ## Laying over is hearing -/

theorem words_ne_nil : ∀ s, words s ≠ []
  | .scalar .. | .list .. => by simp [words]
  | .table [] _ => by simp [words]
  | .table ((_, v) :: _) _ => by
    have inside := words_ne_nil v
    simp [words, memberWords, inside]

theorem memberWords_ne_nil {members : Settings} (any : members.isEmpty = false) :
    memberWords members ≠ [] := by
  cases members with
  | nil => cases any
  | cons e rest =>
    obtain ⟨k, v⟩ := e
    simp [memberWords, words_ne_nil]

theorem way_of_mem_memberWords {members : Settings} {w : Word} (among : w ∈ memberWords members) :
    w.way ≠ [] := by
  induction members with
  | nil => cases among
  | cons e rest ih =>
    obtain ⟨k, v⟩ := e
    rw [memberWords, List.mem_append, List.mem_map] at among
    rcases among with ⟨w, -, rfl⟩ | among
    · exact List.cons_ne_nil _ _
    · exact ih among

theorem hear_single {steps : List String} {known : Option Node} {v : Setting}
    (single : v.isTable = false) : hear steps known ⟨[], v⟩ = nodeAt steps v := by
  cases steps with
  | nil =>
    rw [hear, if_pos rfl, single, if_neg Bool.false_ne_true, nodeAt_nil, node_of_single single]
  | cons k steps =>
    rw [nodeAt_single single, hear, if_neg (List.cons_ne_nil _ _).symm,
      if_neg (by simp), if_pos ⟨List.nil_prefix, single⟩]

/-- The members that are there already where a table is laid over something. -/
def ground : Option Setting → Settings
  | some (.table members _) => members
  | _ => []

theorem nodeAt_ground (k : String) (steps : List String) (old : Option Setting) :
    (Entries.find? k (ground old)).bind (nodeAt steps) = old.bind (nodeAt (k :: steps)) := by
  cases old with
  | none => rfl
  | some s =>
    cases s with
    | table members origin => exact (nodeAt_table k steps members origin).symm
    | scalar | list => exact (nodeAt_single rfl).symm

theorem overlay_table (old : Option Setting) {members : Settings} {origin : Option String}
    (any : members.isEmpty = false) :
    overlay old (.table members origin) = .table (overlayAll (ground old) members) none := by
  cases old with
  | none => rfl
  | some s =>
    cases s with
    | table => rfl
    | scalar | list => simp only [overlay, any, Bool.false_eq_true, if_false, ground]

/-- An empty table only matters where nothing is. -/
theorem overlay_empty (old : Option Setting) (origin : Option String) (steps : List String) :
    nodeAt steps (overlay old (.table [] origin)) =
      hear steps (old.bind (nodeAt steps)) ⟨[], .table [] origin⟩ := by
  cases steps with
  | nil =>
    rw [hear, if_pos rfl]
    cases old with
    | none => rfl
    | some s => cases s <;> rfl
  | cons k steps =>
    have unheard (known : Option Node) :
        hear (k :: steps) known ⟨[], .table [] origin⟩ = known := by
      rw [hear, if_neg (List.cons_ne_nil _ _).symm, if_neg (by simp), if_neg (by simp [isTable])]
    rw [unheard]
    cases old with
    | none => rfl
    | some s =>
      cases s with
      | table => rw [overlay, overlayAll, Option.bind_some, nodeAt_table, nodeAt_table]
      | scalar | list => rfl

mutual

/-- **Laying a setting over another one is hearing its words.** -/
theorem nodeAt_overlay (steps : List String) (old : Option Setting) : ∀ s : Setting,
    nodeAt steps (overlay old s) = hearAll steps (old.bind (nodeAt steps)) (words s)
  | .scalar v origin => (hear_single rfl).symm
  | .list items origin => (hear_single rfl).symm
  | .table members origin => by
    cases any : members.isEmpty with
    | true =>
      rw [List.isEmpty_iff] at any
      rw [any]
      exact overlay_empty old origin steps
    | false =>
      rw [overlay_table old any, words, any, if_neg Bool.false_ne_true]
      cases steps with
      | nil => exact (hearAll_further (memberWords_ne_nil any) fun _ => way_of_mem_memberWords).symm
      | cons k steps => rw [nodeAt_table, nodeAt_overlayAll k steps _ members, nodeAt_ground]

theorem nodeAt_overlayAll (k : String) (steps : List String) (old : Settings) :
    ∀ members : Settings,
      (Entries.find? k (overlayAll old members)).bind (nodeAt steps) =
        hearAll (k :: steps) ((Entries.find? k old).bind (nodeAt steps)) (memberWords members)
  | [] => rfl
  | (j, v) :: rest => by
    rw [overlayAll, nodeAt_overlayAll k steps _ rest, Entries.find?_insert, memberWords,
      hearAll_append]
    by_cases same : k = lower j
    · rw [if_pos same, Option.bind_some, nodeAt_overlay steps _ v, ← same, hearAll_under]
    · rw [if_neg same, hearAll_under_other same]

end

/-! ## Whole layers -/

theorem way_ne_nil (name : String) : way name ≠ [] := by
  rw [way]
  split
  · exact fun none => splitOn_ne_nil '.' name.toList (List.map_eq_nil_iff.mp none)
  · exact List.cons_ne_nil _ _

theorem words_atEnd (v : Setting) : ∀ steps,
    words (atEnd steps v) = (words v).map (Word.under (steps.map lower))
  | [] => (List.map_id _).symm
  | step :: rest => by
    rw [atEnd, words, List.isEmpty_cons, if_neg Bool.false_ne_true, memberWords, memberWords,
      words_atEnd v rest, List.append_nil, List.map_map]
    rfl

/-- The settings with one more entry of a layer over them. -/
theorem nodeAt_entry (steps : List String) (settings : Settings) (name : String) (v : Setting) :
    nodeAt steps (.table (withLayer settings [(name, v)]) none) =
      hearAll steps (nodeAt steps (.table settings none)) (layerWords [(name, v)]) := by
  obtain ⟨step, rest, way_eq⟩ := List.exists_cons_of_ne_nil (way_ne_nil name)
  have laid : withLayer settings [(name, v)] = overlayAll settings [(step, atEnd rest v)] := by
    simp only [withLayer, List.foldl_cons, List.foldl_nil, way_eq, atEnd]
  have told : layerWords [(name, v)] = memberWords [(step, atEnd rest v)] := by
    rw [layerWords, List.flatMap_singleton, memberWords, memberWords, List.append_nil, words_atEnd,
      List.map_map]
    simp only [way_eq]
    rfl
  rw [laid, told]
  cases steps with
  | nil => exact (hearAll_further (memberWords_ne_nil rfl) fun _ => way_of_mem_memberWords).symm
  | cons k steps => rw [nodeAt_table, nodeAt_overlayAll, nodeAt_table]

/-- **Laying a layer over settings is hearing its words.** -/
theorem nodeAt_withLayer (steps : List String) (settings layer : Settings) :
    nodeAt steps (.table (withLayer settings layer) none) =
      hearAll steps (nodeAt steps (.table settings none)) (layerWords layer) := by
  induction layer generalizing settings with
  | nil => rfl
  | cons entry rest ih =>
    have first := nodeAt_entry steps settings entry.1 entry.2
    have split : layerWords (entry :: rest) = layerWords [entry] ++ layerWords rest := by
      rw [layerWords, layerWords, layerWords, ← List.flatMap_append, List.singleton_append]
    rw [split, hearAll_append, ← first]
    exact ih (withLayer settings [entry])

/-- What a layer says of a way: what is there if nothing else is known. -/
def said (layer : Settings) (steps : List String) : Option Node :=
  nodeAt steps (.table (withLayer [] layer) none)

theorem said_eq (layer : Settings) (k : String) (steps : List String) :
    said layer (k :: steps) = hearAll (k :: steps) none (layerWords layer) :=
  nodeAt_withLayer (k :: steps) [] layer

end Setting

/-! ## Layers that fit together -/

/-- One word puts a single value where the other one needs a table. -/
def Word.Clash (w w' : Word) : Prop :=
  w.value.isTable = false ∧ w.way <+: w'.way ∧ (w.way = w'.way → w'.value.isTable = true)

instance (w w' : Word) : Decidable (w.Clash w') :=
  inferInstanceAs (Decidable (_ ∧ _ ∧ (_ → _)))

namespace Setting

/-- No setting is a single value in one of two layers and a table in the other one. -/
def Compatible (a b : Settings) : Prop :=
  ∀ w ∈ layerWords a, ∀ w' ∈ layerWords b, ¬ w.Clash w' ∧ ¬ w'.Clash w

instance (a b : Settings) : Decidable (Compatible a b) :=
  inferInstanceAs (Decidable (∀ _ ∈ _, ∀ _ ∈ _, _))

end Setting

/-- A word because of which there may be something at the end of a way. -/
def Word.Puts (w : Word) (steps : List String) : Node → Prop
  | .single _ => w.way = steps ∧ w.value.isTable = false
  | .table => steps <+: w.way ∧ (w.way = steps → w.value.isTable = true)

namespace Setting

section

variable {steps : List String} {known below : Option Node} {w : Word} {ws : List Word}

/-- What is known after a word was put there by the word, or was known before. -/
theorem puts_of_hear {n : Node} (heard : hear steps known w = some n) :
    w.Puts steps n ∨ known = some n := by
  rw [hear] at heard
  split_ifs at heard with same isTable further single
  · cases known with
    | some m => exact .inr heard
    | none =>
      cases heard
      exact .inl ⟨same ▸ List.prefix_refl _, fun _ => isTable⟩
  · cases heard
    exact .inl ⟨same, Bool.eq_false_iff.mpr isTable⟩
  · cases heard
    exact .inl ⟨further, fun same' => absurd same' same⟩
  · exact .inr heard

theorem exists_puts {n : Node} (heard : hearAll steps known ws = some n) :
    (∃ w ∈ ws, w.Puts steps n) ∨ known = some n := by
  induction ws generalizing known with
  | nil => exact .inr heard
  | cons w rest ih =>
    rcases ih heard with ⟨w', among, puts⟩ | heard
    · exact .inl ⟨w', List.mem_cons_of_mem _ among, puts⟩
    · exact (puts_of_hear heard).imp_left fun puts => ⟨w, List.mem_cons_self, puts⟩

/-- A word that does not clash with those below is heard alike, whatever they say; they only
count where nothing else is known. -/
theorem hear_or
    (fits : ∀ n, below = some n → ∃ w', w'.Puts steps n ∧ ¬ w'.Clash w ∧ ¬ w.Clash w') :
    hear steps (known.or below) w = (hear steps known w).or below := by
  simp only [hear]
  split_ifs with same isTable further single
  · cases known with
    | some n => rfl
    | none =>
      cases below with
      | none => rfl
      | some n =>
        obtain ⟨w', puts, noClash, -⟩ := fits n rfl
        cases n with
        | table => rfl
        | single v =>
          -- a single value below an empty table
          obtain ⟨same', single⟩ := puts
          exact absurd ⟨single, by rw [same, same'], fun _ => isTable⟩ noClash
  · rfl
  · rfl
  · cases below with
    | none => rfl
    | some n =>
      obtain ⟨w', puts, -, noClash⟩ := fits n rfl
      have inside : steps <+: w'.way := by
        cases n with
        | single v => exact puts.1 ▸ List.prefix_refl _
        | table => exact puts.1
      -- a single value above something that needs a table there
      refine absurd ⟨single.2, single.1.trans inside, fun same' => ?_⟩ noClash
      exact absurd (single.1.eq_of_length_le (same' ▸ inside.length_le)) same
  · rfl

theorem hearAll_or (steps : List String) (known below : Option Node) (ws : List Word)
    (fits : ∀ n, below = some n → ∃ w', w'.Puts steps n ∧
      ∀ w ∈ ws, ¬ w'.Clash w ∧ ¬ w.Clash w') :
    hearAll steps (known.or below) ws = (hearAll steps known ws).or below := by
  induction ws generalizing known with
  | nil => rfl
  | cons w rest ih =>
    have first : hear steps (known.or below) w = (hear steps known w).or below :=
      hear_or fun n is => by
        obtain ⟨w', puts, apart⟩ := fits n is
        exact ⟨w', puts, apart w List.mem_cons_self⟩
    rw [hearAll, List.foldl_cons, first]
    refine ih _ fun n is => ?_
    obtain ⟨w', puts, apart⟩ := fits n is
    exact ⟨w', puts, fun w among => apart w (List.mem_cons_of_mem _ among)⟩

end

/-- Layers over one another are heard from the lowest one on. -/
theorem nodeAt_foldl (layers : List Settings) (k : String) (steps : List String) :
    nodeAt (k :: steps) (.table (layers.foldl withLayer []) none) =
      hearAll (k :: steps) none (layers.flatMap layerWords) := by
  induction layers using List.reverseRecOn with
  | nil => rfl
  | append_singleton lower top ih =>
    rw [List.foldl_append, List.foldl_cons, List.foldl_nil, nodeAt_withLayer, ih,
      List.flatMap_append, List.flatMap_singleton, hearAll_append]

/-- **Of layers that fit together the highest one that says anything decides.** -/
theorem nodeAt_layers {layers : List Settings} (fit : layers.Pairwise Compatible) (k : String)
    (steps : List String) :
    nodeAt (k :: steps) (.table (layers.foldl withLayer []) none) =
      layers.reverse.findSome? fun layer => said layer (k :: steps) := by
  induction layers using List.reverseRecOn with
  | nil => rfl
  | append_singleton lower top ih =>
    obtain ⟨fit, -, apart⟩ := List.pairwise_append.mp fit
    rw [List.reverse_append, List.reverse_singleton, List.singleton_append, List.findSome?_cons,
      ← ih fit, List.foldl_append, List.foldl_cons, List.foldl_nil, nodeAt_withLayer, said_eq]
    have top_or := hearAll_or (k :: steps) none
      (nodeAt (k :: steps) (.table (lower.foldl withLayer []) none)) (layerWords top)
      fun n there => by
        rw [nodeAt_foldl] at there
        obtain ⟨w', among, puts⟩ := (exists_puts there).resolve_right nofun
        obtain ⟨layer, amongLower, among⟩ := List.mem_flatMap.mp among
        exact ⟨w', puts, fun w amongTop =>
          apart layer amongLower top List.mem_cons_self w' among w amongTop⟩
    rw [Option.none_or] at top_or
    rw [top_or]
    cases hearAll (k :: steps) none (layerWords top) <;> rfl

end Setting

/-! ## Trees that are told apart -/

/-- A setting in whose tables the names ascend; tables come from no single source. -/
inductive Setting.Merged : Setting → Prop
  | scalar (v : Scalar) (origin : Option String) : Merged (.scalar v origin)
  | list (items : List Setting) (origin : Option String) : Merged (.list items origin)
  | table {members : Settings} (ascending : Entries.Ascending members)
      (inside : ∀ k v, Entries.find? k members = some v → Merged v) : Merged (.table members none)

namespace Setting

mutual

/-- What is laid over merged settings is merged, whatever it was before. -/
theorem merged_overlay {old : Option Setting} (merged : ∀ s, old = some s → s.Merged) :
    ∀ s : Setting, (overlay old s).Merged
  | .scalar v origin => .scalar v origin
  | .list items origin => .list items origin
  | .table members origin => by
    have laid : (Setting.table (overlayAll (ground old) members) none).Merged := by
      refine merged_overlayAll ?_ members
      cases old with
      | none => exact .table List.Pairwise.nil fun _ _ found => nomatch found
      | some s =>
        cases s with
        | scalar | list => exact .table List.Pairwise.nil fun _ _ found => nomatch found
        | table below origin =>
          cases merged _ rfl with
          | table ascending inside => exact .table ascending inside
    cases any : members.isEmpty with
    | false => exact overlay_table old any ▸ laid
    | true =>
      rw [List.isEmpty_iff] at any
      rw [any] at laid ⊢
      cases old with
      | none => exact laid
      | some s =>
        cases s with
        | table => exact laid
        | scalar v origin => exact .scalar v origin
        | list items origin => exact .list items origin

theorem merged_overlayAll {old : Settings} (merged : (Setting.table old none).Merged) :
    ∀ members : Settings, (Setting.table (overlayAll old members) none).Merged
  | [] => merged
  | (j, v) :: rest => by
    rw [overlayAll]
    refine merged_overlayAll ?_ rest
    cases merged with
    | table ascending inside =>
      refine .table (Entries.ascending_insert ascending) fun k found => ?_
      rw [Entries.find?_insert]
      split
      · rintro ⟨⟩
        exact merged_overlay (inside _) v
      · exact inside k found

end

theorem merged_withLayer {settings : Settings} (merged : (Setting.table settings none).Merged)
    (layer : Settings) : (Setting.table (withLayer settings layer) none).Merged := by
  induction layer generalizing settings with
  | nil => exact merged
  | cons entry rest ih =>
    refine ih ?_
    obtain ⟨step, steps, way_eq⟩ := List.exists_cons_of_ne_nil (way_ne_nil entry.1)
    simp only [way_eq, atEnd]
    exact merged_overlayAll merged _

/-- Layers over one another make merged settings. -/
theorem merged_layers (layers : List Settings) :
    (Setting.table (layers.foldl withLayer []) none).Merged := by
  induction layers using List.reverseRecOn with
  | nil => exact .table List.Pairwise.nil fun _ _ found => nomatch found
  | append_singleton lower top ih =>
    rw [List.foldl_append]
    exact merged_withLayer ih top

/-- Merged settings are equal if the same is at the end of every way. -/
theorem Merged.ext {s t : Setting} (hs : s.Merged) (ht : t.Merged)
    (same : ∀ steps, nodeAt steps s = nodeAt steps t) : s = t := by
  have here : s.node = t.node := Option.some.inj (same [])
  induction hs generalizing t with
  | scalar | list =>
    cases ht with
    | table => cases here
    | scalar | list => exact Node.single.inj here
  | @table members ascending inside ih =>
    cases ht with
    | scalar | list => cases here
    | @table members' ascending' inside' =>
      congr 1
      refine Entries.ext ascending ascending' fun k => ?_
      have below (steps : List String) := same (k :: steps)
      simp only [nodeAt_table] at below
      cases found : Entries.find? k members with
      | none =>
        cases found' : Entries.find? k members' with
        | none => rfl
        | some v' =>
          rw [found, found'] at below
          cases below []
      | some v =>
        cases found' : Entries.find? k members' with
        | none =>
          rw [found, found'] at below
          cases below []
        | some v' =>
          rw [found, found'] at below
          exact congrArg some
            (ih k v found (inside' k v' found') below (Option.some.inj (below [])))

end Setting

end TriageDesk.Config
