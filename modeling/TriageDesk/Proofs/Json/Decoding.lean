/-
TriageDesk.Proofs.Json.Decoding — what decoders read from written values.

A decoder decodes a value to a datum (`Decodes`) if it reads every text of the
value as that datum: in every layout, with the members of every object in every
order. Each way of making a decoder has its lemma, so that what a decoder does
with a value follows its parts: `decodes_list` and `decodes_table` for data kept
in lists and tables, `decodes_record` for records.

The members of a record are read one after the other, each as a change of the
record. In which order they come makes no difference because changes of
different fields commute.

A table of any values is read from a text exactly where an object is
(`ofRunes_values_iff`).
-/
import Mathlib.Data.List.Pairwise
import TriageDesk.Proofs.Json.Arrangement

namespace TriageDesk.Json

open Text Reader

namespace Decoder

variable {α β : Type}

/-- A decoder reads every text of a value as a datum. -/
structure Decodes (d : Decoder α) (room : Nat) (v : Json) (a : α) : Prop where
  fits : Fits room v
  takes : ∀ {w}, Arranges w v → ∀ g level, Takes (d.read room) (writeWith g level w) a

theorem Decodes.ofText {d : Decoder α} {v w : Json} {a : α} (decodes : d.Decodes maxDepth v a)
    (arranges : Arranges w v) (g : Gaps) : d.ofText (String.ofList (writeWith g 0 w)) = .ok a := by
  have read := decodes.takes arranges g 0 [] rfl [] ⟨rfl, rfl, rfl⟩
  rw [runes_nil, List.nil_append, List.append_nil] at read
  exact ofText_of_read read

/-! ## Scalars and any value -/

theorem decodes_textAs (expected : String) (room : Nat) (s : String) :
    (textAs expected).Decodes room (.string s) s where
  fits := .string s
  takes := by
    intro w arranges g level gap blank rest _
    obtain ⟨tail, text, read⟩ := exists_name s rest
    rw [arranges.eq_string]
    show (textAs expected).read room (runes gap ++ (runes (writeString s) ++ rest)) = _
    rw [text, textAs]
    simp only [skipBlanks_runes blank, skipBlanks_cons (show isGap '"' = false by decide)]
    exact read

theorem decodes_any {room : Nat} {v : Json} (fits : Fits room v) : any.Decodes room v v where
  fits := fits
  takes := by
    intro w arranges g level
    have takes := (value_writeWith g (arranges.fits fits) level).takes
    rwa [arranges.ordered] at takes

theorem Decodes.map {d : Decoder α} {room : Nat} {v : Json} {a : α} (decodes : d.Decodes room v a)
    (f : α → β) : (d.map f).Decodes room v (f a) where
  fits := decodes.fits
  takes := by
    intro w arranges g level gap blank rest ends
    show (d.read room _ >>= _) = _
    rw [decodes.takes arranges g level gap blank rest ends]
    rfl

theorem Decodes.refine {d : Decoder α} {room : Nat} {v : Json} {a : α} {b : β}
    (decodes : d.Decodes room v a) {f : α → Except Mismatch β} (accepted : f a = .ok b) :
    (d.refine f).Decodes room v b where
  fits := decodes.fits
  takes := by
    intro w arranges g level gap blank rest ends
    show (d.read room _ >>= _) = _
    rw [decodes.takes arranges g level gap blank rest ends]
    simp only [bind, Except.bind, accepted]
    rfl

theorem decodes_choice {variants : List (String × α)} {name : String} {a : α} (room : Nat)
    (known : variants.lookup name = some a) :
    (choice variants).Decodes room (.string name) a where
  fits := .string name
  takes := by
    intro w arranges g level gap blank rest ends
    have accepted : variantNamed variants name = .ok a := by rw [variantNamed, known]
    have named := (decodes_textAs "variant identifier" room name).refine accepted
    have read := named.takes arranges g level [] rfl rest ends
    obtain ⟨tail, text, _⟩ := exists_name name rest
    rw [arranges.eq_string] at read ⊢
    have written : runes (writeWith g level (.string name)) ++ rest = .char '"' :: tail := text
    rw [runes_nil, List.nil_append, written] at read
    rw [written, choice]
    simp only [skipBlanks_runes blank, skipBlanks_cons (show isGap '"' = false by decide)]
    exact read

/-! ## Lists and tables -/

theorem decodes_list {d : Decoder α} {room : Nat} {f : α → Json} {as : List α}
    (each : ∀ a ∈ as, d.Decodes room (f a) a) :
    (list d).Decodes (room + 1) (.array (as.map f)) as where
  fits := .array fun v among => by
    obtain ⟨a, there, rfl⟩ := List.mem_map.mp among
    exact (each a there).fits
  takes := by
    intro w arranges g level gap blank rest _
    obtain ⟨ws, rfl, same⟩ := arranges.array
    have fits (u : Json) (among : u ∈ ws) : Fits room u := by
      obtain ⟨v, mapped, arranges⟩ := exists_of_forall₂ same among
      obtain ⟨a, given, rfl⟩ := List.mem_map.mp mapped
      exact arranges.fits (each a given).fits
    have takes : List.Forall₂ (fun u a => Takes (d.read room) (writeWith g (level + 1) u) a)
        ws as := by
      clear fits arranges
      rw [List.forall₂_map_right_iff] at same
      induction same with
      | nil => exact .nil
      | @cons u a ws as here _ ih =>
        exact .cons ((each a List.mem_cons_self).takes here g (level + 1))
          (ih fun b among => each b (List.mem_cons_of_mem _ among))
    obtain ⟨s, text, read⟩ := items_written g level takes
      (fun u among => begins_writeWith g (level + 1) (fits u among)) rest
    rw [text, list]
    simp only [skipBlanks_runes blank, skipBlanks_cons (show isGap '[' = false by decide)]
    exact read

theorem decodes_table {d : Decoder α} {room : Nat} {f : α → Json} {t : Table α}
    (each : ∀ e ∈ t.entries, d.Decodes room (f e.2) e.2) :
    (table d).Decodes (room + 1) (.ofTable (t.map f)) t where
  fits := .object fun e among => by
    obtain ⟨e, there, rfl⟩ := List.mem_map.mp among
    exact (each e there).fits
  takes := by
    intro w arranges g level gap blank rest _
    have decodes : List.Forall₂ (fun e m => e.1 = m.1 ∧ d.Decodes room e.2 m.2)
        (t.map f).entries t.entries :=
      List.forall₂_map_left_iff.mpr (List.forall₂_same.mpr fun e among => ⟨rfl, each e among⟩)
    obtain ⟨es, ms, rfl, perm, _, _, members⟩ := arranges.members (.refl _) decodes
    have takes : List.Forall₂ (Member g level (d.read room)) es ms :=
      members.imp fun _ _ ⟨_, ⟨name, decodes⟩, arranges⟩ =>
        ⟨name, decodes.takes arranges g (level + 1)⟩
    obtain ⟨s, text, read⟩ := members_written g level takes rest
    rw [text, table]
    simp only [skipBlanks_runes blank, skipBlanks_cons (show isGap '{' = false by decide), read]
    show Except.ok (Table.ofList ms, rest) = _
    rw [Table.ofList_of_perm perm]

theorem decodes_values {room : Nat} {t : Table Json} (fits : ∀ e ∈ t.entries, Fits room e.2) :
    (table any).Decodes (room + 1) (.ofTable t) t := by
  have same : t.map (fun v => v) = t := Table.ext fun k => by simp [Table.map]
  have decodes := decodes_table (f := fun v => v) fun e among => decodes_any (fits e among)
  rwa [same] at decodes

/-! ## Objects -/

theorem ofTable_inj {t u : Table Json} (same : ofTable t = .ofTable u) : t = u := by
  have entries : t.entries = u.entries := Json.object.inj same
  exact Table.ext fun k => congrArg (Entries.find? k) entries

theorem ofMembers_eq_ofTable (ms : List (String × Json)) :
    ofMembers ms = .ofTable (Table.ofList ms) :=
  (congrArg Json.object (Table.entries_insertAll Table.empty ms)).symm

/-- From a brace on, an object and a table of values are read alike. -/
theorem value_brace {room : Nat} {s t : Rest} (brace : skipBlanks s = .char '{' :: t) :
    value room s = (fun r => (.ofTable r.1, r.2)) <$> (table any).read room s := by
  unfold value table
  simp only [brace]
  cases room with
  | zero => rfl
  | succ room =>
    show (members (value room) t.length true t >>= _) =
      _ <$> (members (value room) t.length true t >>= _)
    cases members (value room) t.length true t with
    | error fault => rfl
    | ok r => exact congrArg (fun v => Except.ok (v, r.2)) (ofMembers_eq_ofTable r.1)

/-- What begins with anything but a brace is no object. -/
theorem value_ne_object {room : Nat} {s rest : Rest} {ms : List (String × Json)}
    (other : ∀ t, skipBlanks s ≠ .char '{' :: t) : value room s ≠ .ok (.object ms, rest) := by
  have differs {α : Type} {x : Except Fault α} {v : α → Json × Rest}
      (differs : ∀ a, (v a).1 ≠ .object ms) : (v <$> x) ≠ .ok (.object ms, rest) := by
    cases x with
    | error fault => exact fun same => by cases same
    | ok a => exact fun same => differs a (congrArg Prod.fst (Except.ok.inj same))
  unfold value
  simp only [← map_eq_pure_bind]
  split
  · simp
  · exact differs fun _ => by simp
  · exact differs fun _ => by simp
  · exact differs fun _ => by simp
  · exact differs fun _ => by simp
  · exact differs fun _ => by simp
  · cases room with
    | zero => simp
    | succ room => exact differs fun _ => by simp
  · exact absurd ‹_› (other _)
  · split
    · exact differs fun _ => by simp
    · simp

theorem read_values_iff {room : Nat} {s rest : Rest} {t : Table Json} :
    (table any).read room s = .ok (t, rest) ↔ value room s = .ok (.ofTable t, rest) := by
  by_cases brace : ∃ u, skipBlanks s = .char '{' :: u
  · obtain ⟨u, brace⟩ := brace
    rw [value_brace brace]
    cases (table any).read room s with
    | error fault => simp
    | ok r =>
      constructor
      · intro same
        cases same
        rfl
      · intro same
        have parts := Prod.mk.inj (Except.ok.inj same)
        exact congrArg Except.ok (Prod.ext (ofTable_inj parts.1) parts.2)
  · have other : ∀ u, skipBlanks s ≠ .char '{' :: u := fun u h => brace ⟨u, h⟩
    constructor
    · intro read
      unfold table at read
      simp only at read
      cases read
    · exact fun read => absurd read (value_ne_object other)

theorem ofRunes_eq_ok_iff {d : Decoder α} {runes : List Rune} {a : α} :
    d.ofRunes runes = .ok a ↔
      ∃ rest, d.read maxDepth runes = .ok (a, rest) ∧ skipBlanks rest = [] := by
  unfold ofRunes
  cases read : d.read maxDepth runes with
  | error fault => simp [bind, Except.bind]
  | ok r =>
    obtain ⟨b, rest⟩ := r
    cases ends : skipBlanks rest <;>
      simp [bind, Except.bind, pure, Except.pure, throw, throwThe, MonadExceptOf.throw, ends]

theorem ofRunesWithMessage_eq_ok_iff {d : Decoder α} {runes : List Rune} {a : α} :
    d.ofRunesWithMessage runes = .ok a ↔ d.ofRunes runes = .ok a := by
  unfold ofRunesWithMessage
  cases d.ofRunes runes <;> simp [Except.mapError]

/-- **A table of values is read from exactly the texts of an object.** -/
theorem ofRunes_values_iff {runes : List Rune} {t : Table Json} :
    (table any).ofRunes runes = .ok t ↔ any.ofRunes runes = .ok (.ofTable t) := by
  simp only [ofRunes_eq_ok_iff, read_values_iff]
  rfl

/-! ## Records -/

/-- A member is written in the text of a record and read as a change of it. -/
def Change (fields : List (Field α)) (g : Gaps) (level room : Nat) (e : String × Json)
    (change : α → α) : Prop :=
  ∃ field, fields.find? (·.name = e.1) = some field ∧
    Takes (field.change.read room) (writeWith g (level + 1) e.2) change

variable {fields : List (Field α)} {g : Gaps} {level room : Nat}

/-- A member that has not been read yet. -/
theorem readMembers_field {fuel : Nat} {first : Bool} {p : Progress α} {s t rest : Rest}
    {k : String} {field : Field α} {change : α → α}
    (name : nextName first s = .ok (some k, .char ':' :: t))
    (known : fields.find? (·.name = k) = some field) (new : k ∉ p.seen)
    (read : field.change.read room t = .ok (change, rest)) :
    readMembers fields room (fuel + 1) first p s =
      readMembers fields room fuel false ⟨change p.record, k :: p.seen⟩ rest := by
  have unseen : p.seen.contains k = false := by simpa using new
  rw [readMembers, name]
  simp only [bind, Except.bind, known, unseen, colon_written, read]
  rfl

theorem readMembers_more {es : List (String × Json)} {changes : List (α → α)}
    (takes : List.Forall₂ (Change fields g level room) es changes) {p : Progress α}
    (new : ∀ e ∈ es, e.1 ∉ p.seen) (distinct : (es.map (·.1)).Nodup) (rest : Rest) {fuel : Nat}
    (enough : es.length < fuel) :
    readMembers fields room fuel false p (runes (writeMoreMembers g level es) ++ rest) =
      .ok (Progress.finish fields ⟨changes.foldl (fun a change => change a) p.record,
        (es.map (·.1)).reverse ++ p.seen⟩, .char '}' :: rest) := by
  induction takes generalizing fuel p with
  | nil =>
    obtain ⟨fuel, rfl⟩ := Nat.exists_eq_add_one.mpr enough
    rw [writeMoreMembers, runes_append, List.append_assoc, readMembers]
    show (nextName false (runes (g.last level) ++ .char '}' :: rest) >>= _) = _
    rw [nextName_close (g.last_blank level)]
    rfl
  | @cons e change es changes here _ ih =>
    obtain ⟨k, v⟩ := e
    obtain ⟨field, known, takes⟩ := here
    obtain ⟨fuel, rfl⟩ := Nat.exists_eq_add_one.mpr (Nat.zero_lt_of_lt enough)
    have item := takes g.colon g.colon_blank _ (ends_moreMembers g level es rest)
    rw [List.map_cons, List.nodup_cons] at distinct
    have new' : ∀ e ∈ es, e.1 ∉ k :: p.seen := by
      intro e among seen
      rcases List.mem_cons.mp seen with same | seen
      · exact distinct.1 (List.mem_map.mpr ⟨e, among, same⟩)
      · exact new e (List.mem_cons_of_mem _ among) seen
    have more := ih (p := ⟨change p.record, k :: p.seen⟩) new' distinct.2
      (Nat.lt_of_succ_lt_succ enough)
    simp only [writeMoreMembers, runes_cons, runes_append, List.cons_append, List.append_assoc]
    rw [readMembers_field (nextName_next (g.next_blank level) k _) known
      (new (k, v) List.mem_cons_self) item, more]
    simp

/-- A record is its brace and what is read as its members. -/
theorem readMembers_written {es : List (String × Json)} {changes : List (α → α)}
    (takes : List.Forall₂ (Change fields g level room) es changes)
    (distinct : (es.map (·.1)).Nodup) (start : α) (rest : Rest) :
    ∃ s, runes (writeWith g level (.object es)) ++ rest = .char '{' :: s ∧
      readMembers fields room (s.length + 1) true ⟨start, []⟩ s =
        .ok (Progress.finish fields ⟨changes.foldl (fun a change => change a) start,
          (es.map (·.1)).reverse⟩, .char '}' :: rest) := by
  cases takes with
  | nil => exact ⟨_, rfl, rfl⟩
  | @cons e change es changes here more =>
    obtain ⟨k, v⟩ := e
    obtain ⟨field, known, takes⟩ := here
    have item := takes g.colon g.colon_blank _ (ends_moreMembers g level es rest)
    rw [List.map_cons, List.nodup_cons] at distinct
    rw [writeWith, runes_cons, List.cons_append]
    refine ⟨_, rfl, ?_⟩
    generalize text : runes (g.first level ++ (writeString k ++ ':' :: (g.colon ++
      (writeWith g (level + 1) v ++ writeMoreMembers g level es)))) ++ rest = s
    have enough : es.length < s.length := by
      have longer := length_lt_moreMembers g level es
      simp only [← text, List.length_append, length_runes, List.length_cons]
      omega
    have others := readMembers_more more (p := ⟨change start, [k]⟩)
      (fun e among seen => distinct.1
        (List.mem_map.mpr ⟨e, among, List.mem_singleton.mp seen⟩)) distinct.2 rest enough
    rw [← text] at others ⊢
    simp only [runes_append, runes_cons, List.append_assoc, List.cons_append] at others ⊢
    rw [readMembers_field (nextName_first (g.first_blank level) k _) known List.not_mem_nil item,
      others]
    simp

/-- A record of which each field that has to be there has been read. -/
theorem finish_of_seen {p : Progress α}
    (required : ∀ f ∈ fields, f.required = true → f.name ∈ p.seen) :
    p.finish fields = .ok p.record := by
  have none : (fields.find? fun f => f.required && !p.seen.contains f.name) = none := by
    rw [List.find?_eq_none]
    intro f among missing
    simp only [Bool.and_eq_true, Bool.not_eq_true', List.contains_eq_mem, decide_eq_false_iff_not]
      at missing
    exact missing.2 (required f among missing.1)
  rw [Progress.finish, none]

/-- **A record is decoded from its members, in whatever order they come.** Each member gives a
change of the record, and the changes commute. -/
theorem decodes_record {name : String} {start a : α} {declared : List (String × Json)}
    {changes : List (α → α)}
    (each : List.Forall₂ (fun e change => ∃ field, fields.find? (·.name = e.1) = some field ∧
      field.change.Decodes room e.2 change) declared changes)
    (distinct : (declared.map (·.1)).Nodup)
    (required : ∀ f ∈ fields, f.required = true → f.name ∈ declared.map (·.1))
    (commute : changes.Pairwise fun f h => ∀ a, f (h a) = h (f a))
    (result : changes.foldl (fun a change => change a) start = a) :
    (record name fields start).Decodes (room + 1) (.ofMembers declared) a := by
  have inOrder : (declared.foldl (fun acc e => Entries.insert e.1 e.2 acc) []).Perm declared :=
    Entries.perm_ofEntries distinct
  refine ⟨.object fun e among => ?_, ?_⟩
  · obtain ⟨change, _, field, _, decodes⟩ := exists_of_forall₂ each (inOrder.mem_iff.mp among)
    exact decodes.fits
  · intro w arranges g level gap blank rest _
    obtain ⟨es, changes', rfl, perm, distinct', names, members⟩ := arranges.members inOrder each
    have takes : List.Forall₂ (Change fields g level room) es changes' :=
      members.imp fun _ _ ⟨_, ⟨field, known, decodes⟩, arranges⟩ =>
        ⟨field, known, decodes.takes arranges g (level + 1)⟩
    have folded : changes'.foldl (fun a change => change a) start = a := by
      have : Std.Symm fun f h : α → α => ∀ a, f (h a) = h (f a) := ⟨fun _ _ same a => (same a).symm⟩
      have any := List.Pairwise.forall_of_forall (fun _ _ _ => rfl) commute
      rw [← result]
      exact (perm.symm.foldl_eq' (fun _ among _ among' a => any among' among a) start).symm
    have given : ∀ f ∈ fields, f.required = true → f.name ∈ (es.map (·.1)).reverse :=
      fun f among needed => by
        rw [List.mem_reverse]
        exact names.mem_iff.mpr (required f among needed)
    obtain ⟨s, text, read⟩ := readMembers_written takes distinct' start rest
    rw [finish_of_seen given, folded] at read
    rw [text, record]
    simp only [skipBlanks_runes blank, skipBlanks_cons (show isGap '{' = false by decide), read]
    rfl

end Decoder

end TriageDesk.Json
