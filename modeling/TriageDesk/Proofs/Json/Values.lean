/-
TriageDesk.Proofs.Json.Values — the values from which data are read.

Each way of making a decoder has its lemma, which says from which values it reads
which data. All of them are equivalences, so that what is refused is known as well.

The members of an object fill a record one after the other (`membersOfValue_iff`):
`Fills.given` reads off what each field has become, and `exists_fills` says when
nothing stands in the way. A list is read as the object that gives its items the
names of the fields in their order (`record_list_iff`).
-/
import Mathlib.Data.List.Nodup
import TriageDesk.Proofs.Json.Records

namespace TriageDesk.Json

open Decoder

variable {α β : Type}

/-! ## Attempts -/

section

variable {ε : Type} {f : α → Except ε β}

theorem mapM_eq_ok_iff {as : List α} {bs : List β} :
    as.mapM f = .ok bs ↔ List.Forall₂ (fun a b => f a = .ok b) as bs := by
  induction as generalizing bs with
  | nil => cases bs <;> simp [pure, Except.pure]
  | cons a as ih =>
    rw [List.mapM_cons]
    cases here : f a with
    | error e => cases bs <;> simp [bind, Except.bind, here]
    | ok b =>
      cases more : as.mapM f with
      | error e => cases bs <;> simp [bind, Except.bind, ← ih, more, here]
      | ok rest => cases bs <;> simp [bind, Except.bind, pure, Except.pure, ← ih, more, here]

/-- Attempts on a list fail as the first one that fails. -/
theorem mapM_eq_error_iff {as : List α} {e : ε} : as.mapM f = .error e ↔
    ∃ before a after, as = before ++ a :: after ∧ (∀ x ∈ before, ∃ b, f x = .ok b) ∧
      f a = .error e := by
  induction as with
  | nil => simp [pure, Except.pure]
  | cons a as ih =>
    rw [List.mapM_cons]
    cases here : f a with
    | error e' =>
      show Except.error e' = Except.error e ↔ _
      constructor
      · intro failed
        have same : e' = e := Except.error.inj failed
        exact ⟨[], a, as, rfl, List.forall_mem_nil _, same ▸ here⟩
      · rintro ⟨_ | ⟨x, before⟩, y, after, same, sound, failed⟩
        · cases same
          exact congrArg Except.error (Except.error.inj (here.symm.trans failed))
        · obtain ⟨b, done⟩ := sound x List.mem_cons_self
          cases same
          rw [here] at done
          cases done
    | ok b =>
      have onward : (f a >>= fun b => do return b :: (← as.mapM f)) = .error e ↔
          as.mapM f = .error e := by
        rw [here]
        cases as.mapM f <;> simp [bind, Except.bind, pure, Except.pure]
      rw [here] at onward
      rw [onward, ih]
      constructor
      · rintro ⟨before, y, after, rfl, sound, failed⟩
        exact ⟨a :: before, y, after, rfl, List.forall_mem_cons.mpr ⟨⟨b, here⟩, sound⟩, failed⟩
      · rintro ⟨_ | ⟨x, before⟩, y, after, same, sound, failed⟩
        · cases same
          rw [here] at failed
          cases failed
        · cases same
          exact ⟨before, y, after, rfl, (List.forall_mem_cons.mp sound).2, failed⟩

end

theorem mapError_eq_ok_iff {ε δ α : Type} {x : Except ε α} {f : ε → δ} {a : α} :
    x.mapError f = .ok a ↔ x = .ok a := by
  cases x <;> simp [Except.mapError]

theorem mapError_eq_error_iff {ε δ α : Type} {x : Except ε α} {f : ε → δ} {e : δ} :
    x.mapError f = .error e ↔ ∃ e', x = .error e' ∧ e = f e' := by
  cases x <;> simp [Except.mapError, eq_comm]

/-! ## Members and parts -/

theorem textMember?_eq_some_iff {v : Json} {name s : String} :
    v.textMember? name = some s ↔ v.member? name = some (.string s) := by
  rw [Json.textMember?]
  cases v.member? name with
  | none => simp
  | some w => cases w <;> simp [Json.text?]

namespace Decoder

theorem textAs_iff {expected : String} {v : Json} {s : String} :
    (textAs expected).ofValue v = .ok s ↔ v = .string s := by
  cases v <;> simp [textAs]

theorem map_iff {d : Decoder α} {f : α → β} {v : Json} {b : β} :
    (d.map f).ofValue v = .ok b ↔ ∃ a, d.ofValue v = .ok a ∧ b = f a := by
  show (d.ofValue v).map f = .ok b ↔ _
  cases d.ofValue v <;> simp [Except.map, eq_comm]

theorem list_iff {d : Decoder α} {v : Json} {as : List α} :
    (list d).ofValue v = .ok as ↔
      ∃ vs, v = .array vs ∧ List.Forall₂ (fun v a => d.ofValue v = .ok a) vs as := by
  cases v <;> simp [list, mapM_eq_ok_iff]

theorem texts_iff {v : Json} {ss : List String} :
    (list text).ofValue v = .ok ss ↔ v = .array (ss.map .string) := by
  rw [list_iff]
  constructor
  · rintro ⟨vs, rfl, same⟩
    refine congrArg Json.array ?_
    induction same with
    | nil => rfl
    | cons here _ ih => rw [textAs_iff.mp here, ih, List.map_cons]
  · rintro rfl
    exact ⟨_, rfl, List.forall₂_map_left_iff.mpr
      (List.forall₂_same.mpr fun _ _ => textAs_iff.mpr rfl)⟩

theorem variantNamed_iff {variants : List (String × α)} {name : String} {a : α} :
    variantNamed variants name = .ok a ↔ variants.lookup name = some a := by
  rw [variantNamed]
  cases variants.lookup name <;> simp

theorem choice_iff {variants : List (String × α)} {v : Json} {a : α} :
    (choice variants).ofValue v = .ok a ↔
      ∃ name, variants.lookup name = some a ∧ (v = .string name ∨ v = .object [(name, .null)]) := by
  unfold choice
  dsimp only
  split
  · simp [variantNamed_iff]
  · next name w =>
    cases named : variantNamed variants name with
    | error m =>
      have unknown : variants.lookup name ≠ some a := by
        rw [Ne, ← variantNamed_iff, named]
        exact fun same => by cases same
      simp only [bind, Except.bind, reduceCtorEq, false_iff]
      rintro ⟨_, known, same | same⟩
      · cases same
      · cases same
        exact unknown known
    | ok b =>
      have known := variantNamed_iff.mp named
      cases w <;> simp [unit, bind, Except.bind, pure, Except.pure, known]
  · next ms several =>
    simp only [reduceCtorEq, false_or, false_iff]
    rintro ⟨name, _, same⟩
    exact several name .null (Json.object.inj same)
  · next noText noPair noObject =>
    simp only [reduceCtorEq, false_iff]
    rintro ⟨name, _, rfl | rfl⟩
    · exact noText name rfl
    · exact noObject _ rfl

end Decoder

/-! ## Objects -/

variable {fields : List (Decoder.Field α)} {p q : Progress α} {ms : List (String × Json)}
  {k : String} {v : Json}

/-- The field of a name is changed in some way by a value. -/
def Alters (fields : List (Decoder.Field α)) (k : String) (change : α → α) (v : Json) : Prop :=
  ∃ f, fields.find? (·.name = k) = some f ∧ f.change.ofValue v = .ok change

theorem membersOfValue_known {f : Decoder.Field α} (known : fields.find? (·.name = k) = some f) :
    membersOfValue fields ((k, v) :: ms) p =
      if k ∈ p.seen then .error (.duplicateField k)
      else f.change.ofValue v >>= fun change =>
        membersOfValue fields ms ⟨change p.record, k :: p.seen⟩ := by
  rw [membersOfValue]
  simp only [known, List.contains_eq_mem, decide_eq_true_eq]
  split <;> rfl

/-- The members of an object fill a record one after the other. -/
theorem membersOfValue_iff :
    membersOfValue fields ms p = .ok q ↔ Fills fields (Alters fields) p ms q := by
  induction ms generalizing p with
  | nil =>
    rw [membersOfValue]
    constructor
    · rintro ⟨⟩
      exact .nothing _
    · rintro ⟨⟩
      rfl
  | cons e ms ih =>
    obtain ⟨k, v⟩ := e
    cases found : fields.find? (·.name = k) with
    | none =>
      have passed : membersOfValue fields ((k, v) :: ms) p = membersOfValue fields ms p := by
        simp only [membersOfValue, found]
      rw [passed, ih]
      constructor
      · exact .unknown found
      · rintro (_ | ⟨_, more⟩ | ⟨_, ⟨f, known, _⟩, _⟩)
        · exact more
        · rw [found] at known
          cases known
    | some field =>
      rw [membersOfValue_known found]
      constructor
      · intro done
        split_ifs at done with seen
        obtain ⟨change, here, more⟩ := exists_of_bind done
        exact .known seen ⟨field, found, here⟩ (ih.mp more)
      · rintro (_ | ⟨other, _⟩ | ⟨fresh, ⟨f, known, here⟩, more⟩)
        · rw [found] at other
          cases other
        · rw [found] at known
          cases known
          rw [if_neg fresh, here]
          exact ih.mpr more

/-- What a field has become: there is at most one member of its name, and the field is what that
member says, or else what it was. -/
theorem Fills.given {g : α → β} {Q : β → Json → Prop} (known : fields.find? (·.name = k) ≠ none)
    (sets : ∀ change v a, Alters fields k change v → Q (g (change a)) v)
    (keeps : ∀ k' ≠ k, ∀ change v a, Alters fields k' change v → g (change a) = g a)
    (fills : Fills fields (Alters fields) p ms q) (new : k ∉ p.seen) :
    (ms.map (·.1)).count k ≤ 1 ∧
      ((∃ v, Entries.find? k ms = some v ∧ Q (g q.record) v) ∨
        (Entries.find? k ms = none ∧ g q.record = g p.record ∧ k ∉ q.seen)) := by
  rw [Entries.count_names, ← Entries.find?_filter]
  rcases fills.field known sets keeps new with ⟨v, one, set⟩ | ⟨none, kept, unseen⟩
  · rw [one]
    exact ⟨Nat.le_refl 1, .inl ⟨v, if_pos rfl, set⟩⟩
  · rw [none]
    exact ⟨Nat.zero_le 1, .inr ⟨rfl, kept, unseen⟩⟩

/-- A field of which there is a member has been seen. -/
theorem Fills.mem_seen (known : fields.find? (·.name = k) ≠ none)
    (fills : Fills fields (Alters fields) p ms q) (among : k ∈ p.seen ∨ k ∈ ms.map (·.1)) :
    k ∈ q.seen := by
  induction fills with
  | nothing p => simpa using among
  | unknown other _ ih =>
    refine ih (among.imp_right fun there => ?_)
    rcases List.mem_cons.mp there with rfl | there
    · exact absurd other known
    · exact there
  | known _ _ _ ih =>
    refine ih ?_
    rcases among with seen | there
    · exact .inl (List.mem_cons_of_mem _ seen)
    · rcases List.mem_cons.mp there with rfl | there
      · exact .inl List.mem_cons_self
      · exact .inr there

/-- Where the fields of all members can be read and none is given twice, the members fill a
record. -/
theorem exists_fills
    (once : ∀ k, fields.find? (·.name = k) ≠ none → (ms.map (·.1)).count k ≤ 1)
    (fresh : ∀ k ∈ p.seen, k ∉ ms.map (·.1))
    (read : ∀ k f v, fields.find? (·.name = k) = some f → Entries.find? k ms = some v →
      ∃ change, f.change.ofValue v = .ok change) :
    ∃ q, Fills fields (Alters fields) p ms q := by
  induction ms generalizing p with
  | nil => exact ⟨p, .nothing p⟩
  | cons e ms ih =>
    obtain ⟨k, v⟩ := e
    have once' (j : String) (known : fields.find? (·.name = j) ≠ none) :
        (ms.map (·.1)).count j ≤ 1 :=
      (List.count_le_count_cons).trans (once j known)
    cases found : fields.find? (·.name = k) with
    | none =>
      have apart {j : String} {f : Decoder.Field α} (known : fields.find? (·.name = j) = some f) :
          j ≠ k := by
        rintro rfl
        rw [found] at known
        cases known
      obtain ⟨q, fills⟩ := @ih p once'
        (fun j seen among => fresh j seen (List.mem_cons_of_mem _ among))
        (fun j f w known given => read j f w known (by rwa [Entries.find?, if_neg (apart known)]))
      exact ⟨q, .unknown found fills⟩
    | some f =>
      have alone : k ∉ ms.map (·.1) := by
        have most := once k (by simp [found])
        rw [List.map_cons, List.count_cons_self] at most
        exact List.count_eq_zero.mp (by omega)
      obtain ⟨change, here⟩ := read k f v found (by rw [Entries.find?, if_pos rfl])
      obtain ⟨q, fills⟩ := @ih ⟨change p.record, k :: p.seen⟩ once'
        (by
          rintro j seen among
          rcases List.mem_cons.mp seen with rfl | seen
          · exact alone among
          · exact fresh j seen (List.mem_cons_of_mem _ among))
        (by
          intro j f' w known given
          have among : j ∈ ms.map (·.1) :=
            List.mem_map_of_mem (Entries.mem_of_find? given)
          have apart : j ≠ k := by
            rintro rfl
            exact alone among
          exact read j f' w known (by rwa [Entries.find?, if_neg apart]))
      have unseen : k ∉ p.seen := fun seen => fresh k seen List.mem_cons_self
      exact ⟨q, .known unseen ⟨f, found, here⟩ fills⟩

theorem record_object_iff {name : String} {start a : α} :
    (record name fields start).ofValue (.object ms) = .ok a ↔
      ∃ q, Fills fields (Alters fields) ⟨start, []⟩ ms q ∧ q.finish fields = .ok a := by
  show (membersOfValue fields ms ⟨start, []⟩ >>= fun q => q.finish fields) = .ok a ↔ _
  simp only [← membersOfValue_iff]
  constructor
  · exact exists_of_bind
  · rintro ⟨q, filled, finished⟩
    rw [filled]
    exact finished

/-! ## Lists -/

/-- Items that are read as the last fields are read as the members of their names. The record is
finished in both ways or in neither: what has to be there is among the last fields or has been
seen. -/
theorem fieldsOfValue_iff (expected : String) {last : List (Decoder.Field α)}
    (known : ∀ f ∈ last, fields.find? (·.name = f.name) = some f)
    (distinct : (last.map (·.name)).Nodup) {seen : List String}
    (unseen : ∀ f ∈ last, f.name ∉ seen)
    (needed : ∀ f ∈ fields, f.required = true → f ∈ last ∨ f.name ∈ seen) (index : Nat) {a b : α}
    {vs : List Json} :
    fieldsOfValue expected last index a vs = .ok (b, []) ↔
      vs.length ≤ last.length ∧
        (membersOfValue fields ((last.map (·.name)).zip vs) ⟨a, seen⟩ >>= fun q =>
          q.finish fields) = .ok b := by
  induction last generalizing index a vs seen with
  | nil =>
    have finished : Progress.finish fields ⟨a, seen⟩ = .ok a :=
      finish_of_seen fun f among req => (needed f among req).resolve_left List.not_mem_nil
    rw [fieldsOfValue, List.map_nil, List.zip_nil_left, membersOfValue]
    show _ ↔ _ ∧ Progress.finish fields ⟨a, seen⟩ = .ok b
    rw [finished]
    simp [and_comm]
  | cons f last ih =>
    rw [List.map_cons, List.nodup_cons] at distinct
    have fresh := unseen f List.mem_cons_self
    cases vs with
    | cons v vs =>
      rw [List.map_cons, List.zip_cons_cons, membersOfValue_known (known f List.mem_cons_self),
        if_neg fresh, fieldsOfValue]
      cases here : f.change.ofValue v with
      | error m => simp [bind, Except.bind]
      | ok change =>
        have more := @ih (fun g among => known g (List.mem_cons_of_mem _ among)) distinct.2
          (f.name :: seen)
          (by
            intro g among
            rw [List.mem_cons, not_or]
            exact ⟨fun same => distinct.1 (same ▸ List.mem_map_of_mem among),
              unseen g (List.mem_cons_of_mem _ among)⟩)
          (by
            intro g among req
            rcases needed g among req with rest | there
            · rcases List.mem_cons.mp rest with rfl | rest
              · exact .inr List.mem_cons_self
              · exact .inl rest
            · exact .inr (List.mem_cons_of_mem _ there))
          (index + 1) (change a) vs
        rw [List.length_cons, List.length_cons, Nat.add_le_add_iff_right]
        exact more
    | nil =>
      rw [fieldsOfValue]
      cases req : f.required with
      | true =>
        -- the first of the missing fields has to be there
        have missing : Progress.finish fields ⟨a, seen⟩ ≠ .ok b := fun finished =>
          fresh ((seen_of_finish finished).2 f
            (List.mem_of_find?_eq_some (known f List.mem_cons_self)) req)
        simp only [if_true, reduceCtorEq, false_iff, not_and]
        exact fun _ => missing
      | false =>
        have more := @ih (fun g among => known g (List.mem_cons_of_mem _ among)) distinct.2 seen
          (fun g among => unseen g (List.mem_cons_of_mem _ among))
          (by
            intro g among req'
            rcases needed g among req' with rest | there
            · rcases List.mem_cons.mp rest with rfl | rest
              · rw [req] at req'
                cases req'
              · exact .inl rest
            · exact .inr there)
          (index + 1) a []
        simpa [List.zip_nil_right] using more

/-- A list of so many items as there are fields, or fewer, is read as the object that gives them
the names of the fields in their order. -/
theorem record_list_iff {name : String} {start a : α} {vs : List Json}
    (distinct : (fields.map (·.name)).Nodup) :
    (record name fields start).ofValue (.array vs) = .ok a ↔
      vs.length ≤ fields.length ∧
        (record name fields start).ofValue (.object ((fields.map (·.name)).zip vs)) = .ok a := by
  have known : ∀ f ∈ fields, fields.find? (·.name = f.name) = some f := by
    intro f among
    have there : (fields.find? (·.name = f.name)).isSome :=
      List.find?_isSome.mpr ⟨f, among, decide_eq_true rfl⟩
    obtain ⟨g, found⟩ := Option.isSome_iff_exists.mp there
    have same : g.name = f.name := by simpa using List.find?_some found
    rw [found, List.inj_on_of_nodup_map distinct (List.mem_of_find?_eq_some found) among same]
  refine Iff.trans ?_ (fieldsOfValue_iff (shape name fields.length) known distinct
    (fun _ _ => List.not_mem_nil) (fun f among _ => .inl among) 0)
  show (fieldsOfValue (shape name fields.length) fields 0 start vs >>= _) = .ok a ↔ _
  cases fieldsOfValue (shape name fields.length) fields 0 start vs with
  | error m => simp [bind, Except.bind]
  | ok r =>
    obtain ⟨b, left⟩ := r
    cases left <;> simp [bind, Except.bind, pure, Except.pure, throw, throwThe, MonadExceptOf.throw]

end TriageDesk.Json
