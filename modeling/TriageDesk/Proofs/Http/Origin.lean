/-
TriageDesk.Proofs.Http.Origin — what stands behind an address does not change where it leads.

The origin of an address of the web is read from its scheme and its authority
alone (`origin_withAuthority?`), and the authority ends at the first slash. So
when a slash and any text are put behind an address, its origin stays
(`origin_append`). The one exception is an address that is followed by blanks or
control characters: they fall away while they stand at the end, and make the
address unreadable when they come to stand inside (`originOf?_edge`).
-/
import Mathlib.Data.List.TakeWhile
import TriageDesk.Http.Exchange
import TriageDesk.Proofs.Http.Hosts

namespace TriageDesk.Http

open Text Url

/-! ## Cutting at a character -/

theorem takeWhile_append_stop {p : Char → Bool} {c : Char} (stop : p c = false)
    (front rest : List Char) : (front ++ c :: rest).takeWhile p = front.takeWhile p := by
  induction front with
  | nil => simp [stop]
  | cons d front ih => simp only [List.cons_append, List.takeWhile_cons, ih]

theorem dropWhile_append_stop {p : Char → Bool} {c : Char} (stop : p c = false)
    (front rest : List Char) :
    (front ++ c :: rest).dropWhile p = front.dropWhile p ++ c :: rest := by
  induction front with
  | nil => simp [stop]
  | cons d front ih =>
    simp only [List.cons_append, List.dropWhile_cons, ih]
    split_ifs <;> rfl

/-! ## The text that is read -/

/-- A text without the tabs and line breaks that fall away anywhere in an address. -/
def unbroken (cs : List Char) : List Char :=
  cs.filter fun c => !(c = '\t' || c = '\n' || c = '\r')

theorem cleaned_eq (s : String) : cleaned s =
    unbroken ((s.toList.dropWhile isEdge).reverse.dropWhile isEdge).reverse := rfl

/-- What is read of a text that has a slash in it. -/
theorem cleaned_slash (front tail : List Char) :
    cleaned (String.ofList (front ++ '/' :: tail)) =
      unbroken (front.dropWhile isEdge) ++
        '/' :: unbroken (tail.reverse.dropWhile isEdge).reverse := by
  rw [cleaned_eq, String.toList_ofList, dropWhile_append_stop (by decide), List.reverse_append,
    List.reverse_cons, List.append_assoc, List.singleton_append,
    dropWhile_append_stop (by decide), List.reverse_append, List.reverse_cons, List.reverse_reverse]
  simp [unbroken]

/-- Whether a text ends in a blank or a control character. -/
def EndsOnEdge (cs : List Char) : Prop := ∃ c ∈ cs.getLast?, isEdge c = true

instance (cs : List Char) : Decidable (EndsOnEdge cs) :=
  decidable_of_iff (cs.getLast?.any isEdge = true) (by simp [EndsOnEdge, Option.any_eq_true])

/-- Blanks and control characters that may stand at the end of a text. -/
structure Trailing (text blanks : List Char) : Prop where
  edges : ∀ c ∈ blanks, isEdge c = true
  trail : blanks ≠ [] → EndsOnEdge text

/-- What is read of a text is what stands in front of the blanks and control characters at its
end. -/
theorem cleaned_edges (cs : List Char) : ∃ blanks, Trailing cs blanks ∧
    unbroken (cs.dropWhile isEdge) = cleaned (String.ofList cs) ++ blanks := by
  refine ⟨unbroken ((cs.dropWhile isEdge).reverse.takeWhile isEdge).reverse, ⟨?_, ?_⟩, ?_⟩
  · intro c among
    have inside := (List.mem_filter.mp among).1
    exact List.mem_takeWhile_imp (List.mem_reverse.mp inside)
  · intro some
    cases last : (cs.dropWhile isEdge).getLast? with
    | none => simp [List.getLast?_eq_none_iff.mp last, unbroken] at some
    | some c =>
      obtain ⟨front, inner⟩ := List.getLast?_eq_some_iff.mp last
      refine ⟨c, ?_, ?_⟩
      · rw [← List.takeWhile_append_dropWhile (p := isEdge) (l := cs), inner]
        simp
      · by_contra solid
        simp [inner, solid, unbroken] at some
  · rw [cleaned_eq, String.toList_ofList, unbroken, unbroken, unbroken, ← List.filter_append,
      ← List.reverse_append, List.takeWhile_append_dropWhile, List.reverse_reverse]

/-! ## Schemes -/

theorem scheme?_eq_some_iff {cs rest : List Char} {scheme : String} :
    scheme? cs = some (scheme, rest) ↔ ∃ c name, c.isAlpha = true ∧
      (∀ d ∈ c :: name, isSchemeChar d = true) ∧ scheme = asciiLower (String.ofList (c :: name)) ∧
      cs = c :: name ++ ':' :: rest := by
  constructor
  · intro read
    unfold scheme? at read
    split at read
    · cases read
    · next c tail =>
      split at read
      · next rest' behind =>
        split_ifs at read with letter
        obtain ⟨rfl, rfl⟩ := Prod.mk.inj (Option.some.inj read)
        have whole := List.takeWhile_append_dropWhile (p := isSchemeChar) (l := c :: tail)
        have first : isSchemeChar c = true := by simp [isSchemeChar, Char.isAlphanum, letter]
        rw [List.takeWhile_cons_of_pos first, behind] at whole
        refine ⟨c, tail.takeWhile isSchemeChar, letter, ?_, ?_, whole.symm⟩
        · intro d among
          rcases List.mem_cons.mp among with rfl | among
          · exact first
          · exact List.mem_takeWhile_imp among
        · rw [List.takeWhile_cons_of_pos first]
      · cases read
  · rintro ⟨c, name, letter, chars, rfl, rfl⟩
    have stop : isSchemeChar ':' = false := by decide
    have front : (c :: name).takeWhile isSchemeChar = c :: name :=
      List.takeWhile_eq_self_iff.mpr chars
    have nothing : (c :: name).dropWhile isSchemeChar = [] :=
      List.dropWhile_eq_nil_iff.mpr chars
    show scheme? (c :: (name ++ ':' :: rest)) = _
    rw [scheme?, ← List.cons_append, dropWhile_append_stop stop, takeWhile_append_stop stop, front,
      nothing]
    simp [letter]

/-! ## Authorities -/

/-- The origin that an authority of the web names. -/
def originOf? (scheme : String) (authority : List Char) :
    Option (String × Option String × Option Nat) := do
  let (hostText, portText) := splitPort (splitUser authority).2.2
  let host ← webHost? hostText
  let port ← port? scheme portText
  return (scheme, some host, port)

/-- The origin is read from the authority alone. -/
theorem origin_withAuthority? (scheme : String) (cs : List Char) :
    (withAuthority? scheme true cs).map origin =
      originOf? scheme (cs.takeWhile fun c => !endsAuthority true c) := by
  simp only [withAuthority?, originOf?, Option.bind_eq_bind, if_true, Option.map_bind]
  refine Option.bind_congr fun host _ => ?_
  simp only [Function.comp_apply, Option.map_bind]
  exact Option.bind_congr fun port _ => rfl

theorem originOf?_nil (scheme : String) : originOf? scheme [] = none := rfl

theorem splitUser_edge {c : Char} (edge : isEdge c = true) (front : List Char) :
    ∃ place, (splitUser (front ++ [c])).2.2 = place ++ [c] := by
  have user : throughLast '@' (front ++ [c]) = throughLast '@' front := by
    simp [throughLast, ne_of_edge edge (by decide : isEdge '@' = false)]
  have within : (throughLast '@' front).length ≤ front.length := by
    simpa [throughLast] using List.length_dropWhile_le (· ≠ '@') front.reverse
  rw [splitUser, user]
  split
  · exact ⟨front, rfl⟩
  · exact ⟨front.drop (throughLast '@' front).length, List.drop_append_of_le_length within⟩

theorem splitPortAt_edge {c : Char} (edge : isEdge c = true) (inside : Bool) (front : List Char) :
    (∃ host port, splitPortAt inside (front ++ [c]) = (host, some (port ++ [c]))) ∨
      ∃ host, splitPortAt inside (front ++ [c]) = (host ++ [c], none) := by
  have noColon := ne_of_edge edge (by decide : isEdge ':' = false)
  induction front generalizing inside with
  | nil => exact .inr ⟨[], by simp [splitPortAt, noColon]⟩
  | cons d front ih =>
    rw [List.cons_append, splitPortAt]
    split_ifs with cut
    · exact .inl ⟨[], front, rfl⟩
    · rcases ih (d = '[' || (inside && d ≠ ']')) with ⟨host, port, parts⟩ | ⟨host, parts⟩
      · exact .inl ⟨d :: host, port, by rw [parts]⟩
      · exact .inr ⟨d :: host, by rw [parts]; rfl⟩

/-- An authority that ends in a blank or a control character names no origin. -/
theorem originOf?_edge {c : Char} (edge : isEdge c = true) (scheme : String) (front : List Char) :
    originOf? scheme (front ++ [c]) = none := by
  obtain ⟨place, behind⟩ := splitUser_edge edge front
  rw [originOf?, behind, splitPort]
  rcases splitPortAt_edge edge false place with ⟨host, port, parts⟩ | ⟨host, parts⟩
  · simp [parts, port?_edge edge]
  · simp [parts, webHost?_edge edge]

/-! ## What stands behind the scheme -/

/-- The authority of an address of the web, of the text behind the colon. -/
def authorityOf (rest : List Char) : List Char :=
  (rest.dropWhile fun c => c = '/' || c = '\\').takeWhile fun c => !endsAuthority true c

theorem origin_parse? {s scheme : String} {rest : List Char}
    (read : scheme? (cleaned s) = some (scheme, rest)) (web : isWebScheme scheme = true) :
    (parse? s).map origin = originOf? scheme (authorityOf rest) := by
  rw [parse?, read]
  simp only [Option.bind_eq_bind, Option.bind_some, web, if_true]
  exact origin_withAuthority? scheme _

/-- An address is read with its scheme. -/
theorem scheme_parse? {s : String} {u : Url} (read : parse? s = some u) :
    ∃ rest, scheme? (cleaned s) = some (u.scheme, rest) := by
  rw [parse?] at read
  cases front : scheme? (cleaned s) with
  | none => simp [front] at read
  | some parts =>
    obtain ⟨scheme, rest⟩ := parts
    refine ⟨rest, congrArg some (Prod.ext ?_ rfl)⟩
    have withs {web : Bool} {cs : List Char} (read : withAuthority? scheme web cs = some u) :
        scheme = u.scheme := by
      simp only [withAuthority?, Option.bind_eq_bind] at read
      split_ifs at read
      all_goals
        obtain ⟨host, -, read⟩ := Option.bind_eq_some_iff.mp read
        obtain ⟨port, -, read⟩ := Option.bind_eq_some_iff.mp read
        obtain rfl := Option.some.inj read
        rfl
    simp only [front, Option.bind_eq_bind, Option.bind_some] at read
    split_ifs at read
    · exact withs read
    · split at read
      · exact withs read
      · obtain rfl := Option.some.inj read
        rfl

/-- An address of the web has a host. -/
theorem host_of_web {s : String} {u : Url} (read : parse? s = some u)
    (web : isWebScheme u.scheme = true) : u.host.isSome = true := by
  obtain ⟨rest, parts⟩ := scheme_parse? read
  have own := origin_parse? parts web
  rw [read, Option.map_some] at own
  simp only [originOf?, Option.bind_eq_bind] at own
  obtain ⟨host, -, own⟩ := Option.bind_eq_some_iff.mp own.symm
  obtain ⟨port, -, own⟩ := Option.bind_eq_some_iff.mp own
  have same := (Prod.mk.inj (Prod.mk.inj (Option.some.inj own)).2).1
  rw [← same]
  rfl

/-- An authority ends at a slash. -/
theorem authorityOf_slash {rest : List Char} (named : authorityOf rest ≠ []) (tail : List Char) :
    authorityOf (rest ++ '/' :: tail) = authorityOf rest := by
  unfold authorityOf at named ⊢
  rw [List.dropWhile_append]
  split_ifs with nothing
  · simp [List.isEmpty_iff.mp nothing] at named
  · exact takeWhile_append_stop (by decide) _ _

theorem authorityOf_slashes (rest : List Char) (n : Nat) :
    authorityOf (rest ++ List.replicate n '/') = authorityOf rest := by
  unfold authorityOf
  rw [List.dropWhile_append]
  split_ifs with nothing
  · rw [List.isEmpty_iff.mp nothing]
    simp
  · cases n with
    | zero => simp
    | succ n => exact takeWhile_append_stop (by decide) _ _

/-- Blanks and control characters behind an authority belong to it, unless it has ended. -/
theorem authorityOf_edges {rest blanks : List Char} (named : authorityOf rest ≠ [])
    (edges : ∀ c ∈ blanks, isEdge c = true) : ∃ more, (more = [] ∨ more = blanks) ∧
      authorityOf (rest ++ blanks) = authorityOf rest ++ more := by
  unfold authorityOf at named ⊢
  have through : blanks.takeWhile (fun c => !endsAuthority true c) = blanks :=
    List.takeWhile_eq_self_iff.mpr fun c among =>
      edge_cases (P := fun c => (!endsAuthority true c) = true) (by decide) (edges c among)
  rw [List.dropWhile_append]
  split_ifs with nothing
  · simp [List.isEmpty_iff.mp nothing] at named
  · rw [List.takeWhile_append, through]
    split_ifs with whole
    · exact ⟨blanks, .inr rfl, by rw [List.IsPrefix.eq_of_length (List.takeWhile_prefix _) whole]⟩
    · exact ⟨[], .inl rfl, (List.append_nil _).symm⟩

/-! ## Addresses with a text behind them -/

/-- What is read of an address that slashes may follow, compared with what is read of it in front
of other text. -/
theorem cleaned_slashes (front : List Char) (n : Nat) : ∃ blanks m,
    Trailing front blanks ∧ unbroken (front.dropWhile isEdge) ++ List.replicate m '/' =
      cleaned (String.ofList (front ++ List.replicate n '/')) ++ blanks := by
  cases n with
  | zero =>
    obtain ⟨blanks, trailing, whole⟩ := cleaned_edges front
    exact ⟨blanks, 0, trailing, by simpa using whole⟩
  | succ n =>
    have kept : isEdge '/' = false := by decide
    refine ⟨[], n + 1, ⟨by simp, by simp⟩, ?_⟩
    rw [List.replicate_succ, cleaned_slash]
    simp [unbroken, kept]

/-- What has no slash ends before slashes begin. -/
theorem append_slashes {name front rest : List Char} {m : Nat} (plain : '/' ∉ name)
    (whole : front ++ List.replicate m '/' = name ++ rest) :
    ∃ behind, front = name ++ behind ∧ behind ++ List.replicate m '/' = rest := by
  rcases List.append_eq_append_iff.mp whole with ⟨more, parts, slashes⟩ | ⟨behind, parts, slashes⟩
  · have nothing : more = [] := by
      refine List.eq_nil_iff_forall_not_mem.mpr fun c among => plain ?_
      have slash : c = '/' := by
        have inside : c ∈ List.replicate m '/' := slashes ▸ List.mem_append_left _ among
        exact List.eq_of_mem_replicate inside
      rw [parts]
      exact List.mem_append_right _ (slash ▸ among)
    subst nothing
    exact ⟨[], by simpa using parts.symm, slashes⟩
  · exact ⟨behind, parts, slashes.symm⟩

/-- The scheme of an address stays when a slash and any text are put behind it, and so does what
stands between them, but for blanks and control characters. -/
theorem scheme?_append {front rest : List Char} {n : Nat} {scheme : String}
    (read : scheme? (cleaned (String.ofList (front ++ List.replicate n '/'))) = some (scheme, rest)) :
    ∃ behind blanks m, Trailing front blanks ∧
      behind ++ List.replicate m '/' = rest ++ blanks ∧
      ∀ tail, ∃ tail', scheme? (cleaned (String.ofList (front ++ '/' :: tail))) =
        some (scheme, behind ++ '/' :: tail') := by
  obtain ⟨blanks, m, trailing, whole⟩ := cleaned_slashes front n
  obtain ⟨c, name, letter, chars, named, parts⟩ := scheme?_eq_some_iff.mp read
  have plain : '/' ∉ c :: name ++ [':'] := by
    intro slash
    rcases List.mem_append.mp slash with slash | slash
    · exact absurd (chars _ slash) (by decide)
    · exact absurd (List.mem_singleton.mp slash) (by decide)
  have whole' : unbroken (front.dropWhile isEdge) ++ List.replicate m '/' =
      c :: name ++ [':'] ++ (rest ++ blanks) := by
    rw [whole, parts]
    simp
  obtain ⟨behind, before, same⟩ := append_slashes plain whole'
  refine ⟨behind, blanks, m, trailing, same, fun tail =>
    ⟨unbroken (tail.reverse.dropWhile isEdge).reverse, ?_⟩⟩
  rw [cleaned_slash, before]
  exact scheme?_eq_some_iff.mpr ⟨c, name, letter, chars, named, by simp⟩

/-- **Nothing behind an address changes where it leads.** Any text may follow the slash that is put
behind an address, and the origin stays. Only blanks and control characters at its end, which
fall away as long as they are there, can make it unreadable. -/
theorem origin_append {front : List Char} {n : Nat} {u : Url}
    (read : parse? (String.ofList (front ++ List.replicate n '/')) = some u)
    (web : isWebScheme u.scheme = true) :
    (∀ tail, (parse? (String.ofList (front ++ '/' :: tail))).map origin = some u.origin) ∨
      EndsOnEdge front ∧ ∀ tail, parse? (String.ofList (front ++ '/' :: tail)) = none := by
  obtain ⟨rest, parts⟩ := scheme_parse? read
  obtain ⟨behind, blanks, m, trailing, same, after⟩ := scheme?_append parts
  have own : originOf? u.scheme (authorityOf rest) = some u.origin := by
    rw [← origin_parse? parts web, read]
    rfl
  have named : authorityOf rest ≠ [] := by
    intro nothing
    rw [nothing, originOf?_nil] at own
    cases own
  obtain ⟨more, kinds, authority⟩ := authorityOf_edges named trailing.edges
  rw [← same, authorityOf_slashes] at authority
  have named' : authorityOf behind ≠ [] := by
    rw [authority]
    simp [named]
  have moved (tail : List Char) : (parse? (String.ofList (front ++ '/' :: tail))).map origin =
      originOf? u.scheme (authorityOf rest ++ more) := by
    obtain ⟨tail', parts'⟩ := after tail
    rw [origin_parse? parts' web, authorityOf_slash named', authority]
  rcases List.eq_nil_or_concat more with rfl | ⟨front', c, rfl⟩
  · exact .inl fun tail => by rw [moved, List.append_nil, own]
  · obtain rfl := kinds.resolve_left (by simp)
    have edge : isEdge c = true := trailing.edges c (by simp)
    have refused (tail : List Char) :
        (parse? (String.ofList (front ++ '/' :: tail))).map origin = none := by
      rw [moved, List.concat_eq_append, ← List.append_assoc, originOf?_edge edge]
    exact .inr ⟨trailing.trail (by simp), fun tail => Option.map_eq_none_iff.mp (refused tail)⟩

/-- The scheme of an address stays, whatever it is. -/
theorem scheme_append {front tail : List Char} {n : Nat} {u v : Url}
    (read : parse? (String.ofList (front ++ List.replicate n '/')) = some u)
    (read' : parse? (String.ofList (front ++ '/' :: tail)) = some v) : v.scheme = u.scheme := by
  obtain ⟨rest, parts⟩ := scheme_parse? read
  obtain ⟨rest', parts'⟩ := scheme_parse? read'
  obtain ⟨behind, -, -, -, -, after⟩ := scheme?_append parts
  obtain ⟨tail', same⟩ := after tail
  exact (Prod.mk.inj (Option.some.inj (parts'.symm.trans same))).1

/-! ## Requests -/

/-- A request is sent when its address has a host and a scheme of the web and its headers can be
written. -/
theorem Request.destination_eq_ok_iff {r : Request} {v : Url} :
    r.destination = .ok v ↔ parse? r.url = some v ∧ v.host.isSome = true ∧
      (r.headers.all fun h => isHeaderValue h.2) = true ∧
      (v.scheme = "http" ∨ v.scheme = "https") := by
  unfold destination
  cases parse? r.url with
  | none => simp
  | some u =>
    simp only [Option.some.injEq]
    split_ifs with host headers scheme
    · simp only [false_iff]
      rintro ⟨rfl, some, -⟩
      simp [Option.isNone_iff_eq_none.mp host] at some
    · simp only [Bool.not_eq_true', Bool.eq_false_iff] at headers
      simp only [false_iff]
      exact fun sent => headers sent.2.2.1
    · simp only [false_iff]
      rintro ⟨rfl, -, -, web⟩
      exact web.elim scheme.1 scheme.2
    · rw [Except.ok.injEq]
      refine ⟨?_, And.left⟩
      rintro rfl
      exact ⟨rfl, by simpa [Option.isSome_iff_ne_none] using host, by simpa using headers, by tauto⟩

theorem isWebScheme_of_http {scheme : String} (web : scheme = "http" ∨ scheme = "https") :
    isWebScheme scheme = true := by
  rcases web with rfl | rfl <;> decide

end TriageDesk.Http
