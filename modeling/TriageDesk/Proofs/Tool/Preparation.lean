/-
TriageDesk.Proofs.Tool.Preparation — an accepted catalog asks well-formed requests of its server.

What the check of a catalog demands is what the preparation of a disposal needs:
the method is read by the same rules in both (`Endpoint.defect?_eq_none_iff`), and
the slash with which a path begins begins no placeholder, so no parameter takes it
away (`fill_slash`). The slash ends the authority of the server's address, so that
no name and no value of a parameter reaches it (`LeadsTo`).
-/
import TriageDesk.Catalog
import TriageDesk.Proofs.Http.Origin
import TriageDesk.Proofs.Template.Filling
import TriageDesk.Tool.Disposal

namespace TriageDesk

open Text

/-! ## Accepted catalogs -/

/-- An endpoint is sound when its method is a token and its path begins with a slash. -/
theorem Endpoint.defect?_eq_none_iff {e : Endpoint} :
    e.defect? = none ↔ isToken e.methodName = true ∧ ∃ path, e.path.toList = '/' :: path := by
  have slash : startsWith ['/'] e.path.toList = true ↔ ∃ path, e.path.toList = '/' :: path := by
    rw [startsWith_iff]
    exact ⟨fun ⟨path, same⟩ => ⟨path, same.symm⟩, fun ⟨path, same⟩ => ⟨path, same.symm⟩⟩
  rw [← slash, defect?]
  split_ifs with method path
  · simp at method
    simp [method]
  · simp at path
    simp [path]
  · simp at method path
    simp [method, path]

namespace Catalog

/-- A catalog is accepted when no query is blank and every endpoint is sound. -/
theorem refusal?_eq_none_iff {queries : Table String} {own : Table Endpoint} :
    refusal? queries own = none ↔ (∀ name sql, queries.get? name = some sql → allBlank sql = false) ∧
      ∀ id e, own.get? id = some e → e.defect? = none := by
  simp only [← Table.mem_entries_iff]
  unfold refusal?
  split
  · next name sql found =>
    have among := List.mem_of_find?_eq_some found
    have blank := List.find?_some found
    simp only [reduceCtorEq, false_iff, not_and]
    exact fun solid => absurd (solid _ _ among) (by simp [blank])
  · next nothing =>
    simp only [List.findSome?_eq_none_iff, Option.map_eq_none_iff, Prod.forall]
    refine ⟨fun sound => ⟨fun name sql among => ?_, sound⟩, fun accepted => accepted.2⟩
    simpa using List.find?_eq_none.mp nothing _ among

theorem get?_endpointsWith (own : Table Endpoint) (id : String) :
    (endpointsWith own).get? id = (own.get? id).or (builtinEndpoints.get? id) :=
  Table.get?_override _ _ _

theorem builtin_sound : ∀ e ∈ builtinEndpoints.entries, e.2.defect? = none := by decide +kernel

/-- Every endpoint of an accepted catalog is sound, its own ones and the built-in ones. -/
theorem endpointsWith_sound {queries : Table String} {own : Table Endpoint}
    (accepted : refusal? queries own = none) {id : String} {e : Endpoint}
    (found : (endpointsWith own).get? id = some e) : e.defect? = none := by
  rw [get?_endpointsWith, Option.or_eq_some_iff] at found
  rcases found with found | ⟨-, found⟩
  · exact (refusal?_eq_none_iff.mp accepted).2 id e found
  · exact builtin_sound (id, e) ((Table.mem_entries_iff _ _ _).mpr found)

end Catalog

namespace Disposal

/-! ## Addresses without slashes at the end -/

/-- A text without slashes at its end is the text up to them, and none is left. -/
theorem withoutSlashes_spec (s : String) :
    (∃ n, s = String.ofList ((withoutSlashes s).toList ++ List.replicate n '/')) ∧
      (withoutSlashes s).toList.getLast? ≠ some '/' := by
  have whole := List.takeWhile_append_dropWhile (p := (· = '/')) (l := s.toList.reverse)
  have slashes : s.toList.reverse.takeWhile (· = '/') =
      List.replicate (s.toList.reverse.takeWhile (· = '/')).length '/' :=
    List.eq_replicate_of_mem fun c among => by simpa using List.mem_takeWhile_imp among
  constructor
  · refine ⟨(s.toList.reverse.takeWhile (· = '/')).length, ?_⟩
    rw [← List.reverse_replicate, ← slashes, withoutSlashes, String.toList_ofList,
      ← List.reverse_append, whole, List.reverse_reverse, String.ofList_toList]
  · intro last
    rw [withoutSlashes, String.toList_ofList, List.getLast?_reverse] at last
    have none := List.head?_dropWhile_not (· = '/') s.toList.reverse
    rw [last] at none
    simp at none

@[simp] theorem baseUrl_ofServer (endpoints : Table Endpoint) (baseUrl apiKey : String) :
    (ofServer endpoints baseUrl apiKey).baseUrl = withoutSlashes baseUrl := rfl

/-! ## What is prepared -/

/-- What a disposal through an endpoint comes to. -/
structure Renders (d : Disposal) (e : Endpoint) (params : Parameters) (p : Prepared) : Prop where
  method : p.method = asciiUpper (trimmed e.method)
  token : Endpoint.isToken p.method = true
  /-- There is no body exactly when the endpoint has no template of one. -/
  absent : p.body = none ↔ e.body = ""
  filled : ∀ body ∈ p.body, body = Template.fill e.body params
  /-- The path begins with a slash, filled in or not. -/
  url : ∃ path, Template.fill e.path params = "/" ++ path ∧
    p.url = d.baseUrl ++ "/" ++ path

/-- The requests of a server lead to an address. -/
structure LeadsTo (d : Disposal) (u : Http.Url) : Prop where
  /-- Wherever a request is sent, it is sent there. -/
  stays : ∀ id params p v, d.prepare id params = .ok p → (d.request p).destination = .ok v →
    v.origin = u.origin
  /-- If one request can be sent, every other can, and to the same place. -/
  alike : ∀ id params p v id' params' p', d.prepare id params = .ok p →
    (d.request p).destination = .ok v → d.prepare id' params' = .ok p' →
      ∃ v', (d.request p').destination = .ok v' ∧ v'.origin = v.origin
  /-- Every request can be sent if the address is one of the web with nothing behind it and the
  key fits into a header. -/
  reaches : u.scheme = "http" ∨ u.scheme = "https" → Http.isHeaderValue d.apiKey = true →
    ¬ Http.EndsOnEdge d.baseUrl.toList → ∀ id params p, d.prepare id params = .ok p →
      ∃ v, (d.request p).destination = .ok v ∧ v.origin = u.origin

/-- What a server of disposals asks of which address, whatever it is called with. -/
structure RequestLaws (own : Table Endpoint) (baseUrl : String) (d : Disposal) : Prop where
  /-- The address of the server is the given one up to the slashes at its end. -/
  based : (∃ n, baseUrl = String.ofList (d.baseUrl.toList ++ List.replicate n '/')) ∧
    d.baseUrl.toList.getLast? ≠ some '/'
  /-- A disposal is refused exactly when neither table has its endpoint, and for no other reason. -/
  refused : ∀ id params f, d.prepare id params = .error f ↔
    f = .unknownEndpoint id ∧ own.get? id = none ∧ Catalog.builtinEndpoints.get? id = none
  worded : ∀ id params f, d.prepare id params = .error f → f.message = "api not found: " ++ id
  /-- Any other goes through the endpoint of the configuration, or else the built-in one. -/
  asked : ∀ id params e, (own.get? id).or (Catalog.builtinEndpoints.get? id) = some e →
    ∃ p, d.prepare id params = .ok p ∧ Renders d e params p
  leads : ∀ u, Http.Url.parse? baseUrl = some u → LeadsTo d u

/-! ## What is asked for -/

/-- A filled path keeps the slash with which it begins. -/
theorem fill_slash (params : Parameters) {template : String} {path : List Char}
    (slash : template.toList = '/' :: path) :
    ∃ filled, Template.fill template params = "/" ++ filled := by
  refine ⟨String.ofList (Template.fillText params path), String.toList_inj.mp ?_⟩
  rw [Template.fill_eq, String.toList_ofList, slash,
    Template.fillText_cons params (by decide) (by decide)]
  simp

variable {queries : Table String} {own : Table Endpoint} {baseUrl apiKey : String}

/-- A disposal through an endpoint of an accepted catalog is prepared. -/
theorem prepare_sound (accepted : Catalog.refusal? queries own = none) {id : String} {e : Endpoint}
    (found : (Catalog.endpointsWith own).get? id = some e) (params : Parameters) :
    ∃ p, (ofServer (Catalog.endpointsWith own) baseUrl apiKey).prepare id params = .ok p ∧
      Renders (ofServer (Catalog.endpointsWith own) baseUrl apiKey) e params p := by
  have sound := Catalog.endpointsWith_sound accepted found
  obtain ⟨token, path, slash⟩ := Endpoint.defect?_eq_none_iff.mp sound
  obtain ⟨filled, path'⟩ := fill_slash params slash
  have prepared : (ofServer (Catalog.endpointsWith own) baseUrl apiKey).prepare id params =
      .ok { method := e.methodName
            url := withoutSlashes baseUrl ++ Template.fill e.path params
            body := if e.body = "" then none else some (Template.fill e.body params) } := by
    simp only [prepare, prepareWith, ofServer, found, token, if_true]
  refine ⟨_, prepared, rfl, token, ?_, ?_, filled, path', ?_⟩
  · by_cases empty : e.body = "" <;> simp [empty]
  · by_cases empty : e.body = "" <;> simp [empty]
  · simp only [path', baseUrl_ofServer, String.append_assoc]

theorem prepare_unknown {endpoints : Table Endpoint} {id : String}
    (unknown : endpoints.get? id = none) (params : Parameters) :
    (ofServer endpoints baseUrl apiKey).prepare id params = .error (.unknownEndpoint id) := by
  simp only [prepare, prepareWith, ofServer, unknown]

/-- The address of a request of an accepted catalog: a slash stands behind the server's. -/
theorem url_prepared (accepted : Catalog.refusal? queries own = none) {id : String}
    {params : Parameters} {p : Prepared}
    (prepared : (ofServer (Catalog.endpointsWith own) baseUrl apiKey).prepare id params = .ok p) :
    ∃ tail, p.url = String.ofList ((withoutSlashes baseUrl).toList ++ '/' :: tail) := by
  cases found : (Catalog.endpointsWith own).get? id with
  | none =>
    rw [prepare_unknown found] at prepared
    cases prepared
  | some e =>
    obtain ⟨p', prepared', renders⟩ := prepare_sound accepted found params
    obtain rfl := Except.ok.inj (prepared.symm.trans prepared')
    obtain ⟨path, -, url⟩ := renders.url
    exact ⟨path.toList, by rw [url, ← String.toList_inj]; simp⟩

/-! ## The server it is asked of -/

/-- What is read of the addresses of all requests: the origin of the server, or nothing, if blanks
or control characters stand behind the server's address. -/
theorem parse?_prepared (accepted : Catalog.refusal? queries own = none) {u : Http.Url}
    (read : Http.Url.parse? baseUrl = some u) (web : Http.Url.isWebScheme u.scheme = true) :
    (∀ id params p, (ofServer (Catalog.endpointsWith own) baseUrl apiKey).prepare id params = .ok p →
      ∃ v, Http.Url.parse? p.url = some v ∧ v.origin = u.origin) ∨
    Http.EndsOnEdge (withoutSlashes baseUrl).toList ∧
      ∀ id params p, (ofServer (Catalog.endpointsWith own) baseUrl apiKey).prepare id params = .ok p →
        Http.Url.parse? p.url = none := by
  obtain ⟨⟨n, whole⟩, -⟩ := withoutSlashes_spec baseUrl
  rw [whole] at read
  rcases Http.origin_append read web with leads | ⟨edge, lost⟩
  · refine .inl fun id params p prepared => ?_
    obtain ⟨tail, url⟩ := url_prepared accepted prepared
    rw [url]
    exact Option.map_eq_some_iff.mp (leads tail)
  · refine .inr ⟨edge, fun id params p prepared => ?_⟩
    obtain ⟨tail, url⟩ := url_prepared accepted prepared
    rw [url]
    exact lost tail

/-- A request can only be sent if the server's address is one of the web. -/
theorem web_of_sent (accepted : Catalog.refusal? queries own = none) {u v : Http.Url}
    (read : Http.Url.parse? baseUrl = some u) {id : String} {params : Parameters} {p : Prepared}
    (prepared : (ofServer (Catalog.endpointsWith own) baseUrl apiKey).prepare id params = .ok p)
    (sent : ((ofServer (Catalog.endpointsWith own) baseUrl apiKey).request p).destination = .ok v) :
    Http.Url.isWebScheme u.scheme = true := by
  obtain ⟨⟨n, whole⟩, -⟩ := withoutSlashes_spec baseUrl
  obtain ⟨tail, url⟩ := url_prepared accepted prepared
  obtain ⟨read', -, -, web⟩ := Http.Request.destination_eq_ok_iff.mp sent
  rw [whole] at read
  rw [request, url] at read'
  rw [← Http.scheme_append read read']
  exact Http.isWebScheme_of_http web

/-- The requests of an accepted catalog lead to the address of its server. -/
theorem leadsTo_server (accepted : Catalog.refusal? queries own = none) {u : Http.Url}
    (read : Http.Url.parse? baseUrl = some u) :
    LeadsTo (ofServer (Catalog.endpointsWith own) baseUrl apiKey) u := by
  refine ⟨?_, ?_, ?_⟩
  · intro id params p v prepared sent
    obtain ⟨read', -⟩ := Http.Request.destination_eq_ok_iff.mp sent
    have read' : Http.Url.parse? p.url = some v := read'
    rcases parse?_prepared accepted read (web_of_sent accepted read prepared sent) with
      leads | ⟨-, lost⟩
    · obtain ⟨v', read'', same⟩ := leads id params p prepared
      obtain rfl := Option.some.inj (read'.symm.trans read'')
      exact same
    · simp [lost id params p prepared] at read'
  · intro id params p v id' params' p' prepared sent prepared'
    have web := web_of_sent accepted read prepared sent
    obtain ⟨read', host, headers, http⟩ := Http.Request.destination_eq_ok_iff.mp sent
    have read' : Http.Url.parse? p.url = some v := read'
    rcases parse?_prepared accepted read web with leads | ⟨-, lost⟩
    · obtain ⟨w, found, same⟩ := leads id params p prepared
      obtain ⟨w', found', same'⟩ := leads id' params' p' prepared'
      obtain rfl := Option.some.inj (read'.symm.trans found)
      obtain ⟨scheme, place⟩ := Prod.mk.inj (same'.trans same.symm)
      have host' : w'.host = v.host := (Prod.mk.inj place).1
      refine ⟨w', Http.Request.destination_eq_ok_iff.mpr ⟨found', ?_, headers, ?_⟩,
        same'.trans same.symm⟩
      · rw [host', host]
      · rw [scheme]
        exact http
    · simp [lost id params p prepared] at read'
  · intro http key solid id params p prepared
    have web := Http.isWebScheme_of_http http
    rcases parse?_prepared accepted read web with leads | ⟨edge, -⟩
    · obtain ⟨v, found, same⟩ := leads id params p prepared
      obtain ⟨scheme, place⟩ := Prod.mk.inj same
      have host : v.host = u.host := (Prod.mk.inj place).1
      refine ⟨v, Http.Request.destination_eq_ok_iff.mpr ⟨found, ?_, ?_, ?_⟩, same⟩
      · rw [host]
        exact Http.host_of_web read web
      · have typed : Http.isHeaderValue "application/json" = true := by decide
        by_cases unlocked : apiKey = ""
        · simp [request, ofServer, unlocked, typed]
        · simpa [request, ofServer, unlocked, typed] using key
      · rw [scheme]
        exact http
    · exact absurd edge solid

/-- **An accepted catalog asks well-formed requests of its server.** -/
theorem prepare_requestLaws (accepted : Catalog.refusal? queries own = none) :
    RequestLaws own baseUrl (ofServer (Catalog.endpointsWith own) baseUrl apiKey) := by
  have refused (id : String) (params : Parameters) (f : Failure) :
      (ofServer (Catalog.endpointsWith own) baseUrl apiKey).prepare id params = .error f ↔
        f = .unknownEndpoint id ∧ own.get? id = none ∧
          Catalog.builtinEndpoints.get? id = none := by
    cases found : (Catalog.endpointsWith own).get? id with
    | none =>
      rw [prepare_unknown found]
      rw [Catalog.get?_endpointsWith, Option.or_eq_none_iff] at found
      simp [found, eq_comm]
    | some e =>
      obtain ⟨p, prepared, -⟩ := prepare_sound accepted found params
      rw [prepared]
      rw [Catalog.get?_endpointsWith] at found
      simp only [reduceCtorEq, false_iff]
      rintro ⟨-, nothing⟩
      simp [nothing] at found
  refine ⟨withoutSlashes_spec baseUrl, refused, ?_, ?_, ?_⟩
  · intro id params f prepared
    rw [((refused id params f).mp prepared).1]
    rfl
  · intro id params e found
    exact prepare_sound accepted ((Catalog.get?_endpointsWith own id).trans found) params
  · exact fun u read => leadsTo_server accepted read

/-- An endpoint that takes the place of a built-in one. -/
def ownConfirmation : Table Endpoint := Table.ofList [("confirm_risk", ⟨" pUt ", "/$path", ""⟩)]

/-- Parameters that would like to be a host and a port, one inside the other. -/
def astray : Parameters :=
  Table.ofList [("path", "$q@evil.example:1/"), ("q", "/evil.example\\")]

/-- A request with these parameters stays at the server. -/
theorem prepare_astray : Catalog.refusal? ∅ ownConfirmation = none ∧
    ∃ p v, (ofServer (Catalog.endpointsWith ownConfirmation) "http://agent@desk.example:8080//"
        "").prepare "confirm_risk" astray = .ok p ∧
      p = ⟨"PUT", "http://agent@desk.example:8080//evil.example\\@evil.example:1/", none⟩ ∧
      Http.Url.parse? p.url = some v ∧ v.origin = ("http", some "desk.example", some 8080) := by
  have accepted : Catalog.refusal? ∅ ownConfirmation = none := by decide +kernel
  have laws : RequestLaws ownConfirmation "http://agent@desk.example:8080//"
      (ofServer _ "http://agent@desk.example:8080//" "") := prepare_requestLaws accepted
  have order : Template.fillOrder astray = astray.entries :=
    Template.fillOrder_eq_entries (by decide)
  have filled : Template.fill "/$path" astray = "//evil.example\\@evil.example:1/" := by
    rw [Template.fill, order]
    rfl
  obtain ⟨⟨method, url, body⟩, prepared, renders⟩ := laws.asked "confirm_risk" astray _ rfl
  have whole : Prepared.mk method url body =
      ⟨"PUT", "http://agent@desk.example:8080//evil.example\\@evil.example:1/", none⟩ := by
    obtain ⟨path, slash, address⟩ := renders.url
    have base : withoutSlashes "http://agent@desk.example:8080//" =
        "http://agent@desk.example:8080" := rfl
    rw [baseUrl_ofServer, base, String.append_assoc, ← slash, filled] at address
    exact (Prepared.mk.injEq ..).mpr ⟨renders.method, address, renders.absent.mpr rfl⟩
  have read : Http.Url.parse? "http://agent@desk.example:8080//" =
      some ⟨"http", "agent", "", some "desk.example", some 8080, "//", none, none⟩ := by
    decide +kernel
  obtain ⟨v, sent, same⟩ :=
    (laws.leads _ read).reaches (.inl rfl) (by decide) (by decide) _ _ _ prepared
  exact ⟨accepted, _, v, prepared, whole, (Http.Request.destination_eq_ok_iff.mp sent).1, same⟩

end Disposal

end TriageDesk
