/-
TriageDesk.Proofs.Config.Layers — which source decides about a setting.

The layers of a configuration, as they are meant to be, are the first of the usual files
that exists, the file that was named, and the environment (`Host.stack`). A file is looked
for by its name without the ending, though, so these are the layers that are read only if
nothing else goes by the names of the files (`Host.Alone`, `Host.layers_eq`); a file without
an ending beside the usual one is read in its place, and hides it (`load_eclipsed`).

Where the files stand alone and the layers fit together `LayerLaws` hold: each setting is
what the highest layer that has it says, and the default where none has it; what a higher
layer sets may be changed in a lower one, and the usual files after the first one that
exists may be changed at will.
-/
import Mathlib.Data.List.Find
import TriageDesk.Config.Sources
import TriageDesk.Proofs.Config.Sections

namespace TriageDesk.Config

open Setting

/-! ## Sources -/

namespace Host

variable (h : Host)

/-- What the file at a path says, if it can be read. -/
def contents (path : String) : Settings :=
  match h.fileLayer path with
  | .ok layer => layer
  | .error _ => []

/-- The usual files after the first one that exists. -/
def later : List String :=
  ((usualNames.dropWhile fun name => !h.has (usualFile name)).drop 1).map usualFile

/-- What the first of the usual files says. -/
def lowest : Settings := (h.first?.map fun name => h.contents (usualFile name)).getD []

/-- What the file that was named says. -/
def named (path : Option String) : Settings := (path.map h.contents).getD []

/-- The layers of a configuration, the lowest first. -/
def stack (environment : Table String) (path : Option String) : List Settings :=
  [h.lowest, h.named path, environmentLayer environment]

/-- The places at which a file of a name is looked for. -/
def places (name : String) : List String := name :: h.endings.map (withEnding name)

/-- Nothing but the files themselves goes by their names. -/
structure Alone (path : Option String) : Prop where
  toml : .toml ∈ h.tried
  usual : ∀ name, h.first? = some name → ∀ p ∈ h.places name, h.isFile p = true → p = usualFile name
  given : ∀ p, path = some p → h.at? p ≠ some .directory

/-- Hosts on which there is the same at some paths, and which read files alike. -/
structure SameAt (P : String → Prop) (h h' : Host) : Prop where
  at? : ∀ p, P p → h'.at? p = h.at? p
  tried : h'.tried = h.tried
  foreign : h'.foreign = h.foreign

variable {h} {h' : Host} {name p : String} {path : Option String}

/-! ### Where files are found -/

theorem withEnding_toml : ∀ name ∈ usualNames, withEnding name "toml" = usualFile name := by
  decide +kernel

theorem fileLayer_of_notFile (noFile : h.isFile p = false) : h.fileLayer p = .ok [] := by
  rw [isFile] at noFile
  rw [fileLayer]
  cases at_eq : h.at? p with
  | none => cases Format.ofPath? p <;> rfl
  | some entry =>
    rw [at_eq] at noFile
    cases entry with
    | text | unreadable => cases noFile
    | directory => cases Format.ofPath? p <;> rfl

theorem namedLayer_of_isFile (file : h.isFile p = true) : h.namedLayer p = h.fileLayer p := by
  rw [namedLayer, found?, if_pos file]

/-- A usual file that stands alone is what its name leads to. -/
theorem namedLayer_usual (alone : h.Alone path) (first : h.first? = some name) :
    h.namedLayer name = h.fileLayer (usualFile name) := by
  have among : name ∈ usualNames := List.mem_of_find?_eq_some first
  have only := alone.usual name first
  have bare : h.isFile name = false := by
    have other : ∀ name ∈ usualNames, name ≠ usualFile name := by decide +kernel
    exact Bool.eq_false_iff.mpr fun file => other name among (only name List.mem_cons_self file)
  have onlyEnding : ∀ p ∈ h.endings.map (withEnding name), h.isFile p = true → p = usualFile name :=
    fun p place => only p (List.mem_cons_of_mem _ place)
  rw [namedLayer, found?, if_neg (by rw [bare]; exact Bool.false_ne_true)]
  cases found : (h.endings.map (withEnding name)).find? h.isFile with
  | some p =>
    have place := List.mem_of_find?_eq_some found
    rw [onlyEnding p place (List.find?_some found)]
  | none =>
    have ending : "toml" ∈ h.endings := List.mem_flatMap.mpr ⟨.toml, alone.toml, by decide⟩
    have noFile := List.find?_eq_none.mp found _ (List.mem_map_of_mem ending)
    rw [withEnding_toml name among] at noFile
    exact (fileLayer_of_notFile (Bool.eq_false_iff.mpr noFile)).symm

theorem givenLayer_of_notDirectory (given : h.at? p ≠ some .directory) :
    h.givenLayer (some p) = h.fileLayer p := by
  rw [givenLayer, has]
  cases at_eq : h.at? p with
  | none =>
    exact (fileLayer_of_notFile (by rw [isFile, at_eq])).symm
  | some entry =>
    rw [at_eq] at given
    rw [Option.isSome_some, if_pos rfl]
    refine namedLayer_of_isFile ?_
    rw [isFile, at_eq]
    cases entry with
    | text | unreadable => rfl
    | directory => exact absurd rfl given

theorem contents_of_ok {layer : Settings} (read : h.fileLayer p = .ok layer) :
    h.contents p = layer := by
  rw [contents, read]

/-- **The layers that are read are those that are meant**, if the files stand alone. -/
theorem layers_eq (alone : h.Alone path) {environment : Table String} {layers : List Settings}
    (read : h.layers environment path = .ok layers) : layers = h.stack environment path := by
  obtain ⟨usual, lowest, read⟩ := Json.exists_of_bind read
  obtain ⟨given, named, read⟩ := Json.exists_of_bind read
  cases read
  have lowest_eq : h.lowest = usual := by
    rw [usualLayer] at lowest
    rw [Host.lowest]
    cases first : h.first? with
    | none =>
      rw [first] at lowest
      cases lowest
      rfl
    | some name =>
      rw [first] at lowest
      exact contents_of_ok ((namedLayer_usual alone first).symm.trans lowest)
  have named_eq : h.named path = given := by
    cases path with
    | none =>
      cases named
      rfl
    | some p =>
      exact contents_of_ok ((givenLayer_of_notDirectory (alone.given p rfl)).symm.trans named)
  rw [stack, lowest_eq, named_eq]

/-! ### Files that are not looked at -/

section

variable {P : String → Prop}

theorem SameAt.isFile_eq (same : SameAt P h h') (here : P p) : h'.isFile p = h.isFile p := by
  rw [isFile, isFile, same.at? p here]

theorem SameAt.fileLayer_eq (same : SameAt P h h') (here : P p) :
    h'.fileLayer p = h.fileLayer p := by
  simp only [fileLayer, read?, same.at? p here, same.foreign]

theorem SameAt.namedLayer_eq (same : SameAt P h h') (here : ∀ p ∈ h.places name, P p) :
    h'.namedLayer name = h.namedLayer name := by
  rw [places, List.forall_mem_cons] at here
  obtain ⟨bare, ends⟩ := here
  have endings : h'.endings = h.endings := by rw [Host.endings, Host.endings, same.tried]
  have found : h'.found? name = h.found? name := by
    rw [found?, found?, same.isFile_eq bare, endings]
    congr 1
    exact List.find?_congr fun p place => same.isFile_eq (ends p place)
  rw [namedLayer, namedLayer, found]
  cases there : h.found? name with
  | none => rfl
  | some p =>
    refine same.fileLayer_eq ?_
    rw [found?] at there
    split at there
    · cases there
      exact bare
    · exact ends p (List.mem_of_find?_eq_some there)

theorem SameAt.givenLayer_eq (same : SameAt P h h')
    (here : ∀ name ∈ path, ∀ p ∈ h.places name, P p) : h'.givenLayer path = h.givenLayer path := by
  cases path with
  | none => rfl
  | some name =>
    have here := here name rfl
    rw [givenLayer, givenLayer, has, has, same.at? name (here name List.mem_cons_self),
      same.namedLayer_eq here]

end

/-- Whatever the order in which endings are tried, only known ones are. -/
theorem mem_places (place : p ∈ h.places name) :
    p ∈ name :: (Format.all.flatMap Format.endings).map (withEnding name) := by
  refine (List.mem_cons.mp place).elim (fun bare => bare ▸ List.mem_cons_self) fun place => ?_
  obtain ⟨ending, tried, rfl⟩ := List.mem_map.mp place
  obtain ⟨format, -, its⟩ := List.mem_flatMap.mp tried
  have known : format ∈ Format.all := by cases format <;> decide
  exact List.mem_cons_of_mem _ (List.mem_map_of_mem (List.mem_flatMap.mpr ⟨format, known, its⟩))

/-- **Nothing matters but what is consulted.** -/
theorem load_consulted (same : SameAt (· ∈ consulted path) h h') (environment : Table String) :
    h'.load environment path = h.load environment path := by
  have onward {name : String} (among : name ∈ usualNames ++ path.toList) :
      ∀ p ∈ h.places name, p ∈ consulted path := fun p place =>
    List.mem_append_right _ (List.mem_flatMap.mpr ⟨name, among, mem_places place⟩)
  have first : h'.first? = h.first? := by
    refine List.find?_congr fun name among => ?_
    have usual : usualFile name ∈ consulted path :=
      List.mem_append_left _ (List.mem_map_of_mem among)
    rw [has, has, same.at? _ usual]
  have usual : h'.usualLayer = h.usualLayer := by
    rw [usualLayer, usualLayer, first]
    cases found : h.first? with
    | none => rfl
    | some name =>
      exact same.namedLayer_eq (onward (List.mem_append_left _ (List.mem_of_find?_eq_some found)))
  have given : h'.givenLayer path = h.givenLayer path := by
    refine same.givenLayer_eq fun name its => onward (List.mem_append_right _ ?_)
    exact Option.mem_toList.mpr its
  rw [load, load, layers, layers, usual, given]

/-- A name never leads to the usual file of another name. -/
theorem places_apart {other : String} (among : name ∈ usualNames) (among' : other ∈ usualNames)
    (ne : other ≠ name) : usualFile other ∉ h.places name := by
  have apart : ∀ name ∈ usualNames, ∀ other ∈ usualNames, other ≠ name →
      usualFile other ∉ name :: (Format.all.flatMap Format.endings).map (withEnding name) := by
    decide +kernel
  exact fun place => apart name among other among' ne (mem_places place)

/-- The usual names before and after the first one that counts. -/
theorem exists_later (first : h.first? = some name) :
    ∃ before after, usualNames = before ++ name :: after ∧ h.later = after.map usualFile ∧
      h.has (usualFile name) = true ∧ ∀ other ∈ before, (!h.has (usualFile other)) = true := by
  obtain ⟨here, before, after, cut, missing⟩ := List.find?_eq_some_iff_append.mp first
  refine ⟨before, after, cut, ?_, here, missing⟩
  rw [later, cut, List.dropWhile_append_of_pos missing,
    List.dropWhile_cons_of_neg (by rw [here]; exact Bool.false_ne_true)]
  rfl

/-- The usual files after the first one that exists are not looked at. -/
theorem usualLayer_eq (same : SameAt (· ∉ h.later) h h') : h'.usualLayer = h.usualLayer := by
  cases first : h.first? with
  | none =>
    have none_has := List.find?_eq_none.mp first
    have nothing : h.later = [] := by
      rw [later, List.dropWhile_eq_nil_iff.mpr (by simpa using none_has)]
      rfl
    have first' : h'.first? = none := by
      refine List.find?_eq_none.mpr fun name among => ?_
      rw [has, same.at? _ (by rw [nothing]; exact List.not_mem_nil)]
      exact none_has name among
    rw [usualLayer, usualLayer, first, first']
  | some name =>
    obtain ⟨before, after, cut, later_eq, here, missing⟩ := exists_later first
    have distinct : (usualNames.map usualFile).Nodup := by decide +kernel
    rw [cut, List.map_append, List.map_cons, ← later_eq, List.nodup_append] at distinct
    obtain ⟨-, onward, apart⟩ := distinct
    rw [List.nodup_cons] at onward
    have first' : h'.first? = some name := by
      refine List.find?_eq_some_iff_append.mpr ⟨?_, before, after, cut, fun other among => ?_⟩
      · rw [has, same.at? _ onward.1]
        exact here
      · have kept : usualFile other ∉ h.later := fun later =>
          apart _ (List.mem_map_of_mem among) _ (List.mem_cons_of_mem _ later) rfl
        rw [has, same.at? _ kept]
        exact missing other among
    rw [usualLayer, usualLayer, first, first']
    refine same.namedLayer_eq fun p place later => ?_
    obtain ⟨other, among, rfl⟩ := List.mem_map.mp (later_eq ▸ later)
    have ne : other ≠ name := fun same => onward.1 (same ▸ later)
    refine places_apart ?_ ?_ ne place
    · exact cut ▸ List.mem_append_right _ List.mem_cons_self
    · exact cut ▸ List.mem_append_right _ (List.mem_cons_of_mem _ among)

/-! ## What the layers decide -/

/-- The settings that the layers make together. -/
def merged (h : Host) (environment : Table String) (path : Option String) : Setting :=
  .table ((h.stack environment path).foldl withLayer []) none

/-- What holds of a configuration that was loaded. -/
structure LayerLaws (h : Host) (environment : Table String) (path : Option String) (c : Config) :
    Prop where
  /-- At the end of every way is what the highest layer has there that has anything. -/
  decided : ∀ way, way ≠ [] → nodeAt way (h.merged environment path) =
    (said (environmentLayer environment) way).or ((said (h.named path) way).or (said h.lowest way))
  /-- Every part of the configuration is what is set at the end of its way, or its default. -/
  follows : ∀ name, ∀ i ∈ items name, i.Follows (h.merged environment path) c
  /-- What a higher layer sets may be changed in a lower one. -/
  hidden : ∀ (h' : Host) (path' : Option String) (usual given : Settings),
    h'.layers environment path' = .ok [usual, given, environmentLayer environment] →
    [usual, given, environmentLayer environment].Pairwise Compatible →
    (∀ way, said usual way ≠ said h.lowest way →
      said (h.named path) way ≠ none ∨ said (environmentLayer environment) way ≠ none) →
    (∀ way, said given way ≠ said (h.named path) way →
      said (environmentLayer environment) way ≠ none) →
    h'.load environment path' = .ok c
  /-- The usual files after the first one do not matter, unless one of them is named. -/
  others : ∀ h', SameAt (· ∉ h.later) h h' → (∀ p, path = some p → p ∉ h.later) →
    h'.load environment path = .ok c

/-- Layers of which the same is known make the same configuration. -/
theorem ofLayers_eq {layers layers' : List Settings} (fit : layers.Pairwise Compatible)
    (fit' : layers'.Pairwise Compatible)
    (same : ∀ way, layers'.reverse.findSome? (said · way) = layers.reverse.findSome? (said · way)) :
    ofLayers layers' = ofLayers layers := by
  rw [ofLayers, ofLayers]
  refine congrArg decoder ?_
  refine (merged_layers layers').ext (merged_layers layers) fun way => ?_
  cases way with
  | nil => rfl
  | cons k steps => rw [nodeAt_layers fit, nodeAt_layers fit', same]

theorem findSome?_said (usual given top : Settings) (way : List String) :
    [usual, given, top].reverse.findSome? (said · way) =
      (said top way).or ((said given way).or (said usual way)) := by
  simp only [List.reverse_cons, List.reverse_nil, List.nil_append, List.cons_append,
    List.findSome?_cons, List.findSome?_nil]
  cases said top way <;> cases said given way <;> cases said usual way <;> rfl

theorem load_of_layers {environment : Table String} {layers : List Settings}
    (read : h.layers environment path = .ok layers) :
    h.load environment path = ofLayers layers := by
  rw [load, read]
  rfl

/-- **Each setting is what the highest layer that has it says**, and nothing below it matters
there, if the files stand alone and no setting is a single value in one layer and a table in
another one. -/
theorem load_layerLaws {environment : Table String} {c : Config} (alone : h.Alone path)
    (fit : (h.stack environment path).Pairwise Compatible)
    (loaded : h.load environment path = .ok c) : h.LayerLaws environment path c := by
  obtain ⟨layers, read, made⟩ := Json.exists_of_bind loaded
  obtain rfl := layers_eq alone read
  constructor
  case decided =>
    intro way some
    obtain ⟨k, steps, rfl⟩ := List.exists_cons_of_ne_nil some
    exact (nodeAt_layers fit k steps).trans (findSome?_said _ _ _ _)
  case follows =>
    exact fun name i among => (heeds name).heeded i among _ c (merged_layers _) made
  case hidden =>
    intro h' path' usual given read' fit' below above
    rw [load_of_layers read', ← made]
    refine ofLayers_eq fit fit' fun way => ?_
    rw [stack, findSome?_said, findSome?_said]
    cases top : said (environmentLayer environment) way with
    | some n => rfl
    | none =>
      have given_eq : said given way = said (h.named path) way :=
        by_contra fun differs => above way differs top
      rw [Option.none_or, Option.none_or, given_eq]
      cases middle : said (h.named path) way with
      | some n => rfl
      | none =>
        rw [Option.none_or, Option.none_or]
        exact by_contra fun differs =>
          (below way differs).elim (fun set => set middle) fun set => set top
  case others =>
    intro h' same apart
    have given : h'.givenLayer path = h.givenLayer path := by
      cases path with
      | none => rfl
      | some p =>
        have here := alone.given p rfl
        have there : h'.at? p ≠ some .directory := same.at? p (apart p rfl) ▸ here
        rw [givenLayer_of_notDirectory here, givenLayer_of_notDirectory there,
          same.fileLayer_eq (apart p rfl)]
    rw [← loaded, load, load, layers, layers, usualLayer_eq same, given]

/-- Two usual files, and one that may be named. -/
def layered : Host := .ofFiles fun path =>
  if path = "config/default.toml" then
    some "[web]\nport = 1\nhost = \"a\"\n[secops.activities.watch]\nmode = \"auto\"\n"
  else if path = "default.toml" then some "web = 1\n"
  else if path = "desk.toml" then some "[Web]\nport = 2\n[app]\nname = \"b\"\n"
  else none

/-- An environment in which the application has another name. -/
def renamed : Table String := Table.ofList [("SECOPS__APP__NAME", "c")]

theorem load_layerLaws_layered :
    layered.Alone (some "desk.toml") ∧
    (layered.stack renamed (some "desk.toml")).Pairwise Compatible ∧
    ∃ c, layered.load renamed (some "desk.toml") = .ok c ∧
      c.web = ⟨"a", 2⟩ ∧ c.app = ⟨"c", 40⟩ ∧
      layered.LayerLaws renamed (some "desk.toml") c := by
  have alone : layered.Alone (some "desk.toml") := by
    refine ⟨by decide, fun name first => ?_, ?_⟩
    · have chosen : layered.first? = some "config/default" := by decide +kernel
      cases first.symm.trans chosen
      decide +kernel
    · rintro _ ⟨⟩
      decide +kernel
  have fit : (layered.stack renamed (some "desk.toml")).Pairwise Compatible := by decide +kernel
  have outcome : (match layered.load renamed (some "desk.toml") with
      | .ok c => decide (c.web = ⟨"a", 2⟩ ∧ c.app = ⟨"c", 40⟩)
      | .error _ => false) = true := by decide +kernel
  cases loaded : layered.load renamed (some "desk.toml") with
  | error e =>
    rw [loaded] at outcome
    cases outcome
  | ok c =>
    rw [loaded] at outcome
    obtain ⟨web, app⟩ := of_decide_eq_true outcome
    exact ⟨alone, fit, c, rfl, web, app, load_layerLaws alone fit loaded⟩

/-- A usual file with a port, and beside it an empty one without an ending. -/
def eclipsed : Host := .ofFiles fun path =>
  if path = "config/default.toml" then some "[web]\nport = 1\n"
  else if path = "config/default" then some ""
  else none

/-- The usual file is not read: what it sets has its default. -/
theorem load_eclipsed :
    eclipsed.first? = some "config/default" ∧
    (eclipsed.stack ∅ none).Pairwise Compatible ∧
    eclipsed.load ∅ none = .ok default ∧
    ¬ eclipsed.LayerLaws ∅ none default := by
  refine ⟨by decide +kernel, by decide +kernel, by rfl, fun laws => ?_⟩
  have port : (Item.field "port" natural16 Web.port (some 18789)).within "web" Config.web ∈
      items "" := by simp [items, Web.items]
  have set : ((eclipsed.merged ∅ none).at? ["web", "port"]).bind (fun v => (natural16 v).toOption) =
      some 1 := by decide +kernel
  obtain ⟨v, there, one⟩ := Option.bind_eq_some_iff.mp set
  have follows : ∃ n, some default.web.port = some n ∧ natural16 v = .ok n :=
    (laws.follows "" _ port).set v there
  obtain ⟨n, usual, read⟩ := follows
  rw [read] at one
  cases one
  cases usual

end Host

end TriageDesk.Config
