/-
TriageDesk.Proofs.Config.Sections — what a configuration has of the settings it was
read from.

An `Item` is a part of what is read: the way to the setting that it comes from, how this
is read, where it is kept, and what it is where nothing is set. What was read follows an
item (`Item.Follows`) if the part is what the setting reads as, or the usual value if
there is no setting.

A record follows its fields (`Heeds.field`) and, one step further in, the items of the
sections in it (`Heeds.section`); a table follows the items of each member
(`Heeds.table`). So `items` lists every setting of a configuration with its default,
section by section, and a configuration follows them all (`heeds`). The members of the
open tables are listed under one name, which may be any.
-/
import TriageDesk.Config.Basic
import TriageDesk.Proofs.Config.Overlay
import TriageDesk.Proofs.Json.Values

namespace TriageDesk.Config

variable {α γ : Type}

/-! ## Items -/

/-- A part of what is read from settings. -/
structure Item (α : Type) where
  {β : Type}
  /-- The way to the setting that it comes from. -/
  way : List String
  /-- How the setting is read. -/
  read : Decoder β
  /-- The part, if there is such a one. -/
  get : α → Option β
  /-- What the part is where nothing is set; nothing if it has to be set. -/
  usual : Option β

namespace Item

/-- The whole of what is read. -/
def whole (d : Decoder α) (usual : Option α) : Item α := ⟨[], d, some, usual⟩

/-- An item of a part that is read one step further in. -/
def within (k : String) (g : α → γ) (i : Item γ) : Item α :=
  ⟨k :: i.way, i.read, fun a => i.get (g a), i.usual⟩

/-- A field of a record. -/
def field (k : String) (d : Decoder γ) (g : α → γ) (usual : Option γ) : Item α :=
  within k g (whole d usual)

/-- An item of the member of a name in a table. -/
def member (k : String) (i : Item α) : Item (Table α) :=
  ⟨k :: i.way, i.read, fun t => (t.get? k).bind i.get, i.usual⟩

/-- The items of a table: the whole of it, the member of a name, and the items of that. -/
def ofTable (k : String) (d : Decoder α) (items : List (Item α)) : List (Item (Table α)) :=
  whole (table d) (some ∅) :: (whole d none :: items).map (member k)

end Item

/-- Whether a table could be at the end of a way: on it there are tables only. -/
def Setting.Open (steps : List String) (s : Setting) : Prop :=
  ∀ front v, front <+: steps → s.at? front = some v → v.isTable = true

/-- Data have what is set at the way, and the usual value where nothing is. -/
structure Item.Follows (i : Item α) (s : Setting) (a : α) : Prop where
  set : ∀ v, s.at? i.way = some v → ∃ b, i.get a = some b ∧ i.read v = .ok b
  unset : s.Open i.way → s.at? i.way = none → ∀ b, i.get a = some b → i.usual = some b

/-- What is read from merged settings follows the item. -/
def Item.Heeded (i : Item α) (d : Decoder α) : Prop :=
  ∀ s a, s.Merged → d s = .ok a → i.Follows s a

/-- What is read follows the items, and where nothing is read at all all of it is usual. -/
structure Heeds (items : List (Item α)) (d : Decoder α) (start : α) : Prop where
  heeded : ∀ i ∈ items, i.Heeded d
  usual : ∀ i ∈ items, ∀ b, i.get start = some b → i.usual = some b

/-! ## Fields -/

/-- Reading the field sets a part to what is read. -/
def Field.Sets (f : Field α) (d : Decoder γ) (g : α → γ) : Prop :=
  ∀ v change, f.change v = .ok change → ∃ x, d v = .ok x ∧ ∀ a, g (change a) = x

/-- Reading the field leaves a part as it is. -/
def Field.Leaves (f : Field α) (g : α → γ) : Prop :=
  ∀ v change, f.change v = .ok change → ∀ a, g (change a) = g a

/-- Among some fields the one of a name, and no other one, sets a part. -/
structure Carries (fields : List (Field α)) (k : String) (d : Decoder γ) (g : α → γ) : Prop where
  named : ∃ f ∈ fields, f.name = k
  sets : ∀ f ∈ fields, f.name = k → f.Sets d g
  leaves : ∀ f ∈ fields, f.name ≠ k → f.Leaves g

section

variable {β : Type} {n : String} {e : Decoder β} {set : β → α → α} {g : α → γ}

theorem change_eq_ok_iff {v : Setting} {change : α → α} :
    (e v).map set = .ok change ↔ ∃ x, e v = .ok x ∧ set x = change := by
  cases e v <;> simp [Except.map]

@[simp] theorem sets_change {g : α → β} {required : Bool} (law : ∀ x a, g (set x a) = x) :
    Field.Sets ⟨n, required, fun s => (e s).map set⟩ e g := by
  intro v change read
  obtain ⟨x, here, rfl⟩ := change_eq_ok_iff.mp read
  exact ⟨x, here, law x⟩

@[simp] theorem leaves_change {required : Bool} (law : ∀ x a, g (set x a) = g a) :
    Field.Leaves ⟨n, required, fun s => (e s).map set⟩ g := by
  intro v change read
  obtain ⟨x, -, rfl⟩ := change_eq_ok_iff.mp read
  exact law x

end

/-- A record that is read from settings of different names has in a part what the setting of
its name reads as. -/
theorem ofTable_carries {fields : List (Field α)} {k : String} {d : Decoder γ} {g : α → γ}
    (carries : Carries fields k d g) {members : Settings} (distinct : (members.map (·.1)).Nodup)
    {start a : α} (read : ofTable fields members start = .ok a) :
    (∀ v, Entries.find? k members = some v → d v = .ok (g a)) ∧
      (Entries.find? k members = none → g a = g start) := by
  induction members generalizing start with
  | nil =>
    cases read
    constructor
    · rintro _ ⟨⟩
    · exact fun _ => rfl
  | cons e rest ih =>
    obtain ⟨j, v⟩ := e
    rw [List.map_cons, List.nodup_cons] at distinct
    obtain ⟨fresh, distinct⟩ := distinct
    rw [ofTable] at read
    cases known : fields.find? (·.name = j) with
    | none =>
      rw [known] at read
      have other : k ≠ j := by
        rintro rfl
        obtain ⟨f, among, named⟩ := carries.named
        exact List.find?_eq_none.mp known f among (by simpa using named)
      rw [Entries.find?, if_neg other]
      exact ih distinct read
    | some f =>
      rw [known] at read
      obtain ⟨change, changed, read⟩ := Json.exists_of_bind read
      rw [Json.mapError_eq_ok_iff] at changed
      have among := List.mem_of_find?_eq_some known
      have named : f.name = j := by simpa using List.find?_some known
      obtain ⟨later, absent⟩ := ih distinct read
      by_cases same : k = j
      · have gone : Entries.find? k rest = none := Entries.find?_eq_none_iff.mpr (same ▸ fresh)
        obtain ⟨x, here, sets⟩ := carries.sets f among (named.trans same.symm) v change changed
        rw [Entries.find?, if_pos same, absent gone, sets start]
        constructor
        · rintro _ ⟨⟩
          exact here
        · rintro ⟨⟩
      · have leaves := carries.leaves f among (fun back => same (back.symm.trans named)) v change
          changed start
        rw [Entries.find?, if_neg same, ← leaves]
        exact ⟨later, absent⟩

/-! ## Records -/

theorem whole_heeded (d : Decoder α) (usual : Option α) : (Item.whole d usual).Heeded d := by
  intro s a _ read
  refine ⟨?_, nofun⟩
  rintro _ ⟨⟩
  exact ⟨a, rfl, read⟩

/-- What follows an item of a member, with what is usual where there is no such member. -/
theorem Item.Follows.inMember {k : String} {i : Item γ} {get : α → Option i.β} {a : α}
    {members : Settings} {origin : Option String}
    (present : ∀ v, Entries.find? k members = some v → ∃ x, i.Follows v x ∧ get a = i.get x)
    (absent : Entries.find? k members = none → ∀ b, get a = some b → i.usual = some b) :
    Item.Follows ⟨k :: i.way, i.read, get, i.usual⟩ (.table members origin) a := by
  have onward (steps : List String) : (Setting.table members origin).at? (k :: steps) =
      (Entries.find? k members).bind (Setting.at? steps) := rfl
  cases found : Entries.find? k members with
  | none =>
    rw [found] at onward
    exact ⟨fun v there => (nomatch (onward i.way).symm.trans there), fun _ _ => absent found⟩
  | some v =>
    rw [found] at onward
    obtain ⟨x, ⟨set, unset⟩, same⟩ := present v found
    refine ⟨fun w there => ?_, fun opened none b kept => ?_⟩
    · obtain ⟨b, kept, here⟩ := set w ((onward i.way).symm.trans there)
      exact ⟨b, same.trans kept, here⟩
    · refine unset (fun front w before there => ?_) ((onward i.way).symm.trans none) b
        (same ▸ kept)
      exact opened (k :: front) w (List.cons_prefix_cons.mpr ⟨rfl, before⟩)
        ((onward front).trans there)

section

variable {name k : String} {fields : List (Field α)} {start : α} {d : Decoder γ} {g : α → γ}

/-- A record is read from a table, field by field, or else by place. -/
theorem record_table {members : Settings} {origin : Option String} {a : α}
    (read : record name fields start (.table members origin) = .ok a) :
    ofTable fields members start = .ok a ∧
      ∀ f ∈ fields, f.required = true → (Entries.find? f.name members).isSome = true := by
  obtain ⟨a', filled, read⟩ := Json.exists_of_bind read
  cases missing : fields.find? fun f => f.required && (Entries.find? f.name members).isNone with
  | some f =>
    rw [missing] at read
    cases read
  | none =>
    rw [missing] at read
    cases read
    refine ⟨filled, fun f among required => ?_⟩
    have here := List.find?_eq_none.mp missing f among
    simpa [required, Option.isSome_iff_ne_none] using here

/-- A record follows what is followed by a part of it, if the part is usual where its field is
missing, or may not be missing. -/
theorem within_heeded (carries : Carries fields k d g) {i : Item γ} (heeded : i.Heeded d)
    (missing : (∃ f ∈ fields, f.name = k ∧ f.required = true) ∨
      ∀ b, i.get (g start) = some b → i.usual = some b) :
    (i.within k g).Heeded (record name fields start) := by
  intro s a merged read
  cases merged with
  | scalar v origin => cases read
  | list items origin =>
    refine ⟨nofun, fun onward => ?_⟩
    cases onward [] _ List.nil_prefix rfl
  | @table members ascending inside =>
    obtain ⟨filled, needed⟩ := record_table read
    obtain ⟨present, absent⟩ := ofTable_carries carries ascending.nodup filled
    refine .inMember (fun v found => ?_) fun none b kept => ?_
    · exact ⟨g a, heeded v (g a) (inside k v found) (present v found), rfl⟩
    · rcases missing with ⟨f, among, named, required⟩ | usual
      · have there := needed f among required
        rw [named, none] at there
        cases there
      · exact usual b (absent none ▸ kept)

/-- Items of a part of a record, and items of the record. -/
theorem Heeds.section {inner : List (Item γ)} {items : List (Item α)}
    (carries : Carries fields k d g) (part : Heeds inner d (g start))
    (rest : Heeds items (record name fields start) start) :
    Heeds (inner.map (.within k g) ++ items) (record name fields start) start := by
  constructor
  · rw [List.forall_mem_append, List.forall_mem_map]
    exact ⟨fun i among => within_heeded carries (part.heeded i among) (.inr (part.usual i among)),
      rest.heeded⟩
  · rw [List.forall_mem_append, List.forall_mem_map]
    exact ⟨part.usual, rest.usual⟩

/-- A field of a record, with its default if it may be missing. -/
theorem field_heeded {usual : Option γ} (carries : Carries fields k d g)
    (missing : (∃ f ∈ fields, f.name = k ∧ f.required = true) ∨ some (g start) = usual) :
    (Item.field k d g usual).Heeded (record name fields start) :=
  within_heeded carries (whole_heeded d usual)
    (missing.imp_right fun same _ kept => same.symm.trans kept)

theorem Heeds.whole (d : Decoder α) (start : α) : Heeds [.whole d (some start)] d start := by
  constructor
  · rw [List.forall_mem_singleton]
    exact whole_heeded d _
  · rw [List.forall_mem_singleton]
    exact fun _ => id

/-- A field of a record. -/
theorem Heeds.field {items : List (Item α)} {usual : γ} (carries : Carries fields k d g)
    (same : g start = usual) (rest : Heeds items (record name fields start) start) :
    Heeds (.field k d g (some usual) :: items) (record name fields start) start :=
  same ▸ .section carries (.whole d (g start)) rest

end

/-! ## Tables -/

theorem members_read {d : Decoder α} {members : Settings} {entries : List (String × α)}
    (read : Config.members d members = .ok entries) :
    entries.map (·.1) = members.map (·.1) ∧
      ∀ k v, Entries.find? k members = some v →
        ∃ a, Entries.find? k entries = some a ∧ d v = .ok a := by
  induction members generalizing entries with
  | nil =>
    cases read
    exact ⟨rfl, nofun⟩
  | cons e rest ih =>
    obtain ⟨j, w⟩ := e
    obtain ⟨a, first, read⟩ := Json.exists_of_bind read
    obtain ⟨more, later, last⟩ := Json.exists_of_bind read
    cases last
    rw [Json.mapError_eq_ok_iff] at first
    obtain ⟨names, found⟩ := ih later
    refine ⟨by rw [List.map_cons, List.map_cons, names], fun k v => ?_⟩
    rw [Entries.find?, Entries.find?]
    split
    · rintro ⟨⟩
      exact ⟨a, rfl, first⟩
    · exact found k v

/-- A table has the members of the settings that it was read from. -/
theorem table_read {d : Decoder α} {members : Settings} {origin : Option String} {t : Table α}
    (distinct : (members.map (·.1)).Nodup) (read : table d (.table members origin) = .ok t)
    (k : String) :
    (∀ v, Entries.find? k members = some v → ∃ a, t.get? k = some a ∧ d v = .ok a) ∧
      (Entries.find? k members = none → t.get? k = none) := by
  rw [table] at read
  cases inside : Config.members d members with
  | error e =>
    rw [inside] at read
    cases read
  | ok entries =>
    rw [inside] at read
    cases read
    obtain ⟨names, found⟩ := members_read inside
    have distinct' : (entries.reverse.map (·.1)).Nodup := by
      rw [List.map_reverse, List.nodup_reverse, names]
      exact distinct
    rw [Table.get?_ofList, Entries.find?_of_perm distinct' entries.reverse_perm]
    refine ⟨found k, fun none => ?_⟩
    rw [Entries.find?_eq_none_iff, names]
    exact Entries.find?_eq_none_iff.mp none

/-- A table follows what its members follow. -/
theorem member_heeded {d : Decoder α} {i : Item α} (heeded : i.Heeded d) (k : String) :
    (i.member k).Heeded (table d) := by
  intro s t merged read
  cases merged with
  | scalar v origin => cases v <;> cases read
  | list items origin => cases read
  | @table members ascending inside =>
    obtain ⟨present, absent⟩ := table_read ascending.nodup read k
    refine .inMember (fun v found => ?_) fun none b kept => ?_
    · obtain ⟨a, there, here⟩ := present v found
      exact ⟨a, heeded v a (inside k v found) here, by rw [there, Option.bind_some]⟩
    · rw [absent none] at kept
      cases kept

theorem Heeds.ofTable {d : Decoder α} {items : List (Item α)}
    (heeded : ∀ i ∈ items, i.Heeded d) (k : String) :
    Heeds (Item.ofTable k d items) (table d) ∅ := by
  constructor
  · rw [Item.ofTable, List.forall_mem_cons, List.forall_mem_map, List.forall_mem_cons]
    exact ⟨whole_heeded _ _, member_heeded (whole_heeded _ _) k,
      fun i among => member_heeded (heeded i among) k⟩
  · rw [Item.ofTable, List.forall_mem_cons, List.forall_mem_map]
    exact ⟨fun _ => id, fun _ _ => nofun⟩

/-! ## The settings of a configuration -/

/-- The settings of the application. -/
def App.items : List (Item App) :=
  [.field "name" text App.name (some "secops"),
   .field "max_history_messages" natural App.maxHistory (some 40),
   .whole App.decoder (some ⟨"secops", 40⟩)]

/-- The settings of the model. -/
def Model.items : List (Item Model) :=
  [.field "provider" text Model.provider (some "openai"),
   .field "model" text Model.model (some "deepseek-chat"),
   .field "base_url" (option text) Model.baseUrl (some (some "https://api.deepseek.com/v1")),
   .field "api_key_env" (option text) Model.keyVariable (some none),
   .field "max_steps" natural Model.maxSteps (some 12),
   .whole Model.decoder
     (some ⟨"openai", "deepseek-chat", some "https://api.deepseek.com/v1", none, 12⟩)]

/-- The settings of the tools. -/
def toolsItems : List (Item Nat) :=
  [.field "tool_timeout_secs" natural id (some 60), .whole toolsDecoder (some 60)]

/-- The settings of the source of the queries. -/
def Clickhouse.items : List (Item Clickhouse) :=
  [.field "addr" text Clickhouse.addr (some "localhost:8123"),
   .field "username" text Clickhouse.username (some ""),
   .field "password" text Clickhouse.password (some ""),
   .whole Clickhouse.decoder (some ⟨"localhost:8123", "", ""⟩)]

/-- The settings of the server of the disposals. -/
def Sheikah.items : List (Item Sheikah) :=
  [.field "base_url" text Sheikah.baseUrl (some "http://localhost:8080"),
   .field "api_key" text Sheikah.apiKey (some ""),
   .whole Sheikah.decoder (some ⟨"http://localhost:8080", ""⟩)]

/-- The settings of an activity. -/
def activityItems : List (Item Activity) :=
  [.field "schedule" text Activity.schedule (some "30m"),
   .field "mode" (choice "ActivityMode" Activity.Mode.named) Activity.mode (some .manual),
   .field "enabled" truth Activity.enabled (some true)]

/-- The settings of an endpoint. -/
def endpointItems : List (Item Endpoint) :=
  [.field "method" text Endpoint.method none,
   .field "path" text Endpoint.path none,
   .field "body" text Endpoint.body (some "")]

/-- The settings of the service, with those of the activity, the query and the endpoint of a
name. -/
def Operations.items (name : String) : List (Item Operations) :=
  .field "enabled" truth Operations.enabled (some true) ::
  (Clickhouse.items.map (.within "clickhouse" Operations.clickhouse) ++
  (Sheikah.items.map (.within "sheikah" Operations.sheikah) ++
  ((Item.ofTable name activityDecoder activityItems).map
    (.within "activities" Operations.activities) ++
  ((Item.ofTable name text []).map (.within "queries" Operations.queries) ++
  ((Item.ofTable name endpointDecoder endpointItems).map (.within "apis" Operations.endpoints) ++
  [.whole Operations.decoder
    (some ⟨true, ⟨"localhost:8123", "", ""⟩, ⟨"http://localhost:8080", ""⟩, ∅, ∅, ∅⟩)])))))

/-- The settings of the pages. -/
def Web.items : List (Item Web) :=
  [.field "host" text Web.host (some "0.0.0.0"),
   .field "port" natural16 Web.port (some 18789),
   .whole Web.decoder (some ⟨"0.0.0.0", 18789⟩)]

/-- The settings of a configuration, with those under one name in the open tables. -/
def items (name : String) : List (Item Config) :=
  App.items.map (.within "app" Config.app) ++
  (Model.items.map (.within "llm" Config.model) ++
  (toolsItems.map (.within "tools" Config.toolTimeout) ++
  ((Operations.items name).map (.within "secops" Config.operations) ++
  (Web.items.map (.within "web" Config.web) ++ [.whole decoder (some default)]))))

/-! ## What was read follows its settings -/

theorem App.heeds : Heeds App.items App.decoder default.app := by
  refine .field ?_ rfl (.field ?_ rfl (.whole _ _)) <;> constructor <;> simp [Field.optional]

theorem Model.heeds : Heeds Model.items Model.decoder default.model := by
  refine .field ?_ rfl (.field ?_ rfl (.field ?_ rfl (.field ?_ rfl (.field ?_ rfl
    (.whole _ _))))) <;> constructor <;> simp [Field.optional]

theorem toolsItems_heeds : Heeds toolsItems toolsDecoder default.toolTimeout := by
  refine .field ?_ rfl (.whole _ _)
  constructor <;> simp [Field.optional]

theorem Clickhouse.heeds :
    Heeds Clickhouse.items Clickhouse.decoder default.operations.clickhouse := by
  refine .field ?_ rfl (.field ?_ rfl (.field ?_ rfl (.whole _ _))) <;>
    constructor <;> simp [Field.optional]

theorem Sheikah.heeds : Heeds Sheikah.items Sheikah.decoder default.operations.sheikah := by
  refine .field ?_ rfl (.field ?_ rfl (.whole _ _)) <;> constructor <;> simp [Field.optional]

theorem Web.heeds : Heeds Web.items Web.decoder default.web := by
  refine .field ?_ rfl (.field ?_ rfl (.whole _ _)) <;> constructor <;> simp [Field.optional]

theorem activity_heeded : ∀ i ∈ activityItems, i.Heeded activityDecoder := by
  simp only [activityItems, List.forall_mem_cons]
  refine ⟨field_heeded ?_ (.inr rfl), field_heeded ?_ (.inr rfl), field_heeded ?_ (.inr rfl),
    nofun⟩ <;> constructor <;> simp [Field.optional]

/-- The method and the path of an endpoint have to be set. -/
theorem endpoint_heeded : ∀ i ∈ endpointItems, i.Heeded endpointDecoder := by
  simp only [endpointItems, List.forall_mem_cons]
  refine ⟨field_heeded ?_ (.inl ⟨_, List.mem_cons_self, rfl, rfl⟩),
    field_heeded ?_ (.inl ⟨_, List.mem_cons_of_mem _ List.mem_cons_self, rfl, rfl⟩),
    field_heeded ?_ (.inr rfl), nofun⟩ <;> constructor <;> simp [Field.needed, Field.optional]

theorem Operations.heeds (name : String) :
    Heeds (Operations.items name) Operations.decoder default.operations := by
  refine .field ?_ rfl (.section ?_ Clickhouse.heeds (.section ?_ Sheikah.heeds
    (.section ?_ (.ofTable activity_heeded name) (.section ?_ (.ofTable nofun name)
      (.section ?_ (.ofTable endpoint_heeded name) (.whole _ _)))))) <;>
    constructor <;> simp [Field.optional]

/-- **A configuration has what its settings say, and the default of every setting that there
is not.** -/
theorem heeds (name : String) : Heeds (items name) decoder default := by
  refine .section ?_ App.heeds (.section ?_ Model.heeds (.section ?_ toolsItems_heeds
    (.section ?_ (Operations.heeds name) (.section ?_ Web.heeds (.whole _ _))))) <;>
    constructor <;> simp [Field.optional]

end TriageDesk.Config
