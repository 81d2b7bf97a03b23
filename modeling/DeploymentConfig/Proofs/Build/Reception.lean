import DeploymentConfig.Build.Message
import DeploymentConfig.Proofs.Schema.Lookup
import DeploymentConfig.Proofs.Schema.Wire

/-!
# Received configurations

What is made of a received message goes by its tag. A tag outside the six is
kept, whatever else the message says (`ReceivedBuild.ofJson?_eq_unknown_iff`). One
of the six is read as the message that has the members of the object, an absent
one being empty or off (`ReceivedBuild.ofJson?_object_eq_known_iff`); so a member
of another type is refused and not replaced (`ReceivedBuild.ofJson?_of_kind_ne`).

* `ApplicationConfig.reception_exact`: all of this, and a configuration has no
  message exactly if none is given.
-/

namespace DeploymentConfig

/-- The types of JSON values. -/
inductive Json.Kind where
  | null
  | bool
  | number
  | string
  | array
  | object
  | unrepresentable
  deriving DecidableEq

def Json.kind : Json → Json.Kind
  | .null => .null
  | .bool _ => .bool
  | .integer _ | .decimal _ => .number
  | .string _ => .string
  | .array _ => .array
  | .object _ => .object
  | .unrepresentable => .unrepresentable

/-! ## The members of a message -/

def DeployConfig.members : DeployConfig → List (String × Json)
  | .runtime c => [("useMariadb", .bool c.useMariadb), ("useMongodb", .bool c.useMongodb),
      ("entrypoint", .string c.entrypoint), ("command", .string c.command)]
  | .static c => [("artifactPath", .string c.artifactPath), ("spa", .bool c.spa)]

def BuildConfig.members : BuildConfig → List (String × Json)
  | .buildpack context => [("context", .string context)]
  | .cmd baseImage buildCmd => [("baseImage", .string baseImage), ("buildCmd", .string buildCmd)]
  | .dockerfile dockerfileName context =>
    [("dockerfileName", .string dockerfileName), ("context", .string context)]

namespace BuildMessage

variable {m m' : BuildMessage}

/-- The tags of the six kinds. -/
def tags : List String :=
  ["runtimeBuildpack", "runtimeCmd", "runtimeDockerfile", "staticBuildpack", "staticCmd",
    "staticDockerfile"]

/-- The members with which a message is written, its tag apart. -/
def members (m : BuildMessage) : List (String × Json) :=
  m.axes.1.members ++ m.axes.2.members

theorem tag_mem_tags (m : BuildMessage) : m.tag ∈ tags := by
  cases m <;> simp [tag, tags]

theorem isPlain_variants : variants.IsPlain := by
  simp [variants, runtimeFields, staticFields, buildpackFields, cmdFields, dockerfileFields,
    Variants.IsPlain, Fields.IsPlain, Schema.IsPlain]

theorem encode_parts (m : BuildMessage) :
    variants.encode "type" m.parts = some (("type", .string m.tag) :: m.members) := by
  cases m <;> rfl

theorem parts_ofParts (p : Parts) : (ofParts p).parts = p := by
  rcases p with _ | _ | _ | _ | _ | _ | p <;> first | rfl | exact p.elim

/-- Messages with the same tag have members of the same names and types. -/
theorem kinds_congr (h : m.tag = m'.tag) :
    m.members.map (fun f => (f.1, f.2.kind)) = m'.members.map fun f => (f.1, f.2.kind) := by
  cases m <;> cases m' <;> first | rfl | simp [tag] at h

end BuildMessage

namespace ReceivedBuild

variable {value : Json} {name : String} {members : List (String × Json)} {m : BuildMessage}

/-- A message with a tag outside the six is read as that tag, and no other message is. -/
theorem ofJson?_eq_unknown_iff : schema.ofJson? value = some (.unknown name) ↔
    value.isReadable = true ∧ value.IsUnlisted "type" BuildMessage.tags name := by
  rw [Schema.ofJson?, schema]
  cases hr : value.isReadable with
  | false => simp [Schema.decode_openUnion_of_not_isReadable .json hr]
  | true =>
    by_cases h : ∃ name, value.IsUnlisted "type" BuildMessage.tags name
    · obtain ⟨name', h'⟩ := h
      rw [Schema.decode_openUnion_of_isUnlisted .json hr h']
      constructor
      · intro he
        cases he
        exact ⟨rfl, h'⟩
      · rintro ⟨-, hn⟩
        rw [h'.eq hn]
    · rw [Schema.decode_openUnion_of_listed .json hr h]
      simpa using fun hn => h ⟨name, hn⟩

theorem member?_ne_tag_of_isUnlisted (h : value.IsUnlisted "type" BuildMessage.tags name)
    (m : BuildMessage) : value.member? "type" ≠ some (.string m.tag) := by
  intro ht
  cases h.1.symm.trans ht
  exact h.2 m.tag_mem_tags

theorem decodeTagged_eq_some_parts_iff :
    BuildMessage.variants.decodeTagged .json "type" (Json.object members).lastWins = some m.parts ↔
      (Json.object members).member? "type" = some (.string m.tag) ∧
        ∀ f ∈ m.members, (Json.object members).Shows f := by
  rw [Json.lastWins, Variants.decodeTagged_eq_some_iff .json BuildMessage.wellFormed_variants
    BuildMessage.isPlain_variants, BuildMessage.encode_parts]
  constructor
  · rintro ⟨_, _, ht, he, hs⟩
    cases he
    exact ⟨ht, hs⟩
  · exact fun ⟨ht, hs⟩ => ⟨_, _, ht, rfl, hs⟩

/-- An object is read as the message that has its tag and is written with members that it shows. -/
theorem ofJson?_object_eq_known_iff : schema.ofJson? (.object members) = some (.known m) ↔
    (Json.object members).isReadable = true ∧
      (Json.object members).member? "type" = some (.string m.tag) ∧
        ∀ f ∈ m.members, (Json.object members).Shows f := by
  rw [← decodeTagged_eq_some_parts_iff, Schema.ofJson?, schema]
  cases hr : (Json.object members).isReadable with
  | false => simp [Schema.decode_openUnion_of_not_isReadable .json hr]
  | true =>
    by_cases h : ∃ name, (Json.object members).IsUnlisted "type" BuildMessage.tags name
    · obtain ⟨name, hn⟩ := h
      rw [Schema.decode_openUnion_of_isUnlisted .json hr hn, decodeTagged_eq_some_parts_iff]
      exact iff_of_false nofun fun h => member?_ne_tag_of_isUnlisted hn m h.2.1
    · rw [Schema.decode_openUnion_of_listed .json hr h, Option.map_eq_some_iff, eq_self, true_and]
      constructor
      · rintro ⟨p, hp, hm⟩
        cases hm
        rwa [BuildMessage.parts_ofParts]
      · exact fun hp => ⟨m.parts, hp, congrArg known m.ofParts_parts⟩

/-- A member that is not of the type of its field is refused, and not taken for missing. -/
theorem ofJson?_of_kind_ne {v w : Json} (ht : value.member? "type" = some (.string m.tag))
    (hf : (name, v) ∈ m.members) (hw : value.member? name = some w) (hk : w.kind ≠ v.kind) :
    schema.ofJson? value = none := by
  cases hv : schema.ofJson? value with
  | none => rfl
  | some build =>
    exfalso
    cases build with
    | unknown name' => exact member?_ne_tag_of_isUnlisted (ofJson?_eq_unknown_iff.mp hv).2 m ht
    | known m' =>
      obtain ⟨members, rfl⟩ := Json.exists_object_of_member? hw
      obtain ⟨-, ht', hs⟩ := ofJson?_object_eq_known_iff.mp hv
      have htag : m.tag = m'.tag := by simpa using ht.symm.trans ht'
      have hm : (name, v.kind) ∈ m'.members.map fun f => (f.1, f.2.kind) := by
        rw [← BuildMessage.kinds_congr htag]
        exact List.mem_map.mpr ⟨(name, v), hf, rfl⟩
      obtain ⟨f, hf', he⟩ := List.mem_map.mp hm
      obtain ⟨rfl, hkind⟩ := Prod.mk.inj he
      rcases hs f hf' with hshown | ⟨hmissing, -⟩
      · have hwf : w = f.2 := Option.some.inj (hw.symm.trans hshown)
        exact hk (hwf ▸ hkind)
      · cases hw.symm.trans hmissing

end ReceivedBuild

/-! ## Configurations -/

/-- Whether a configuration is given without a message: its member is missing or null. -/
def Json.GivesNoBuild (value : Json) : Prop :=
  (∃ members, value = .object members ∧
    ((members.filter (·.1 = "buildConfig")).map (·.2) = [] ∨
      (members.filter (·.1 = "buildConfig")).map (·.2) = [.null])) ∨
  value = .array [] ∨ value = .array [.null]

namespace ApplicationConfig

variable {value : Json} {build : ReceivedBuild}

theorem ofJson?_of_build (hn : value ≠ .null)
    (h : ReceivedBuild.schema.ofJson? value = some build) :
    schema.ofJson? (.object [("buildConfig", value)]) = some ⟨some build⟩ := by
  have hp : ([("buildConfig", value)].filter (["buildConfig"].contains ·.1)).Perm
      [("buildConfig", value)] := by simp
  have hr : Fields.nil.decode .json [("buildConfig", value)] = some () := by rw [Fields.decode]
  rw [Schema.ofJson?, schema, Schema.decode, Fields.decode_elided .json hp hn h hr]
  rfl

theorem ofJson?_object_eq_some_none_iff {members : List (String × Json)} :
    schema.ofJson? (.object members) = some ⟨none⟩ ↔
      (members.filter (·.1 = "buildConfig")).map (·.2) = [] ∨
        (members.filter (·.1 = "buildConfig")).map (·.2) = [.null] := by
  rw [Schema.ofJson?, schema, Schema.decode, Fields.decode, Fields.find?, Json.contains_singleton]
  generalize members.filter (·.1 = "buildConfig") = found
  rcases found with _ | ⟨⟨_, value⟩, _ | ⟨_, _⟩⟩
  · simp [Fields.decode]
  · cases value <;> simp [Fields.decode, Option.bind_eq_some_iff]
  · simp

theorem ofJson?_array_eq_some_none_iff {items : List Json} :
    schema.ofJson? (.array items) = some ⟨none⟩ ↔ items = [] ∨ items = [.null] := by
  rw [Schema.ofJson?, schema, Schema.decode]
  rcases items with _ | ⟨value, _ | ⟨_, _⟩⟩
  · simp [Fields.decodeItems]
  · cases value <;> simp [Fields.decodeItems, Option.bind_eq_some_iff]
  · cases value <;> simp [Fields.decodeItems, Dialect.json]

theorem ofJson?_eq_some_none_iff : schema.ofJson? value = some ⟨none⟩ ↔ value.GivesNoBuild := by
  cases value with
  | object members => simp [ofJson?_object_eq_some_none_iff, Json.GivesNoBuild]
  | array items => simp [ofJson?_array_eq_some_none_iff, Json.GivesNoBuild]
  | null | bool | integer | decimal | string | unrepresentable =>
    simp [Schema.ofJson?, schema, Schema.decode, Json.GivesNoBuild]

theorem encode_unknown (name : String) :
    ReceivedBuild.schema.encode (.unknown name) = none ∧
      schema.encode ⟨some (.unknown name)⟩ = none := by
  have hb : ReceivedBuild.schema.encode (.unknown name) = none := Schema.encode_openUnion_inr rfl
  refine ⟨hb, ?_⟩
  rw [schema, Schema.encode, Fields.encode, hb]
  rfl

/-- A received message is kept by its tag if that is none of the six, and it is then neither edited
nor sent; otherwise it is read member by member, or refused. -/
theorem reception_exact :
    -- A tag outside the six is kept if all of the value can be held, and nothing else is taken for
    -- one.
    (∀ (value : Json) (name : String), ReceivedBuild.schema.ofJson? value = some (.unknown name) ↔
      value.isReadable = true ∧ value.member? "type" = some (.string name) ∧
        name ∉ BuildMessage.tags) ∧
    (∀ (value : Json) (name : String), ReceivedBuild.schema.ofJson? value = some (.unknown name) →
      schema.ofJson? (.object [("buildConfig", value)]) = some ⟨some (.unknown name)⟩ ∧
        form ⟨some (.unknown name)⟩ = .error (.unknownVariant name) ∧
        ReceivedBuild.schema.encode (.unknown name) = none ∧
        schema.encode ⟨some (.unknown name)⟩ = none) ∧
    -- Any other value is refused, or read as a message of one of the six kinds.
    (∀ value : Json,
      (¬ ∃ name, value.member? "type" = some (.string name) ∧ name ∉ BuildMessage.tags) →
        ReceivedBuild.schema.ofJson? value = none ∨
          ∃ m, ReceivedBuild.schema.ofJson? value = some (.known m) ∧ m.tag ∈ BuildMessage.tags) ∧
    (∀ (members : List (String × Json)) (m : BuildMessage),
      ReceivedBuild.schema.ofJson? (.object members) = some (.known m) ↔
        (Json.object members).isReadable = true ∧
          (Json.object members).member? "type" = some (.string m.tag) ∧
            ∀ f ∈ m.members, (Json.object members).Shows f) ∧
    -- A member of another type than its field is not taken for missing.
    (∀ (value : Json) (m : BuildMessage) (name : String) (v w : Json),
      value.member? "type" = some (.string m.tag) → (name, v) ∈ m.members →
        value.member? name = some w → w.kind ≠ v.kind →
          ReceivedBuild.schema.ofJson? value = none) ∧
    ∀ value : Json, schema.ofJson? value = some ⟨none⟩ ↔ value.GivesNoBuild := by
  refine ⟨fun _ _ => ReceivedBuild.ofJson?_eq_unknown_iff, fun value name h => ?_,
    fun value h => ?_, fun _ _ => ReceivedBuild.ofJson?_object_eq_known_iff,
    fun _ _ _ _ _ => ReceivedBuild.ofJson?_of_kind_ne, fun _ => ofJson?_eq_some_none_iff⟩
  · have hn : value ≠ .null := by
      rintro rfl
      cases (ReceivedBuild.ofJson?_eq_unknown_iff.mp h).2.1
    exact ⟨ofJson?_of_build hn h, rfl, encode_unknown name⟩
  · cases hv : ReceivedBuild.schema.ofJson? value with
    | none => exact .inl rfl
    | some build =>
      cases build with
      | unknown name => exact absurd ⟨name, (ReceivedBuild.ofJson?_eq_unknown_iff.mp hv).2⟩ h
      | known m => exact .inr ⟨m, rfl, m.tag_mem_tags⟩

end ApplicationConfig

end DeploymentConfig
