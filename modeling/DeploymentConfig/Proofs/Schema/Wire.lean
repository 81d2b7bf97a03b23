import DeploymentConfig.Document
import DeploymentConfig.Proofs.Schema.Decode

/-!
# The formats of the project

Every schema of the project is well-formed, and all but those that hold a
received configuration are closed. So every value is recovered from every
spelling of it (`wireFormats`), a received configuration if its kind is known. A
domain or a port range with both names of a field is refused.
-/

namespace DeploymentConfig

/-- Whether a configuration is of one of the six kinds, if there is one. -/
def ApplicationConfig.IsKnown (c : ApplicationConfig) : Prop :=
  ∀ tag, c.build ≠ some (.unknown tag)

/-! ## Well-formed schemas -/

attribute [local simp] Schema.WellFormed Fields.WellFormed Variants.WellFormed Fields.names
  Variants.names

@[simp]
theorem Authentication.wellFormed_schema : Authentication.schema.WellFormed := by
  rintro (_ | _ | _) <;> rfl

@[simp]
theorem Protocol.wellFormed_schema : Protocol.schema.WellFormed := by
  rintro (_ | _) <;> rfl

@[simp]
theorem IssueKind.wellFormed_schema : IssueKind.schema.WellFormed := by
  rintro (_ | _ | _ | _ | _ | _) <;> rfl

@[simp]
theorem Host.wellFormed_schema : Host.schema.WellFormed := by
  simp [schema]

@[simp]
theorem WebsiteSettings.wellFormed_schema : WebsiteSettings.schema.WellFormed := by
  simp [schema, Routing.fields]

@[simp]
theorem Website.wellFormed_schema : Website.schema.WellFormed := by
  simp [schema, Routing.fields]

@[simp]
theorem WebsiteForm.wellFormed_schema : WebsiteForm.schema.WellFormed := by
  simp [schema, Routing.fields]

@[simp]
theorem AvailableDomain.wellFormed_schema : AvailableDomain.schema.WellFormed := by
  simp [schema]

@[simp]
theorem PortRange.wellFormed_schema : PortRange.schema.WellFormed := by
  simp [schema]

@[simp]
theorem PortPublication.wellFormed_schema : PortPublication.schema.WellFormed := by
  simp [schema]

@[simp]
theorem SystemInfo.wellFormed_schema : SystemInfo.schema.WellFormed := by
  simp [schema]

@[simp]
theorem EnvVar.wellFormed_schema : EnvVar.schema.WellFormed := by
  simp [schema]

@[simp]
theorem EnvOperation.wellFormed_schema : EnvOperation.schema.WellFormed := by
  simp [schema]

@[simp]
theorem RepositoryAuth.wellFormed_schema : RepositoryAuth.schema.WellFormed := by
  simp [schema]

@[simp]
theorem RepositoryForm.wellFormed_schema : RepositoryForm.schema.WellFormed := by
  simp [schema]

@[simp]
theorem DeployConfig.wellFormed_schema : DeployConfig.schema.WellFormed := by
  simp [schema]

@[simp]
theorem BuildConfig.wellFormed_schema : BuildConfig.schema.WellFormed := by
  simp [schema]

@[simp]
theorem ConfigForm.wellFormed_schema : ConfigForm.schema.WellFormed := by
  have hd : DeployConfig.schema.isNullable = false := rfl
  have hb : BuildConfig.schema.isNullable = false := rfl
  simp [schema, hd, hb]

@[simp]
theorem BuildMessage.wellFormed_variants : BuildMessage.variants.WellFormed "type" := by
  simp [variants, runtimeFields, staticFields, buildpackFields, cmdFields, dockerfileFields]

@[simp]
theorem BuildMessage.wellFormed_schema : BuildMessage.schema.WellFormed :=
  wellFormed_variants

@[simp]
theorem ReceivedBuild.wellFormed_schema : ReceivedBuild.schema.WellFormed :=
  BuildMessage.wellFormed_variants

@[simp]
theorem ApplicationConfig.wellFormed_schema : ApplicationConfig.schema.WellFormed := by
  have hb : ReceivedBuild.schema.isNullable = false := rfl
  simp [schema, hb]

@[simp]
theorem Issue.wellFormed_schema : Issue.schema.WellFormed := by
  simp [schema]

@[simp]
theorem Report.wellFormed_schema : Report.schema.WellFormed := by
  simp [schema]

@[simp]
theorem Document.wellFormed_schema : Document.schema.WellFormed := by
  have hr : RepositoryForm.schema.isNullable = false := rfl
  simp [schema, hr]

@[simp]
theorem Payload.wellFormed_schema : Payload.schema.WellFormed := by
  simp [schema]

/-! ## Written values -/

theorem ReceivedBuild.writable_known (m : BuildMessage) :
    ReceivedBuild.schema.Writable (.known m) := by
  have hc : BuildMessage.variants.isClosed = true := rfl
  exact Variants.writable_of_isClosed hc m.parts

theorem ApplicationConfig.writable_of_isKnown {c : ApplicationConfig} (h : c.IsKnown) :
    ApplicationConfig.schema.Writable c := by
  match c, h with
  | ⟨none⟩, _ => trivial
  | ⟨some (.known m)⟩, _ => exact ⟨ReceivedBuild.writable_known m, trivial⟩
  | ⟨some (.unknown tag)⟩, h => exact absurd rfl (h tag)

theorem Payload.writable_of_isKnown {p : Payload} (h : p.config.IsKnown) :
    Payload.schema.Writable p :=
  ⟨trivial, ApplicationConfig.writable_of_isKnown h, Fields.writable_of_isClosed rfl _⟩

/-! ## Formats -/

/-- What the formats keep. -/
structure WireFormats : Prop where
  applicationConfig (c : ApplicationConfig) : c.IsKnown → ApplicationConfig.schema.Recovers c
  receivedBuild (m : BuildMessage) : ReceivedBuild.schema.Recovers (.known m)
  buildMessage (m : BuildMessage) : BuildMessage.schema.Recovers m
  deployConfig (c : DeployConfig) : DeployConfig.schema.Recovers c
  buildConfig (c : BuildConfig) : BuildConfig.schema.Recovers c
  configForm (f : ConfigForm) : ConfigForm.schema.Recovers f
  websiteSettings (w : WebsiteSettings) : WebsiteSettings.schema.Recovers w
  website (w : Website) : Website.schema.Recovers w
  websiteForm (f : WebsiteForm) : WebsiteForm.schema.Recovers f
  availableDomain (d : AvailableDomain) : AvailableDomain.schema.Recovers d
  portRange (r : PortRange) : PortRange.schema.Recovers r
  portPublication (p : PortPublication) : PortPublication.schema.Recovers p
  systemInfo (s : SystemInfo) : SystemInfo.schema.Recovers s
  envVar (v : EnvVar) : EnvVar.schema.Recovers v
  envOperation (op : EnvOperation) : EnvOperation.schema.Recovers op
  repositoryAuth (a : RepositoryAuth) : RepositoryAuth.schema.Recovers a
  repositoryForm (f : RepositoryForm) : RepositoryForm.schema.Recovers f
  document (d : Document) : Document.schema.Recovers d
  payload (p : Payload) : p.config.IsKnown → Payload.schema.Recovers p
  host (h : Host) : Host.schema.Recovers h
  report (r : Report) : Report.schema.Recovers r
  /-- A domain with both names of a field is refused. -/
  availableDomain_both (members : List (String × Json)) (name other : String) (v v' : Json) :
    (name, other) ∈ [("authAvailable", "auth_available"), ("alreadyBound", "already_bound")] →
      (name, v) ∈ members → (other, v') ∈ members →
        AvailableDomain.schema.ofJson? (.object members) = none
  /-- So is a port range. -/
  portRange_both (members : List (String × Json)) (name other : String) (v v' : Json) :
    (name, other) ∈ [("startPort", "start_port"), ("endPort", "end_port")] →
      (name, v) ∈ members → (other, v') ∈ members →
        PortRange.schema.ofJson? (.object members) = none

theorem AvailableDomain.ofJson?_of_both {members : List (String × Json)} {name other : String}
    {v v' : Json}
    (h : (name, other) ∈ [("authAvailable", "auth_available"), ("alreadyBound", "already_bound")])
    (hm : (name, v) ∈ members) (hm' : (other, v') ∈ members) :
    AvailableDomain.schema.ofJson? (.object members) = none := by
  simp only [List.mem_cons, Prod.mk.injEq, List.not_mem_nil, or_false] at h
  obtain ⟨rfl, rfl⟩ | ⟨rfl, rfl⟩ := h <;>
    exact Schema.decode_record_of_both .json (by simp [Fields.groups]) (by simp) hm hm'

theorem PortRange.ofJson?_of_both {members : List (String × Json)} {name other : String}
    {v v' : Json} (h : (name, other) ∈ [("startPort", "start_port"), ("endPort", "end_port")])
    (hm : (name, v) ∈ members) (hm' : (other, v') ∈ members) :
    PortRange.schema.ofJson? (.object members) = none := by
  simp only [List.mem_cons, Prod.mk.injEq, List.not_mem_nil, or_false] at h
  obtain ⟨rfl, rfl⟩ | ⟨rfl, rfl⟩ := h <;>
    exact Schema.decode_record_of_both .json (by simp [Fields.groups]) (by simp) hm hm'

/-- Every value is written and is read again from each of its spellings, and an object that gives a
field twice, under two names, is refused. -/
theorem wireFormats : WireFormats where
  applicationConfig _ h :=
    ApplicationConfig.wellFormed_schema.recovers (ApplicationConfig.writable_of_isKnown h)
  receivedBuild m := ReceivedBuild.wellFormed_schema.recovers (ReceivedBuild.writable_known m)
  buildMessage := BuildMessage.wellFormed_schema.recovers_of_isClosed rfl
  deployConfig := DeployConfig.wellFormed_schema.recovers_of_isClosed rfl
  buildConfig := BuildConfig.wellFormed_schema.recovers_of_isClosed rfl
  configForm := ConfigForm.wellFormed_schema.recovers_of_isClosed rfl
  websiteSettings := WebsiteSettings.wellFormed_schema.recovers_of_isClosed rfl
  website := Website.wellFormed_schema.recovers_of_isClosed rfl
  websiteForm := WebsiteForm.wellFormed_schema.recovers_of_isClosed rfl
  availableDomain := AvailableDomain.wellFormed_schema.recovers_of_isClosed rfl
  portRange := PortRange.wellFormed_schema.recovers_of_isClosed rfl
  portPublication := PortPublication.wellFormed_schema.recovers_of_isClosed rfl
  systemInfo := SystemInfo.wellFormed_schema.recovers_of_isClosed rfl
  envVar := EnvVar.wellFormed_schema.recovers_of_isClosed rfl
  envOperation := EnvOperation.wellFormed_schema.recovers_of_isClosed rfl
  repositoryAuth := RepositoryAuth.wellFormed_schema.recovers_of_isClosed rfl
  repositoryForm := RepositoryForm.wellFormed_schema.recovers_of_isClosed rfl
  document := Document.wellFormed_schema.recovers_of_isClosed rfl
  payload _ h := Payload.wellFormed_schema.recovers (Payload.writable_of_isKnown h)
  host := Host.wellFormed_schema.recovers_of_isClosed rfl
  report := Report.wellFormed_schema.recovers_of_isClosed rfl
  availableDomain_both _ _ _ _ _ := AvailableDomain.ofJson?_of_both
  portRange_both _ _ _ _ _ := PortRange.ofJson?_of_both

/-- A domain with an unknown member, one under its other name, and one left out; a configuration of
a known kind; a range with both names of a port. -/
theorem wireFormats_respelled :
    AvailableDomain.schema.ofJson? (.object [("note", .null), ("auth_available", .bool true),
        ("domain", .string "*.trap.show")]) = some ⟨"*.trap.show", true, false⟩ ∧
      ApplicationConfig.schema.Recovers ⟨some (.known (.staticCmd "dist" true "node" "build"))⟩ ∧
      PortRange.schema.ofJson? (.object [("startPort", .integer 1), ("start_port", .integer 1),
        ("endPort", .integer 2), ("protocol", .string "TCP")]) = none := by
  refine ⟨(wireFormats.availableDomain ⟨"*.trap.show", true, false⟩).spelled _ ?_,
    wireFormats.applicationConfig _ nofun,
    wireFormats.portRange_both _ _ _ (.integer 1) (.integer 1) List.mem_cons_self
      List.mem_cons_self (List.mem_cons_of_mem _ List.mem_cons_self)⟩
  refine ⟨[("domain", .string "*.trap.show"), ("auth_available", .bool true)], ?_, _,
    [("note", .null)], rfl, ?_, ?_⟩
  · exact .inr ⟨"domain", List.mem_cons_self, _, _, rfl,
      .inr ⟨"auth_available", List.mem_cons_of_mem _ List.mem_cons_self, _, _, rfl,
        .inl ⟨rfl, rfl⟩, rfl⟩, rfl⟩
  · exact (List.reverse_perm _).symm
  · exact List.forall_mem_singleton.mpr ⟨by simp [Fields.names], rfl⟩

end DeploymentConfig
