import DeploymentConfig.Proofs.Host.Composition

/-!
# Resolving a name again

A name that some entry matches is the name of its own host, so that it is
resolved to the same host under either policy. A name that no entry matches is
placed on the first entry, and then has the name of that entry: from then on the
policy makes no difference. If the first entry is a wildcard its name may be
taken by an entry that is spelled like it (`IsFirstNameTaken`), and only then is
the host another one (`resolves_fqdn_first_iff`).

* `resolve_fqdn_stable`: the name of a host that was found for a name is
  resolved to one host by both policies, and is kept by it.
-/

namespace DeploymentConfig.Host

variable {domains : List AvailableDomain} {fqdn : String} {h : Host} {policy : UnmatchedPolicy}
  {fault : Fault}

/-! ## The two policies -/

theorem resolve_of_resolve? (policy : UnmatchedPolicy) (hr : resolve? domains fqdn = some h) :
    resolve policy domains fqdn = .ok h := by
  simp only [resolve, hr]

theorem resolve?_eq_none_iff :
    resolve? domains fqdn = none ↔ ¬ ∃ d ∈ domains, d.Matches fqdn := by
  rw [← exists_resolve?_iff, ← Option.isSome_iff_exists, Option.not_isSome_iff_eq_none]

/-- A name that has no host gets the first entry, if it may. -/
theorem resolve_eq_ok_iff : resolve policy domains fqdn = .ok h ↔
    resolve? domains fqdn = some h ∨
      (policy = .firstAvailable ∧ resolve? domains fqdn = none ∧ first? domains = some h) := by
  cases hr : resolve? domains fqdn with
  | some h' => simp [resolve, hr]
  | none =>
    cases policy with
    | reject => simp [resolve, hr]
    | firstAvailable => cases hf : first? domains <;> simp [resolve, hr, hf]

theorem resolve_firstAvailable_eq_error_iff : resolve .firstAvailable domains fqdn = .error fault ↔
    (¬ ∃ d ∈ domains, d.Matches fqdn) ∧ domains = [] ∧ fault = .noDomains := by
  rw [← resolve?_eq_none_iff]
  cases hr : resolve? domains fqdn with
  | some h => simp [resolve, hr]
  | none => cases domains <;> simp [resolve, hr, first?, eq_comm]

/-! ## The name of the first entry -/

/-- Whether the first entry is a wildcard, and the name that it has without a subdomain is the
spelling of an entry that is none. -/
def IsFirstNameTaken (domains : List AvailableDomain) : Prop :=
  ∃ d, domains.head? = some d ∧ d.isWildcard = true ∧
    ∃ e ∈ domains, e.isWildcard = false ∧ e.domain = withoutStars d.domain

theorem first?_eq_some_iff :
    first? domains = some h ↔ ∃ d ds, domains = d :: ds ∧ h = ⟨"", d.domain⟩ := by
  cases domains <;> simp [first?, eq_comm]

/-- No wildcard stands before the first entry. -/
theorem isUnshadowed_first_iff {d : AvailableDomain} {ds : List AvailableDomain}
    (hw : d.isWildcard = true) : IsUnshadowed (d :: ds) ⟨"", d.domain⟩ ↔
      ∀ e ∈ d :: ds, e.isWildcard = false → e.domain ≠ withoutStars d.domain := by
  have hf : fqdn ⟨"", d.domain⟩ = withoutStars d.domain := by
    rw [fqdn_of_isWildcard (h := ⟨"", d.domain⟩) hw, String.empty_append]
  constructor
  · intro hu
    rw [← hf]
    exact hu.exact
  · intro hn
    refine ⟨by rwa [hf], [], d, ds, rfl, nofun, hw, ?_, rfl⟩
    exact matches_fqdn (h := ⟨"", d.domain⟩) rfl

theorem resolves_fqdn_first_iff (hf : first? domains = some h) :
    Resolves domains h.fqdn h ↔ ¬ IsFirstNameTaken domains := by
  obtain ⟨d, ds, rfl, rfl⟩ := first?_eq_some_iff.mp hf
  cases hw : d.isWildcard with
  | false =>
    refine iff_of_true (resolves_fqdn_of_not_isWildcard List.mem_cons_self hw) ?_
    simp [IsFirstNameTaken, hw]
  | true =>
    rw [resolves_fqdn_iff (h := ⟨"", d.domain⟩) hw, isUnshadowed_first_iff hw]
    simp [IsFirstNameTaken, hw]

theorem exists_resolve?_fqdn_first (hf : first? domains = some h) :
    ∃ h', resolve? domains h.fqdn = some h' := by
  obtain ⟨d, ds, rfl, rfl⟩ := first?_eq_some_iff.mp hf
  exact exists_resolve?_iff.mpr ⟨d, List.mem_cons_self, matches_fqdn (h := ⟨"", d.domain⟩) rfl⟩

/-! ## Resolving again -/

/-- The host of a name, under either policy, has a name that is resolved, and to that host unless it
was the first entry for want of a match and its name is taken. -/
theorem exists_resolve?_fqdn (hr : resolve policy domains fqdn = .ok h) :
    ∃ h', resolve? domains h.fqdn = some h' ∧
      (h' = h ↔ ¬ ((¬ ∃ d ∈ domains, d.Matches fqdn) ∧ IsFirstNameTaken domains)) := by
  rcases resolve_eq_ok_iff.mp hr with hs | ⟨-, hn, hf⟩
  · refine ⟨h, ?_, iff_of_true rfl fun hx => hx.1 (exists_resolve?_iff.mp ⟨h, hs⟩)⟩
    rw [(resolves_of_resolve? hs).fqdn_eq, hs]
  · obtain ⟨h', hh'⟩ := exists_resolve?_fqdn_first hf
    have hself : h' = h ↔ Resolves domains h.fqdn h := by
      rw [← resolve?_eq_some_iff, hh', Option.some.injEq]
    refine ⟨h', hh', ?_⟩
    rw [hself, resolves_fqdn_first_iff hf, and_iff_right (resolve?_eq_none_iff.mp hn)]

/-- Whatever host a name was given, the name of that host is resolved to one and the same host by
both policies, with that name. It is the host itself, unless the name was given the first entry, a
wildcard, whose own name another entry takes. Only in an empty catalog is there no host to give; and
a name that has a host is given that. -/
theorem resolve_fqdn_stable (domains : List AvailableDomain) (fqdn : String) :
    (∀ policy h, resolve policy domains fqdn = .ok h → ∃ h',
        resolve .reject domains h.fqdn = .ok h' ∧ resolve .firstAvailable domains h.fqdn = .ok h' ∧
        h'.fqdn = h.fqdn ∧
        (h' = h ↔ ¬ ((¬ ∃ d ∈ domains, d.Matches fqdn) ∧ IsFirstNameTaken domains))) ∧
      (∀ fault, resolve .firstAvailable domains fqdn = .error fault ↔
        (¬ ∃ d ∈ domains, d.Matches fqdn) ∧ domains = [] ∧ fault = .noDomains) ∧
      ∀ h, resolve .reject domains fqdn = .ok h →
        resolve .firstAvailable domains fqdn = .ok h := by
  refine ⟨fun policy h hr => ?_, fun fault => resolve_firstAvailable_eq_error_iff, fun h hr => ?_⟩
  · obtain ⟨h', hh', hself⟩ := exists_resolve?_fqdn hr
    exact ⟨h', resolve_of_resolve? _ hh', resolve_of_resolve? _ hh',
      (resolves_of_resolve? hh').fqdn_eq, hself⟩
  · exact resolve_of_resolve? _ (resolve_reject_eq_ok_iff.mp hr)

/-- A wildcard, and an entry that is spelled like the wildcard without its star. -/
def bare : List AvailableDomain :=
  [⟨"*.trap.show", true, false⟩, ⟨".trap.show", false, false⟩]

/-- A name outside the catalog is given the wildcard, and from then on the other entry. -/
theorem resolve_fqdn_stable_bare :
    resolve .firstAvailable bare "example.com" = .ok ⟨"", "*.trap.show"⟩ ∧
      ∃ h', resolve .reject bare ".trap.show" = .ok h' ∧
        resolve .firstAvailable bare ".trap.show" = .ok h' ∧ h'.fqdn = ".trap.show" ∧
        h' ≠ ⟨"", "*.trap.show"⟩ := by
  have hr : resolve .firstAvailable bare "example.com" = .ok ⟨"", "*.trap.show"⟩ := by rfl
  have hn : ¬ ∃ d ∈ bare, d.Matches "example.com" := by
    rw [← resolve?_eq_none_iff]
    rfl
  have ht : IsFirstNameTaken bare := by
    refine ⟨_, rfl, rfl, ⟨".trap.show", false, false⟩, by decide, rfl, by decide⟩
  obtain ⟨h', hs, hl, hf, hself⟩ := (resolve_fqdn_stable bare "example.com").1 _ _ hr
  exact ⟨hr, h', hs, hl, hf, fun he => hself.mp he ⟨hn, ht⟩⟩

end DeploymentConfig.Host
