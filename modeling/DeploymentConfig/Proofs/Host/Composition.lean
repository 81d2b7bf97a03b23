import DeploymentConfig.Proofs.Host.Resolution

/-!
# Resolving a name that was composed

The name of a host on some catalog entry is always resolved, to a host that
composes to it again, but perhaps to another one: an entry that is spelled like
the name, or a wildcard that stands earlier, takes it away. Under a wildcard the
host itself comes back exactly if neither is there (`Host.IsUnshadowed`).

* `Host.resolves_fqdn_iff`: the boundary, for hosts on wildcards;
* `Host.resolve_fqdn_exact`: what becomes of the name of every host on an entry.
-/

namespace DeploymentConfig.Host

variable {domains : List AvailableDomain} {d : AvailableDomain} {h : Host} {s : String}

/-- Whether the name of a host on a wildcard is left to that wildcard: no entry is spelled like the
name, and of the wildcards that match it the first has the spelling of the host's. -/
structure IsUnshadowed (domains : List AvailableDomain) (h : Host) : Prop where
  exact : ∀ e ∈ domains, e.isWildcard = false → e.domain ≠ h.fqdn
  wildcard : ∃ before e after, domains = before ++ e :: after ∧
    (∀ x ∈ before, x.isWildcard = true → ¬ x.Matches h.fqdn) ∧
    e.isWildcard = true ∧ e.Matches h.fqdn ∧ e.domain = h.domain

theorem matches_fqdn (hd : d.domain = h.domain) : d.Matches h.fqdn :=
  AvailableDomain.serves_iff_matches.mp (AvailableDomain.serves_fqdn hd)

theorem resolves_fqdn_of_not_isWildcard (hd : d ∈ domains) (hw : d.isWildcard = false) :
    Resolves domains (fqdn ⟨s, d.domain⟩) ⟨"", d.domain⟩ :=
  .exact d hd (AvailableDomain.not_isStarred_iff.mpr hw)
    (fqdn_of_not_isWildcard (h := ⟨s, d.domain⟩) hw).symm

theorem resolves_fqdn_iff (hw : isWildcard h.domain = true) :
    Resolves domains h.fqdn h ↔ IsUnshadowed domains h := by
  constructor
  · intro hr
    cases hr with
    | exact d _ hd => exact absurd (AvailableDomain.isStarred_iff.mpr hw) hd
    | wildcard before d after s hn hs hb hd =>
      simp only [AvailableDomain.isStarred_iff, Bool.not_eq_true] at hn hb hd
      exact ⟨hn, before, d, after, hs, hb, hd, matches_fqdn rfl, rfl⟩
  · rintro ⟨hn, before, e, after, hs, hb, he, -, hed⟩
    have hf : h.subdomain.toList ++ e.domain.toList.filter (· ≠ '*') = h.fqdn.toList := by
      rw [hed, fqdn_of_isWildcard hw, String.toList_append, AvailableDomain.toList_withoutStars]
    simp only [← AvailableDomain.not_isStarred_iff, ← AvailableDomain.isStarred_iff] at hn hb he
    have hr := Resolves.wildcard before e after h.subdomain hn hs hb he hf
    rwa [hed] at hr

/-- The name of a host on a catalog entry is resolved to a host that composes to it again. That is
the entry alone if the entry is no wildcard; under a wildcard it is the host itself exactly if the
host is not shadowed. -/
theorem resolve_fqdn_exact (hd : d ∈ domains) (s : String) :
    (∃ h, resolve .reject domains (fqdn ⟨s, d.domain⟩) = .ok h ∧ h.fqdn = fqdn ⟨s, d.domain⟩) ∧
      (d.isWildcard = false →
        resolve .reject domains (fqdn ⟨s, d.domain⟩) = .ok ⟨"", d.domain⟩) ∧
      (d.isWildcard = true → (resolve .reject domains (fqdn ⟨s, d.domain⟩) = .ok ⟨s, d.domain⟩ ↔
        IsUnshadowed domains ⟨s, d.domain⟩)) := by
  simp only [resolve_reject_eq_ok_iff, resolve?_eq_some_iff]
  refine ⟨?_, resolves_fqdn_of_not_isWildcard hd, resolves_fqdn_iff (h := ⟨s, d.domain⟩)⟩
  obtain ⟨h, hr⟩ := exists_resolve?_iff.mpr ⟨d, hd, matches_fqdn (h := ⟨s, d.domain⟩) rfl⟩
  have hr := resolves_of_resolve? hr
  exact ⟨h, hr, hr.fqdn_eq⟩

/-- Two wildcards, of which the second lies under the first, and an entry under both. -/
def nested : List AvailableDomain :=
  [⟨"*.trap.show", true, false⟩, ⟨"*.b.trap.show", true, false⟩, ⟨"a.b.trap.show", false, false⟩]

/-- The first wildcard takes every name under the second away, but one that the entry takes. -/
theorem resolve_fqdn_exact_nested :
    (⟨"*.b.trap.show", true, false⟩ : AvailableDomain) ∈ nested ∧
      resolve .reject nested "c.b.trap.show" = .ok ⟨"c.b", "*.trap.show"⟩ ∧
      resolve .reject nested "a.b.trap.show" = .ok ⟨"", "a.b.trap.show"⟩ ∧
      ¬ IsUnshadowed nested ⟨"c", "*.b.trap.show"⟩ ∧ ¬ IsUnshadowed nested ⟨"a", "*.b.trap.show"⟩ ∧
      IsUnshadowed nested ⟨"c.b", "*.trap.show"⟩ := by
  have hm : (⟨"*.b.trap.show", true, false⟩ : AvailableDomain) ∈ nested := by decide
  have hf : (⟨"*.trap.show", true, false⟩ : AvailableDomain) ∈ nested := by decide
  have hc : resolve .reject nested "c.b.trap.show" = .ok ⟨"c.b", "*.trap.show"⟩ := by rfl
  have ha : resolve .reject nested "a.b.trap.show" = .ok ⟨"", "a.b.trap.show"⟩ := by rfl
  refine ⟨hm, hc, ha, fun hu => ?_, fun hu => ?_, ?_⟩
  · have hr := ((resolve_fqdn_exact hm "c").2.2 rfl).mpr hu
    exact absurd (Except.ok.inj (hr.symm.trans hc)) (by decide)
  · have hr := ((resolve_fqdn_exact hm "a").2.2 rfl).mpr hu
    exact absurd (Except.ok.inj (hr.symm.trans ha)) (by decide)
  · exact ((resolve_fqdn_exact hf "c.b").2.2 rfl).mp hc

end DeploymentConfig.Host
