import DeploymentConfig.Proofs.Host.Serving

/-!
# The host of a name

A name is resolved by the entries that match it (`AvailableDomain.Matches`): one
that is spelled like it, wherever it stands, or else the wildcard that stands
first. `Host.Resolves` says so of a host, and `Host.resolve?_eq_some_iff` that
the lookup finds that host and no other. Both are said of the characters of an
entry: it is a wildcard if a star comes first (`AvailableDomain.IsStarred`), and
its stars are left out of the names under it, however many there are.

* `Host.resolve_reject_exact`: a name has a host exactly if some entry matches
  it, and the host composes to the name again; any other name is refused.
-/

namespace DeploymentConfig

variable {domains : List AvailableDomain} {d : AvailableDomain} {fqdn s : String}

namespace AvailableDomain

/-- Whether an entry begins with a star. -/
def IsStarred (d : AvailableDomain) : Prop :=
  d.domain.toList.head? = some '*'

/-- Whether a name is the entry itself or, if the entry begins with a star, ends in its characters
other than stars. -/
def Matches (d : AvailableDomain) (fqdn : String) : Prop :=
  (¬ d.IsStarred ∧ d.domain = fqdn) ∨
    (d.IsStarred ∧ d.domain.toList.filter (· ≠ '*') <:+ fqdn.toList)

instance : Decidable d.IsStarred :=
  inferInstanceAs (Decidable (d.domain.toList.head? = some '*'))

instance : Decidable (d.Matches fqdn) :=
  inferInstanceAs (Decidable ((¬ d.IsStarred ∧ d.domain = fqdn) ∨
    (d.IsStarred ∧ d.domain.toList.filter (· ≠ '*') <:+ fqdn.toList)))

theorem isStarred_iff : d.IsStarred ↔ d.isWildcard = true :=
  beq_iff_eq.symm

theorem not_isStarred_iff : ¬ d.IsStarred ↔ d.isWildcard = false := by
  rw [isStarred_iff, Bool.not_eq_true]

theorem toList_withoutStars (domain : String) :
    (withoutStars domain).toList = domain.toList.filter (· ≠ '*') :=
  String.toList_ofList

theorem serves_iff_matches : d.serves fqdn = true ↔ d.Matches fqdn := by
  rw [Matches, not_isStarred_iff, isStarred_iff, ← toList_withoutStars]
  cases hw : d.isWildcard with
  | true => simp [serves_of_isWildcard hw, suffix]
  | false => simp [serves_of_not_isWildcard hw]

theorem subdomainOf?_of_isStarred_iff (hw : d.IsStarred) : d.subdomainOf? fqdn = some s ↔
    s.toList ++ d.domain.toList.filter (· ≠ '*') = fqdn.toList := by
  rw [← toList_withoutStars, ← String.toList_append, String.toList_inj]
  have hf (s : String) : Host.fqdn ⟨s, d.domain⟩ = s ++ withoutStars d.domain :=
    Host.fqdn_of_isWildcard (isStarred_iff.mp hw)
  refine ⟨fun h => hf s ▸ fqdn_of_subdomainOf? h, fun h => ?_⟩
  have hserves : d.serves fqdn = true := by
    rw [← h, ← hf]
    exact serves_fqdn rfl
  obtain ⟨s', hs'⟩ := Option.isSome_iff_exists.mp hserves
  have heq : s' ++ withoutStars d.domain = s ++ withoutStars d.domain := by
    rw [← hf s', fqdn_of_subdomainOf? hs', h]
  rw [hs', (String.append_left_inj _).mp heq]

theorem subdomainOf?_of_not_isStarred_iff (hw : ¬ d.IsStarred) :
    d.subdomainOf? fqdn = some s ↔ d.domain = fqdn ∧ s = "" := by
  simp [subdomainOf?, not_isStarred_iff.mp hw, eq_comm]

end AvailableDomain

/-! ## The entry that is chosen -/

theorem find?_exact_eq_none_iff :
    (domains.find? fun d => !d.isWildcard && d.serves fqdn) = none ↔
      ∀ e ∈ domains, ¬ e.IsStarred → e.domain ≠ fqdn := by
  rw [find?_exact, List.find?_eq_none]
  simp [AvailableDomain.not_isStarred_iff]

theorem find?_exact_eq_some (h : (domains.find? fun d => !d.isWildcard && d.serves fqdn) = some d) :
    d ∈ domains ∧ ¬ d.IsStarred ∧ d.domain = fqdn := by
  rw [find?_exact] at h
  rw [AvailableDomain.not_isStarred_iff]
  exact ⟨List.mem_of_find?_eq_some h, by simpa using List.find?_some h⟩

theorem find?_wildcard_eq_some_iff :
    (domains.find? fun d => d.isWildcard && d.serves fqdn) = some d ↔
      d.IsStarred ∧ d.Matches fqdn ∧ ∃ before after, domains = before ++ d :: after ∧
        ∀ e ∈ before, e.IsStarred → ¬ e.Matches fqdn := by
  rw [List.find?_eq_some_iff_append, Bool.and_eq_true, AvailableDomain.serves_iff_matches,
    and_assoc]
  simp only [Bool.not_eq_true', Bool.and_eq_false_imp, ← AvailableDomain.serves_iff_matches,
    AvailableDomain.isStarred_iff, Bool.not_eq_true]

theorem exists_serving?_iff :
    (∃ d, serving? domains fqdn = some d) ↔ ∃ d ∈ domains, d.Matches fqdn := by
  constructor
  · rintro ⟨d, hd⟩
    obtain ⟨hm, hs⟩ := serves_of_serving? hd
    exact ⟨d, hm, AvailableDomain.serves_iff_matches.mp hs⟩
  · rintro ⟨d, hd, hm⟩
    exact exists_serving? hd (AvailableDomain.serves_iff_matches.mpr hm)

namespace Host

variable {h : Host}

/-- Whether a host is the one that a name has in a catalog. -/
inductive Resolves (domains : List AvailableDomain) (fqdn : String) : Host → Prop
  /-- An entry that is spelled like the name, wherever it stands. -/
  | exact (d : AvailableDomain) : d ∈ domains → ¬ d.IsStarred → d.domain = fqdn →
      Resolves domains fqdn ⟨"", d.domain⟩
  /-- The first wildcard that matches the name, if no entry is spelled like it. -/
  | wildcard (before : List AvailableDomain) (d : AvailableDomain) (after : List AvailableDomain)
      (s : String) : (∀ e ∈ domains, ¬ e.IsStarred → e.domain ≠ fqdn) →
      domains = before ++ d :: after → (∀ e ∈ before, e.IsStarred → ¬ e.Matches fqdn) →
      d.IsStarred → s.toList ++ d.domain.toList.filter (· ≠ '*') = fqdn.toList →
      Resolves domains fqdn ⟨s, d.domain⟩

theorem resolves_of_resolve? (hr : resolve? domains fqdn = some h) : Resolves domains fqdn h := by
  obtain ⟨d, hd, rfl⟩ := Option.map_eq_some_iff.mp hr
  rw [serving?, Option.or_eq_some_iff, find?_exact_eq_none_iff] at hd
  rcases hd with hd | ⟨hn, hd⟩
  · obtain ⟨hm, hw, he⟩ := find?_exact_eq_some hd
    rw [(AvailableDomain.subdomainOf?_of_not_isStarred_iff hw).mpr ⟨he, rfl⟩]
    exact .exact d hm hw he
  · obtain ⟨hw, hm, before, after, hs, hb⟩ := find?_wildcard_eq_some_iff.mp hd
    obtain ⟨s, hsub⟩ := Option.isSome_iff_exists.mp (AvailableDomain.serves_iff_matches.mpr hm)
    rw [hsub]
    exact .wildcard before d after s hn hs hb hw
      ((AvailableDomain.subdomainOf?_of_isStarred_iff hw).mp hsub)

theorem resolve?_of_resolves (hr : Resolves domains fqdn h) : resolve? domains fqdn = some h := by
  refine Option.map_eq_some_iff.mpr ?_
  cases hr with
  | exact d hm hw he =>
    cases hx : domains.find? fun d => !d.isWildcard && d.serves fqdn with
    | none => exact absurd he (find?_exact_eq_none_iff.mp hx d hm hw)
    | some e =>
      obtain ⟨-, hwe, hee⟩ := find?_exact_eq_some hx
      refine ⟨e, by rw [serving?, hx, Option.some_or], ?_⟩
      rw [(AvailableDomain.subdomainOf?_of_not_isStarred_iff hwe).mpr ⟨hee, rfl⟩, hee, he]
      rfl
  | wildcard before d after s hn hs hb hw hf =>
    have hsub := (AvailableDomain.subdomainOf?_of_isStarred_iff hw).mpr hf
    have hm : d.Matches fqdn :=
      AvailableDomain.serves_iff_matches.mp (Option.isSome_iff_exists.mpr ⟨s, hsub⟩)
    have hd := find?_wildcard_eq_some_iff.mpr ⟨hw, hm, before, after, hs, hb⟩
    refine ⟨d, ?_, by rw [hsub]; rfl⟩
    rw [serving?, find?_exact_eq_none_iff.mpr hn, Option.none_or, hd]

theorem resolve?_eq_some_iff : resolve? domains fqdn = some h ↔ Resolves domains fqdn h :=
  ⟨resolves_of_resolve?, resolve?_of_resolves⟩

theorem exists_resolve?_iff :
    (∃ h, resolve? domains fqdn = some h) ↔ ∃ d ∈ domains, d.Matches fqdn := by
  rw [← Option.isSome_iff_exists, resolve?, Option.isSome_map, Option.isSome_iff_exists,
    exists_serving?_iff]

/-! ## Names that no entry matches are refused -/

theorem resolve_reject_eq_ok_iff :
    resolve .reject domains fqdn = .ok h ↔ resolve? domains fqdn = some h := by
  cases hr : resolve? domains fqdn with
  | some h' => simp [resolve, hr]
  | none => simp [resolve, hr]

theorem resolve_reject_eq_error (hn : ¬ ∃ h, resolve? domains fqdn = some h) :
    resolve .reject domains fqdn = .error (.domainNotFound fqdn) := by
  have hr : resolve? domains fqdn = none :=
    Option.eq_none_iff_forall_ne_some.mpr fun h hh => hn ⟨h, hh⟩
  simp only [resolve, hr]

theorem Resolves.fqdn_eq (hr : Resolves domains fqdn h) : h.fqdn = fqdn := by
  cases hr with
  | exact d _ hw he =>
    have hw := AvailableDomain.not_isStarred_iff.mp hw
    rw [fqdn_of_not_isWildcard (h := ⟨"", d.domain⟩) hw, he]
  | wildcard _ d _ s _ _ _ hw hf =>
    have hw := AvailableDomain.isStarred_iff.mp hw
    rw [← String.toList_inj, fqdn_of_isWildcard (h := ⟨s, d.domain⟩) hw, String.toList_append,
      AvailableDomain.toList_withoutStars, hf]

theorem Resolves.mem_map_domain (hr : Resolves domains fqdn h) :
    h.domain ∈ domains.map (·.domain) := by
  cases hr with
  | exact d hm => exact List.mem_map_of_mem hm
  | wildcard before d after s _ hs =>
    rw [hs, List.map_append, List.map_cons]
    exact List.mem_append_right _ List.mem_cons_self

/-- A name has a host exactly if some entry matches it, and is refused otherwise. Its host stands on
the entry spelled like it, or else on the first wildcard that matches it, and composes to it. -/
theorem resolve_reject_exact (domains : List AvailableDomain) (fqdn : String) :
    ((∃ h, resolve .reject domains fqdn = .ok h) ↔ ∃ d ∈ domains, d.Matches fqdn) ∧
      ((¬ ∃ d ∈ domains, d.Matches fqdn) →
        resolve .reject domains fqdn = .error (.domainNotFound fqdn)) ∧
      ∀ h, (resolve .reject domains fqdn = .ok h ↔ Resolves domains fqdn h) ∧
        (resolve .reject domains fqdn = .ok h →
          h.domain ∈ domains.map (·.domain) ∧ h.fqdn = fqdn) := by
  have hok (h : Host) : resolve .reject domains fqdn = .ok h ↔ Resolves domains fqdn h :=
    resolve_reject_eq_ok_iff.trans resolve?_eq_some_iff
  refine ⟨?_, fun hn => ?_, fun h => ⟨hok h, fun hr => ?_⟩⟩
  · simp only [resolve_reject_eq_ok_iff, exists_resolve?_iff]
  · exact resolve_reject_eq_error fun hh => hn (exists_resolve?_iff.mp hh)
  · exact ⟨((hok h).mp hr).mem_map_domain, ((hok h).mp hr).fqdn_eq⟩

/-- A wildcard of four stars, one that ends otherwise before it and a shorter one after it, and last
an entry that is no wildcard. -/
def manyStars : List AvailableDomain :=
  [⟨"*.trap.org", true, false⟩, ⟨"**.trap.*show*", true, false⟩, ⟨"*.show", true, false⟩,
    ⟨"a.trap.show", false, true⟩]

theorem resolve_reject_exact_manyStars :
    resolve .reject manyStars "b.trap.show" = .ok ⟨"b", "**.trap.*show*"⟩ ∧
      (⟨"b", "**.trap.*show*"⟩ : Host).fqdn = "b.trap.show" ∧
      resolve .reject manyStars "a.trap.show" = .ok ⟨"", "a.trap.show"⟩ ∧
      resolve .reject manyStars "b.trap.com" = .error (.domainNotFound "b.trap.com") := by
  have hb := (resolve_reject_exact manyStars "b.trap.show").2.2 ⟨"b", "**.trap.*show*"⟩
  have ha := (resolve_reject_exact manyStars "a.trap.show").2.2 ⟨"", "a.trap.show"⟩
  have hr : resolve .reject manyStars "b.trap.show" = .ok ⟨"b", "**.trap.*show*"⟩ :=
    hb.1.mpr (.wildcard [⟨"*.trap.org", true, false⟩] _ _ "b" (by decide) rfl (by decide)
      (by decide) (by decide))
  refine ⟨hr, (hb.2 hr).2, ha.1.mpr (.exact ⟨"a.trap.show", false, true⟩ ?_ ?_ rfl), ?_⟩
  · decide
  · decide
  · exact (resolve_reject_exact manyStars "b.trap.com").2.1 (by decide)

end Host

end DeploymentConfig
