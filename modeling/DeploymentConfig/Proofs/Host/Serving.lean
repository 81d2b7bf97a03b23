import DeploymentConfig.Host

/-!
# The entry that serves a name

What an entry serves goes by its spelling alone, so an entry can be found again
by its spelling (`listed?`) after it was found by a name (`serving?`), and the
other way round:

* `fqdn_of_subdomainOf?`: a name is composed again from what an entry splits it into;
* `listed?_of_serving?`: the entry that serves a name is the first of its spelling;
* `serving?_fqdn`: the name of a host falls to the entry that the host is on,
  unless another one diverts it (`diverting?`);
* `serving?_fqdn_of_unambiguous`: nothing is diverted in a catalog where entries
  of different spelling share no name.
-/

namespace DeploymentConfig

namespace Host

theorem fqdn_of_isWildcard {h : Host} (hw : isWildcard h.domain = true) :
    h.fqdn = h.subdomain ++ withoutStars h.domain := by
  rw [fqdn, if_pos hw]

theorem fqdn_of_not_isWildcard {h : Host} (hw : isWildcard h.domain = false) :
    h.fqdn = h.domain := by
  rw [fqdn, if_neg (Bool.eq_false_iff.mp hw)]

end Host

namespace AvailableDomain

variable {d e : AvailableDomain} {fqdn : String}

theorem isWildcard_congr (h : d.domain = e.domain) : d.isWildcard = e.isWildcard := by
  rw [isWildcard, isWildcard, h]

theorem serves_of_isWildcard (h : d.isWildcard = true) :
    d.serves fqdn = d.suffix.toList.isSuffixOf fqdn.toList := by
  simp only [serves, subdomainOf?, h, ite_true]
  cases d.suffix.toList.isSuffixOf fqdn.toList <;> rfl

theorem serves_of_not_isWildcard (h : d.isWildcard = false) :
    d.serves fqdn = decide (d.domain = fqdn) := by
  simp only [serves, subdomainOf?, h, Bool.false_eq_true, ite_false]
  by_cases hd : d.domain = fqdn <;> simp [hd]

theorem serves_congr (h : d.domain = e.domain) : d.serves fqdn = e.serves fqdn := by
  cases d; cases e; cases h; rfl

/-- What stands before the suffix of a name is put back in front of it. -/
theorem ofList_take_append {xs : List Char} {s : String} (h : xs <:+ s.toList) :
    String.ofList (s.toList.take (s.toList.length - xs.length)) ++ String.ofList xs = s := by
  obtain ⟨ys, hy⟩ := h
  rw [← String.ofList_append, ← hy, List.length_append, Nat.add_sub_cancel,
    List.take_left' rfl, hy, String.ofList_toList]

theorem fqdn_of_subdomainOf? {s : String} (h : d.subdomainOf? fqdn = some s) :
    Host.fqdn ⟨s, d.domain⟩ = fqdn := by
  cases hw : d.isWildcard with
  | true =>
    simp only [subdomainOf?, hw, ite_true, Option.ite_none_right_eq_some, Option.some.injEq] at h
    obtain ⟨hs, rfl⟩ := h
    have := ofList_take_append (List.isSuffixOf_iff_suffix.mp hs)
    rw [String.ofList_toList] at this
    rwa [Host.fqdn_of_isWildcard (h := ⟨_, d.domain⟩) hw]
  | false =>
    simp only [subdomainOf?, hw, Bool.false_eq_true, ite_false, Option.ite_none_right_eq_some] at h
    rw [Host.fqdn_of_not_isWildcard (h := ⟨_, d.domain⟩) hw]
    exact h.1

/-- An entry serves the name of every host on it. -/
theorem serves_fqdn {h : Host} (hd : d.domain = h.domain) : d.serves h.fqdn = true := by
  cases hw : d.isWildcard with
  | true =>
    rw [serves_of_isWildcard hw, List.isSuffixOf_iff_suffix,
      Host.fqdn_of_isWildcard (by rw [← hd]; exact hw), suffix, hd, String.toList_append]
    exact List.suffix_append _ _
  | false =>
    rw [serves_of_not_isWildcard hw, decide_eq_true_eq,
      Host.fqdn_of_not_isWildcard (by rw [← hd]; exact hw), hd]

end AvailableDomain

/-! ## Looking up an entry -/

section Lookup

variable {domains : List AvailableDomain} {d : AvailableDomain} {fqdn domain : String}

theorem mem_of_listed? (h : listed? domains domain = some d) : d ∈ domains :=
  List.mem_of_find?_eq_some h

theorem domain_of_listed? (h : listed? domains domain = some d) : d.domain = domain := by
  simpa using List.find?_some h

/-- A search for less finds the same item, if that item is among what is searched for. -/
theorem find?_eq_some_of_imp {α : Type} {p q : α → Bool} {xs : List α} {a : α}
    (h : xs.find? p = some a) (hq : q a = true) (hqp : ∀ b, q b = true → p b = true) :
    xs.find? q = some a := by
  obtain ⟨-, ys, zs, rfl, hys⟩ := List.find?_eq_some_iff_append.mp h
  refine List.find?_eq_some_iff_append.mpr ⟨hq, ys, zs, rfl, fun b hb => ?_⟩
  have hpb := hys b hb
  cases hqb : q b with
  | false => rfl
  | true => rw [hqp b hqb] at hpb; cases hpb

/-- A search that finds all that a narrower one finds, and more, finds some of it earlier or the
same. -/
theorem find?_eq_or_of_imp {α : Type} {p q : α → Bool} {xs : List α}
    (hqp : ∀ a, q a = true → p a = true) :
    xs.find? p = ((xs.takeWhile fun a => !q a).find? p).or (xs.find? q) := by
  induction xs with
  | nil => rfl
  | cons a xs ih =>
    cases hq : q a with
    | true => simp [hq, hqp a hq]
    | false => cases hp : p a <;> simp [hq, hp, ih]

theorem serves_of_serving? (h : serving? domains fqdn = some d) :
    d ∈ domains ∧ d.serves fqdn = true := by
  rw [serving?, Option.or_eq_some_iff] at h
  rcases h with h | ⟨-, h⟩ <;>
  · have := List.find?_some h
    simp only [Bool.and_eq_true] at this
    exact ⟨List.mem_of_find?_eq_some h, this.2⟩

theorem exists_serving? (hd : d ∈ domains) (h : d.serves fqdn = true) :
    ∃ e, serving? domains fqdn = some e := by
  rw [← Option.isSome_iff_exists, serving?, Option.isSome_or, Bool.or_eq_true,
    List.find?_isSome, List.find?_isSome]
  cases hw : d.isWildcard with
  | true => exact .inr ⟨d, hd, by simp only [hw, h, Bool.and_self]⟩
  | false => exact .inl ⟨d, hd, by simp only [hw, h, Bool.not_false, Bool.and_self]⟩

/-- Of the entries that are no wildcards, one serves a name if it is spelled like it. -/
theorem find?_exact (domains : List AvailableDomain) (fqdn : String) :
    (domains.find? fun d => !d.isWildcard && d.serves fqdn) =
      domains.find? fun d => !d.isWildcard && d.domain = fqdn := by
  refine congrArg (domains.find? ·) (funext fun d => ?_)
  cases hd : d.isWildcard with
  | true => rfl
  | false => rw [AvailableDomain.serves_of_not_isWildcard hd]

theorem listed?_of_serving? (h : serving? domains fqdn = some d) :
    listed? domains d.domain = some d := by
  have hs := (serves_of_serving? h).2
  rw [serving?, Option.or_eq_some_iff] at h
  -- Every entry that is spelled like `d` is as much a wildcard as `d`, and serves the name too.
  rcases h with h | ⟨-, h⟩ <;>
  · refine find?_eq_some_of_imp h (by simp) fun e he => ?_
    have hp := List.find?_some h
    simp only [decide_eq_true_eq] at he
    rwa [AvailableDomain.isWildcard_congr he, AvailableDomain.serves_congr he]

end Lookup

/-! ## Diversion -/

/-- The entry that takes the name of a host away from the entry that the host is on, a wildcard: an
entry that is spelled like the name or, if there is none, a wildcard that stands earlier and serves
the name as well. -/
def diverting? (domains : List AvailableDomain) (h : Host) : Option AvailableDomain :=
  if isWildcard h.domain then
    (domains.find? fun d => !d.isWildcard && d.domain = h.fqdn).or
      ((domains.takeWhile (·.domain ≠ h.domain)).find? fun d => d.isWildcard && d.serves h.fqdn)
  else none

theorem serving?_fqdn {domains : List AvailableDomain} {h : Host} {d : AvailableDomain}
    (hd : listed? domains h.domain = some d) :
    serving? domains h.fqdn = some ((diverting? domains h).getD d) := by
  rw [diverting?, serving?]
  cases hw : isWildcard h.domain with
  | true =>
    rw [if_pos rfl, ← Option.or_some, Option.or_assoc, find?_exact]
    congr 1
    -- The wildcards before the first of the spelling of `h` come first; that one serves the name.
    rw [← hd, listed?, find?_eq_or_of_imp (q := (·.domain = h.domain)) fun e he => ?_]
    · simp only [decide_not]
    · rw [decide_eq_true_eq] at he
      rw [AvailableDomain.serves_fqdn he, Bool.and_true, AvailableDomain.isWildcard, he, hw]
  | false =>
    rw [if_neg Bool.false_ne_true, Option.getD_none, Host.fqdn_of_not_isWildcard hw, find?_exact,
      Option.or_eq_some_iff]
    refine .inl (find?_eq_some_of_imp hd ?_ fun e he => (Bool.and_eq_true_iff.mp he).2)
    rw [AvailableDomain.isWildcard, domain_of_listed? hd, hw, Bool.not_false, Bool.true_and,
      decide_eq_true_eq]

/-- Whether entries of different spelling share no name. -/
def Unambiguous (domains : List AvailableDomain) : Prop :=
  ∀ fqdn, ∀ d ∈ domains, ∀ e ∈ domains, d.serves fqdn = true → e.serves fqdn = true →
    d.domain = e.domain

theorem serving?_fqdn_of_unambiguous {domains : List AvailableDomain} (hu : Unambiguous domains)
    {h : Host} {d : AvailableDomain} (hd : listed? domains h.domain = some d) :
    serving? domains h.fqdn = some d := by
  have hs := AvailableDomain.serves_fqdn (domain_of_listed? hd)
  obtain ⟨e, he⟩ := exists_serving? (mem_of_listed? hd) hs
  obtain ⟨hm, hes⟩ := serves_of_serving? he
  have hde : d.domain = e.domain := hu _ d (mem_of_listed? hd) e hm hs hes
  have hl := listed?_of_serving? he
  rw [← hde, domain_of_listed? hd, hd] at hl
  rw [he, ← hl]

end DeploymentConfig
