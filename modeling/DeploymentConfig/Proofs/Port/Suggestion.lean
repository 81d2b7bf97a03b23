import DeploymentConfig.Port.Suggestion

/-!
# What is suggested

Suggestions are drawn from the ranges that are not turned round, publications are
checked against all of them; but a range that is turned round contains no port, and
the ports of any other are those at its offsets (`contains_iff`). So both go by the
same ports (`isPublishable_iff`, `exists_suggest_iff`).

A generator of random numbers need not answer for an empty interval. The two draws
of a suggestion are from intervals that are not empty, so that any generator that
answers for those makes a suggestion (`exists_suggestBy_eq`).

* `suggest_exact`: a suggestion can be published, and what can be published may be
  suggested.
-/

namespace DeploymentConfig

/-! ## The ports of a range -/

namespace PortRange

variable {r : PortRange} {port : Int32} {offset : Nat}

theorem contains_iff_toInt :
    r.contains port = true ↔ r.first.toInt ≤ port.toInt ∧ port.toInt ≤ r.last.toInt := by
  simp only [contains, Bool.and_eq_true, decide_eq_true_eq, Int32.le_iff_toInt_le]

theorem isInhabited_iff : r.isInhabited = true ↔ r.first.toInt ≤ r.last.toInt := by
  simp only [isInhabited, decide_eq_true_eq, Int32.le_iff_toInt_le]

theorem toInt_portAt (hr : r.isInhabited = true) (ho : offset ≤ r.span) :
    (r.portAt offset).toInt = r.first.toInt + offset := by
  have hle := isInhabited_iff.mp hr
  have hspan : r.span = (r.last.toInt - r.first.toInt).toNat := rfl
  have hl : -2147483648 ≤ r.first.toInt := r.first.minValue_le_toInt
  have hu : r.last.toInt ≤ 2147483647 := r.last.toInt_le
  exact Int32.toInt_ofInt_of_le (by omega) (by omega)

/-- A range contains the ports at its offsets, unless it is turned round and contains none. -/
theorem contains_iff : r.contains port = true ↔
    r.isInhabited = true ∧ ∃ offset ≤ r.span, r.portAt offset = port := by
  rw [contains_iff_toInt]
  constructor
  · rintro ⟨hf, hl⟩
    have hr : r.isInhabited = true := isInhabited_iff.mpr (Int.le_trans hf hl)
    have hspan : r.span = (r.last.toInt - r.first.toInt).toNat := rfl
    have ho : (port.toInt - r.first.toInt).toNat ≤ r.span := by omega
    refine ⟨hr, _, ho, Int32.toInt_inj.mp ?_⟩
    rw [toInt_portAt hr ho]
    omega
  · rintro ⟨hr, offset, ho, rfl⟩
    have hle := isInhabited_iff.mp hr
    have hspan : r.span = (r.last.toInt - r.first.toInt).toNat := rfl
    rw [toInt_portAt hr ho]
    omega

end PortRange

namespace Port

variable {protocol : Protocol} {ranges : List PortRange} {range port : Draw} {p : Int32}

/-! ## What can be published -/

theorem isPublishable_iff : isPublishable p protocol ranges = true ↔
    ∃ r ∈ candidates protocol ranges, ∃ offset ≤ r.span, r.portAt offset = p := by
  simp only [isPublishable, candidates, List.any_eq_true, List.mem_filter, PortRange.contains_iff,
    and_assoc]

theorem candidates_eq_nil_iff :
    candidates protocol ranges = [] ↔ ∀ p, isPublishable p protocol ranges = false := by
  simp only [← Bool.not_eq_true, isPublishable_iff]
  constructor
  · rintro h p ⟨r, hr, -⟩
    rw [h] at hr
    exact List.not_mem_nil hr
  · intro h
    refine List.eq_nil_iff_forall_not_mem.mpr fun r hr => ?_
    exact h _ ⟨r, hr, 0, Nat.zero_le _, rfl⟩

/-! ## What is suggested -/

theorem suggest_of_nil (h : candidates protocol ranges = []) :
    suggest range port protocol ranges = 0 := by
  simp only [suggest, h]

theorem exists_suggest_eq (h : candidates protocol ranges ≠ []) (range port : Draw) :
    ∃ r ∈ candidates protocol ranges, ∃ offset ≤ r.span,
      r.portAt offset = suggest range port protocol ranges := by
  cases hc : candidates protocol ranges with
  | nil => exact absurd hc h
  | cons r rs =>
    simp only [suggest, hc]
    exact ⟨_, List.get_mem .., _, Nat.lt_succ_iff.mp (port _).isLt, rfl⟩

/-- Any port of any candidate is suggested by the draws of their places. -/
theorem suggest_of_mem {r : PortRange} (hr : r ∈ candidates protocol ranges) {offset : Nat}
    (ho : offset ≤ r.span) :
    ∃ range port : Draw, suggest range port protocol ranges = r.portAt offset := by
  cases hc : candidates protocol ranges with
  | nil => exact absurd (hc ▸ hr) List.not_mem_nil
  | cons first rs =>
    rw [hc] at hr
    obtain ⟨i, hi, rfl⟩ := List.getElem_of_mem hr
    have hi' : i % (rs.length + 1) = i := Nat.mod_eq_of_lt hi
    have ho' := Nat.mod_eq_of_lt (Nat.lt_succ_of_le ho)
    refine ⟨fun n => .ofNat (n + 1) i, fun n => .ofNat (n + 1) offset, ?_⟩
    simp only [suggest, hc, List.get_eq_getElem, Fin.val_ofNat, hi', ho']

theorem exists_suggest_iff (h : candidates protocol ranges ≠ []) :
    (∃ range port, suggest range port protocol ranges = p) ↔
      isPublishable p protocol ranges = true := by
  rw [isPublishable_iff]
  constructor
  · rintro ⟨range, port, rfl⟩
    exact exists_suggest_eq h range port
  · rintro ⟨r, hr, offset, ho, rfl⟩
    exact suggest_of_mem hr ho

/-! ## Draws from a generator -/

/-- What a generator of random numbers draws from an interval, both ends included, and its state
afterwards; none if it does not answer. -/
abbrev Generator (σ : Type) := (low high : Int) → σ → Option (Int × σ)

/-- A generator that answers with a number of the interval, if there is one. Of an empty interval
nothing is said. -/
def Generator.IsSound {σ : Type} (g : Generator σ) : Prop :=
  ∀ low high s, low ≤ high → ∃ n s', g low high s = some (n, s') ∧ low ≤ n ∧ n ≤ high

/-- A suggestion drawn from a generator: first the place of a range, then a port between its
ends. -/
def suggestBy {σ : Type} (g : Generator σ) (protocol : Protocol) (ranges : List PortRange) (s : σ) :
    Option (Int32 × σ) :=
  let rs := candidates protocol ranges
  if rs.isEmpty then some (0, s)
  else do
    let (place, s) ← g 0 (rs.length - 1) s
    let r ← rs[place.toNat]?
    let (port, s) ← g r.first.toInt r.last.toInt s
    return (.ofInt port, s)

/-- A generator that answers for the intervals that are not empty makes a suggestion, so that none
is drawn from an empty one. -/
theorem exists_suggestBy_eq {σ : Type} {g : Generator σ} (hg : g.IsSound) (protocol : Protocol)
    (ranges : List PortRange) (s : σ) : ∃ range port s',
      suggestBy g protocol ranges s = some (suggest range port protocol ranges, s') := by
  cases hc : candidates protocol ranges with
  | nil =>
    refine ⟨fun _ => 0, fun _ => 0, s, ?_⟩
    rw [suggestBy, suggest_of_nil hc, hc]
    rfl
  | cons first rs =>
    have hlength : ((first :: rs).length : Int) - 1 = rs.length := by
      rw [List.length_cons]
      omega
    obtain ⟨place, s₁, hplace, hp₀, hp⟩ := hg 0 rs.length s (Int.natCast_nonneg _)
    obtain ⟨r, hr⟩ : ∃ r, (first :: rs)[place.toNat]? = some r := by
      refine ⟨_, List.getElem?_eq_getElem ?_⟩
      rw [List.length_cons]
      omega
    have hm : r ∈ candidates protocol ranges := hc ▸ List.mem_of_getElem? hr
    have hle : r.first.toInt ≤ r.last.toInt :=
      PortRange.isInhabited_iff.mp (List.mem_filter.mp hm).2
    obtain ⟨n, s₂, hn, hf, hl⟩ := hg _ _ s₁ hle
    have ho : (n - r.first.toInt).toNat ≤ r.span := by
      rw [PortRange.span]
      omega
    have hport : r.portAt (n - r.first.toInt).toNat = .ofInt n :=
      congrArg Int32.ofInt (by omega)
    obtain ⟨range, port, he⟩ := suggest_of_mem hm ho
    refine ⟨range, port, s₂, ?_⟩
    simp only [suggestBy, hc, hlength, hplace, hr, hn, he, hport, List.isEmpty_cons,
      Bool.false_eq_true, if_false, Option.bind_eq_bind, Option.bind_some, Option.pure_def]

/-- A suggestion can be published, if anything can for the protocol, and is 0 otherwise; whatever
can be published is suggested by some draws. Only intervals that are not empty are drawn from. -/
theorem suggest_exact (protocol : Protocol) (ranges : List PortRange) :
    (∀ range port : Draw,
      ((∀ p, isPublishable p protocol ranges = false) → suggest range port protocol ranges = 0) ∧
      ((∃ p, isPublishable p protocol ranges = true) →
        isPublishable (suggest range port protocol ranges) protocol ranges = true ∧
        ∀ application : Int32, 1 ≤ application.toInt → application.toInt ≤ 65535 →
          PortPublication.check ⟨suggest range port protocol ranges, application, protocol⟩
            ranges = .ok ())) ∧
    (∀ p, isPublishable p protocol ranges = true →
      ∃ range port, suggest range port protocol ranges = p) ∧
    ∀ (σ : Type) (g : Generator σ), g.IsSound → ∀ s, ∃ range port s',
      suggestBy g protocol ranges s = some (suggest range port protocol ranges, s') := by
  have hne : (∃ p, isPublishable p protocol ranges = true) → candidates protocol ranges ≠ [] := by
    rintro ⟨p, hp⟩ hc
    rw [candidates_eq_nil_iff.mp hc p] at hp
    cases hp
  refine ⟨fun range port => ⟨fun h => ?_, fun h => ?_⟩, fun p h => ?_,
    fun σ g hg s => exists_suggestBy_eq hg protocol ranges s⟩
  · exact suggest_of_nil (candidates_eq_nil_iff.mpr h)
  · have hp := (exists_suggest_iff (hne h)).mp ⟨range, port, rfl⟩
    refine ⟨hp, fun application hl hu => ?_⟩
    rw [PortPublication.check, Report.verdict_eq_ok_iff, PortPublication.issues, if_pos hp,
      issues, if_pos (isValid_iff.mpr ⟨hl, hu⟩), List.append_nil]
  · exact (exists_suggest_iff (hne ⟨p, h⟩)).mpr h

/-- A generator that follows a script, as far as the interval lets it, and does not answer for an
empty interval. -/
def scripted : Generator (List Nat) := fun low high script =>
  if low ≤ high then some (low + min (script.headD 0) (high - low).toNat, script.tail) else none

theorem isSound_scripted : scripted.IsSound := by
  intro low high script h
  refine ⟨_, _, if_pos h, ?_⟩
  omega

/-- A range that is turned round, one of every number, and one of the other protocol. -/
def oddRanges : List PortRange :=
  [⟨10, 5, .tcp⟩, ⟨-2147483648, 2147483647, .tcp⟩, ⟨7, 7, .udp⟩]

theorem suggest_exact_oddRanges :
    isPublishable (-3) .tcp oddRanges = true ∧
      (∃ range port, suggest range port .tcp oddRanges = -3) ∧
      (∃ range port s', suggestBy scripted .tcp oddRanges [5, 2147483645] =
        some (suggest range port .tcp oddRanges, s')) ∧
      suggestBy scripted .tcp oddRanges [5, 2147483645] = some (-3, []) ∧
      ∀ range port, PortPublication.check ⟨suggest range port .udp oddRanges, 80, .udp⟩
        oddRanges = .ok () := by
  have hp : isPublishable (-3) .tcp oddRanges = true := by decide
  obtain ⟨-, hall, hgen⟩ := suggest_exact .tcp oddRanges
  refine ⟨hp, hall _ hp, hgen _ scripted isSound_scripted _, by decide, fun range port => ?_⟩
  exact (((suggest_exact .udp oddRanges).1 range port).2 ⟨7, by decide⟩).2 80 (by decide)
    (by decide)

end Port

end DeploymentConfig
