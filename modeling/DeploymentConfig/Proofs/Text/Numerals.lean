import DeploymentConfig.Text.Blank
import DeploymentConfig.Text.Numeral
import Mathlib.Data.List.TakeWhile

/-!
# Numerals in a text input

What is typed is read without the white space around it. That leaves a part of
the text that neither begins nor ends with any (`isTrimmed_trimmed`), and there is
only one such part (`IsTrimmed.trimmed_eq`). A numeral is one or more digits,
perhaps after a sign (`Writes`), and it is read as the number that its digits have
in base ten (`integer?_eq_some_iff`): any digits, as many as there are, with zeros
in front that do not count (`writes_decimal`).
-/

namespace DeploymentConfig.Text

variable {s : String} {cs ds : List Char} {n : Int}

/-! ## White space around a text -/

/-- Whether a part of a text is what the white space at its two ends leaves of it. -/
structure IsTrimmed (s : String) (cs : List Char) : Prop where
  around : ∃ before after, s.toList = before ++ cs ++ after ∧
    ∀ c ∈ before ++ after, isSpace c = true
  head : ∀ c, cs.head? = some c → isSpace c = false
  last : ∀ c, cs.getLast? = some c → isSpace c = false

theorem dropWhile_append_of_head {p : Char → Bool} {xs ys : List Char} (hx : ∀ c ∈ xs, p c = true)
    (hy : ∀ c, ys.head? = some c → p c = false) : (xs ++ ys).dropWhile p = ys := by
  rw [List.dropWhile_append_of_pos hx]
  cases ys with
  | nil => rfl
  | cons c ys => rw [List.dropWhile_cons_of_neg (Bool.eq_false_iff.mp (hy c rfl))]

theorem head?_dropWhile {p : Char → Bool} {xs : List Char} {c : Char}
    (h : (xs.dropWhile p).head? = some c) : p c = false := by
  have hn := List.head?_dropWhile_not p xs
  rwa [h] at hn

theorem IsTrimmed.trimmed_eq (h : IsTrimmed s cs) : trimmed s = cs := by
  obtain ⟨before, after, hs, hb⟩ := h.around
  obtain ⟨hbefore, hafter⟩ := List.forall_mem_append.mp hb
  cases cs with
  | nil =>
    rw [trimmed_eq_nil_iff, isBlank_iff, hs, List.append_nil]
    exact hb
  | cons c cs =>
    have hfront : s.toList.dropWhile isSpace = c :: cs ++ after := by
      rw [hs, List.append_assoc]
      exact dropWhile_append_of_head hbefore fun x hx => h.head x hx
    have hback : (c :: cs ++ after).reverse.dropWhile isSpace = (c :: cs).reverse := by
      rw [List.reverse_append]
      refine dropWhile_append_of_head (fun x hx => hafter x (List.mem_reverse.mp hx)) fun x hx => ?_
      rw [List.head?_reverse] at hx
      exact h.last x hx
    rw [trimmed, hfront, hback, List.reverse_reverse]

theorem isTrimmed_trimmed (s : String) : IsTrimmed s (trimmed s) := by
  have hfront : s.toList.takeWhile isSpace ++ s.toList.dropWhile isSpace = s.toList :=
    List.takeWhile_append_dropWhile
  have hback : trimmed s ++ ((s.toList.dropWhile isSpace).reverse.takeWhile isSpace).reverse =
      s.toList.dropWhile isSpace := by
    rw [trimmed, ← List.reverse_append, List.takeWhile_append_dropWhile, List.reverse_reverse]
  refine ⟨⟨_, _, by rw [List.append_assoc, hback, hfront], ?_⟩, fun c hc => ?_, fun c hc => ?_⟩
  · refine List.forall_mem_append.mpr ⟨fun c hc => List.mem_takeWhile_imp hc, fun c hc => ?_⟩
    exact List.mem_takeWhile_imp (List.mem_reverse.mp hc)
  · have hfirst : (s.toList.dropWhile isSpace).head? = some c := by
      rw [← hback, List.head?_append, hc, Option.some_or]
    exact head?_dropWhile hfirst
  · rw [trimmed, List.getLast?_reverse] at hc
    exact head?_dropWhile hc

/-! ## Digits -/

/-- Whether a row of characters is one or more decimal digits. -/
def AreDigits (ds : List Char) : Prop :=
  ds ≠ [] ∧ ∀ c ∈ ds, '0' ≤ c ∧ c ≤ '9'

/-- The number that a row of digits has in base ten. -/
def value (ds : List Char) : Nat :=
  Nat.ofDigitChars 10 ds 0

theorem between_iff (lo hi c : Char) :
    (decide (lo.val ≤ c.val) && decide (c.val ≤ hi.val)) = true ↔ lo ≤ c ∧ c ≤ hi := by
  rw [Bool.and_eq_true, decide_eq_true_eq, decide_eq_true_eq]
  rfl

theorem isDigit_iff {c : Char} : c.isDigit = true ↔ '0' ≤ c ∧ c ≤ '9' :=
  between_iff '0' '9' c

theorem digit?_ten (c : Char) :
    digit? 10 c = if '0' ≤ c ∧ c ≤ '9' then some (c.toNat - 48) else none := by
  have hle {a b : Char} : a ≤ b ↔ a.toNat ≤ b.toNat := Iff.rfl
  rw [digit?, digitValue?]
  split
  · rename_i hd
    have hlt : c.toNat - 48 < 10 := by
      have h9 : c.toNat ≤ 57 := hle.mp hd.2
      omega
    rw [Option.filter_some, if_pos (decide_eq_true hlt)]
  · -- A letter is a digit only in a base above ten.
    split
    · rename_i ha
      have hge : 10 ≤ c.toNat - 87 := by
        have h97 : 97 ≤ c.toNat := hle.mp ha.1
        omega
      simpa using hge
    · split
      · rename_i hA
        have hge : 10 ≤ c.toNat - 55 := by
          have h65 : 65 ≤ c.toNat := hle.mp hA.1
          omega
        simpa using hge
      · rfl

theorem digits?_ten_eq_some_iff {start k : Nat} : digits? 10 start cs = some k ↔
    (∀ c ∈ cs, '0' ≤ c ∧ c ≤ '9') ∧ k = Nat.ofDigitChars 10 cs start := by
  induction cs generalizing start with
  | nil => simp [digits?, eq_comm]
  | cons c cs ih =>
    have hcons : digits? 10 start (c :: cs) =
        ((digit? 10 c).map (start * 10 + ·)).bind fun n => digits? 10 n cs := rfl
    have hzero : '0'.toNat = 48 := rfl
    rw [hcons, digit?_ten, List.forall_mem_cons, and_assoc]
    by_cases hc : '0' ≤ c ∧ c ≤ '9'
    · rw [if_pos hc, Option.map_some, Option.bind_some, ih, and_iff_right hc,
        Nat.ofDigitChars_cons, Nat.mul_comm start 10, hzero]
    · simp [hc]

theorem natural?_eq_some_iff {k : Nat} : natural? 10 cs = some k ↔ AreDigits cs ∧ k = value cs := by
  rw [natural?, Option.ite_none_left_eq_some, digits?_ten_eq_some_iff, List.isEmpty_iff,
    ← and_assoc]
  rfl

/-! ## Numerals -/

/-- Whether a row of characters is decimal digits with at most one sign in front, and writes a
number. -/
inductive Writes : List Char → Int → Prop
  | unsigned {ds : List Char} : AreDigits ds → Writes ds (value ds)
  | plus {ds : List Char} : AreDigits ds → Writes ('+' :: ds) (value ds)
  | minus {ds : List Char} : AreDigits ds → Writes ('-' :: ds) (-value ds)

theorem not_areDigits_cons {c : Char} (hc : ¬ ('0' ≤ c ∧ c ≤ '9')) : ¬ AreDigits (c :: ds) :=
  fun h => hc (h.2 c List.mem_cons_self)

theorem writes_plus_iff : Writes ('+' :: ds) n ↔ AreDigits ds ∧ n = value ds := by
  constructor
  · rintro (h | h)
    · exact absurd h (not_areDigits_cons (by decide))
    · exact ⟨h, rfl⟩
  · rintro ⟨h, rfl⟩
    exact .plus h

theorem writes_minus_iff : Writes ('-' :: ds) n ↔ AreDigits ds ∧ n = -value ds := by
  constructor
  · rintro (h | h | h)
    · exact absurd h (not_areDigits_cons (by decide))
    · exact ⟨h, rfl⟩
  · rintro ⟨h, rfl⟩
    exact .minus h

theorem writes_unsigned_iff (hplus : ∀ ds, cs ≠ '+' :: ds) (hminus : ∀ ds, cs ≠ '-' :: ds) :
    Writes cs n ↔ AreDigits cs ∧ n = value cs := by
  constructor
  · rintro (h | h | h)
    · exact ⟨h, rfl⟩
    · exact absurd rfl (hplus _)
    · exact absurd rfl (hminus _)
  · rintro ⟨h, rfl⟩
    exact .unsigned h

theorem map_natural?_eq_some_iff {f : Nat → Int} :
    (natural? 10 cs).map f = some n ↔ AreDigits cs ∧ n = f (value cs) := by
  simp only [Option.map_eq_some_iff, natural?_eq_some_iff]
  constructor
  · rintro ⟨k, ⟨hd, rfl⟩, rfl⟩
    exact ⟨hd, rfl⟩
  · rintro ⟨hd, rfl⟩
    exact ⟨_, ⟨hd, rfl⟩, rfl⟩

theorem integer?_eq_some_iff : integer? cs = some n ↔ Writes cs n := by
  fun_cases integer? cs with
  | case1 ds =>
    rw [map_natural?_eq_some_iff, writes_plus_iff]
    rfl
  | case2 ds =>
    rw [map_natural?_eq_some_iff, writes_minus_iff]
    rfl
  | case3 =>
    rename_i hplus hminus
    rw [map_natural?_eq_some_iff, writes_unsigned_iff hplus hminus]
    rfl

theorem not_writes_nil : ¬ Writes [] n := by
  rintro (h | _ | _)
  exact h.1 rfl

theorem Writes.ne_nil (h : Writes cs n) : cs ≠ [] := by
  rintro rfl
  exact not_writes_nil h

/-- A numeral writes one number. -/
theorem Writes.unique {m : Int} (hn : Writes cs n) (hm : Writes cs m) : n = m :=
  Option.some.inj ((integer?_eq_some_iff.mpr hn).symm.trans (integer?_eq_some_iff.mpr hm))

/-! ## The numeral of a number -/

theorem isSpace_eq_false_of_digit {c : Char} (hc : '0' ≤ c ∧ c ≤ '9') : isSpace c = false := by
  have h48 : 48 ≤ c.toNat := hc.1
  have h57 : c.toNat ≤ 57 := hc.2
  have hs : ∀ k ∈ spaces, k < 48 ∨ 57 < k := by decide
  rw [isSpace, List.contains_eq_mem, decide_eq_false_iff_not]
  intro hm
  rcases hs _ hm with h | h <;> omega

theorem areDigits_replicate_append (zeros : Nat) (h : AreDigits ds) :
    AreDigits (List.replicate zeros '0' ++ ds) := by
  refine ⟨fun hn => h.1 (List.append_eq_nil_iff.mp hn).2, List.forall_mem_append.mpr ⟨?_, h.2⟩⟩
  intro c hc
  rw [(List.mem_replicate.mp hc).2]
  decide

theorem areDigits_toDigits (k : Nat) : AreDigits (Nat.toDigits 10 k) := by
  refine ⟨Nat.toDigits_ne_nil, fun c hc => ?_⟩
  exact isDigit_iff.mp (Nat.isDigit_of_mem_toDigits (by decide) (by decide) hc)

/-- Zeros in front of a numeral do not count. -/
theorem value_replicate_append (zeros : Nat) (ds : List Char) :
    value (List.replicate zeros '0' ++ ds) = value ds := by
  rw [value, value, Nat.ofDigitChars_append, Nat.ofDigitChars_replicate_zero, Nat.mul_zero]

theorem toList_decimal (k : Nat) : (decimal k).toList = Nat.toDigits 10 k :=
  String.toList_ofList

theorem areDigits_decimal (hn : 0 ≤ n) (zeros : Nat) :
    AreDigits (List.replicate zeros '0' ++ (decimal n).toList) := by
  obtain ⟨k, rfl⟩ := Int.eq_ofNat_of_zero_le hn
  rw [toList_decimal]
  exact areDigits_replicate_append zeros (areDigits_toDigits k)

/-- A number is written by its decimal numeral, with any zeros in front. -/
theorem writes_decimal (hn : 0 ≤ n) (zeros : Nat) :
    Writes (List.replicate zeros '0' ++ (decimal n).toList) n := by
  have hw := Writes.unsigned (areDigits_decimal hn zeros)
  obtain ⟨k, rfl⟩ := Int.eq_ofNat_of_zero_le hn
  rwa [value_replicate_append, toList_decimal, value, Nat.ofDigitChars_ten_toDigits,
    ← toList_decimal] at hw

/-- Digits are what is left of them with white space around them. -/
theorem isTrimmed_of_areDigits {before after : List Char} (h : AreDigits ds)
    (hs : ∀ c ∈ before ++ after, isSpace c = true) :
    IsTrimmed (.ofList (before ++ ds ++ after)) ds := by
  refine ⟨⟨before, after, String.toList_ofList, hs⟩, fun c hc => ?_, fun c hc => ?_⟩
  · exact isSpace_eq_false_of_digit (h.2 c (List.mem_of_head? hc))
  · exact isSpace_eq_false_of_digit (h.2 c (List.mem_of_getLast? hc))

end DeploymentConfig.Text
