import DeploymentConfig.Port.Basic
import DeploymentConfig.Proofs.Text.Numerals

/-!
# Reading a port

A text input holds no port, a port, a number that is none, or no number. The
numbers are those that numerals write (`Text.Writes`), but only the numbers of 32
bits are recognised as such (`int32?_eq_some_iff`): `Classifies` says which
answer belongs to which text, for any such choice of numbers.

* `ofText_exact`: every text is classified by the numbers of 32 bits, and so by
  all integers exactly if it holds none that is wider; and a port is read from
  its numeral, with zeros and white space around it;
* `invalidFormat_of_wide`: a wider integer is reported not to be one.
-/

namespace DeploymentConfig.Port

open Text (IsTrimmed Writes)

variable {counted : Int → Prop} {field text : String} {t : List Char} {n : Int} {port : Int32}

/-! ## Numbers of 32 bits -/

/-- Whether a number has 32 bits, one of them for the sign. -/
def Fits (n : Int) : Prop :=
  -2147483648 ≤ n ∧ n ≤ 2147483647

theorem fits_toInt (port : Int32) : Fits port.toInt :=
  ⟨port.minValue_le_toInt, port.toInt_le⟩

theorem int32?_eq_some_iff : int32? t = some port ↔ Writes t port.toInt := by
  simp only [int32?, Option.map_eq_some_iff, Option.filter_eq_some_iff, decide_eq_true_eq,
    Text.integer?_eq_some_iff]
  constructor
  · rintro ⟨n, ⟨hw, hl, hu⟩, rfl⟩
    rwa [Int32.toInt_ofInt_of_le hl (Int.lt_of_le_of_lt hu (by decide))]
  · intro hw
    exact ⟨port.toInt, ⟨hw, fits_toInt port⟩, port.ofInt_toInt⟩

theorem int32?_eq_none_iff : int32? t = none ↔ ∀ n, Writes t n → ¬ Fits n := by
  rw [Option.eq_none_iff_forall_ne_some]
  constructor
  · intro h n hw hf
    refine h (.ofInt n) (int32?_eq_some_iff.mpr ?_)
    rwa [Int32.toInt_ofInt_of_le hf.1 (Int.lt_of_le_of_lt hf.2 (by decide))]
  · intro h port hp
    exact h _ (int32?_eq_some_iff.mp hp) (fits_toInt port)

/-! ## Answers -/

/-- The answer that belongs to a text without the white space around it, if `counted` tells which
of the numbers that can be written are recognised as numbers. -/
structure Classifies (counted : Int → Prop) (field : String) (t : List Char)
    (answer : Except Issue Int32) : Prop where
  ok_iff : ∀ port, answer = .ok port ↔
    Writes t port.toInt ∧ 1 ≤ port.toInt ∧ port.toInt ≤ 65535
  missing_iff : answer = .error ⟨field, .missingRequired, "Port is required"⟩ ↔ t = []
  outOfRange_iff : answer = .error ⟨field, .outOfRange, "Port must be between 1 and 65535"⟩ ↔
    ∃ n, Writes t n ∧ counted n ∧ ¬ (1 ≤ n ∧ n ≤ 65535)
  invalidFormat_iff : answer = .error ⟨field, .invalidFormat, "Port must be an integer"⟩ ↔
    t ≠ [] ∧ ¬ ∃ n, Writes t n ∧ counted n

theorem outOfRange_eq (field : String) :
    outOfRange field = ⟨field, .outOfRange, "Port must be between 1 and 65535"⟩ :=
  congrArg (Issue.mk field .outOfRange) (by decide)

theorem classifies_nil : Classifies counted field []
    (.error ⟨field, .missingRequired, "Port is required"⟩) := by
  constructor <;> simp [Text.not_writes_nil]

theorem classifies_port (hw : Writes t port.toInt) (hc : counted port.toInt)
    (hr : 1 ≤ port.toInt ∧ port.toInt ≤ 65535) : Classifies counted field t (.ok port) := by
  refine ⟨fun q => ?_, by simp [hw.ne_nil], iff_of_false (by simp) ?_, iff_of_false (by simp) ?_⟩
  · rw [Except.ok.injEq]
    constructor
    · rintro rfl
      exact ⟨hw, hr⟩
    · rintro ⟨hq, -⟩
      exact Int32.toInt_inj.mp (hw.unique hq)
  · rintro ⟨n, hn, -, hout⟩
    exact hout (hw.unique hn ▸ hr)
  · rintro ⟨-, hnone⟩
    exact hnone ⟨_, hw, hc⟩

theorem classifies_outOfRange (hw : Writes t n) (hc : counted n) (hr : ¬ (1 ≤ n ∧ n ≤ 65535)) :
    Classifies counted field t
      (.error ⟨field, .outOfRange, "Port must be between 1 and 65535"⟩) := by
  refine ⟨fun q => iff_of_false (by simp) ?_, by simp [hw.ne_nil],
    iff_of_true rfl ⟨n, hw, hc, hr⟩, iff_of_false (by simp) ?_⟩
  · rintro ⟨hq, hqr⟩
    exact hr (hq.unique hw ▸ hqr)
  · rintro ⟨-, hnone⟩
    exact hnone ⟨n, hw, hc⟩

theorem classifies_other (ht : t ≠ []) (hc : ∀ port : Int32, counted port.toInt)
    (hn : ∀ n, Writes t n → ¬ counted n) : Classifies counted field t
      (.error ⟨field, .invalidFormat, "Port must be an integer"⟩) := by
  refine ⟨fun q => iff_of_false (by simp) ?_, by simp [ht], iff_of_false (by simp) ?_,
    iff_of_true rfl ⟨ht, ?_⟩⟩
  · rintro ⟨hq, -⟩
    exact hn _ hq (hc q)
  · rintro ⟨n, hw, hcn, -⟩
    exact hn n hw hcn
  · rintro ⟨n, hw, hcn⟩
    exact hn n hw hcn

/-- Every text is classified by the numbers of 32 bits. -/
theorem classifies_ofText (field text : String) :
    Classifies Fits field (Text.trimmed text) (ofText field text) := by
  rw [ofText]
  cases ht : Text.trimmed text with
  | nil => exact classifies_nil
  | cons c cs =>
    cases hi : int32? (c :: cs) with
    | none =>
      simp only [hi]
      exact classifies_other (List.cons_ne_nil c cs) fits_toInt (int32?_eq_none_iff.mp hi)
    | some port =>
      have hw := int32?_eq_some_iff.mp hi
      simp only [hi]
      by_cases hr : 1 ≤ port.toInt ∧ port.toInt ≤ 65535
      · rw [if_pos (isValid_iff.mpr hr)]
        exact classifies_port hw (fits_toInt port) hr
      · rw [if_neg (mt isValid_iff.mp hr), outOfRange_eq]
        exact classifies_outOfRange hw (fits_toInt port) hr

/-- Recognising more numbers makes no difference to a text that holds none of them. -/
theorem Classifies.congr {more : Int → Prop} {answer : Except Issue Int32}
    (h : Classifies counted field t answer) (hm : ∀ n, Writes t n → (counted n ↔ more n)) :
    Classifies more field t answer := by
  refine ⟨h.ok_iff, h.missing_iff, h.outOfRange_iff.trans (exists_congr fun n => ?_),
    h.invalidFormat_iff.trans (and_congr_right fun _ => not_congr (exists_congr fun n => ?_))⟩
  · exact and_congr_right fun hw => and_congr_left fun _ => hm n hw
  · exact and_congr_right fun hw => hm n hw

/-- A number that is not recognised is reported to be none. -/
theorem Classifies.eq_invalidFormat {answer : Except Issue Int32}
    (h : Classifies counted field t answer) (hw : Writes t n) (hn : ¬ counted n) :
    answer = .error ⟨field, .invalidFormat, "Port must be an integer"⟩ :=
  h.invalidFormat_iff.mpr ⟨hw.ne_nil, fun ⟨_, hm, hc⟩ => hn (hw.unique hm ▸ hc)⟩

theorem classifies_integers_iff (field text : String) :
    Classifies (fun _ => True) field (Text.trimmed text) (ofText field text) ↔
      ∀ n, Writes (Text.trimmed text) n → Fits n := by
  have hf := classifies_ofText field text
  constructor
  · intro h n hw
    by_contra hn
    exact (h.invalidFormat_iff.mp (hf.eq_invalidFormat hw hn)).2 ⟨n, hw, trivial⟩
  · intro h
    exact hf.congr fun n hw => iff_true_intro (h n hw)

/-- A port is read from its numeral, whatever zeros are in front and white space is around it. -/
theorem ofText_decimal (hl : 1 ≤ port.toInt) (hu : port.toInt ≤ 65535) (zeros : Nat)
    {before after : List Char} (hs : ∀ c ∈ before ++ after, Text.isSpace c = true) :
    ofText field (.ofList (before ++ (List.replicate zeros '0' ++
      (Text.decimal port.toInt).toList) ++ after)) = .ok port := by
  have hn : 0 ≤ port.toInt := by omega
  have ht := Text.isTrimmed_of_areDigits (Text.areDigits_decimal hn zeros) hs
  refine ((classifies_ofText _ _).ok_iff port).mpr ⟨?_, hl, hu⟩
  rw [ht.trimmed_eq]
  exact Text.writes_decimal hn zeros

/-- Every text, without the white space around it, is answered as one that holds a port, a number
of 32 bits that is none, nothing, or anything else. That is the answer it should have among all
integers if and only if it writes none that takes more bits. In particular a port is read from its
decimal text, with zeros in front and white space around it. -/
theorem ofText_exact (field : String) :
    (∀ text, ∃ t, IsTrimmed text t ∧
      Classifies Fits field t (ofText field text) ∧
      (Classifies (fun _ => True) field t (ofText field text) ↔ ∀ n, Writes t n → Fits n)) ∧
    ∀ port : Int32, 1 ≤ port.toInt → port.toInt ≤ 65535 →
      ∀ before zeros after, (∀ c ∈ before ++ after, Text.isSpace c = true) →
        ofText field (.ofList (before ++ (List.replicate zeros '0' ++
          (Text.decimal port.toInt).toList) ++ after)) = .ok port := by
  refine ⟨fun text => ?_, fun port hl hu before zeros after hs => ofText_decimal hl hu zeros hs⟩
  exact ⟨Text.trimmed text, Text.isTrimmed_trimmed text, classifies_ofText field text,
    classifies_integers_iff field text⟩

theorem ofText_exact_padded :
    (∀ c ∈ [' '] ++ ['\t'], Text.isSpace c = true) ∧ ofText "httpPort" " 0080\t" = .ok 80 := by
  have hs : ∀ c ∈ [' '] ++ ['\t'], Text.isSpace c = true :=
    List.forall_mem_cons.mpr ⟨by decide, List.forall_mem_singleton.mpr (by decide)⟩
  exact ⟨hs, (ofText_exact "httpPort").2 80 (by decide) (by decide) [' '] 2 ['\t'] hs⟩

/-- The smallest positive number that takes more than 32 bits is out of the range of ports, but is
reported to be no integer. -/
theorem invalidFormat_of_wide :
    ofText "httpPort" "2147483648" =
      .error ⟨"httpPort", .invalidFormat, "Port must be an integer"⟩ ∧
    Writes "2147483648".toList 2147483648 ∧
    ¬ Classifies (fun _ => True) "httpPort" "2147483648".toList
      (ofText "httpPort" "2147483648") := by
  have hw : Writes "2147483648".toList 2147483648 := Text.integer?_eq_some_iff.mp (by decide)
  have he : ofText "httpPort" "2147483648" =
      .error ⟨"httpPort", .invalidFormat, "Port must be an integer"⟩ := by decide
  refine ⟨he, hw, fun h => ?_⟩
  exact (h.invalidFormat_iff.mp he).2 ⟨_, hw, trivial⟩

end DeploymentConfig.Port
