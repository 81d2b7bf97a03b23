/-!
# Blank text

A required text must hold something other than white space. White space is the
`White_Space` property of Unicode (`isSpace`, 25 code points): wider than the
four characters of `Char.isWhitespace`.

* `isBlank_iff`: a text is blank when every character of it is white space;
* `trimmed_eq_nil_iff`: trimming leaves nothing of a blank text, and of no other.
-/

namespace DeploymentConfig.Text

/-- The code points with the property `White_Space`. -/
def spaces : List Nat :=
  [0x09, 0x0A, 0x0B, 0x0C, 0x0D, 0x20, 0x85, 0xA0, 0x1680, 0x2000, 0x2001, 0x2002, 0x2003, 0x2004,
    0x2005, 0x2006, 0x2007, 0x2008, 0x2009, 0x200A, 0x2028, 0x2029, 0x202F, 0x205F, 0x3000]

/-- Whether a character is white space. -/
def isSpace (c : Char) : Bool :=
  spaces.contains c.toNat

/-- Whether a text holds nothing but white space. -/
def isBlank (s : String) : Bool :=
  s.toList.all isSpace

/-- A text without the white space at its two ends, as characters. -/
def trimmed (s : String) : List Char :=
  ((s.toList.dropWhile isSpace).reverse.dropWhile isSpace).reverse

theorem isBlank_iff {s : String} : isBlank s ↔ ∀ c ∈ s.toList, isSpace c := by
  simp [isBlank]

theorem dropWhile_eq_nil_iff {p : Char → Bool} {cs : List Char} :
    cs.dropWhile p = [] ↔ ∀ c ∈ cs, p c := by
  induction cs with
  | nil => simp
  | cons c cs ih => by_cases h : p c <;> simp [h, ih]

theorem trimmed_eq_nil_iff {s : String} : trimmed s = [] ↔ isBlank s := by
  rw [trimmed, List.reverse_eq_nil_iff, dropWhile_eq_nil_iff, isBlank_iff]
  simp only [List.mem_reverse]
  refine ⟨fun h => ?_, fun h c hc => h c ((List.dropWhile_sublist _).subset hc)⟩
  rw [← dropWhile_eq_nil_iff]
  cases hd : s.toList.dropWhile isSpace with
  | nil => rfl
  | cons c cs =>
    have hc := List.head?_dropWhile_not isSpace s.toList
    rw [hd] at hc h
    simp_all

end DeploymentConfig.Text
