/-
Texts in letters of either case.

To change the case of a text changes its letters and nothing else, so what reads a text by
its digits, blanks and punctuation reads it alike before and after.

* `toLower_eq_iff`, `toUpper_eq_iff`: no other character becomes a character that is no letter,
* `isDigit_toLower`, `isBlank_toLower`, `isBlank_toUpper`: digits and blanks stay what
  they are,
* `isLower_toUpper`, `toUpper_of_isLower_eq_false`: in capitals there are no small letters, and
  what has none stays as it is,
* `trim_lower`: blanks are cut off alike,
* `forall_of_sameLetters`: texts that are equal up to the case of letters have their characters
  in the same classes, where a class has a letter in both cases or in none,
* `upper_of_sameLetters`: texts that are equal up to the case of letters have one text in
  capitals.
-/
import SchemaKeeper.Text.Ascii
import SchemaKeeper.Text.Blank

namespace SchemaKeeper.Text

/-! ### Characters -/

/-- A character is a capital that becomes its small letter, or stays as it is. -/
theorem toLower_cases (c : Char) :
    (65 ≤ c.toNat ∧ c.toNat ≤ 90 ∧ c.toLower.toNat = c.toNat + 32) ∨ c.toLower = c := by
  by_cases hcapital : c.val ≥ 'A'.val ∧ c.val ≤ 'Z'.val
  · left
    have hlow : 65 ≤ c.toNat := UInt32.le_iff_toNat_le.mp hcapital.1
    have hhigh : c.toNat ≤ 90 := UInt32.le_iff_toNat_le.mp hcapital.2
    refine ⟨hlow, hhigh, ?_⟩
    have hlower : c.toLower.val = c.val + ('a'.val - 'A'.val) :=
      congrArg Char.val (dif_pos hcapital)
    show c.toLower.val.toNat = c.val.toNat + 32
    rw [hlower, UInt32.toNat_add]
    have hsum : c.val.toNat + 32 < 2 ^ 32 := by
      show c.toNat + 32 < 2 ^ 32
      omega
    exact Nat.mod_eq_of_lt hsum
  · exact .inr (dif_neg hcapital)

/-- What is said of a character that neither a capital nor a small letter has can be said of it in
either case. -/
theorem toLower_congr {p : Char → Bool}
    (h : ∀ c, p c = true → c.toNat < 65 ∨ (90 < c.toNat ∧ c.toNat < 97) ∨ 122 < c.toNat)
    (c : Char) : p c.toLower = p c := by
  rcases toLower_cases c with ⟨hlow, hhigh, hlower⟩ | hsame
  · have hcapital : p c = false := by
      rw [← Bool.not_eq_true]
      intro hc
      have := h c hc
      omega
    have hsmall : p c.toLower = false := by
      rw [← Bool.not_eq_true]
      intro hc
      have := h _ hc
      omega
    rw [hcapital, hsmall]
  · rw [hsame]

theorem toLower_eq_iff {d : Char}
    (h : d.toNat < 65 ∨ (90 < d.toNat ∧ d.toNat < 97) ∨ 122 < d.toNat) (c : Char) :
    c.toLower = d ↔ c = d := by
  have hcongr := toLower_congr (p := (· == d)) (fun x hx => by rwa [beq_iff_eq.mp hx]) c
  rw [← beq_iff_eq, ← beq_iff_eq (a := c), hcongr]

theorem isDigit_toLower (c : Char) : c.toLower.isDigit = c.isDigit := by
  refine toLower_congr (fun x hx => ?_) c
  have hbounds : 48 ≤ x.toNat ∧ x.toNat ≤ 57 := Char.isDigit_iff_toNat.mp hx
  omega

theorem isBlank_toLower (c : Char) : isBlank c.toLower = isBlank c := by
  refine toLower_congr (fun x hx => ?_) c
  simp only [isBlank, Bool.or_eq_true, Bool.and_eq_true, beq_iff_eq, decide_eq_true_eq] at hx
  omega

/-- A character is a small letter that becomes its capital, or stays as it is. -/
theorem toUpper_cases (c : Char) :
    (97 ≤ c.toNat ∧ c.toNat ≤ 122 ∧ c.toUpper.toNat + 32 = c.toNat) ∨
      (¬ (97 ≤ c.toNat ∧ c.toNat ≤ 122) ∧ c.toUpper = c) := by
  by_cases hsmall : 'a'.val ≤ c.val ∧ c.val ≤ 'z'.val
  · left
    have hlow : 97 ≤ c.toNat := UInt32.le_iff_toNat_le.mp hsmall.1
    have hhigh : c.toNat ≤ 122 := UInt32.le_iff_toNat_le.mp hsmall.2
    refine ⟨hlow, hhigh, ?_⟩
    have hupper : c.toUpper.val = c.val + ('A'.val - 'a'.val) := by
      delta Char.toUpper
      rw [dif_pos hsmall]
    show c.toUpper.val.toNat + 32 = c.val.toNat
    -- the difference of the two letters is below zero, and is added modulo the size of a word
    have hwrap : ('A'.val - 'a'.val).toNat = 2 ^ 32 - 32 := rfl
    rw [hupper, UInt32.toNat_add, hwrap]
    have hval : c.val.toNat = c.toNat := rfl
    omega
  · right
    refine ⟨fun h => hsmall ⟨UInt32.le_iff_toNat_le.mpr h.1, UInt32.le_iff_toNat_le.mpr h.2⟩, ?_⟩
    exact dif_neg hsmall

theorem isLower_iff_toNat {c : Char} : c.isLower = true ↔ 97 ≤ c.toNat ∧ c.toNat ≤ 122 := by
  show (decide (c.val ≥ 97) && decide (c.val ≤ 122)) = true ↔ _
  rw [Bool.and_eq_true, decide_eq_true_iff, decide_eq_true_iff]
  exact and_congr UInt32.le_iff_toNat_le UInt32.le_iff_toNat_le

theorem isLower_toUpper (c : Char) : c.toUpper.isLower = false := by
  rw [← Bool.not_eq_true, isLower_iff_toNat]
  rcases toUpper_cases c with ⟨hlow, hhigh, hupper⟩ | ⟨hsmall, hsame⟩
  · omega
  · rwa [hsame]

theorem toUpper_of_isLower_eq_false {c : Char} (h : c.isLower = false) : c.toUpper = c := by
  rcases toUpper_cases c with ⟨hlow, hhigh, -⟩ | ⟨-, hsame⟩
  · rw [isLower_iff_toNat.mpr ⟨hlow, hhigh⟩] at h
    cases h
  · exact hsame

theorem toUpper_eq_iff {d : Char}
    (h : d.toNat < 65 ∨ (90 < d.toNat ∧ d.toNat < 97) ∨ 122 < d.toNat) (c : Char) :
    c.toUpper = d ↔ c = d := by
  rcases toUpper_cases c with ⟨hlow, hhigh, hupper⟩ | ⟨-, hsame⟩
  · constructor <;> rintro rfl <;> omega
  · rw [hsame]

theorem isBlank_toUpper (c : Char) : isBlank c.toUpper = isBlank c := by
  rcases toUpper_cases c with ⟨hlow, hhigh, hupper⟩ | ⟨-, hsame⟩
  · rw [Bool.eq_iff_iff]
    simp only [isBlank, Bool.or_eq_true, Bool.and_eq_true, beq_iff_eq, decide_eq_true_eq]
    omega
  · rw [hsame]

theorem toUpper_toLower (c : Char) : c.toLower.toUpper = c.toUpper := by
  rcases toLower_cases c with ⟨hlow, hhigh, hlower⟩ | hsame
  · have hself : c.toUpper = c := by
      rcases toUpper_cases c with ⟨hsmall, -, -⟩ | ⟨-, h⟩
      · omega
      · exact h
    rw [hself]
    rcases toUpper_cases c.toLower with ⟨-, -, hupper⟩ | ⟨hsmall, -⟩
    · exact Char.toNat_inj.mp (by omega)
    · omega
  · rw [hsame]

theorem toLower_toLower (c : Char) : c.toLower.toLower = c.toLower := by
  rcases toLower_cases c with ⟨hlow, hhigh, hlower⟩ | hsame
  · rcases toLower_cases c.toLower with ⟨-, hhigh', -⟩ | h
    · omega
    · exact h
  · rw [hsame, hsame]

/-! ### Texts -/

theorem lower_lower (s : List Char) : lower (lower s) = lower s := by
  rw [lower, lower, List.map_map]
  exact List.map_congr_left fun c _ => toLower_toLower c

theorem dropWhile_lower {p : Char → Bool} (h : ∀ c : Char, p c.toLower = p c) (s : List Char) :
    (lower s).dropWhile p = lower (s.dropWhile p) := by
  rw [lower, List.dropWhile_map]
  exact congrArg (fun q => lower (s.dropWhile q)) (funext h)

theorem takeWhile_lower {p : Char → Bool} (h : ∀ c : Char, p c.toLower = p c) (s : List Char) :
    (lower s).takeWhile p = lower (s.takeWhile p) := by
  rw [lower, List.takeWhile_map]
  exact congrArg (fun q => lower (s.takeWhile q)) (funext h)

theorem trim_lower (s : List Char) : trim (lower s) = lower (trim s) := by
  have hreverse : ∀ t : List Char, (lower t).reverse = lower t.reverse := fun t =>
    (List.map_reverse ..).symm
  rw [trim, trim, trimStart, trimStart, trimEnd, trimEnd, dropWhile_lower isBlank_toLower, hreverse,
    dropWhile_lower isBlank_toLower, hreverse]

/-- What is said of a character in either case is said of all characters of a text if it is said of
those of the text in other letters. -/
theorem forall_of_sameLetters {p : Char → Bool} {v : Bool} (hp : ∀ c : Char, p c.toLower = p c)
    {s t : List Char} (h : sameLetters s t = true) (hs : ∀ c ∈ s, p c = v) : ∀ c ∈ t, p c = v := by
  intro c hc
  have hmem : c.toLower ∈ lower s := by
    rw [beq_iff_eq.mp h]
    exact List.mem_map_of_mem hc
  obtain ⟨d, hd, hlower⟩ := List.mem_map.mp hmem
  rw [← hp, ← hlower, hp, hs d hd]

theorem upper_of_sameLetters {s t : List Char} (h : sameLetters s t = true) :
    upper s = upper t := by
  have hlower : ∀ u : List Char, upper u = upper (lower u) := by
    intro u
    rw [upper, upper, lower, List.map_map]
    exact List.map_congr_left fun c _ => (toUpper_toLower c).symm
  rw [hlower s, hlower t, beq_iff_eq.mp h]

end SchemaKeeper.Text
