/-
Defaults that mean the same.

Two defaults are compared by one rule after another: as NULL, up to the case of letters, as
numbers, and as they stand.  Which rule applies hangs on both of them, but what comes out does
not: `meaning` is what a default sets, told from the default alone.

* `sameLiteral_iff`, `defaultsMatch_iff`: two defaults match exactly if they have one meaning,
* `defaultsMatch_equivalence`: so to match is an equivalence relation.  No default and NULL make
  up a class, and so does each text that starts with a quote.
-/
import SchemaKeeper.Proofs.Comparison.NumberDefaults

namespace SchemaKeeper

open Text Number

/-! ### Numbers up to the sign of a zero -/

namespace Number.Binary64

/-- The number with a plus sign if it is a zero. -/
def plusZero : Binary64 → Binary64
  | .finite negative m e => if m = 0 then zero false else .finite negative m e
  | b => b

theorem numEq_iff (b b' : Binary64) :
    b.numEq b' = true ↔ b ≠ .nan ∧ b.plusZero = b'.plusZero := by
  cases b with
  | nan => simp [numEq]
  | infinite negative =>
    cases b' with
    | nan => simp [numEq, plusZero]
    | infinite negative' => simp [numEq, plusZero]
    | finite negative' m' e' =>
      by_cases hm' : m' = 0 <;> simp [numEq, plusZero, zero, hm']
  | finite negative m e =>
    cases b' with
    | nan => by_cases hm : m = 0 <;> simp [numEq, plusZero, zero, hm]
    | infinite negative' => by_cases hm : m = 0 <;> simp [numEq, plusZero, zero, hm]
    | finite negative' m' e' =>
      -- zeros are equal whatever their signs, other numbers only if all parts are
      by_cases hm : m = 0
      · by_cases hm' : m' = 0
        · simp [numEq, plusZero, hm, hm']
        · simp [numEq, plusZero, zero, hm, hm', Ne.symm hm']
      · simp only [numEq, plusZero, hm]
        by_cases hm' : m' = 0 <;> simp [zero, hm, hm', and_assoc]

theorem ofDecimal_ne_nan (x : Decimal) : ofDecimal x ≠ .nan :=
  ((numEq_iff _ _).mp (numEq_ofDecimal_of_value_eq (x := x) rfl)).1

end Number.Binary64

namespace Comparison

/-! ### What a default means -/

/-- What a default sets. -/
inductive Meaning where
  | nothing
  /-- A number; a zero has no sign. -/
  | number (value : Binary64)
  /-- A text that starts with a quote. -/
  | quoted (text : List Char)
  /-- Any other text, in lower case. -/
  | word (text : List Char)

/-- What the text of a default sets. -/
def literalMeaning (s : List Char) : Meaning :=
  if s.head? = some '\'' then .quoted s
  else
    match Decimal.read? s with
    | some x => .number (Binary64.ofDecimal x).plusZero
    | none => .word (lower s)

/-- What an optional default sets. -/
def meaning (literal? : Option String) : Meaning :=
  match effective? literal? with
  | some literal => literalMeaning literal.toList
  | none => .nothing

section Literals

variable {a b s t : List Char} {x : Decimal}

theorem literalMeaning_quote (r : List Char) : literalMeaning ('\'' :: r) = .quoted ('\'' :: r) :=
  rfl

theorem literalMeaning_of_read? (h : Decimal.read? s = some x) :
    literalMeaning s = .number (Binary64.ofDecimal x).plusZero := by
  have hquote : s.head? ≠ some '\'' := by
    intro hquote
    obtain ⟨r, rfl⟩ := List.head?_eq_some_iff.mp hquote
    rw [read?_quote] at h
    cases h
  rw [literalMeaning, if_neg hquote, h]

theorem literalMeaning_word (hquote : s.head? ≠ some '\'') (hread : Decimal.read? s = none) :
    literalMeaning s = .word (lower s) := by
  rw [literalMeaning, if_neg hquote, hread]

/-- A text starts with a quote, is a number, or is neither. -/
theorem literal_cases (s : List Char) :
    (∃ r, s = '\'' :: r) ∨ (∃ x, Decimal.read? s = some x) ∨
      (s.head? ≠ some '\'' ∧ Decimal.read? s = none) := by
  by_cases hquote : s.head? = some '\''
  · exact .inl (List.head?_eq_some_iff.mp hquote)
  · cases hread : Decimal.read? s with
    | some x => exact .inr (.inl ⟨x, rfl⟩)
    | none => exact .inr (.inr ⟨hquote, rfl⟩)

theorem literalMeaning_ne_nothing (s : List Char) : literalMeaning s ≠ .nothing := by
  rcases literal_cases s with ⟨r, rfl⟩ | ⟨x, hread⟩ | ⟨hquote, hread⟩
  · nofun
  · rw [literalMeaning_of_read? hread]
    nofun
  · rw [literalMeaning_word hquote hread]
    nofun

theorem eq_of_literalMeaning_quoted (h : literalMeaning s = .quoted t) : s = t := by
  rcases literal_cases s with ⟨r, rfl⟩ | ⟨x, hread⟩ | ⟨hquote, hread⟩
  · exact Meaning.quoted.inj h
  · rw [literalMeaning_of_read? hread] at h
    cases h
  · rw [literalMeaning_word hquote hread] at h
    cases h

theorem lower_of_literalMeaning_word (h : literalMeaning s = .word t) : lower s = t := by
  rcases literal_cases s with ⟨r, rfl⟩ | ⟨x, hread⟩ | ⟨hquote, hread⟩
  · cases h
  · rw [literalMeaning_of_read? hread] at h
    cases h
  · rw [literalMeaning_word hquote hread] at h
    exact Meaning.word.inj h

/-! ### Equal meanings -/

/-- A quote is no letter, so texts that are equal up to the case of letters both start with one or
neither does. -/
theorem head?_eq_quote_of_sameLetters (h : sameLetters a b = true) (hb : b.head? = some '\'') :
    a.head? = some '\'' := by
  obtain ⟨r, rfl⟩ := List.head?_eq_some_iff.mp hb
  have hlower : lower a = '\'' :: lower r := beq_iff_eq.mp h
  obtain ⟨c, a', rfl, hc, -⟩ := List.map_eq_cons_iff.mp hlower
  rw [(toLower_eq_iff (.inl (by decide)) c).mp hc]
  rfl

/-- A number is the same as numbers only. -/
theorem sameLiteral_number (ha : Decimal.read? a = some x) (hb : Decimal.read? b = none) :
    sameLiteral a b = false := by
  have hsame : sameLetters a b = false := by
    rw [← Bool.not_eq_true]
    intro h
    rw [Decimal.read?_of_sameLetters h, hb] at ha
    cases ha
  have hne : (a == b) = false := by
    rw [beq_eq_false_iff_ne]
    rintro rfl
    rw [hb] at ha
    cases ha
  have hnumber : sameNumber? a b = none := by
    rw [sameNumber?, ha, hb]
  rw [sameLiteral, hsame, hnumber, Bool.false_and, if_neg Bool.false_ne_true, Option.getD_none, hne]

/-- A text that is no number and does not start with a quote is compared up to the case of
letters. -/
theorem sameLiteral_word (hquote : a.head? ≠ some '\'') (hread : Decimal.read? a = none)
    (b : List Char) : sameLiteral a b = sameLetters a b := by
  have hhead : (a.head? != some '\'') = true := bne_iff_ne.mpr hquote
  have hnumber : sameNumber? a b = none := by
    rw [sameNumber?, hread]
  rw [sameLiteral, hhead, hnumber, Bool.and_true, Option.getD_none]
  cases hsame : sameLetters a b with
  | true => rw [if_pos rfl]
  | false =>
    rw [if_neg Bool.false_ne_true, beq_eq_false_iff_ne]
    rintro rfl
    rw [sameLetters_refl] at hsame
    cases hsame

theorem sameLiteral_iff (a b : List Char) :
    sameLiteral a b = true ↔ literalMeaning a = literalMeaning b := by
  rcases literal_cases a with ⟨r, rfl⟩ | ⟨x, hx⟩ | ⟨hquote, hread⟩
  -- a text with a quote in front is compared as it stands, a number by its value with numbers only
  · rw [sameLiteral_quote, beq_iff_eq, literalMeaning_quote]
    refine ⟨fun h => ?_, fun h => (eq_of_literalMeaning_quoted h.symm).symm⟩
    rw [← h, literalMeaning_quote]
  · cases hy : Decimal.read? b with
    | some y =>
      rw [sameLiteral_of_read? hx hy, Binary64.numEq_iff, literalMeaning_of_read? hx,
        literalMeaning_of_read? hy, Meaning.number.injEq]
      exact and_iff_right (Binary64.ofDecimal_ne_nan x)
    | none =>
      rw [sameLiteral_number hx hy, literalMeaning_of_read? hx]
      refine ⟨fun h => absurd h Bool.false_ne_true, fun h => ?_⟩
      rcases literal_cases b with ⟨r, rfl⟩ | ⟨y, hy'⟩ | ⟨hquote, hread⟩
      · cases h
      · rw [hy] at hy'
        cases hy'
      · rw [literalMeaning_word hquote hread] at h
        cases h
  · rw [sameLiteral_word hquote hread, literalMeaning_word hquote hread]
    constructor
    · intro hsame
      -- then neither does the other text start with a quote, nor is it a number
      have hquote' := mt (head?_eq_quote_of_sameLetters hsame) hquote
      have hread' := (Decimal.read?_of_sameLetters hsame).symm.trans hread
      rw [literalMeaning_word hquote' hread', beq_iff_eq.mp hsame]
    · intro h
      exact beq_iff_eq.mpr (lower_of_literalMeaning_word h.symm).symm

end Literals

theorem defaultsMatch_iff (a b : Option String) :
    defaultsMatch a b = true ↔ meaning a = meaning b := by
  unfold defaultsMatch meaning
  cases effective? a with
  | none =>
    cases effective? b with
    | none => exact iff_of_true rfl rfl
    | some b => exact iff_of_false Bool.false_ne_true (literalMeaning_ne_nothing _).symm
  | some a =>
    cases effective? b with
    | none => exact iff_of_false Bool.false_ne_true (literalMeaning_ne_nothing _)
    | some b => exact sameLiteral_iff a.toList b.toList

/-- A zero has no sign. -/
example : defaultsMatch (some "-0") (some "0.0") = true := by decide

/-! ### The classes of defaults -/

theorem meaning_eq_nothing {a : Option String} :
    meaning a = .nothing ↔ a = none ∨ ∃ s, a = some s ∧ sameName s "NULL" = true := by
  have heffective : meaning a = .nothing ↔ effective? a = none := by
    unfold meaning
    cases effective? a with
    | none => exact iff_of_true rfl rfl
    | some s => exact iff_of_false (literalMeaning_ne_nothing _) nofun
  rw [heffective, effective?, Option.filter_eq_none_iff]
  cases a with
  | none => simp
  | some s => simp

/-- A text that starts with a quote has a meaning of its own. -/
theorem meaning_eq_quoted {r : List Char} {a : Option String} :
    meaning a = .quoted ('\'' :: r) ↔ a = some (String.ofList ('\'' :: r)) := by
  constructor
  · intro h
    unfold meaning at h
    split at h
    · next s hs =>
      obtain rfl : a = some s := Option.eq_some_of_filter_eq_some hs
      rw [← eq_of_literalMeaning_quoted h, String.ofList_toList]
    · cases h
  · rintro rfl
    rw [meaning, effective?_quote]
    exact congrArg literalMeaning String.toList_ofList

/-- **To match is an equivalence relation on defaults**, though several rules are tried one after
another.  What matches no default is NULL in letters of either case, and a text that starts with a
quote matches itself alone. -/
theorem defaultsMatch_equivalence :
    (Equivalence fun a b => defaultsMatch a b = true) ∧
    (∀ a, defaultsMatch none a = true ↔ a = none ∨ ∃ s, a = some s ∧ sameName s "NULL" = true) ∧
    ∀ r a, defaultsMatch (some (String.ofList ('\'' :: r))) a = true ↔
      a = some (String.ofList ('\'' :: r)) := by
  simp only [defaultsMatch_iff]
  refine ⟨⟨fun a => rfl, Eq.symm, Eq.trans⟩, fun a => ?_, fun r a => ?_⟩
  · rw [← meaning_eq_nothing]
    exact eq_comm
  · rw [← meaning_eq_quoted, meaning_eq_quoted.mpr rfl]
    exact eq_comm

end Comparison

end SchemaKeeper
