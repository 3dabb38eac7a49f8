/-
Texts with blanks around them.

`Padded w u` says that the text `u` is the word `w` in letters of either case, with blanks
at its ends.  Blanks at the ends are cut off (`trim_pad`) and make no words (`words_pad`).

* `trimStart_append_cons`: blanks before a character that is none are cut off as before,
* `Padded.lower_trim`, `Padded.spaced_upper`: the word is what is left of a padded word.
-/
import Mathlib.Data.List.DropRight
import SchemaKeeper.Proofs.Column.Type
import SchemaKeeper.Proofs.Text.LetterCase

namespace SchemaKeeper.Text

/-- A text of blanks. -/
def IsBlanks (b : List Char) : Prop :=
  ∀ c ∈ b, isBlank c = true

instance (b : List Char) : Decidable (IsBlanks b) :=
  List.decidableBAll _ b

/-- A text without blanks. -/
def IsDense (w : List Char) : Prop :=
  ∀ c ∈ w, isBlank c = false

instance (w : List Char) : Decidable (IsDense w) :=
  List.decidableBAll _ w

section Blanks

variable {b b' s t w u : List Char} {c : Char}

/-! ### Blanks at the ends -/

theorem IsBlanks.trimStart_append (h : IsBlanks b) (s : List Char) :
    trimStart (b ++ s) = trimStart s :=
  List.dropWhile_append_of_pos h

theorem IsBlanks.trimEnd_append (h : IsBlanks b) (s : List Char) : trimEnd (s ++ b) = trimEnd s := by
  have hreverse : ∀ c ∈ b.reverse, isBlank c = true := fun c hc => h c (List.mem_reverse.mp hc)
  rw [trimEnd, trimEnd, List.reverse_append, List.dropWhile_append_of_pos hreverse]

theorem IsBlanks.trimEnd_eq (h : IsBlanks b) : trimEnd b = [] :=
  h.trimEnd_append []

theorem IsBlanks.map {f : Char → Char} (h : IsBlanks b) (hf : ∀ c, isBlank (f c) = isBlank c) :
    IsBlanks (b.map f) :=
  List.forall_mem_map.mpr fun c hc => (hf c).trans (h c hc)

theorem IsBlanks.lower (h : IsBlanks b) : IsBlanks (lower b) :=
  h.map isBlank_toLower

theorem IsBlanks.upper (h : IsBlanks b) : IsBlanks (upper b) :=
  h.map isBlank_toUpper

theorem trimStart_append_cons (hc : isBlank c = false) (s t : List Char) :
    trimStart (s ++ c :: t) = trimStart s ++ c :: t := by
  induction s with
  | nil => exact trimStart_cons hc t
  | cons x r ih =>
    rw [trimStart] at ih
    by_cases hx : isBlank x = true <;> simp [trimStart, hx, ih]

/-- Blanks around a text without blanks are cut off. -/
theorem trim_pad (hb : IsBlanks b) (hb' : IsBlanks b') (hw : IsDense w) :
    trim (b ++ w ++ b') = w := by
  cases w with
  | nil =>
    have hblank : IsBlanks (b ++ [] ++ b') := by
      rw [List.append_nil]
      exact List.forall_mem_append.mpr ⟨hb, hb'⟩
    have hstart := hblank.trimStart_append []
    rw [List.append_nil] at hstart
    rw [trim, hstart]
    rfl
  | cons c r =>
    rw [trim, List.append_assoc, hb.trimStart_append, List.cons_append,
      trimStart_cons (hw c List.mem_cons_self), ← List.cons_append, hb'.trimEnd_append,
      trimEnd_eq_self hw]

/-! ### Words -/

theorem words_blanks_append (hb : IsBlanks b) (s : List Char) : words (b ++ s) = words s := by
  induction b with
  | nil => rfl
  | cons c r ih =>
    obtain ⟨hc, hr⟩ := List.forall_mem_cons.mp hb
    have hsplit := words_append_blank hc [] (r ++ s)
    rw [List.cons_append, ← ih hr]
    exact hsplit

theorem words_append_blanks (hb : IsBlanks b) (s : List Char) : words (s ++ b) = words s := by
  cases b with
  | nil => rw [List.append_nil]
  | cons c r =>
    obtain ⟨hc, hr⟩ := List.forall_mem_cons.mp hb
    have hnone : words r = [] := by
      have h := words_blanks_append hr []
      rwa [List.append_nil] at h
    rw [words_append_blank hc, hnone, List.append_nil]

/-- A text without blanks is one word, whatever blanks there are around it. -/
theorem words_pad (hb : IsBlanks b) (hb' : IsBlanks b') (hw : IsDense w) (hne : w ≠ []) :
    words (b ++ w ++ b') = [w] := by
  rw [words_append_blanks hb', words_blanks_append hb, words, List.splitOnP_eq_singleton hw]
  simpa using hne

end Blanks

/-! ### Padded words -/

/-- A word in letters of either case, with blanks around it. -/
def Padded (w u : List Char) : Prop :=
  ∃ b w' b', IsBlanks b ∧ IsBlanks b' ∧ sameLetters w w' = true ∧ u = b ++ w' ++ b'

section Padded

variable {w u : List Char}

theorem isDense_of_sameLetters {w' : List Char} (h : sameLetters w w' = true) (hw : IsDense w) :
    IsDense w' :=
  forall_of_sameLetters isBlank_toLower h hw

theorem Padded.refl (w : List Char) : Padded w w :=
  ⟨[], w, [], List.forall_mem_nil _, List.forall_mem_nil _, sameLetters_refl w, by simp⟩

theorem Padded.lower_trim (h : Padded w u) (hw : IsDense w) : lower (trim u) = lower w := by
  obtain ⟨b, w', b', hb, hb', hsame, rfl⟩ := h
  rw [trim_pad hb hb' (isDense_of_sameLetters hsame hw), beq_iff_eq.mp hsame]

/-- A padded word in capitals, with single spaces between words, is the word in capitals. -/
theorem Padded.spaced_upper (h : Padded w u) (hw : IsDense w) (hne : w ≠ []) :
    spaced (upper u) = upper w := by
  obtain ⟨b, w', b', hb, hb', hsame, rfl⟩ := h
  have hdense : IsDense (upper w') := List.forall_mem_map.mpr fun c hc =>
    (isBlank_toUpper c).trans (isDense_of_sameLetters hsame hw c hc)
  have hne' : upper w' ≠ [] := by
    rw [← upper_of_sameLetters hsame]
    exact mt List.map_eq_nil_iff.mp hne
  have hwords : words (upper (b ++ w' ++ b')) = [upper w'] := by
    rw [upper, List.map_append, List.map_append]
    exact words_pad hb.upper hb'.upper hdense hne'
  rw [spaced, hwords, List.intercalate_singleton, upper_of_sameLetters hsame]

theorem Padded.append_blanks {b : List Char} (h : Padded w u) (hb : IsBlanks b) :
    Padded w (u ++ b) := by
  obtain ⟨b₁, w', b₂, hb₁, hb₂, hsame, rfl⟩ := h
  exact ⟨b₁, w', b₂ ++ b, hb₁, List.forall_mem_append.mpr ⟨hb₂, hb⟩, hsame, by simp⟩

theorem Padded.lower (h : Padded w u) : Padded w (lower u) := by
  obtain ⟨b, w', b', hb, hb', hsame, rfl⟩ := h
  refine ⟨Text.lower b, Text.lower w', Text.lower b', hb.lower, hb'.lower, ?_, ?_⟩
  · rw [sameLetters, beq_iff_eq, lower_lower, beq_iff_eq.mp hsame]
  · rw [lower_append, lower_append]

end Padded

end SchemaKeeper.Text
