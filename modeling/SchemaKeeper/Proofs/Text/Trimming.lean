/-
Texts without blanks at their ends.

`trim` cuts the blanks off at both ends of a text and leaves what stands between them.

* `exists_blanks_trim`: nothing but blanks is cut off,
* `trim_trim`: and all blanks there are, so that nothing is left for a second time,
* `trim_cons_append`: between two characters that are no blanks nothing is removed.
-/
import Mathlib.Data.List.DropRight
import SchemaKeeper.Proofs.Text.Padding

namespace SchemaKeeper.Text

variable {s t : List Char} {c : Char}

theorem trimEnd_trimEnd (s : List Char) : trimEnd (trimEnd s) = trimEnd s := by
  simp [trimEnd, List.dropWhile_idempotent]

theorem trimStart_eq_self_of_isPrefix (ht : t <+: s) (hs : trimStart s = s) : trimStart t = t := by
  cases t with
  | nil => rfl
  | cons c r =>
    obtain ⟨rest, rfl⟩ := ht
    refine trimStart_cons (Bool.eq_false_iff.mpr fun hc => ?_) r
    -- a blank in front would have been cut off
    have hlength := congrArg List.length hs
    rw [List.cons_append, trimStart, List.dropWhile_cons_of_pos hc] at hlength
    have hshorter := (List.dropWhile_sublist isBlank (l := r ++ rest)).length_le
    simp only [List.length_cons] at hlength
    omega

/-- What is cut off at the end are blanks. -/
theorem exists_blanks_trimEnd (s : List Char) : ∃ b, IsBlanks b ∧ s = trimEnd s ++ b := by
  refine ⟨(s.reverse.takeWhile isBlank).reverse, fun c hc => ?_, ?_⟩
  · exact List.all_eq_true.mp List.all_takeWhile c (List.mem_reverse.mp hc)
  · rw [trimEnd, ← List.reverse_append, List.takeWhile_append_dropWhile, List.reverse_reverse]

theorem trimEnd_isPrefix (s : List Char) : trimEnd s <+: s := by
  obtain ⟨b, -, hs⟩ := exists_blanks_trimEnd s
  exact ⟨b, hs.symm⟩

/-- What is left at the start of a trimmed text is trimmed once its end is. -/
theorem trim_trimEnd_of_isPrefix (ht : t <+: s) (hs : trimStart s = s) :
    trim (trimEnd t) = trimEnd t := by
  rw [trim, trimStart_eq_self_of_isPrefix ((trimEnd_isPrefix t).trans ht) hs, trimEnd_trimEnd]

theorem trimStart_trimStart (s : List Char) : trimStart (trimStart s) = trimStart s :=
  List.dropWhile_idempotent ..

theorem trim_trim (s : List Char) : trim (trim s) = trim s :=
  trim_trimEnd_of_isPrefix (List.prefix_refl _) (trimStart_trimStart s)

theorem trimStart_of_trim (h : trim s = s) : trimStart s = s := by
  have hprefix : s <+: trimStart s := by
    have hend := trimEnd_isPrefix (trimStart s)
    rwa [← trim, h] at hend
  exact ((List.dropWhile_suffix _).eq_of_length_le hprefix.length_le)

theorem trimEnd_of_trim (h : trim s = s) : trimEnd s = s := by
  rw [← h, trim, trimEnd_trimEnd]

/-- Between two characters that are no blanks, nothing is removed. -/
theorem trim_cons_append {d : Char} (hc : isBlank c = false) (hd : isBlank d = false)
    (ht : trimEnd t = t) : trim (c :: (s ++ d :: t)) = c :: (s ++ d :: t) := by
  rw [trim, trimStart_cons hc, ← List.cons_append, trimEnd_append_cons hd, ht]

/-- What is cut off at the ends are blanks. -/
theorem exists_blanks_trim (s : List Char) :
    ∃ b b', IsBlanks b ∧ IsBlanks b' ∧ s = b ++ (trim s ++ b') := by
  obtain ⟨b', hb', hend⟩ := exists_blanks_trimEnd (trimStart s)
  refine ⟨s.takeWhile isBlank, b', fun c hc => List.all_eq_true.mp List.all_takeWhile c hc, hb', ?_⟩
  rw [trim, ← hend, trimStart, List.takeWhile_append_dropWhile]

end SchemaKeeper.Text
