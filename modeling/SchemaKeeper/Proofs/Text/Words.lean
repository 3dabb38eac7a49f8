/-
Words with single spaces between them.

`spaced` leaves of a text its words and puts one space between neighbours.

* `mem_words`: a word is a part of the text without blanks,
* `words_append_blanks_append`: any blanks part the words before them from those after them,
* `words_spaced`: the words are still there when there are single spaces between them,
* `isSingleSpaced_spaced`: then no blank is at an end or next to another one.
-/
import Mathlib.Data.List.Chain
import SchemaKeeper.Proofs.Lists
import SchemaKeeper.Proofs.Text.Padding

namespace SchemaKeeper.Text

variable {b s t w : List Char} {ws : List (List Char)} {c : Char}

/-! ### Words -/

/-- A text has no blanks, or it is a text without blanks, a blank, and a text. -/
theorem blank_induction {motive : List Char → Prop} (dense : ∀ s, IsDense s → motive s)
    (blank : ∀ s c t, IsDense s → isBlank c = true → motive t → motive (s ++ c :: t))
    (s : List Char) : motive s := by
  refine cut_induction (List.forall_mem_nil _) (fun t c ht hc => ?_) dense blank s
  exact List.forall_mem_append.mpr ⟨ht, by simpa using hc⟩

theorem words_of_isDense (h : IsDense w) (hne : w ≠ []) : words w = [w] := by
  have hpad := words_pad (List.forall_mem_nil _) (List.forall_mem_nil _) h hne
  rwa [List.nil_append, List.append_nil] at hpad

theorem mem_words (h : w ∈ words s) : w ≠ [] ∧ IsDense w ∧ w ⊆ s := by
  have hdense : ∀ s, IsDense s → w ∈ words s → w ≠ [] ∧ IsDense w ∧ w ⊆ s := by
    intro s hs h
    by_cases hne : s = []
    · rw [hne] at h
      cases h
    · rw [words_of_isDense hs hne, List.mem_singleton] at h
      rw [h]
      exact ⟨hne, hs, List.Subset.refl s⟩
  induction s using blank_induction with
  | dense s hs => exact hdense s hs h
  | blank s c t hs hc ih =>
    rw [words_append_blank hc, List.mem_append] at h
    rcases h with h | h
    · obtain ⟨hne, hw, hsub⟩ := hdense s hs h
      exact ⟨hne, hw, List.Subset.trans hsub (List.subset_append_left s _)⟩
    · obtain ⟨hne, hw, hsub⟩ := ih h
      exact ⟨hne, hw, fun x hx => List.mem_append_right s (List.mem_cons_of_mem c (hsub hx))⟩

/-- Any blanks part words, however many they are. -/
theorem words_append_blanks_append (hb : IsBlanks b) (hne : b ≠ []) (s t : List Char) :
    words (s ++ (b ++ t)) = words s ++ words t := by
  obtain ⟨c, b, rfl⟩ := List.exists_cons_of_ne_nil hne
  obtain ⟨hc, hb⟩ := List.forall_mem_cons.mp hb
  rw [List.cons_append, words_append_blank hc, words_blanks_append hb]

/-! ### Single spaces -/

/-- Words are found again between single spaces. -/
theorem words_intercalate (h : ∀ w ∈ ws, w ≠ [] ∧ IsDense w) :
    words (List.intercalate [' '] ws) = ws := by
  induction ws with
  | nil => rfl
  | cons w r ih =>
    obtain ⟨⟨hne, hw⟩, hr⟩ := List.forall_mem_cons.mp h
    cases r with
    | nil =>
      rw [List.intercalate_singleton]
      exact words_of_isDense hw hne
    | cons v r =>
      rw [List.intercalate_cons_cons, List.append_assoc, List.singleton_append,
        words_append_blank rfl, words_of_isDense hw hne, ih hr]
      rfl

theorem words_spaced (s : List Char) : words (spaced s) = words s :=
  words_intercalate fun _ hw => ⟨(mem_words hw).1, (mem_words hw).2.1⟩

theorem spaced_spaced (s : List Char) : spaced (spaced s) = spaced s := by
  rw [spaced, words_spaced, spaced]

theorem mem_of_mem_spaced (h : c ∈ spaced s) : c ∈ s ∨ c = ' ' := by
  refine (mem_intercalate h).imp_left ?_
  rintro ⟨w, hw, hc⟩
  exact (mem_words hw).2.2 hc

/-- A text without a blank at its ends and without two blanks together. -/
structure IsSingleSpaced (s : List Char) : Prop where
  head : ∀ c ∈ s.head?, isBlank c = false
  last : ∀ c ∈ s.getLast?, isBlank c = false
  chain : s.IsChain fun c c' => ¬ (isBlank c = true ∧ isBlank c' = true)

theorem isSingleSpaced_of_isDense (h : IsDense s) : IsSingleSpaced s where
  head c hc := h c (List.mem_of_mem_head? hc)
  last c hc := h c (List.mem_of_mem_getLast? hc)
  chain := by
    refine (List.pairwise_of_forall_mem_list fun c hc c' _ hblank => ?_).isChain
    exact Bool.false_ne_true ((h c hc).symm.trans hblank.1)

/-- One space may part a word from what follows it. -/
theorem IsSingleSpaced.cons_word (ht : IsSingleSpaced t) (htne : t ≠ []) (hw : IsDense w)
    (hne : w ≠ []) : IsSingleSpaced (w ++ ' ' :: t) := by
  have h := isSingleSpaced_of_isDense hw
  constructor
  · rw [List.head?_append_of_ne_nil _ hne]
    exact h.head
  · rw [List.getLast?_append_of_ne_nil _ (List.cons_ne_nil _ _),
      List.getLast?_cons_of_ne_nil htne]
    exact ht.last
  · refine h.chain.append (ht.chain.cons fun c hc hblank => ?_) fun c hc _ _ hblank => ?_
    · exact Bool.false_ne_true ((ht.head c hc).symm.trans hblank.2)
    · exact Bool.false_ne_true ((h.last c hc).symm.trans hblank.1)

theorem isSingleSpaced_intercalate (h : ∀ w ∈ ws, w ≠ [] ∧ IsDense w) :
    IsSingleSpaced (List.intercalate [' '] ws) := by
  induction ws with
  | nil => exact isSingleSpaced_of_isDense (List.forall_mem_nil _)
  | cons w r ih =>
    obtain ⟨⟨hne, hw⟩, hr⟩ := List.forall_mem_cons.mp h
    cases r with
    | nil =>
      rw [List.intercalate_singleton]
      exact isSingleSpaced_of_isDense hw
    | cons v r =>
      have hrest : List.intercalate [' '] (v :: r) ≠ [] := by
        intro hnil
        have hwords := words_intercalate hr
        rw [hnil] at hwords
        cases hwords
      rw [List.intercalate_cons_cons, List.append_assoc]
      exact (ih hr).cons_word hrest hw hne

theorem isSingleSpaced_spaced (s : List Char) : IsSingleSpaced (spaced s) :=
  isSingleSpaced_intercalate fun _ hw => ⟨(mem_words hw).1, (mem_words hw).2.1⟩

end SchemaKeeper.Text
