/-
Spellings of a type.

A type may be written in letters of either case, with blanks at the ends and around its
name and its numbers.  `Respelt s t` says that the text `t` is such a spelling of the text
`s`.

Three readers take such a text apart: `ColumnType.read?` reads a type, `TypeText.base` its
name and `TypeText.parameters` its numbers.  They look for parentheses in different ways,
and all of them find what was written (`Spelled.read?_eq`, `Spelled.base_eq`,
`Spelled.parameters_eq`).
-/
import SchemaKeeper.Proofs.Lists
import SchemaKeeper.Proofs.Number.LetterCase
import SchemaKeeper.Proofs.Text.Padding

namespace SchemaKeeper

open Text

/-! ### Spellings of a text -/

/-- A punctuation mark of a type. -/
def isMark (c : Char) : Bool :=
  c == '(' || c == ',' || c == ')'

/-- A text without punctuation marks. -/
def IsUnmarked (w : List Char) : Prop :=
  ∀ c ∈ w, isMark c = false

instance (w : List Char) : Decidable (IsUnmarked w) :=
  List.decidableBAll _ w

/-- The same words in letters of either case, with blanks around them, and the same punctuation
marks. -/
inductive Respelt : List Char → List Char → Prop
  | word {w u : List Char} : IsUnmarked w → Padded w u → Respelt w u
  | mark {w u s t : List Char} {c : Char} : IsUnmarked w → isMark c = true → Padded w u →
      Respelt s t → Respelt (w ++ c :: s) (u ++ c :: t)

section Respelt

variable {w u s t : List Char} {c : Char}

theorem isMark_toLower (c : Char) : isMark c.toLower = isMark c := by
  refine toLower_congr (fun x hx => ?_) c
  simp only [isMark, Bool.or_eq_true, beq_iff_eq] at hx
  obtain ((rfl | rfl) | rfl) := hx <;> decide

theorem isUnmarked_of_isBlanks (h : IsBlanks w) : IsUnmarked w := by
  intro c hc
  rw [← Bool.not_eq_true]
  intro hmark
  have hblank := h c hc
  simp only [isMark, Bool.or_eq_true, beq_iff_eq] at hmark
  obtain ((rfl | rfl) | rfl) := hmark <;> cases hblank

/-- Neither blanks nor letters are punctuation marks. -/
theorem isUnmarked_of_padded (h : Padded w u) (hw : IsUnmarked w) : IsUnmarked u := by
  obtain ⟨b, w', b', hb, hb', hsame, rfl⟩ := h
  have hword : IsUnmarked w' := forall_of_sameLetters isMark_toLower hsame hw
  exact List.forall_mem_append.mpr ⟨List.forall_mem_append.mpr
    ⟨isUnmarked_of_isBlanks hb, hword⟩, isUnmarked_of_isBlanks hb'⟩

theorem IsUnmarked.parentheses (h : IsUnmarked w) : '(' ∉ w ∧ ')' ∉ w :=
  ⟨fun hc => Bool.false_ne_true (h _ hc).symm, fun hc => Bool.false_ne_true (h _ hc).symm⟩

theorem IsUnmarked.comma (h : IsUnmarked w) : ',' ∉ w :=
  fun hc => Bool.false_ne_true (h _ hc).symm

theorem Respelt.of_unmarked (h : Respelt w u) (hw : IsUnmarked w) : Padded w u := by
  cases h with
  | word _ hpad => exact hpad
  | mark _ hc _ _ =>
    have hnone := hw _ (List.mem_append_right _ List.mem_cons_self)
    rw [hc] at hnone
    cases hnone

/-- A text is cut in one way at its first punctuation mark. -/
theorem eq_of_first_mark {w' s' : List Char} {c' : Char} (hw : IsUnmarked w) (hw' : IsUnmarked w')
    (hc : isMark c = true) (hc' : isMark c' = true) (h : w ++ c :: s = w' ++ c' :: s') :
    w = w' ∧ c = c' ∧ s = s' := by
  have hfront : ∀ {v r : List Char} {x : Char}, IsUnmarked v → isMark x = true →
      (v ++ x :: r).takeWhile (fun y => !isMark y) = v := by
    intro v r x hv hx
    rw [List.takeWhile_append_of_pos fun y hy => by rw [hv y hy]; rfl,
      List.takeWhile_cons_of_neg (by simp [hx]), List.append_nil]
  have hword : w = w' := by
    rw [← hfront hw hc (r := s), h, hfront hw' hc']
  subst hword
  exact ⟨rfl, List.cons.inj (List.append_cancel_left h)⟩

theorem Respelt.of_mark (h : Respelt (w ++ c :: s) t) (hw : IsUnmarked w) (hc : isMark c = true) :
    ∃ u r, Padded w u ∧ Respelt s r ∧ t = u ++ c :: r := by
  generalize hl : w ++ c :: s = l at h
  cases h with
  | word hunmarked _ =>
    subst hl
    have hnone := hunmarked c (List.mem_append_right _ List.mem_cons_self)
    rw [hc] at hnone
    cases hnone
  | mark hw' hc' hpad hrest =>
    obtain ⟨rfl, rfl, rfl⟩ := eq_of_first_mark hw hw' hc hc' hl
    exact ⟨_, _, hpad, hrest, rfl⟩

end Respelt

/-! ### Numbers -/

section Numbers

variable {n : UInt32} {ns : List UInt32} {us : List (List Char)} {s u : List Char}

theorem isUnmarked_digits (n : UInt32) : IsUnmarked (Number.digits n.toNat) := by
  intro c hc
  have hdigit := Number.isDigit_of_mem_digits hc
  simp [isMark, Number.ne_of_isDigit hdigit]

theorem isDense_digits (n : UInt32) : IsDense (Number.digits n.toNat) :=
  fun _ hc => Number.isBlank_of_isDigit (Number.isDigit_of_mem_digits hc)

theorem lower_digits (n : UInt32) : lower (Number.digits n.toNat) = Number.digits n.toNat :=
  Number.lower_of_digits fun _ hc => Number.isDigit_of_mem_digits hc

/-- Digits have no case. -/
theorem trim_of_padded_digits (h : Padded (Number.digits n.toNat) u) :
    trim u = Number.digits n.toNat := by
  have hlower := h.lower_trim (isDense_digits n)
  have hdigits : ∀ c ∈ trim u, c.isDigit = true :=
    forall_of_sameLetters isDigit_toLower (beq_iff_eq.mpr hlower.symm)
      fun c hc => Number.isDigit_of_mem_digits hc
  rw [← Number.lower_of_digits hdigits, hlower, lower_digits]

/-- Numbers with blanks around them. -/
def PaddedNumbers (ns : List UInt32) (us : List (List Char)) : Prop :=
  List.Forall₂ (fun n u => Padded (Number.digits n.toNat) u) ns us

theorem PaddedNumbers.isUnmarked (h : PaddedNumbers ns us) : ∀ u ∈ us, IsUnmarked u := by
  intro u hu
  obtain ⟨n, -, hpad⟩ := exists_of_forall₂ h hu
  exact isUnmarked_of_padded hpad (isUnmarked_digits n)

theorem PaddedNumbers.map_trim (h : PaddedNumbers ns us) :
    us.map trim = ns.map fun n => Number.digits n.toNat :=
  (map_eq_of_forall₂ h fun _ _ hpad => (trim_of_padded_digits hpad).symm).symm

theorem PaddedNumbers.comma (h : PaddedNumbers ns us) : ∀ u ∈ us, ',' ∉ u :=
  fun u hu => (h.isUnmarked u hu).comma

theorem PaddedNumbers.lower (h : PaddedNumbers ns us) : PaddedNumbers ns (us.map lower) :=
  List.forall₂_map_right_iff.mpr (h.imp fun _ _ hpad => Padded.lower hpad)

theorem lower_pieces (us : List (List Char)) :
    Text.lower (List.intercalate [','] us) = List.intercalate [','] (us.map Text.lower) := by
  induction us with
  | nil => rfl
  | cons u r ih =>
    cases r with
    | nil => simp
    | cons v r =>
      rw [List.map_cons, List.map_cons, List.intercalate_cons_cons, List.intercalate_cons_cons,
        ← List.map_cons, ← ih, lower_append, lower_append]
      rfl

/-- Between numbers and commas there are no parentheses. -/
theorem PaddedNumbers.inside_parentheses (h : PaddedNumbers ns us) :
    '(' ∉ List.intercalate [','] us ∧ ')' ∉ List.intercalate [','] us := by
  have hnone : ∀ c, c ≠ ',' → (∀ u ∈ us, c ∉ u) → c ∉ List.intercalate [','] us := by
    intro c hcomma hc hmem
    rcases mem_intercalate hmem with ⟨u, hu, hcu⟩ | h
    · exact hc u hu hcu
    · exact hcomma h
  exact ⟨hnone _ (by decide) fun u hu => (h.isUnmarked u hu).parentheses.1,
    hnone _ (by decide) fun u hu => (h.isUnmarked u hu).parentheses.2⟩

/-- A list of numbers in parentheses is spelled as these numbers with commas between them. -/
theorem Respelt.of_parameterText (hne : ns ≠ [])
    (h : Respelt (ColumnType.parameterText ns ++ [')']) s) :
    ∃ us b, PaddedNumbers ns us ∧ IsBlanks b ∧ s = List.intercalate [','] us ++ ')' :: b := by
  induction ns generalizing s with
  | nil => exact absurd rfl hne
  | cons n r ih =>
    cases r with
    | nil =>
      rw [ColumnType.parameterText, List.map_singleton, List.intercalate_singleton] at h
      obtain ⟨u, b, hpad, hend, rfl⟩ := h.of_mark (isUnmarked_digits n) rfl
      refine ⟨[u], b, .cons hpad .nil, ?_, by simp⟩
      obtain ⟨b₁, w, b₂, hb₁, hb₂, hsame, rfl⟩ := hend.of_unmarked (List.forall_mem_nil _)
      have hw : w = [] := by
        have hlower : lower w = [] := (beq_iff_eq.mp hsame).symm
        exact List.map_eq_nil_iff.mp hlower
      rw [hw, List.append_nil]
      exact List.forall_mem_append.mpr ⟨hb₁, hb₂⟩
    | cons m r =>
      have hcons : ColumnType.parameterText (n :: m :: r) ++ [')'] =
          Number.digits n.toNat ++ ',' :: (ColumnType.parameterText (m :: r) ++ [')']) := by
        simp [ColumnType.parameterText, List.intercalate_cons_cons]
      rw [hcons] at h
      obtain ⟨u, s', hpad, hrest, rfl⟩ := h.of_mark (isUnmarked_digits n) rfl
      obtain ⟨us, b, hus, hb, rfl⟩ := ih (List.cons_ne_nil m r) hrest
      refine ⟨u :: us, b, .cons hpad hus, hb, ?_⟩
      cases hus with
      | cons _ _ => simp [List.intercalate_cons_cons]

end Numbers

/-! ### Types -/

namespace ColumnType

variable {t : ColumnType} {s : List Char}

/-- The name that a type is written with. -/
def word : ColumnType → String
  | decimal _ _ => "DECIMAL"
  | varchar _ => "VARCHAR"
  | char _ => "CHAR"
  | t => t.toText

/-- The numbers that a type is written with. -/
def sizes : ColumnType → List UInt32
  | decimal p s => [p, s]
  | varchar n | char n => [n]
  | _ => []

theorem toText_of_sizes_eq_nil (h : t.sizes = []) : t.toText = t.word := by
  cases t <;> first | rfl | cases h

theorem toText_of_sizes_ne_nil (h : t.sizes ≠ []) :
    t.toText.toList = t.word.toList ++ '(' :: (parameterText t.sizes ++ [')']) := by
  cases t with
  | decimal p s => exact toText_decimal p s
  | varchar n => exact toText_varchar n
  | char n => exact toText_char n
  | _ => exact absurd rfl h

theorem isUnmarked_word (t : ColumnType) : IsUnmarked t.word.toList := by
  cases t <;> simp only [word, toText] <;> decide

theorem isDense_word (t : ColumnType) : IsDense t.word.toList := by
  cases t <;> simp only [word, toText] <;> decide

theorem word_ne_nil (t : ColumnType) : t.word.toList ≠ [] := by
  cases t <;> simp only [word, toText] <;> decide

theorem upper_word (t : ColumnType) : upper t.word.toList = t.word.toList := by
  cases t <;> simp only [word, toText] <;> rfl

/-- A type is read from its name in lower case and its numbers. -/
theorem ofName?_word (t : ColumnType) :
    ofName? (String.ofList (lower t.word.toList)) t.sizes = some t := by
  cases t <;> simp only [word, toText, sizes] <;> rfl

/-- The two forms of a spelling of a type: its name alone, or its name and its numbers. -/
inductive Spelled (t : ColumnType) : List Char → Prop
  | name {u : List Char} : t.sizes = [] → Padded t.word.toList u → Spelled t u
  | sized {u b : List Char} {us : List (List Char)} : t.sizes ≠ [] → Padded t.word.toList u →
      PaddedNumbers t.sizes us → IsBlanks b →
      Spelled t (u ++ '(' :: (List.intercalate [','] us ++ ')' :: b))

theorem spelled_of_respelt (h : Respelt t.toText.toList s) : Spelled t s := by
  by_cases hsizes : t.sizes = []
  · rw [toText_of_sizes_eq_nil hsizes] at h
    exact .name hsizes (h.of_unmarked t.isUnmarked_word)
  · rw [toText_of_sizes_ne_nil hsizes] at h
    obtain ⟨u, r, hpad, hrest, rfl⟩ := h.of_mark t.isUnmarked_word rfl
    obtain ⟨us, b, hus, hb, rfl⟩ := hrest.of_parameterText hsizes
    exact .sized hsizes hpad hus hb

theorem paddedNumbers_digits (ns : List UInt32) :
    PaddedNumbers ns (ns.map fun n => Number.digits n.toNat) :=
  forall₂_map_self fun n _ => Padded.refl (Number.digits n.toNat)

/-- A type is one of its own spellings. -/
theorem spelled_toText (t : ColumnType) : Spelled t t.toText.toList := by
  by_cases hsizes : t.sizes = []
  · rw [toText_of_sizes_eq_nil hsizes]
    exact .name hsizes (Padded.refl _)
  · rw [toText_of_sizes_ne_nil hsizes]
    exact .sized hsizes (Padded.refl _) (paddedNumbers_digits t.sizes) (List.forall_mem_nil _)

/-! ### What is read -/

/-- The name of a type stands outside the parentheses. -/
theorem Spelled.base_eq (h : Spelled t s) : TypeText.base s = t.word.toList := by
  rw [TypeText.base]
  cases h with
  | name _ hpad =>
    have hu := (isUnmarked_of_padded hpad t.isUnmarked_word).parentheses
    rw [TypeText.outside_eq_self hu.1 hu.2, hpad.spaced_upper t.isDense_word t.word_ne_nil,
      upper_word]
  | sized _ hpad hus hb =>
    have hu := (isUnmarked_of_padded hpad t.isUnmarked_word).parentheses
    rw [TypeText.outside_group hu hus.inside_parentheses (isUnmarked_of_isBlanks hb).parentheses,
      (hpad.append_blanks hb).spaced_upper t.isDense_word t.word_ne_nil, upper_word]

theorem Spelled.baseName_eq {text : String} (h : Spelled t text.toList) :
    TypeText.baseName text = t.word := by
  rw [TypeText.baseName, h.base_eq, String.ofList_toList]

/-- The numbers of a type stand between the first parentheses. -/
theorem Spelled.parameters_eq (h : Spelled t s) : TypeText.parameters s = t.sizes := by
  rw [TypeText.parameters, TypeText.parenthesised?]
  cases h with
  | name hsizes hpad =>
    have hu := (isUnmarked_of_padded hpad t.isUnmarked_word).parentheses
    rw [cutAt?_eq_none hu.1, hsizes]
  | @sized u b us hsizes hpad hus hb =>
    have hu := (isUnmarked_of_padded hpad t.isUnmarked_word).parentheses
    have hread : us.filterMap (fun p => Number.uint32? (trim p)) = t.sizes := by
      have hmap : us.filterMap (fun p => Number.uint32? (trim p)) =
          (us.map trim).filterMap Number.uint32? :=
        (List.filterMap_map (f := trim) (g := Number.uint32?)).symm
      have hdigits : (Number.uint32? ∘ fun n : UInt32 => Number.digits n.toNat) = some :=
        funext Number.uint32?_digits
      rw [hmap, hus.map_trim, List.filterMap_map, hdigits, List.filterMap_some]
    rw [cutAt?_append hu.1]
    dsimp only
    rw [if_neg hu.2, cutAt?_append hus.inside_parentheses.2]
    dsimp only [Option.map_some]
    rw [splitOn_pieces hus.comma hus.map_trim hsizes, hread]

/-- A type is read between the first opening and the last closing parenthesis. -/
theorem Spelled.read?_eq (h : Spelled t s) : read? s = some t := by
  rw [read?]
  cases h with
  | name hsizes hpad =>
    have hopen : '(' ∉ lower t.word.toList := by
      cases t <;> simp only [word, toText] <;> decide
    rw [hpad.lower_trim t.isDense_word, split?, cutAt?_eq_none hopen, ← hsizes]
    exact ofName?_word t
  | @sized u b us hsizes hpad hus hb =>
    have hu := (isUnmarked_of_padded hpad t.isUnmarked_word).parentheses
    have htrim : trim (u ++ '(' :: (List.intercalate [','] us ++ ')' :: b)) =
        trimStart u ++ '(' :: (List.intercalate [','] us ++ [')']) := by
      have hfront : trimStart u ++ '(' :: (List.intercalate [','] us ++ ')' :: b) =
          (trimStart u ++ '(' :: List.intercalate [','] us) ++ ')' :: b := by simp
      rw [trim, trimStart_append_cons rfl, hfront, trimEnd_append_cons rfl, hb.trimEnd_eq]
      simp
    have hlower : lower (trimStart u ++ '(' :: (List.intercalate [','] us ++ [')'])) =
        lower (trimStart u) ++ '(' :: (List.intercalate [','] (us.map lower) ++ [')']) := by
      rw [lower_append, ← lower_pieces]
      show _ ++ '(' :: lower (List.intercalate [','] us ++ [')']) = _
      rw [lower_append]
      rfl
    have hopen : '(' ∉ lower (trimStart u) := by
      intro hmem
      obtain ⟨c, hc, hlower⟩ := List.mem_map.mp hmem
      rw [(toLower_eq_iff (.inl (by decide)) c).mp hlower] at hc
      exact hu.1 ((List.dropWhile_sublist _).mem hc)
    have hname : trim (lower (trimStart u)) = lower t.word.toList := by
      rw [trim_lower, ← hpad.lower_trim t.isDense_word, trim, trimStart, trimStart,
        List.dropWhile_idempotent, trim, trimStart]
    rw [htrim, hlower, split?_pieces hopen hus.lower.comma hus.lower.map_trim hsizes, hname]
    exact ofName?_word t

end ColumnType

end SchemaKeeper
