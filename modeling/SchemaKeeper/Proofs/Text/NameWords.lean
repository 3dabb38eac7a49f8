/-
The words of a name.

A name in lower case with underscores has the characters of the name in lower case, and
underscores between its words.  `nameWords` cuts a name into these words.

* `snakeRest_cons`: what is written before a word never ends in an underscore, so that
  each word gets one,
* `snakeCase_eq_underscored`: the words in lower case, with an underscore between
  neighbours, are what `snakeCase` makes of the name,
* `parts_nameWords_iff`: the name is cut before each letter that starts a word and
  nowhere else,
* `dropUnderscores_snakeCase`: without underscores nothing but the letter case changes,
* `snakeCase_words`: so no underscore is put at an end or beside another one; and of an
  ASCII name no capital is left, so that the result stays as it is, and a run of capitals
  is cut before its last letter alone.
-/
import SchemaKeeper.Proofs.Text.LetterCase
import SchemaKeeper.Text.SnakeCase

namespace SchemaKeeper.Text

/-! ### Characters in lower case -/

/-- The text in lower case, character by character. -/
def lowerEach (s : List Char) : List Char :=
  s.flatMap lowerings

theorem lowerings_ne_nil (c : Char) : lowerings c ≠ [] := by
  unfold lowerings
  split
  · exact List.cons_ne_nil _ _
  · split
    · exact List.cons_ne_nil _ _
    · split <;> exact List.cons_ne_nil _ _

/-- A character that is made of a code has this code, except the first one, which every number that
is no code gives. -/
theorem toNat_eq_of_eq_ofNat {c : Char} {n : Nat} (h : c = Char.ofNat n) (hc : c.toNat ≠ 0) :
    c.toNat = n := by
  subst h
  by_cases hvalid : n.isValidChar
  · rw [Char.ofNat, dif_pos hvalid]
    rfl
  · rw [Char.ofNat, dif_neg hvalid] at hc
    exact absurd rfl hc

/-- The small letters beyond ASCII come after the underscore. -/
theorem underscore_lt_of_mem_lowerings {p : CaseTable.Span × Nat} (hp : p ∈ CaseTable.lowerings) :
    '_'.toNat < p.2 := by
  have hall : CaseTable.lowerings.all (fun p => '_'.toNat < p.2) = true := by decide +kernel
  exact of_decide_eq_true (List.all_eq_true.mp hall p hp)

/-- No other character becomes an underscore. -/
theorem underscore_mem_lowerings {c : Char} : '_' ∈ lowerings c ↔ c = '_' := by
  constructor
  · intro h
    unfold lowerings at h
    split at h
    · exact (toLower_eq_iff (by decide) c).mp (List.mem_singleton.mp h).symm
    · split at h
      · simp at h
      · split at h
        · next span n hfind =>
          have hn := underscore_lt_of_mem_lowerings (List.mem_of_find?_eq_some hfind)
          have hcode := toNat_eq_of_eq_ofNat (List.mem_singleton.mp h) (by decide)
          omega
        · exact (List.mem_singleton.mp h).symm
  · rintro rfl
    decide

theorem underscore_not_mem_lowerings {c : Char} (h : c ≠ '_') : '_' ∉ lowerings c :=
  fun hmem => h (underscore_mem_lowerings.mp hmem)

/-- No word starts after an underscore. -/
theorem ne_underscore_of_startsWord {before : Char} {after : Option Char}
    (h : startsWord before after = true) : before ≠ '_' := by
  rintro rfl
  cases h

/-- So no underscore is written just before a word, and each word gets one. -/
theorem snakeRest_cons (before c : Char) (r : List Char) :
    snakeRest before (c :: r) =
      (if isUpper c && startsWord before r.head? then '_' :: lowerings c else lowerings c) ++
        snakeRest c r := by
  -- what was written last matters only where a word starts
  cases hstarts : startsWord before r.head? with
  | false => simp [snakeRest, hstarts]
  | true =>
    have hlast : (lowerings before).getLast? ≠ some '_' := fun h =>
      underscore_not_mem_lowerings (ne_underscore_of_startsWord hstarts) (List.mem_of_getLast? h)
    simp [snakeRest, hstarts, hlast]

/-- The text without its underscores. -/
def dropUnderscores (s : List Char) : List Char :=
  s.filter (· ≠ '_')

theorem dropUnderscores_append (s t : List Char) :
    dropUnderscores (s ++ t) = dropUnderscores s ++ dropUnderscores t :=
  List.filter_append ..

theorem dropUnderscores_lowerings (c : Char) :
    dropUnderscores (lowerings c) = lowerEach (dropUnderscores [c]) := by
  by_cases hc : c = '_'
  · subst hc
    decide
  · have hdrop : dropUnderscores [c] = [c] := List.filter_eq_self.mpr (by simpa using hc)
    rw [hdrop, lowerEach, List.flatMap_singleton]
    refine List.filter_eq_self.mpr fun x hx => decide_eq_true ?_
    rintro rfl
    exact underscore_not_mem_lowerings hc hx

/-- An underscore put before a character in lower case is dropped again. -/
theorem dropUnderscores_snakeRest (before : Char) (s : List Char) :
    dropUnderscores (snakeRest before s) = lowerEach (dropUnderscores s) := by
  induction s generalizing before with
  | nil => rfl
  | cons c r ih =>
    have hfirst : ∀ b : Bool, dropUnderscores (if b then '_' :: lowerings c else lowerings c) =
        lowerEach (dropUnderscores [c]) := by
      intro b
      rw [← dropUnderscores_lowerings]
      cases b <;> rfl
    rw [snakeRest_cons, dropUnderscores_append, hfirst, ih, ← List.singleton_append (l := r),
      dropUnderscores_append, lowerEach, lowerEach, lowerEach, List.flatMap_append]

theorem dropUnderscores_snakeCase (name : List Char) :
    dropUnderscores (snakeCase name) = lowerEach (dropUnderscores name) := by
  cases name with
  | nil => rfl
  | cons c r =>
    rw [snakeCase, dropUnderscores_append, dropUnderscores_lowerings, dropUnderscores_snakeRest,
      ← List.singleton_append (l := r), dropUnderscores_append, lowerEach, lowerEach, lowerEach,
      List.flatMap_append]

/-! ### Names of ASCII -/

theorem forall_ascii {p : Char → Prop} (h : ∀ n < 0x80, p (Char.ofNat n)) {c : Char}
    (hc : c.toNat < 0x80) : p c := by
  have hp := h c.toNat hc
  rwa [Char.ofNat_toNat] at hp

/-- A character that no name has to be changed at. -/
def IsSettled (c : Char) : Prop :=
  isUpper c = false ∧ lowerings c = [c]

theorem toLower_ascii {c : Char} (hc : c.toNat < 0x80) :
    c.toLower.toNat < 0x80 ∧ c.toLower.isUpper = false :=
  forall_ascii (p := fun c => c.toLower.toNat < 0x80 ∧ c.toLower.isUpper = false)
    (by decide +kernel) hc

theorem isSettled_of_mem_lowerings {c x : Char} (hc : c.toNat < 0x80) (hx : x ∈ lowerings c) :
    IsSettled x := by
  rw [lowerings, if_pos hc] at hx
  obtain rfl := List.mem_singleton.mp hx
  obtain ⟨hascii, hupper⟩ := toLower_ascii hc
  rw [IsSettled, isUpper, lowerings, if_pos hascii, if_pos hascii, toLower_toLower]
  exact ⟨hupper, rfl⟩

theorem isSettled_of_mem_snakeRest {before x : Char} {s : List Char}
    (hs : ∀ c ∈ s, c.toNat < 0x80) (hx : x ∈ snakeRest before s) : IsSettled x := by
  induction s generalizing before with
  | nil => cases hx
  | cons c r ih =>
    obtain ⟨hc, hr⟩ := List.forall_mem_cons.mp hs
    rw [snakeRest_cons] at hx
    rcases List.mem_append.mp hx with hx | hx
    · split at hx
      · rcases List.mem_cons.mp hx with rfl | hx
        · exact ⟨by decide, by decide⟩
        · exact isSettled_of_mem_lowerings hc hx
      · exact isSettled_of_mem_lowerings hc hx
    · exact ih hr hx

theorem isSettled_of_mem_snakeCase {x : Char} {name : List Char}
    (hname : ∀ c ∈ name, c.toNat < 0x80) (hx : x ∈ snakeCase name) : IsSettled x := by
  cases name with
  | nil => cases hx
  | cons c r =>
    obtain ⟨hc, hr⟩ := List.forall_mem_cons.mp hname
    rcases List.mem_append.mp hx with hx | hx
    · exact isSettled_of_mem_lowerings hc hx
    · exact isSettled_of_mem_snakeRest hr hx

theorem snakeRest_eq_self {before : Char} {s : List Char} (h : ∀ c ∈ s, IsSettled c) :
    snakeRest before s = s := by
  induction s generalizing before with
  | nil => rfl
  | cons c r ih =>
    obtain ⟨⟨hupper, hlower⟩, hr⟩ := List.forall_mem_cons.mp h
    rw [snakeRest_cons, hupper, hlower, ih hr]
    rfl

theorem snakeCase_eq_self {name : List Char} (h : ∀ c ∈ name, IsSettled c) :
    snakeCase name = name := by
  cases name with
  | nil => rfl
  | cons c r =>
    obtain ⟨⟨-, hlower⟩, hr⟩ := List.forall_mem_cons.mp h
    rw [snakeCase, hlower, snakeRest_eq_self hr]
    rfl

/-! ### Where words start -/

/-- A word starts between the two texts: the first one is not empty, and the second one has a
capital in front that starts a word after it. -/
def StartsWord (s t : List Char) : Prop :=
  ∃ before c r, s.getLast? = some before ∧ t = c :: r ∧ isUpper c = true ∧
    startsWord before r.head? = true

theorem StartsWord.ne_underscore {s t : List Char} (h : StartsWord s t) :
    (∃ before, s.getLast? = some before ∧ before ≠ '_') ∧ ∃ c, t.head? = some c ∧ c ≠ '_' := by
  obtain ⟨before, c, r, hlast, rfl, hupper, hstarts⟩ := h
  refine ⟨⟨before, hlast, ne_underscore_of_startsWord hstarts⟩, c, rfl, ?_⟩
  rintro rfl
  cases hupper

theorem startsWord_cons_cons {x y : Char} {s t : List Char} :
    StartsWord (x :: y :: s) t ↔ StartsWord (y :: s) t := by
  simp only [StartsWord, List.getLast?_cons_cons]

theorem startsWord_singleton {before c : Char} {r : List Char} :
    StartsWord [before] (c :: r) ↔ (isUpper c && startsWord before r.head?) = true := by
  constructor
  · rintro ⟨_, _, _, ⟨⟩, ⟨⟩, hupper, hstarts⟩
    rw [hupper, Bool.true_and]
    exact hstarts
  · intro h
    obtain ⟨hupper, hstarts⟩ := Bool.and_eq_true_iff.mp h
    exact ⟨before, c, r, rfl, rfl, hupper, hstarts⟩

/-- A capital is neither a small letter nor a digit. -/
theorem isUpper_ascii {c : Char} (hc : c.toNat < 0x80) (hupper : isUpper c = true) :
    isLower c = false ∧ c.isDigit = false :=
  forall_ascii (p := fun c => isUpper c = true → isLower c = false ∧ c.isDigit = false)
    (by decide +kernel) hc hupper

/-- After a capital a word starts if a small letter follows. -/
theorem startsWord_of_isUpper {before : Char} (hascii : before.toNat < 0x80)
    (hupper : isUpper before = true) (after : Option Char) :
    startsWord before after = after.any isLower := by
  obtain ⟨hlower, hdigit⟩ := isUpper_ascii hascii hupper
  rw [startsWord, hlower, hdigit, hupper]
  rfl

/-- Within a run of capitals a word starts with its last letter alone, and only if a small letter
follows. -/
theorem startsWord_run {pre first second post : List Char}
    (hascii : ∀ c ∈ first ++ second, c.toNat < 0x80)
    (hrun : ∀ c ∈ first ++ second, isUpper c = true) (hfirst : first ≠ []) (hsecond : second ≠ []) :
    StartsWord (pre ++ first) (second ++ post) ↔
      second.length = 1 ∧ ∃ c, post.head? = some c ∧ isLower c = true := by
  obtain ⟨init, before, rfl⟩ := List.eq_nil_or_concat first |>.resolve_left hfirst
  obtain ⟨c, r, rfl⟩ := List.exists_cons_of_ne_nil hsecond
  rw [List.concat_eq_append] at *
  have hbefore : before ∈ init ++ [before] ++ c :: r := by simp
  have hc : c ∈ init ++ [before] ++ c :: r := by simp
  have hstarts := startsWord_of_isUpper (hascii before hbefore) (hrun before hbefore)
  have hword : StartsWord (pre ++ (init ++ [before])) (c :: r ++ post) ↔
      ((r ++ post).head?.any isLower) = true := by
    rw [← hstarts]
    constructor
    · rintro ⟨b, _, _, hlast, ⟨⟩, -, h⟩
      rw [← List.append_assoc, List.getLast?_concat] at hlast
      cases hlast
      exact h
    · intro h
      refine ⟨before, c, r ++ post, ?_, rfl, hrun c hc, h⟩
      rw [← List.append_assoc, List.getLast?_concat]
  rw [hword]
  cases r with
  | nil => cases post <;> simp
  | cons x r =>
    have hx : x ∈ init ++ [before] ++ c :: x :: r := by simp
    have hlower := (isUpper_ascii (hascii x hx) (hrun x hx)).1
    simp [hlower]

/-! ### Cutting names into words -/

/-- The words of the rest of a name; `before` is the character before it, whose word goes on with
the first of them. -/
def wordsAfter (before : Char) : List Char → List (List Char)
  | [] => [[]]
  | c :: r =>
    if isUpper c && startsWord before r.head? then [] :: (wordsAfter c r).modifyHead (c :: ·)
    else (wordsAfter c r).modifyHead (c :: ·)

/-- The words of a name. -/
def nameWords : List Char → List (List Char)
  | [] => []
  | c :: r => (wordsAfter c r).modifyHead (c :: ·)

/-- Words in lower case, with underscores between them. -/
def underscored (ws : List (List Char)) : List Char :=
  ['_'].intercalate (ws.map lowerEach)

/-- The words are parted between two texts. -/
def Parts (ws : List (List Char)) (s t : List Char) : Prop :=
  ∃ us vs, us ≠ [] ∧ vs ≠ [] ∧ ws = us ++ vs ∧ us.flatten = s ∧ vs.flatten = t

theorem wordsAfter_ne_nil (before : Char) (s : List Char) : wordsAfter before s ≠ [] := by
  induction s generalizing before with
  | nil => exact List.cons_ne_nil _ _
  | cons c r ih =>
    obtain ⟨w, ws, hws⟩ := List.exists_cons_of_ne_nil (ih c)
    rw [wordsAfter, hws]
    split <;> exact List.cons_ne_nil _ _

section Words

variable {c before : Char} {s t name : List Char} {ws us vs : List (List Char)}

theorem flatten_modifyHead (h : ws ≠ []) : (ws.modifyHead (c :: ·)).flatten = c :: ws.flatten := by
  obtain ⟨w, ws, rfl⟩ := List.exists_cons_of_ne_nil h
  rfl

theorem flatten_wordsAfter : (wordsAfter before s).flatten = s := by
  induction s generalizing before with
  | nil => rfl
  | cons c r ih =>
    rw [wordsAfter]
    split
    · rw [List.flatten_cons, List.nil_append, flatten_modifyHead (wordsAfter_ne_nil _ _), ih]
    · rw [flatten_modifyHead (wordsAfter_ne_nil _ _), ih]

theorem flatten_nameWords (name : List Char) : (nameWords name).flatten = name := by
  cases name with
  | nil => rfl
  | cons c r => rw [nameWords, flatten_modifyHead (wordsAfter_ne_nil _ _), flatten_wordsAfter]

theorem underscored_modifyHead (h : ws ≠ []) :
    underscored (ws.modifyHead (c :: ·)) = lowerings c ++ underscored ws := by
  obtain ⟨w, ws, rfl⟩ := List.exists_cons_of_ne_nil h
  unfold underscored
  cases ws with
  | nil => simp [lowerEach]
  | cons v ws => simp [lowerEach, List.intercalate_cons_cons]

theorem underscored_append (hus : us ≠ []) (hvs : vs ≠ []) :
    underscored (us ++ vs) = underscored us ++ '_' :: underscored vs := by
  obtain ⟨v, vs, rfl⟩ := List.exists_cons_of_ne_nil hvs
  unfold underscored
  induction us with
  | nil => exact absurd rfl hus
  | cons u us ih =>
    cases us with
    | nil => simp [List.intercalate_cons_cons]
    | cons u' us =>
      have hrest := ih (List.cons_ne_nil _ _)
      simp only [List.map_append, List.map_cons, List.cons_append, List.intercalate_cons_cons,
        List.append_assoc] at hrest ⊢
      rw [hrest]

theorem snakeRest_eq_underscored : snakeRest before s = underscored (wordsAfter before s) := by
  induction s generalizing before with
  | nil => rfl
  | cons c r ih =>
    have hne := wordsAfter_ne_nil c r
    rw [snakeRest_cons, wordsAfter, ih]
    split
    · have hsplit : [] :: (wordsAfter c r).modifyHead (c :: ·) =
          [[]] ++ (wordsAfter c r).modifyHead (c :: ·) := rfl
      rw [hsplit, underscored_append (by simp) (by simpa using hne), underscored_modifyHead hne]
      rfl
    · rw [underscored_modifyHead hne]

/-- A name in lower case is made of its words. -/
theorem snakeCase_eq_underscored (name : List Char) :
    snakeCase name = underscored (nameWords name) := by
  cases name with
  | nil => rfl
  | cons c r =>
    rw [snakeCase, nameWords, underscored_modifyHead (wordsAfter_ne_nil c r),
      snakeRest_eq_underscored]

/-! ### Where names are parted -/

theorem parts_modifyHead (h : ws ≠ []) :
    Parts (ws.modifyHead (c :: ·)) s t ↔ ∃ s', s = c :: s' ∧ Parts ws s' t := by
  obtain ⟨w, ws, rfl⟩ := List.exists_cons_of_ne_nil h
  constructor
  · rintro ⟨us, vs, hus, hvs, hws, rfl, rfl⟩
    obtain ⟨u, us, rfl⟩ := List.exists_cons_of_ne_nil hus
    obtain ⟨rfl, rfl⟩ := List.cons.inj hws
    exact ⟨(w :: us).flatten, rfl, w :: us, vs, List.cons_ne_nil _ _, hvs, rfl, rfl, rfl⟩
  · rintro ⟨s', rfl, us, vs, hus, hvs, hws, rfl, rfl⟩
    obtain ⟨u, us, rfl⟩ := List.exists_cons_of_ne_nil hus
    obtain ⟨rfl, rfl⟩ := List.cons.inj hws
    exact ⟨(c :: w) :: us, vs, List.cons_ne_nil _ _, hvs, rfl, rfl, rfl⟩

theorem parts_nil_cons (h : ws ≠ []) :
    Parts ([] :: ws) s t ↔ (s = [] ∧ ws.flatten = t) ∨ Parts ws s t := by
  constructor
  · rintro ⟨us, vs, hus, hvs, hws, rfl, rfl⟩
    obtain ⟨u, us, rfl⟩ := List.exists_cons_of_ne_nil hus
    obtain ⟨rfl, rfl⟩ := List.cons.inj hws
    cases us with
    | nil => exact .inl ⟨rfl, rfl⟩
    | cons u us => exact .inr ⟨u :: us, vs, List.cons_ne_nil _ _, hvs, rfl, rfl, rfl⟩
  · rintro (⟨rfl, rfl⟩ | ⟨us, vs, hus, hvs, rfl, rfl, rfl⟩)
    · exact ⟨[[]], ws, List.cons_ne_nil _ _, h, rfl, rfl, rfl⟩
    · exact ⟨[] :: us, vs, List.cons_ne_nil _ _, hvs, rfl, rfl, rfl⟩

theorem parts_wordsAfter_iff :
    Parts (wordsAfter before name) s t ↔ name = s ++ t ∧ StartsWord (before :: s) t := by
  induction name generalizing before s with
  | nil =>
    constructor
    · rintro ⟨us, vs, hus, hvs, hws, -, -⟩
      simp [wordsAfter, List.singleton_eq_append_iff, hus, hvs] at hws
    · rintro ⟨hname, -, c, r, -, rfl, -⟩
      simp at hname
  | cons c r ih =>
    have hne := wordsAfter_ne_nil c r
    -- behind its first character the name is parted as its rest is
    have hbehind : (∃ s', s = c :: s' ∧ Parts (wordsAfter c r) s' t) ↔
        s ≠ [] ∧ c :: r = s ++ t ∧ StartsWord (before :: s) t := by
      constructor
      · rintro ⟨s', rfl, hparts⟩
        obtain ⟨rfl, hstarts⟩ := ih.mp hparts
        exact ⟨List.cons_ne_nil _ _, rfl, startsWord_cons_cons.mpr hstarts⟩
      · rintro ⟨hs, hname, hstarts⟩
        obtain ⟨x, s', rfl⟩ := List.exists_cons_of_ne_nil hs
        obtain ⟨rfl, rfl⟩ := List.cons.inj hname
        exact ⟨s', rfl, ih.mpr ⟨rfl, startsWord_cons_cons.mp hstarts⟩⟩
    rw [wordsAfter]
    by_cases hfirst : (isUpper c && startsWord before r.head?) = true
    · rw [if_pos hfirst, parts_nil_cons (by simpa using hne), parts_modifyHead hne, hbehind,
        flatten_modifyHead hne, flatten_wordsAfter]
      constructor
      · rintro (⟨rfl, rfl⟩ | ⟨-, hparts⟩)
        · exact ⟨rfl, startsWord_singleton.mpr hfirst⟩
        · exact hparts
      · intro hparts
        by_cases hs : s = []
        · subst hs
          exact .inl ⟨rfl, hparts.1⟩
        · exact .inr ⟨hs, hparts⟩
    · rw [if_neg hfirst, parts_modifyHead hne, hbehind, and_iff_right_iff_imp]
      rintro ⟨hname, hstarts⟩ rfl
      obtain rfl : c :: r = t := hname
      exact hfirst (startsWord_singleton.mp hstarts)

/-- A name is parted where a word starts, and nowhere else. -/
theorem parts_nameWords_iff :
    Parts (nameWords name) s t ↔ name = s ++ t ∧ StartsWord s t := by
  cases name with
  | nil =>
    constructor
    · rintro ⟨us, vs, hus, -, hws, -⟩
      exact absurd (List.append_eq_nil_iff.mp hws.symm).1 hus
    · rintro ⟨hname, -, c, r, -, rfl, -⟩
      simp at hname
  | cons c r =>
    rw [nameWords, parts_modifyHead (wordsAfter_ne_nil c r)]
    constructor
    · rintro ⟨s', rfl, hparts⟩
      obtain ⟨rfl, hstarts⟩ := parts_wordsAfter_iff.mp hparts
      exact ⟨rfl, hstarts⟩
    · rintro ⟨hname, hstarts⟩
      cases s with
      | nil =>
        obtain ⟨_, _, _, ⟨⟩, -⟩ := hstarts
      | cons x s' =>
        obtain ⟨rfl, rfl⟩ := List.cons.inj hname
        exact ⟨s', rfl, parts_wordsAfter_iff.mpr ⟨rfl, hstarts⟩⟩

/-! ### The ends of words -/

theorem ne_nil_of_mem_modifyHead (h : ∀ w ∈ ws.tail, w ≠ []) :
    ∀ w ∈ ws.modifyHead (c :: ·), w ≠ [] := by
  cases ws with
  | nil => simp
  | cons w ws => exact List.forall_mem_cons.mpr ⟨List.cons_ne_nil _ _, h⟩

theorem ne_nil_of_mem_tail_wordsAfter : ∀ w ∈ (wordsAfter before s).tail, w ≠ [] := by
  induction s generalizing before with
  | nil => simp [wordsAfter]
  | cons c r ih =>
    rw [wordsAfter]
    split
    · exact ne_nil_of_mem_modifyHead ih
    · exact fun w hw => ne_nil_of_mem_modifyHead ih w (List.mem_of_mem_tail hw)

theorem ne_nil_of_mem_nameWords : ∀ w ∈ nameWords name, w ≠ [] := by
  cases name with
  | nil => simp [nameWords]
  | cons c r => exact ne_nil_of_mem_modifyHead ne_nil_of_mem_tail_wordsAfter

theorem exists_underscored_of_head? (hne : ∀ w ∈ ws, w ≠ []) (h : ws.flatten.head? = some c) :
    ∃ r, underscored ws = lowerings c ++ r := by
  cases ws with
  | nil => cases h
  | cons w ws =>
    obtain ⟨x, w, rfl⟩ := List.exists_cons_of_ne_nil (hne w List.mem_cons_self)
    obtain rfl : x = c := Option.some.inj h
    exact ⟨underscored (w :: ws), underscored_modifyHead (List.cons_ne_nil w ws)⟩

theorem exists_underscored_of_getLast? (hne : ∀ w ∈ ws, w ≠ [])
    (h : ws.flatten.getLast? = some c) : ∃ r, underscored ws = r ++ lowerings c := by
  rcases ws.eq_nil_or_concat with rfl | ⟨us, w, rfl⟩
  · cases h
  · rw [List.concat_eq_append] at h hne ⊢
    rcases w.eq_nil_or_concat with rfl | ⟨w, x, rfl⟩
    · exact absurd rfl (hne [] (by simp))
    · obtain rfl : x = c := by simpa using h
      have hword : underscored [w.concat x] = lowerEach w ++ lowerings x := by
        simp [underscored, lowerEach]
      by_cases hus : us = []
      · subst hus
        exact ⟨lowerEach w, hword⟩
      · refine ⟨underscored us ++ '_' :: lowerEach w, ?_⟩
        rw [underscored_append hus (List.cons_ne_nil _ _), hword]
        simp

/-- An underscore between words is neither at an end nor beside another underscore. -/
theorem underscored_of_parts (hname : nameWords name = us ++ vs) (hus : us ≠ []) (hvs : vs ≠ []) :
    (∃ c, (underscored us).getLast? = some c ∧ c ≠ '_') ∧
      ∃ c, (underscored vs).head? = some c ∧ c ≠ '_' := by
  have hne : (∀ w ∈ us, w ≠ []) ∧ ∀ w ∈ vs, w ≠ [] := by
    have hall : ∀ w ∈ nameWords name, w ≠ [] := ne_nil_of_mem_nameWords
    rw [hname] at hall
    exact List.forall_mem_append.mp hall
  have hstarts : StartsWord us.flatten vs.flatten :=
    (parts_nameWords_iff.mp ⟨us, vs, hus, hvs, hname, rfl, rfl⟩).2
  obtain ⟨⟨before, hlast, hbefore⟩, c, hhead, hc⟩ := hstarts.ne_underscore
  constructor
  · obtain ⟨r, hr⟩ := exists_underscored_of_getLast? hne.1 hlast
    refine ⟨(lowerings before).getLast (lowerings_ne_nil before), ?_, fun heq => ?_⟩
    · rw [hr, List.getLast?_append, List.getLast?_eq_some_getLast (lowerings_ne_nil before),
        Option.some_or]
    · exact underscore_not_mem_lowerings hbefore (heq ▸ List.getLast_mem _)
  · obtain ⟨r, hr⟩ := exists_underscored_of_head? hne.2 hhead
    refine ⟨(lowerings c).head (lowerings_ne_nil c), ?_, fun heq => ?_⟩
    · rw [hr, List.head?_append, List.head?_eq_some_head (lowerings_ne_nil c), Option.some_or]
    · exact underscore_not_mem_lowerings hc (heq ▸ List.head_mem _)

end Words

/-! ### The result -/

/-- **A name in lower case is the name in lower case, parted by underscores where words start.**
Without underscores it is the name without underscores, character by character in lower case.  Each
underscore that is put in has something other than an underscore on both sides.  Of an ASCII name no
capital is left, to part it again changes nothing, and a run of capitals is parted before its last
letter alone, if a small letter follows. -/
theorem snakeCase_words (name : List Char) :
    dropUnderscores (snakeCase name) = lowerEach (dropUnderscores name) ∧
    (nameWords name).flatten = name ∧ snakeCase name = underscored (nameWords name) ∧
    (∀ s t, Parts (nameWords name) s t ↔ name = s ++ t ∧ StartsWord s t) ∧
    (∀ us vs, nameWords name = us ++ vs → us ≠ [] → vs ≠ [] →
      snakeCase name = underscored us ++ '_' :: underscored vs ∧
      (∃ c, (underscored us).getLast? = some c ∧ c ≠ '_') ∧
      ∃ c, (underscored vs).head? = some c ∧ c ≠ '_') ∧
    ((∀ c ∈ name, c.toNat < 0x80) →
      (∀ c ∈ snakeCase name, isUpper c = false) ∧ snakeCase (snakeCase name) = snakeCase name ∧
      ∀ pre first second post, name = pre ++ first ++ (second ++ post) →
        (∀ c ∈ first ++ second, isUpper c = true) → first ≠ [] → second ≠ [] →
        (Parts (nameWords name) (pre ++ first) (second ++ post) ↔
          second.length = 1 ∧ ∃ c, post.head? = some c ∧ isLower c = true)) := by
  refine ⟨dropUnderscores_snakeCase name, flatten_nameWords name, snakeCase_eq_underscored name,
    fun s t => parts_nameWords_iff, fun us vs hname hus hvs => ⟨?_, ?_⟩, fun hascii => ?_⟩
  · rw [snakeCase_eq_underscored, hname, underscored_append hus hvs]
  · exact underscored_of_parts hname hus hvs
  · have hsettled : ∀ c ∈ snakeCase name, IsSettled c := fun c hc =>
      isSettled_of_mem_snakeCase hascii hc
    refine ⟨fun c hc => (hsettled c hc).1, snakeCase_eq_self hsettled, ?_⟩
    intro pre first second post hname hrun hfirst hsecond
    have hletters : ∀ c ∈ first ++ second, c.toNat < 0x80 := by
      intro c hc
      refine hascii c ?_
      rw [hname]
      rcases List.mem_append.mp hc with hc | hc <;> simp [hc]
    rw [parts_nameWords_iff, and_iff_right hname]
    exact startsWord_run hletters hrun hfirst hsecond

/-- Two runs of capitals, the second of which goes on to the end, a digit and an underscore. -/
theorem snakeCase_words_of_sample :
    let name := "HTTPServer2_URL".toList
    (∀ c ∈ name, c.toNat < 0x80) ∧ snakeCase name = "http_server2_url".toList ∧
      (∀ c ∈ snakeCase name, isUpper c = false) ∧ snakeCase (snakeCase name) = snakeCase name ∧
      Parts (nameWords name) "HTTP".toList "Server2_URL".toList ∧
      ¬ Parts (nameWords name) "HTTPServer2_U".toList "RL".toList := by
  intro name
  have hall : name.all (fun c => c.toNat < 0x80) = true := rfl
  have hascii : ∀ c ∈ name, c.toNat < 0x80 := fun c hc =>
    of_decide_eq_true (List.all_eq_true.mp hall c hc)
  obtain ⟨-, -, -, -, -, hrest⟩ := snakeCase_words name
  obtain ⟨hupper, hagain, hruns⟩ := hrest hascii
  have hfirst := hruns [] "HTTP".toList "S".toList "erver2_URL".toList rfl
    (List.all_eq_true.mp rfl) (by simp) (by simp)
  have hsecond := hruns "HTTPServer2_".toList "U".toList "RL".toList [] rfl
    (List.all_eq_true.mp rfl) (by simp) (by simp)
  exact ⟨hascii, by decide +kernel, hupper, hagain, hfirst.mpr ⟨rfl, 'e', rfl, rfl⟩,
    fun h => absurd (hsecond.mp h).1 (by decide)⟩

end SchemaKeeper.Text
