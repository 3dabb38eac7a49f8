/-
Tokens that stand on their own.

Whatever a tag looks like, a token of it is read by itself as it is read in the tag: the reader
is back at its start after a separator at which a token ends, and blanks around a token do not
change its mind.

* `Unbroken` says that the reader meets no separator on its way at which it would cut,
* `tag_induction`: a tag is an unbroken text, or an unbroken text, a separator that cuts, and a tag,
* `strewn_tokens`: so its tokens stand in it one after another, with blanks and separators around
  them, and blanks alone up to the next separator,
* `unbroken_of_mem_tokens`, `isToken_of_mem_dropLast`: each is unbroken by itself, and the reader is
  open after all of them but the last,
* `Sliced.tokens?_eq`: the byte positions at which the tag is cut are between characters.
-/
import SchemaKeeper.Proofs.Lists
import SchemaKeeper.Proofs.Model.Tokens
import SchemaKeeper.Proofs.Text.Slices

namespace SchemaKeeper.Tag

open Text

variable {s : Scan} {b t u : List Char} {c : Char}

/-! ### Slices of a tag -/

namespace Sliced

/-- The byte positions of the pieces of a tag.  The present piece starts at `first`, and the reader
is at `here`; a piece starts one byte after the separator before it. -/
def bounds (s : Scan) (first here : Nat) : List Char → List (Nat × Nat)
  | [] => [(first, here)]
  | c :: r =>
    if isSeparator c && s.isOpen then
      (first, here) :: bounds (s.step c) (here + 1) (here + c.utf8Size) r
    else bounds (s.step c) first (here + c.utf8Size) r

/-- The tokens of a tag by slices, if all slices are in range. -/
def tokens? (tag : List Char) : Option (List (List Char)) :=
  ((bounds .start 0 0 tag).mapM fun p => slice? p.1 p.2 tag).map fun pieces =>
    (pieces.map trim).filter fun t => !t.isEmpty

theorem utf8Size_of_isSeparator (h : isSeparator c = true) : c.utf8Size = 1 := by
  obtain rfl | rfl : c = ',' ∨ c = ';' := by simpa [isSeparator] using h
  · rfl
  · rfl

theorem modifyHead_nil_append (l : List (List Char)) : l.modifyHead ([] ++ ·) = l := by
  cases l <;> rfl

/-- The slices from the present piece on, of which `b` has been read, are the pieces. -/
theorem mapM_bounds {first here : Nat} {tag a r : List Char} (htag : tag = a ++ b ++ r)
    (hfirst : first = byteLength a) (hhere : here = byteLength a + byteLength b) :
    (bounds s first here r).mapM (fun p => slice? p.1 p.2 tag) =
      some ((piecesFrom s r).modifyHead (b ++ ·)) := by
  induction r generalizing s first here a b with
  | nil =>
    rw [bounds, List.mapM_cons, slice?_eq htag hfirst hhere]
    simp [piecesFrom]
  | cons c r ih =>
    rw [bounds, piecesFrom]
    split
    · next hcut =>
      rw [Bool.and_eq_true] at hcut
      have hsize := utf8Size_of_isSeparator hcut.1
      -- the next piece starts behind the separator, and nothing of it has been read
      have hrest : (bounds (s.step c) (here + 1) (here + c.utf8Size) r).mapM
          (fun p => slice? p.1 p.2 tag) = some (piecesFrom (s.step c) r) := by
        rw [ih (a := a ++ b ++ [c]) (b := []) (by simp [htag]) (by simp [hhere, hsize, Nat.add_assoc])
          (by simp [hhere, hsize, Nat.add_assoc]), modifyHead_nil_append]
      rw [List.mapM_cons, slice?_eq htag hfirst hhere, hrest]
      simp
    · rw [ih (a := a) (b := b ++ [c]) (by simp [htag]) hfirst (by simp [hhere, Nat.add_assoc]),
        List.modifyHead_modifyHead]
      simp [Function.comp_def]

theorem tokens?_eq (tag : List Char) : tokens? tag = some (tokens tag) := by
  have hpieces : (bounds .start 0 0 tag).mapM (fun p => slice? p.1 p.2 tag) =
      some ((piecesFrom .start tag).modifyHead ([] ++ ·)) :=
    mapM_bounds (a := []) (b := []) rfl rfl rfl
  rw [tokens?, hpieces, modifyHead_nil_append]
  rfl

end Sliced

/-! ### Unbroken texts -/

/-- The reader, from the state on, meets no separator at which it would end a token. -/
def Unbroken (s : Scan) (t : List Char) : Prop :=
  ∀ p c r, t = p ++ c :: r → isSeparator c = true → (s.run p).isOpen = false

theorem unbroken_nil : Unbroken s [] := by
  intro p c r h
  simp at h

theorem unbroken_cons : Unbroken s (c :: t) ↔
    (isSeparator c = true → s.isOpen = false) ∧ Unbroken (s.step c) t := by
  constructor
  · intro h
    exact ⟨h [] c t rfl, fun p d r ht => h (c :: p) d r (by rw [ht, List.cons_append])⟩
  · rintro ⟨hhead, htail⟩ p d r h
    cases p with
    | nil =>
      obtain ⟨rfl, -⟩ := List.cons.inj h
      exact hhead
    | cons x p =>
      obtain ⟨rfl, ht⟩ := List.cons.inj h
      exact htail p d r ht

theorem run_append (s : Scan) (t u : List Char) : s.run (t ++ u) = (s.run t).run u :=
  List.foldl_append ..

theorem unbroken_append : Unbroken s (t ++ u) ↔ Unbroken s t ∧ Unbroken (s.run t) u := by
  induction t generalizing s with
  | nil => exact (and_iff_right unbroken_nil).symm
  | cons c r ih =>
    rw [List.cons_append, unbroken_cons, unbroken_cons, ih, and_assoc]
    rfl

theorem Unbroken.leads (h : Unbroken s t) : Leads s t (s.run t) := by
  induction t generalizing s with
  | nil => exact leads_nil
  | cons c r ih =>
    obtain ⟨hc, hr⟩ := unbroken_cons.mp h
    exact (ih hr).cons hc

/-- A tag is an unbroken text, or an unbroken text, a separator that cuts, and a tag. -/
theorem tag_induction {motive : List Char → Prop} (whole : ∀ t, Unbroken .start t → motive t)
    (cut : ∀ t c u, Unbroken .start t → isSeparator c = true → (Scan.start.run t).isOpen = true →
      motive u → motive (t ++ c :: u)) (tag : List Char) : motive tag := by
  have hcut : ∀ t c u, Unbroken .start t →
      isSeparator c = true ∧ (Scan.start.run t).isOpen = true → motive u → motive (t ++ c :: u) :=
    fun t c u ht hc hu => cut t c u ht hc.1 hc.2 hu
  have hsnoc : ∀ t c, Unbroken .start t →
      ¬ (isSeparator c = true ∧ (Scan.start.run t).isOpen = true) → Unbroken .start (t ++ [c]) := by
    intro t c ht hc
    refine unbroken_append.mpr ⟨ht, unbroken_cons.mpr ⟨fun hsep => ?_, unbroken_nil⟩⟩
    exact Bool.eq_false_iff.mpr fun hopen => hc ⟨hsep, hopen⟩
  exact cut_induction unbroken_nil hsnoc whole hcut tag

/-! ### Blanks around a text -/

theorem stepPlain_blank (hc : isBlank c = true) (d : Nat) (afterColon : Bool) :
    Scan.stepPlain d afterColon c = .plain d afterColon := by
  have hne : ∀ x, isBlank x = false → c ≠ x := by
    rintro x hx rfl
    rw [hc] at hx
    cases hx
  simp [Scan.stepPlain, depthAfter, hne '\'' rfl, hne '(' rfl, hne ')' rfl, hc]

theorem run_start_blanks (hb : IsBlanks b) : Scan.start.run b = .start := by
  induction b with
  | nil => rfl
  | cons c r ih =>
    obtain ⟨hc, hr⟩ := List.forall_mem_cons.mp hb
    have hstep : Scan.start.step c = .start := stepPlain_blank hc 0 false
    rw [Scan.run, List.foldl_cons, hstep]
    exact ih hr

/-- Blanks open and close nothing. -/
theorem isOpen_run_blanks (hb : IsBlanks b) (s : Scan) : (s.run b).isOpen = s.isOpen := by
  induction b generalizing s with
  | nil => rfl
  | cons c r ih =>
    obtain ⟨hc, hr⟩ := List.forall_mem_cons.mp hb
    have hquote : c ≠ '\'' := by
      rintro rfl
      cases hc
    have hstep : (s.step c).isOpen = s.isOpen := by
      cases s with
      | plain d afterColon =>
        rw [Scan.step, stepPlain_blank hc]
      | quoted d => rw [Scan.step, if_neg hquote]
      | closing d =>
        rw [Scan.step, if_neg hquote, stepPlain_blank hc]
        rfl
    exact (ih hr (s.step c)).trans hstep

theorem unbroken_trim (h : Unbroken .start t) : Unbroken .start (trim t) := by
  obtain ⟨b, b', hb, -, ht⟩ := exists_blanks_trim t
  rw [ht, unbroken_append, run_start_blanks hb, unbroken_append] at h
  exact h.2.1

theorem isOpen_run_trim (t : List Char) :
    (Scan.start.run (trim t)).isOpen = (Scan.start.run t).isOpen := by
  obtain ⟨b, b', hb, hb', ht⟩ := exists_blanks_trim t
  -- blanks in front leave the reader at its start, those behind leave it as open as it is
  have hrun : Scan.start.run t = (Scan.start.run (trim t)).run b' := by
    rw [← run_append]
    conv_lhs => rw [ht, run_append, run_start_blanks hb]
  rw [hrun, isOpen_run_blanks hb']

/-! ### Tokens by themselves -/

theorem tokens_of_unbroken (h : Unbroken .start t) :
    tokens t = [trim t].filter fun u => !u.isEmpty :=
  tokens_of_leads h.leads

theorem eq_trim_of_mem_tokens (h : Unbroken .start t) (hu : u ∈ tokens t) : u = trim t := by
  rw [tokens_of_unbroken h] at hu
  exact List.mem_singleton.mp (List.mem_of_mem_filter hu)

theorem ne_nil_and_trim_eq_of_mem_tokens (h : t ∈ tokens u) : t ≠ [] ∧ trim t = t := by
  obtain ⟨hmem, hne⟩ := List.mem_filter.mp h
  obtain ⟨piece, -, rfl⟩ := List.mem_map.mp hmem
  exact ⟨by simpa using hne, trim_trim piece⟩

theorem unbroken_of_mem_tokens {tag : List Char} (h : u ∈ tokens tag) : Unbroken .start u := by
  induction tag using tag_induction with
  | whole t ht =>
    rw [eq_trim_of_mem_tokens ht h]
    exact unbroken_trim ht
  | cut t c r ht hc hopen ih =>
    rw [tokens_append hc r hopen, List.mem_append] at h
    rcases h with h | h
    · rw [eq_trim_of_mem_tokens ht h]
      exact unbroken_trim ht
    · exact ih h

/-- After every token but the last the reader is open. -/
theorem isOpen_of_mem_dropLast {tag : List Char} (h : u ∈ (tokens tag).dropLast) :
    (Scan.start.run u).isOpen = true := by
  induction tag using tag_induction with
  | whole t ht =>
    -- there is one token at most
    rw [tokens_of_unbroken ht, List.filter_singleton] at h
    cases hempty : (trim t).isEmpty <;> rw [hempty] at h <;> cases h
  | cut t c r ht hc hopen ih =>
    have hu : u ∈ tokens t ∨ u ∈ (tokens r).dropLast := by
      rw [tokens_append hc r hopen] at h
      -- the last token of the tag is behind the separator, unless nothing is there
      by_cases hnil : tokens r = []
      · rw [hnil, List.append_nil] at h
        exact .inl (List.mem_of_mem_dropLast h)
      · rwa [List.dropLast_append_of_ne_nil hnil, List.mem_append] at h
    rcases hu with hu | hu
    · rw [eq_trim_of_mem_tokens ht hu, isOpen_run_trim, hopen]
    · exact ih hu

theorem isToken_of_mem_dropLast {tag : List Char} (h : u ∈ (tokens tag).dropLast) : IsToken u := by
  have hu := List.mem_of_mem_dropLast h
  obtain ⟨hne, htrim⟩ := ne_nil_and_trim_eq_of_mem_tokens hu
  exact ⟨hne, htrim, _, (unbroken_of_mem_tokens hu).leads, isOpen_of_mem_dropLast h⟩

/-- The tokens of a tag with commas between them are the tokens of a tag. -/
theorem tokens_intercalate_tokens (tag : List Char) :
    tokens (List.intercalate [','] (tokens tag)) = tokens tag := by
  rcases List.eq_nil_or_concat (tokens tag) with hnil | ⟨ts, u, hconcat⟩
  · rw [hnil]
    rfl
  · rw [List.concat_eq_append] at hconcat
    have hu : u ∈ tokens tag := by
      rw [hconcat]
      exact List.mem_append_right ts List.mem_cons_self
    obtain ⟨hne, htrim⟩ := ne_nil_and_trim_eq_of_mem_tokens hu
    have hlast : tokens u = [u] := by
      rw [tokens_of_unbroken (unbroken_of_mem_tokens hu), htrim]
      simpa using hne
    have hts : ∀ t ∈ ts, IsToken t := by
      intro t ht
      have hmem : t ∈ (tokens tag).dropLast := by
        rwa [hconcat, List.dropLast_concat]
      exact isToken_of_mem_dropLast hmem
    rw [hconcat]
    exact tokens_intercalate_concat hts hlast

/-! ### Where tokens stand -/

/-- A text of blanks and separators. -/
def IsGap (g : List Char) : Prop :=
  ∀ c ∈ g, (isBlank c || isSeparator c) = true

/-- The texts stand in the whole one after another with gaps around them.  After each of them there
are blanks alone up to the next separator or the end. -/
inductive Strewn : List (List Char) → List Char → Prop
  | gap {g : List Char} : IsGap g → Strewn [] g
  | token {g t b r : List Char} {ts : List (List Char)} : IsGap g → IsBlanks b →
      (∀ c ∈ r.head?, isSeparator c = true) → Strewn ts r → Strewn (t :: ts) (g ++ (t ++ (b ++ r)))

theorem isGap_of_isBlanks (h : IsBlanks b) : IsGap b := by
  intro c hc
  rw [h c hc]
  rfl

theorem Strewn.gap_append {g r : List Char} {ts : List (List Char)} (hg : IsGap g)
    (h : Strewn ts r) : Strewn ts (g ++ r) := by
  cases h with
  | gap hg' => exact .gap (List.forall_mem_append.mpr ⟨hg, hg'⟩)
  | token hg' hb hr hts =>
    rw [← List.append_assoc]
    exact .token (List.forall_mem_append.mpr ⟨hg, hg'⟩) hb hr hts

/-- An unbroken text and what starts with a separator behind it. -/
theorem strewn_append {r : List Char} {ts : List (List Char)} (ht : Unbroken .start t)
    (hr : ∀ c ∈ r.head?, isSeparator c = true) (h : Strewn ts r) :
    Strewn (tokens t ++ ts) (t ++ r) := by
  obtain ⟨b, b', hb, hb', htrim⟩ := exists_blanks_trim t
  rw [tokens_of_unbroken ht]
  by_cases hnil : trim t = []
  -- a text of blanks alone gives no token and goes to the gap before what follows
  · have ht' : IsBlanks t := by
      rw [htrim, hnil]
      exact List.forall_mem_append.mpr ⟨hb, hb'⟩
    rw [hnil]
    exact h.gap_append (isGap_of_isBlanks ht')
  · have htext : t ++ r = b ++ (trim t ++ (b' ++ r)) := by
      conv_lhs => rw [htrim]
      simp only [List.append_assoc]
    rw [List.filter_cons_of_pos (by simpa using hnil), htext]
    exact .token (isGap_of_isBlanks hb) hb' hr h

theorem strewn_tokens (tag : List Char) : Strewn (tokens tag) tag := by
  induction tag using tag_induction with
  | whole t ht =>
    have h := strewn_append ht (r := []) (fun c hc => by cases hc) (.gap (List.forall_mem_nil _))
    rwa [List.append_nil, List.append_nil] at h
  | cut t c r ht hc hopen ih =>
    rw [tokens_append hc r hopen]
    refine strewn_append ht (fun x hx => ?_) (Strewn.gap_append (g := [c]) ?_ ih)
    · obtain rfl := Option.some.inj hx
      exact hc
    · intro x hx
      rw [List.mem_singleton.mp hx, hc, Bool.or_true]

/-- **Tokens stand on their own.**  For every tag whatever, the slices that it is cut into are there.
Its tokens are not empty and have no blanks at their ends; they stand in the tag one after another,
with nothing but blanks and separators around them; the reader would cut none of them again, and is
open after each but the last; and with commas between them they are the tokens of a tag. -/
theorem tokens_standAlone (tag : List Char) :
    Sliced.tokens? tag = some (tokens tag) ∧
    (∀ t ∈ tokens tag, t ≠ [] ∧ trim t = t) ∧
    Strewn (tokens tag) tag ∧
    (∀ t ∈ tokens tag, Unbroken .start t) ∧
    (∀ t ∈ (tokens tag).dropLast, (Scan.start.run t).isOpen = true) ∧
    tokens (List.intercalate [','] (tokens tag)) = tokens tag :=
  ⟨Sliced.tokens?_eq tag, fun _ => ne_nil_and_trim_eq_of_mem_tokens, strewn_tokens tag,
    fun _ => unbroken_of_mem_tokens, fun _ => isOpen_of_mem_dropLast, tokens_intercalate_tokens tag⟩

/-- Of a tag whose last parenthesis is not closed, the comma in it and the one between quotes cut
nothing. -/
theorem tokens_standAlone_of_sample :
    tokens "; né:'a, b' ;,(c, 'd;".toList = ["né:'a, b'".toList, "(c, 'd;".toList] ∧
    Unbroken .start "(c, 'd;".toList ∧ (Scan.start.run "né:'a, b'".toList).isOpen = true := by
  have htokens : tokens "; né:'a, b' ;,(c, 'd;".toList =
      ["né:'a, b'".toList, "(c, 'd;".toList] := by decide
  obtain ⟨-, -, -, hunbroken, hopen, -⟩ := tokens_standAlone "; né:'a, b' ;,(c, 'd;".toList
  rw [htokens] at hunbroken hopen
  exact ⟨htokens, hunbroken _ (by decide), hopen _ (by decide)⟩

end SchemaKeeper.Tag
