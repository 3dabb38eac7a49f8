/-
Tokens with commas between them.

A tag is cut at the separators that the reader meets in an open state, outside quotes
and parentheses.  What is between two such separators does not depend on what stands
around it, so that tokens can be looked at one by one.

* `Leads` says that the reader goes through a text from one state to another and is not
  open at any separator on its way,
* `leads_plain`, `leads_enclose`: it goes so through ordinary characters and through a
  text between quotes,
* `tokens_intercalate_concat`, `tokens_intercalate`: texts that are tokens (`IsToken`) are the
  tokens of the tag that has them with commas between them,
* `tokens_append`: what follows a separator is read by itself, if the reader is open there.
-/
import SchemaKeeper.Model.Tag
import SchemaKeeper.Proofs.Text.Trimming
import SchemaKeeper.Text.Quoted

namespace SchemaKeeper

namespace Tag

open Text

variable {s s' s'' : Scan} {t u : List Char} {d : Nat} {b : Bool}

/-! ### Going through a text -/

/-- The reader goes through the text from one state to the other and meets no separator in an open
state. -/
def Leads (s : Scan) (t : List Char) (s' : Scan) : Prop :=
  ∀ r, piecesFrom s (t ++ r) = (piecesFrom s' r).modifyHead (t ++ ·)

theorem leads_nil : Leads s [] s := by
  intro r
  show piecesFrom s r = (piecesFrom s r).modifyHead id
  simp

theorem Leads.append (h : Leads s t s') (h' : Leads s' u s'') : Leads s (t ++ u) s'' := by
  intro r
  rw [List.append_assoc, h, h', List.modifyHead_modifyHead]
  simp only [Function.comp_def, List.append_assoc]

theorem leads_singleton {c : Char} (h : isSeparator c = true → s.isOpen = false) :
    Leads s [c] (s.step c) := by
  intro r
  have hshut : ¬ (isSeparator c && s.isOpen) = true := by
    rw [Bool.and_eq_true]
    rintro ⟨hc, hs⟩
    rw [h hc] at hs
    cases hs
  rw [List.singleton_append, piecesFrom, if_neg hshut]
  simp

theorem Leads.cons {c : Char} (hc : isSeparator c = true → s.isOpen = false)
    (h : Leads (s.step c) t s') : Leads s (c :: t) s' :=
  (leads_singleton hc).append h

/-- A character that is no quote, no parenthesis and no separator. -/
def isQuiet (c : Char) : Bool :=
  c != '\'' && c != '(' && c != ')' && !isSeparator c

/-- Within parentheses separators count as other characters. -/
theorem leads_plain (h : ∀ c ∈ t, (c ≠ '\'' ∧ c ≠ '(' ∧ c ≠ ')') ∧
      (d = 0 → isSeparator c = false)) :
    ∃ b', Leads (.plain d b) t (.plain d b') := by
  induction t generalizing b with
  | nil => exact ⟨b, leads_nil⟩
  | cons c r ih =>
    obtain ⟨⟨hquote, hopen, hclose⟩, hsep⟩ := h c List.mem_cons_self
    have hstep : (Scan.plain d b).step c =
        .plain d (if isBlank c then b else c == ':') := by
      simp [Scan.step, Scan.stepPlain, depthAfter, hquote, hopen, hclose]
    have hshut : isSeparator c = true → (Scan.plain d b).isOpen = false := by
      intro hc
      have hdepth : d ≠ 0 := by
        intro hdepth
        rw [hsep hdepth] at hc
        cases hc
      simpa [Scan.isOpen] using hdepth
    obtain ⟨b', hb⟩ := ih (b := if isBlank c then b else c == ':')
      fun x hx => h x (List.mem_cons_of_mem _ hx)
    rw [← hstep] at hb
    exact ⟨b', hb.cons hshut⟩

theorem leads_quiet (h : t.all isQuiet = true) :
    ∃ b', Leads (.plain d b) t (.plain d b') := by
  refine leads_plain fun c hc => ?_
  have hquiet := List.all_eq_true.mp h c hc
  simp only [isQuiet, Bool.and_eq_true, bne_iff_ne, Bool.not_eq_true'] at hquiet
  exact ⟨⟨hquiet.1.1.1, hquiet.1.1.2, hquiet.1.2⟩, fun _ => hquiet.2⟩

/-- After a key and its colon a quote opens a value. -/
theorem leads_key (h : t.all isQuiet = true) :
    Leads (.plain d b) (t ++ [':']) (.plain d true) := by
  obtain ⟨b', hb⟩ := leads_quiet h (d := d) (b := b)
  exact hb.append (leads_singleton fun hc => by cases hc)

/-- What stands in parentheses. -/
theorem leads_parentheses (h : ∀ c ∈ t, c ≠ '\'' ∧ c ≠ '(' ∧ c ≠ ')') :
    Leads (.plain d b) ('(' :: (t ++ [')'])) (.plain d false) := by
  obtain ⟨b', hb⟩ := leads_plain (d := d + 1) (b := false)
    fun c hc => ⟨h c hc, fun hdepth => by cases hdepth⟩
  have hclose : Leads (.plain (d + 1) b') [')'] (.plain d false) :=
    leads_singleton fun hc => by cases hc
  exact (hb.append hclose).cons (fun hc => by cases hc)

theorem leads_encode (t : List Char) : Leads (.quoted d) (encode '\'' t) (.quoted d) := by
  induction t with
  | nil => exact leads_nil
  | cons c r ih =>
    by_cases hc : c = '\''
    · rw [encode, if_pos hc]
      have hsecond : Leads (.closing d) ('\'' :: encode '\'' r) (.quoted d) :=
        Leads.cons (fun hc => by cases hc) ih
      exact hsecond.cons fun hc => by cases hc
    · rw [encode, if_neg hc]
      have hstep : (Scan.quoted d).step c = .quoted d := if_neg hc
      have hrest : Leads ((Scan.quoted d).step c) (encode '\'' r) (.quoted d) := by
        rwa [hstep]
      exact hrest.cons fun _ => rfl

/-- A text between quotes after a colon. -/
theorem leads_enclose (t : List Char) :
    Leads (.plain d true) (enclose '\'' t) (.closing d) := by
  have hclose : Leads (.quoted d) ['\''] (.closing d) :=
    leads_singleton fun hc => by cases hc
  exact ((leads_encode t).append hclose).cons fun hc => by cases hc

/-! ### Tokens -/

/-- A text that is a token of every tag in which it stands between commas. -/
structure IsToken (t : List Char) : Prop where
  ne_nil : t ≠ []
  trim_eq : trim t = t
  leads : ∃ s, Leads .start t s ∧ s.isOpen = true

/-- In an open state a separator leads back to the start. -/
theorem step_separator {c : Char} (hc : isSeparator c = true) (h : s.isOpen = true) :
    s.step c = .start := by
  cases s with
  | quoted => cases h
  | _ =>
    rw [Scan.isOpen, beq_iff_eq] at h
    obtain rfl | rfl : c = ',' ∨ c = ';' := by simpa [isSeparator] using hc
    all_goals
      rw [h]
      rfl

/-- A text that the reader goes through is one token, if anything is left of it. -/
theorem tokens_of_leads (h : Leads .start t s) :
    tokens t = [trim t].filter fun u => !u.isEmpty := by
  have hpieces : piecesFrom .start t = [t] := by
    simpa [piecesFrom] using h []
  rw [tokens, hpieces, List.map_singleton]

theorem IsToken.tokens_eq (h : IsToken t) : tokens t = [t] := by
  obtain ⟨s, hleads, -⟩ := h.leads
  rw [tokens_of_leads hleads, h.trim_eq]
  simpa using h.ne_nil

theorem IsToken.tokens_append (h : IsToken t) {c : Char} (hc : isSeparator c = true)
    (u : List Char) : tokens (t ++ c :: u) = t :: tokens u := by
  obtain ⟨s, hleads, hopen⟩ := h.leads
  have hpieces : piecesFrom .start (t ++ c :: u) = t :: piecesFrom .start u := by
    rw [hleads, piecesFrom, if_pos (by rw [hc, hopen]; rfl), step_separator hc hopen]
    simp
  rw [tokens, hpieces, List.map_cons, h.trim_eq, List.filter_cons_of_pos (by simpa using h.ne_nil)]
  rfl

/-- Tokens with commas between them are read back.  After the last one the reader need not be
open. -/
theorem tokens_intercalate_concat {ts : List (List Char)} (h : ∀ t ∈ ts, IsToken t)
    (hlast : tokens u = [u]) : tokens (List.intercalate [','] (ts ++ [u])) = ts ++ [u] := by
  induction ts with
  | nil => simpa using hlast
  | cons t r ih =>
    obtain ⟨ht, hr⟩ := List.forall_mem_cons.mp h
    have hjoin : List.intercalate [','] (t :: r ++ [u]) =
        t ++ ',' :: List.intercalate [','] (r ++ [u]) := by
      cases r <;> simp [List.intercalate_cons_cons]
    rw [hjoin, ht.tokens_append rfl, ih hr]
    rfl

theorem tokens_intercalate {ts : List (List Char)} (h : ∀ t ∈ ts, IsToken t) :
    tokens (List.intercalate [','] ts) = ts := by
  rcases List.eq_nil_or_concat ts with rfl | ⟨r, u, rfl⟩
  · rfl
  · rw [List.concat_eq_append] at h ⊢
    obtain ⟨hr, hu⟩ := List.forall_mem_append.mp h
    exact tokens_intercalate_concat hr (hu u List.mem_cons_self).tokens_eq

theorem piecesFrom_ne_nil (s : Scan) (t : List Char) : piecesFrom s t ≠ [] := by
  induction t generalizing s with
  | nil => simp [piecesFrom]
  | cons c r ih =>
    rw [piecesFrom]
    split
    · simp
    · simpa using ih (s.step c)

theorem piecesFrom_append {c : Char} (hc : isSeparator c = true) (u : List Char)
    (hopen : (s.run t).isOpen = true) :
    piecesFrom s (t ++ c :: u) = piecesFrom s t ++ piecesFrom .start u := by
  -- the state goes with the text, so that the last one is the one at the separator
  induction t generalizing s with
  | nil =>
    have hs : s.isOpen = true := hopen
    show (if isSeparator c && s.isOpen then [] :: piecesFrom (s.step c) u else _) = _
    rw [if_pos (by rw [hc, hs]; rfl), step_separator hc hs]
    rfl
  | cons d r ih =>
    rw [List.cons_append, piecesFrom, piecesFrom, ih hopen]
    split
    · rfl
    · cases hr : piecesFrom (s.step d) r with
      | nil => exact absurd hr (piecesFrom_ne_nil _ _)
      | cons piece pieces => rfl

/-- The tokens before and after a separator. -/
theorem tokens_append {c : Char} (hc : isSeparator c = true) (u : List Char)
    (hopen : (Scan.start.run t).isOpen = true) :
    tokens (t ++ c :: u) = tokens t ++ tokens u := by
  rw [tokens, piecesFrom_append hc u hopen, List.map_append, List.filter_append]
  rfl

end Tag

end SchemaKeeper
