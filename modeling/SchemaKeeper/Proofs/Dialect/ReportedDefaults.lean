/-
Defaults as PostgreSQL reports them.

PostgreSQL may report a default with a cast after it.  The cast is found by a scan
that passes over texts between quotes, so a default must not let the scan stop early.

* `isAtom_defaultLiteral`: every default that a tag gives is an atom, a word without
  quotes, parentheses, colons and blanks or a text between single quotes, and it stays
  one when it is written for a type (`isAtom_writeDefault`),
* `passes_of_isAtom`: the scan passes over an atom, which is a solid text (`IsSolid`),
* `readPostgresDefault_append`: a cast after a solid text does not change how it is read,
* `readDefault_cast`: so it does not after a default that a tag gives.
-/
import SchemaKeeper.Dialect.Default
import SchemaKeeper.Proofs.Model.Literals

namespace SchemaKeeper

open Text

namespace Dialect

/-! ### Words -/

/-- A character that is neither a blank nor one that the scan for a cast looks at. -/
def isPlain (c : Char) : Bool :=
  c != '\'' && c != '(' && c != ')' && c != ':' && !isBlank c

/-- A text of plain characters. -/
def IsWord (s : List Char) : Prop :=
  s ≠ [] ∧ ∀ c ∈ s, isPlain c = true

theorem isWord_of_all {s : List Char} (hne : s ≠ []) (h : s.all isPlain = true) : IsWord s :=
  ⟨hne, List.all_eq_true.mp h⟩

theorem isPlain_of_isDigit {c : Char} (h : c.isDigit = true) : isPlain c = true := by
  have hbounds : 48 ≤ c.toNat ∧ c.toNat ≤ 57 := Char.isDigit_iff_toNat.mp h
  have hblank : isBlank c = false := by
    simp only [isBlank, Bool.or_eq_false_iff, Bool.and_eq_false_iff, beq_eq_false_iff_ne,
      decide_eq_false_iff_not]
    omega
  have hne : ∀ q : Char, ¬ (48 ≤ q.toNat ∧ q.toNat ≤ 57) → c ≠ q := by
    rintro q hq rfl
    exact hq hbounds
  simp [isPlain, hblank, hne '\'' (by decide), hne '(' (by decide), hne ')' (by decide),
    hne ':' (by decide)]

theorem isPlain_of_isNumeral {c : Char} (h : Number.Decimal.isNumeral c = true) :
    isPlain c = true := by
  simp only [Number.Decimal.isNumeral, Bool.or_eq_true, beq_iff_eq] at h
  rcases h with ((((h | rfl) | rfl) | rfl) | rfl) | rfl
  · exact isPlain_of_isDigit h
  · rfl
  · rfl
  · rfl
  · rfl
  · rfl

/-- A decimal literal is a word. -/
theorem isWord_of_isLiteral {s : List Char} (h : Number.Decimal.isLiteral s = true) : IsWord s :=
  ⟨Number.Decimal.ne_nil_of_isLiteral h, fun _ hc =>
    isPlain_of_isNumeral (Number.Decimal.isNumeral_of_isLiteral h hc)⟩

/-! ### Atoms -/

/-- A word, or a text between single quotes. -/
def IsAtom (s : List Char) : Prop :=
  IsWord s ∨ ∃ inside, s = enclose '\'' inside

/-- Every default that a tag gives is an atom. -/
theorem isAtom_defaultLiteral (value : List Char) : IsAtom (defaultLiteral value) := by
  rcases defaultLiteral_cases value with h | h | h | ⟨inside, h⟩
  · rw [h]
    exact .inl (isWord_of_all (by simp) rfl)
  · rw [h]
    exact .inl (isWord_of_all (by simp) rfl)
  · exact .inl (isWord_of_isLiteral h)
  · exact .inr ⟨inside, h⟩

/-- Writing a default for a type puts one word for another, if anything. -/
theorem isAtom_writeDefault {d : Dialect} {type : ColumnType} {literal : String}
    (h : IsAtom literal.toList) : IsAtom (d.writeDefault type literal).toList := by
  unfold writeDefault
  split
  · exact .inl (isWord_of_all (by simp) rfl)
  · exact .inl (isWord_of_all (by simp) rfl)
  · exact h

/-- An atom starts and ends with characters that are no blanks. -/
theorem ends_of_isAtom {s : List Char} (h : IsAtom s) :
    (∃ c r, isBlank c = false ∧ s = c :: r) ∧ ∃ r c, isBlank c = false ∧ s = r ++ [c] := by
  have hplain : ∀ {c}, isPlain c = true → isBlank c = false := by
    intro c hc
    simp only [isPlain, Bool.and_eq_true, Bool.not_eq_true'] at hc
    exact hc.2
  rcases h with ⟨hne, hword⟩ | ⟨inside, rfl⟩
  · constructor
    · obtain ⟨c, r, rfl⟩ := List.exists_cons_of_ne_nil hne
      exact ⟨c, r, hplain (hword c List.mem_cons_self), rfl⟩
    · refine ⟨s.dropLast, s.getLast hne, hplain (hword _ (List.getLast_mem hne)), ?_⟩
      rw [List.dropLast_concat_getLast]
  · exact ⟨⟨'\'', _, rfl, rfl⟩, '\'' :: encode '\'' inside, '\'', rfl, rfl⟩

/-! ### The scan for a cast -/

/-- The scan for a cast comes from the start of the text to its end, outside quotes and as deep in
parentheses as before. -/
def Passes (s : List Char) : Prop :=
  ∀ depth rest, beforeCast? false depth (s ++ rest) =
    (beforeCast? false depth rest).map (s ++ ·)

theorem passes_of_isWord {s : List Char} (h : ∀ c ∈ s, isPlain c = true) : Passes s := by
  intro depth rest
  induction s with
  | nil => simp
  | cons c r ih =>
    obtain ⟨hc, hr⟩ := List.forall_mem_cons.mp h
    simp only [isPlain, Bool.and_eq_true, bne_iff_ne, ne_eq] at hc
    obtain ⟨⟨⟨⟨hquote, hopen⟩, hclose⟩, hcolon⟩, -⟩ := hc
    simp [beforeCast?, hquote, hopen, hclose, hcolon, ih hr, Function.comp_def]

/-- Within quotes the scan comes to the quote that closes them, because the quotes in between come
in pairs. -/
theorem beforeCast?_encode (inside rest : List Char) (depth : Nat) :
    beforeCast? true depth (encode '\'' inside ++ '\'' :: rest) =
      (beforeCast? false depth rest).map (encode '\'' inside ++ '\'' :: ·) := by
  induction inside with
  | nil => simp [encode, beforeCast?]
  | cons c r ih =>
    by_cases hc : c = '\'' <;> simp [encode, beforeCast?, hc, ih, Function.comp_def]

theorem passes_enclose (inside : List Char) : Passes (enclose '\'' inside) := by
  intro depth rest
  simp [enclose, beforeCast?, beforeCast?_encode, Function.comp_def]

theorem passes_of_isAtom {s : List Char} (h : IsAtom s) : Passes s := by
  rcases h with h | ⟨inside, rfl⟩
  · exact passes_of_isWord h.2
  · exact passes_enclose inside

theorem stripCast_of_passes {s : List Char} (h : Passes s) : stripCast s = s := by
  have hnone : beforeCast? false 0 s = none := by
    have := h 0 []
    rwa [List.append_nil] at this
  rw [stripCast, hnone]

theorem stripCast_append {s : List Char} (h : Passes s) (type : List Char) :
    stripCast (s ++ ':' :: ':' :: type) = trimEnd s := by
  -- the scan comes to the two colons outside quotes and parentheses
  have hsome : beforeCast? false 0 (s ++ ':' :: ':' :: type) = some s := by
    rw [h 0]
    simp [beforeCast?]
  rw [stripCast, hsome]

/-! ### Solid texts -/

/-- A text without blanks at its ends that the scan for a cast passes over. -/
structure IsSolid (s : List Char) : Prop where
  starts : ∃ c r, isBlank c = false ∧ s = c :: r
  ends : ∃ r c, isBlank c = false ∧ s = r ++ [c]
  passes : Passes s

theorem isSolid_of_isAtom {s : List Char} (h : IsAtom s) : IsSolid s :=
  ⟨(ends_of_isAtom h).1, (ends_of_isAtom h).2, passes_of_isAtom h⟩

theorem IsSolid.trimStart_append {s : List Char} (h : IsSolid s) (t : List Char) :
    trimStart (s ++ t) = s ++ t := by
  obtain ⟨first, r, hfirst, rfl⟩ := h.starts
  exact trimStart_cons hfirst _

theorem IsSolid.trimEnd_eq {s : List Char} (h : IsSolid s) : trimEnd s = s := by
  obtain ⟨r, last, hlast, rfl⟩ := h.ends
  exact trimEnd_append_cons hlast r []

theorem IsSolid.trim_eq {s : List Char} (h : IsSolid s) : trim s = s := by
  have hstart := h.trimStart_append []
  rw [List.append_nil] at hstart
  rw [trim, hstart, h.trimEnd_eq]

theorem trim_of_isAtom {s : List Char} (h : IsAtom s) : trim s = s :=
  (isSolid_of_isAtom h).trim_eq

/-- The cast is cut off, whatever type it is to. -/
theorem IsSolid.stripCast_trim_append {s : List Char} (h : IsSolid s) (type : List Char) :
    stripCast (trim (s ++ ':' :: ':' :: type)) = s := by
  -- blanks may be cut off after the cast alone, because the text has none at its ends
  have htrim : trim (s ++ ':' :: ':' :: type) = s ++ ':' :: ':' :: trimEnd type := by
    have hcolon : s ++ ':' :: ':' :: type = (s ++ [':']) ++ ':' :: type := by simp
    rw [trim, h.trimStart_append, hcolon, trimEnd_append_cons rfl]
    simp
  rw [htrim, stripCast_append h.passes, h.trimEnd_eq]

/-! ### Defaults with casts -/

/-- A cast after a solid text does not change how it is read. -/
theorem readPostgresDefault_append {s : List Char} (h : IsSolid s) (type : List Char) :
    readPostgresDefault (s ++ ':' :: ':' :: type) = readPostgresDefault s := by
  rw [readPostgresDefault, readPostgresDefault, h.stripCast_trim_append, h.trim_eq,
    stripCast_of_passes h.passes]

theorem isAtom_normalizeDefault (value : String) : IsAtom (normalizeDefault value).toList := by
  rw [normalizeDefault, String.toList_ofList]
  exact isAtom_defaultLiteral _

theorem toList_cast (value type : String) :
    (value ++ "::" ++ type).toList = value.toList ++ ':' :: ':' :: type.toList := by
  simp

/-- A cast after a default that a tag gives does not change how it is read. -/
theorem readDefault_cast (columnType : ColumnType) (value type : String) :
    postgres.readDefault
        (postgres.writeDefault columnType (normalizeDefault value) ++ "::" ++ type) =
      postgres.readDefault (postgres.writeDefault columnType (normalizeDefault value)) := by
  have hatom : IsAtom (postgres.writeDefault columnType (normalizeDefault value)).toList :=
    isAtom_writeDefault (isAtom_normalizeDefault value)
  rw [readDefault, toList_cast]
  exact congrArg String.ofList (readPostgresDefault_append (isSolid_of_isAtom hatom) _)

end Dialect

end SchemaKeeper
