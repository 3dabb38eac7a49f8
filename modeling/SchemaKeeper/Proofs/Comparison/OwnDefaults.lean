/-
A model's own default as PostgreSQL reports it.

PostgreSQL reports a default as it was written, or in parentheses, and with a cast after it
or without one; a number may stand between quotes (`IsReportOf`).  A default that is a text
may itself have colons, parentheses and quotes in it, so the scan for the cast has to come
to its end.

* `IsSolid.inParens`: parentheses around a solid text make a solid text, over which the
  scan passes,
* `stripParens_inParens`: the parentheses around an atom are taken off, and no others,
* `readDefault_of_isReportOf`: so every report of a default that a tag gives is read as the
  default itself, and a comparison never finds that it differs.
-/
import SchemaKeeper.Proofs.Comparison.Stored
import SchemaKeeper.Proofs.Dialect.ReportedDefaults
import SchemaKeeper.Proofs.Model.Tokens

namespace SchemaKeeper

open Text Number Comparison

namespace Dialect

/-! ### Parentheses -/

/-- A text in pairs of parentheses. -/
def inParens : Nat → String → String
  | 0, s => s
  | k + 1, s => "(" ++ inParens k s ++ ")"

theorem toList_inParens_succ (k : Nat) (s : String) :
    (inParens (k + 1) s).toList = '(' :: ((inParens k s).toList ++ [')']) := by
  simp [inParens]

/-- Between an opening parenthesis and the closing one the scan is one level deeper. -/
theorem Passes.parens {s : List Char} (h : Passes s) : Passes ('(' :: (s ++ [')'])) := by
  intro depth rest
  have hinside : beforeCast? false (depth + 1) (s ++ ')' :: rest) =
      (beforeCast? false (depth + 1) (')' :: rest)).map (s ++ ·) := h (depth + 1) (')' :: rest)
  simp [beforeCast?, hinside, Function.comp_def]

theorem IsSolid.inParens {s : String} (h : IsSolid s.toList) (k : Nat) :
    IsSolid (inParens k s).toList := by
  induction k with
  | zero => exact h
  | succ k ih =>
    rw [toList_inParens_succ]
    exact ⟨⟨'(', _, rfl, rfl⟩, ⟨'(' :: (Dialect.inParens k s).toList, ')', rfl, rfl⟩,
      ih.passes.parens⟩

/-- An atom does not start with a parenthesis, so it stays as it is. -/
theorem stripParens_of_isAtom {s : List Char} (h : IsAtom s) : stripParens s = s := by
  have hstart : s.head? ≠ some '(' := by
    intro hhead
    obtain ⟨r, rfl⟩ := List.head?_eq_some_iff.mp hhead
    rcases h with ⟨-, hword⟩ | ⟨inside, hinside⟩
    · have hplain := hword '(' List.mem_cons_self
      cases hplain
    · cases hinside
  have hnone : parenInner? s = none := by
    cases s with
    | nil => rfl
    | cons c r =>
      have hc : ¬ (c = '(' ∧ r.getLast? = some ')') := fun hboth => hstart (by rw [hboth.1]; rfl)
      exact if_neg hc
  rw [stripParens]
  split
  · next inside hinside =>
    rw [hnone] at hinside
    cases hinside
  · rfl

theorem stripParens_parens {s : List Char} (h : trim s = s) :
    stripParens ('(' :: (s ++ [')'])) = stripParens s := by
  have hinner : parenInner? ('(' :: (s ++ [')'])) = some s := by
    simp [parenInner?]
  rw [stripParens]
  split
  · next inside hinside =>
    rw [hinner] at hinside
    cases hinside
    rw [h]
  · next hnone =>
    rw [hinner] at hnone
    cases hnone

/-- All parentheses around an atom are taken off. -/
theorem stripParens_inParens {s : String} (h : IsAtom s.toList) (k : Nat) :
    stripParens (inParens k s).toList = s.toList := by
  induction k with
  | zero => exact stripParens_of_isAtom h
  | succ k ih =>
    have hsolid := (isSolid_of_isAtom h).inParens k
    rw [toList_inParens_succ, stripParens_parens hsolid.trim_eq, ih]

/-! ### Reports -/

/-- A text that PostgreSQL may report for a default: the default in parentheses or without them,
with a cast after it or without one, and a number between quotes with a cast after them. -/
inductive IsReportOf (default : String) : String → Prop
  | plain (k : Nat) : IsReportOf default (inParens k default)
  | cast (k : Nat) (type : String) : IsReportOf default (inParens k default ++ "::" ++ type)
  | number (k : Nat) (type : String) (isLiteral : Decimal.isLiteral default.toList = true) :
      IsReportOf default (inParens k ("'" ++ default ++ "'") ++ "::" ++ type)

/-- What is read of a default in parentheses. -/
theorem readPostgresDefault_inParens {s : String} (h : IsAtom s.toList) (k : Nat) :
    readPostgresDefault (inParens k s).toList = readPostgresDefault s.toList := by
  have hatom := isSolid_of_isAtom h
  have hparens := hatom.inParens k
  rw [readPostgresDefault, readPostgresDefault, hparens.trim_eq, stripCast_of_passes hparens.passes,
    stripParens_inParens h, hatom.trim_eq, stripCast_of_passes hatom.passes,
    stripParens_of_isAtom h]

theorem readPostgresDefault_cast {s : String} (h : IsAtom s.toList) (k : Nat) (type : String) :
    readPostgresDefault (inParens k s ++ "::" ++ type).toList = readPostgresDefault s.toList := by
  rw [toList_cast, readPostgresDefault_append ((isSolid_of_isAtom h).inParens k),
    readPostgresDefault_inParens h]

/-- A number has no quotes to be doubled. -/
theorem toList_quotes {s : String} (h : Decimal.isLiteral s.toList = true) :
    ("'" ++ s ++ "'").toList = enclose '\'' s.toList := by
  have hencode : ∀ r : List Char, '\'' ∉ r → encode '\'' r = r := by
    intro r hr
    induction r with
    | nil => rfl
    | cons c r ih =>
      obtain ⟨hc, hr⟩ : '\'' ≠ c ∧ '\'' ∉ r := by simpa using hr
      rw [encode, if_neg hc.symm, ih hr]
  have hquote : '\'' ∉ s.toList := by
    intro hmem
    have hnumeral := Decimal.isNumeral_of_isLiteral h hmem
    cases hnumeral
  rw [enclose, hencode _ hquote]
  simp

/-- A number has no quotes to lose. -/
theorem unquoteNumber_of_isLiteral {s : List Char} (h : Decimal.isLiteral s = true) :
    unquoteNumber s = s := by
  have hinner : inner? '\'' s = none := by
    refine inner?_eq_none.mpr ?_
    rintro ⟨inside, hs⟩
    have hnumeral := Decimal.isNumeral_of_isLiteral h (c := '\'') (by rw [hs]; simp)
    cases hnumeral
  rw [unquoteNumber, hinner]

/-- Between quotes a number is read as the number. -/
theorem readPostgresDefault_quotes {s : String} (h : Decimal.isLiteral s.toList = true) :
    readPostgresDefault ("'" ++ s ++ "'").toList = readPostgresDefault s.toList := by
  have hword : IsAtom s.toList := .inl (isWord_of_isLiteral h)
  have hquoted : IsAtom ("'" ++ s ++ "'").toList := .inr ⟨_, toList_quotes h⟩
  have hinside : unquoteNumber ("'" ++ s ++ "'").toList = s.toList := by
    have hinner : inner? '\'' ("'" ++ s ++ "'").toList = some s.toList :=
      inner?_eq_some.mpr (by simp)
    rw [unquoteNumber, hinner]
    exact if_pos h
  rw [readPostgresDefault, readPostgresDefault, (isSolid_of_isAtom hword).trim_eq,
    (isSolid_of_isAtom hquoted).trim_eq, stripCast_of_passes (passes_of_isAtom hword),
    stripCast_of_passes (passes_of_isAtom hquoted), stripParens_of_isAtom hword,
    stripParens_of_isAtom hquoted, hinside, unquoteNumber_of_isLiteral h]

/-- However an atom is reported, it is read as the atom itself. -/
theorem readDefault_report {s r : String} (h : IsAtom s.toList) (hr : IsReportOf s r) :
    postgres.readDefault r = postgres.readDefault s := by
  refine congrArg String.ofList ?_
  show readPostgresDefault r.toList = readPostgresDefault s.toList
  cases hr with
  | plain k => exact readPostgresDefault_inParens h k
  | cast k type => exact readPostgresDefault_cast h k type
  | number k type hliteral =>
    have hquoted : IsAtom ("'" ++ s ++ "'").toList := .inr ⟨_, toList_quotes hliteral⟩
    rw [readPostgresDefault_cast hquoted, readPostgresDefault_quotes hliteral]

/-- **However PostgreSQL reports a default that a tag gave, it is read as that default**, so that a
comparison never finds the default of the column to differ. -/
theorem readDefault_of_isReportOf (type : ColumnType) (value : String) {r : String}
    (hr : IsReportOf (postgres.writeDefault type (normalizeDefault value)) r) :
    postgres.readDefault r =
      postgres.readDefault (postgres.writeDefault type (normalizeDefault value)) ∧
    ∀ (db : List DatabaseColumn) (model : List ModelColumn), ∀ c ∈ model, ∀ found,
      columnNamed? db c.name = some found → c.type = type →
      c.default? = some (normalizeDefault value) → found.default? = some r →
      ¬ Detects postgres db model c .default := by
  have hread := readDefault_report (isAtom_writeDefault (isAtom_normalizeDefault value)) hr
  refine ⟨hread, ?_⟩
  intro db model c hc found hfound htype hwanted hreported hdetects
  obtain ⟨-, -, hmatch⟩ := (detects_iff hc hfound).mp hdetects
  rw [wantedDefault?, hwanted, hreported, Option.map_some, Option.map_some, htype, hread,
    defaultsMatch_refl] at hmatch
  cases hmatch

/-- A text with a quote, a parenthesis and two colons in it, reported in parentheses with a cast. -/
theorem readDefault_of_isReportOf_sample :
    let value := "it's (a::b"
    let r := "(('it''s (a::b'))::character varying(20)"
    let c : ModelColumn :=
      { name := "note", type := .varchar 20, default? := some (normalizeDefault value) }
    let found : DatabaseColumn := { name := "note", rawType := "varchar(20)", default? := some r }
    IsReportOf (postgres.writeDefault (.varchar 20) (normalizeDefault value)) r ∧
      columnNamed? [found] c.name = some found ∧ postgres.readDefault r = "'it''s (a::b'" ∧
      ¬ Detects postgres [found] [c] c .default := by
  intro value r c found
  have hwritten :
      postgres.writeDefault (.varchar 20) (normalizeDefault value) = "'it''s (a::b'" := by
    decide
  have hr : IsReportOf (postgres.writeDefault (.varchar 20) (normalizeDefault value)) r := by
    rw [hwritten]
    exact .cast 2 "character varying(20)"
  obtain ⟨hread, hkept⟩ := readDefault_of_isReportOf (.varchar 20) value hr
  refine ⟨hr, rfl, ?_, hkept [found] [c] c List.mem_cons_self found rfl rfl rfl rfl⟩
  rw [hread, hwritten]
  decide +kernel

end Dialect

end SchemaKeeper
