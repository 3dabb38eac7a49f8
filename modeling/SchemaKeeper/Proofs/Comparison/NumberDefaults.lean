/-
Defaults that are numbers.

A default that is a number is compared with the default that a table reports as a number,
however both are written.  The numbers are compared as floating point numbers, and so a
change may be missed.

* `readDefault_of_isLiteral`: every dialect reads a number as it stands,
* `detects_default_of_literals`: a change is found exactly if the two numbers have different
  floating point numbers,
* `detects_default_of_numbers`: so none is found where the numbers are the same, and one is
  found wherever the numbers are far enough apart or both have floating point numbers of
  their own,
* `detects_default_of_numbers_missed`: two integers of 64 bits may be taken for the same.
-/
import SchemaKeeper.Proofs.Comparison.BareDefaults
import SchemaKeeper.Proofs.Comparison.OwnDefaults
import SchemaKeeper.Proofs.Model.NormalDefaults
import SchemaKeeper.Proofs.Number.LetterCase
import SchemaKeeper.Proofs.Number.Rounding

namespace SchemaKeeper

open Text Number

namespace Dialect

/-! ### Reading numbers -/

theorem postgresKeyword?_eq_none {word : String} (h : word ∉ specialWords) :
    postgresKeyword? word = none := by
  simp only [specialWords, List.mem_cons, List.not_mem_nil, or_false, not_or] at h
  unfold postgresKeyword?
  split <;> simp_all

theorem mysqlWords_subset : mysqlWords ⊆ specialWords := by
  decide

/-- A number is read as it stands. -/
theorem readDefault_of_isLiteral (d : Dialect) {s : String}
    (h : Decimal.isLiteral s.toList = true) : d.readDefault s = s := by
  have hatom : IsAtom s.toList := .inl (isWord_of_isLiteral h)
  have hword := not_mem_specialWords_of_isLiteral h
  have hread : ∀ r, r = s.toList → String.ofList r = s := by
    rintro _ rfl
    exact String.ofList_toList
  cases d with
  | sqlite => exact hread _ (trim_of_isAtom hatom)
  | postgres =>
    refine hread _ ?_
    show readPostgresDefault s.toList = s.toList
    rw [readPostgresDefault, trim_of_isAtom hatom, stripCast_of_passes (passes_of_isAtom hatom),
      stripParens_of_isAtom hatom, unquoteNumber_of_isLiteral h, postgresKeyword?_eq_none hword]
  | mysql =>
    refine hread _ ?_
    show readMysqlDefault s.toList = s.toList
    have hnone := mysqlKeyword?_eq_none.mpr fun hmem => hword (mysqlWords_subset hmem)
    rw [readMysqlDefault, trim_of_isAtom hatom, hnone]
    simp [h]

end Dialect

namespace Comparison

/-! ### Comparing numbers -/

variable {a b : String} {x y : Decimal}

theorem isLiteral_of_read? {s : List Char} (h : Decimal.read? s = some x) :
    Decimal.isLiteral s = true := by
  rw [Decimal.isLiteral, h]
  rfl

theorem effective?_of_isLiteral (h : Decimal.isLiteral a.toList = true) :
    effective? (some a) = some a := by
  have hnull : sameName a "NULL" = false := by
    rw [← Bool.not_eq_true]
    intro hsame
    refine not_mem_specialWords_of_isLiteral h ?_
    have hlower : lower a.toList = lower "NULL".toList := beq_iff_eq.mp hsame
    rw [hlower]
    decide
  simp [effective?, hnull]

/-- Literals that differ in letter case alone write the same number, so that in any case two
literals are compared by their floating point numbers. -/
theorem sameLiteral_of_read? {s t : List Char} (hx : Decimal.read? s = some x)
    (hy : Decimal.read? t = some y) :
    sameLiteral s t = (Binary64.ofDecimal x).numEq (Binary64.ofDecimal y) := by
  unfold sameLiteral
  split
  · next hsame =>
    rw [Bool.and_eq_true] at hsame
    have hxy : x = y := by
      have hread := Decimal.read?_of_sameLetters hsame.1
      rw [hx, hy] at hread
      exact Option.some.inj hread
    rw [hxy, Binary64.numEq_ofDecimal_of_value_eq rfl]
  · rw [sameNumber?, hx, hy]
    rfl

theorem defaultsMatch_of_read? (hx : Decimal.read? a.toList = some x)
    (hy : Decimal.read? b.toList = some y) :
    defaultsMatch (some a) (some b) = (Binary64.ofDecimal x).numEq (Binary64.ofDecimal y) := by
  rw [defaultsMatch, effective?_of_isLiteral (isLiteral_of_read? hx),
    effective?_of_isLiteral (isLiteral_of_read? hy)]
  exact sameLiteral_of_read? hx hy

/-- A number is written as it stands for every type but the one of truth values. -/
theorem writeDefault_of_ne_boolean (d : Dialect) {type : ColumnType} (h : type ≠ .boolean)
    (literal : String) : d.writeDefault type literal = literal := by
  unfold Dialect.writeDefault
  split <;> first | rfl | exact absurd rfl h

variable {d : Dialect} {db : List DatabaseColumn} {model : List ModelColumn} {c : ModelColumn}
  {found : DatabaseColumn}

theorem detects_default_of_literals (hc : c ∈ model) (hfound : columnNamed? db c.name = some found)
    (htype : c.type ≠ .boolean) (hcounts : ¬ EitherCounts found c) (hwanted : c.default? = some a)
    (hreported : found.default? = some b) (hx : Decimal.read? a.toList = some x)
    (hy : Decimal.read? b.toList = some y) :
    Detects d db model c .default ↔
      (Binary64.ofDecimal x).numEq (Binary64.ofDecimal y) = false := by
  have hcapable : d.capabilities.defaults = true := by
    cases d <;> rfl
  have hmatch : defaultsMatch (wantedDefault? d c) (found.default?.map d.readDefault) =
      (Binary64.ofDecimal x).numEq (Binary64.ofDecimal y) := by
    rw [wantedDefault?, hwanted, hreported, Option.map_some, Option.map_some,
      writeDefault_of_ne_boolean d htype, d.readDefault_of_isLiteral (isLiteral_of_read? hx),
      d.readDefault_of_isLiteral (isLiteral_of_read? hy), defaultsMatch_of_read? hx hy]
  rw [detects_iff hc hfound, Differs, hmatch]
  exact ⟨fun h => h.2.2, fun h => ⟨hcapable, hcounts, h⟩⟩

/-- **A change between two numbers is found exactly if they have different floating point numbers.**
None is found where the numbers are the same, however they are written.  One is found wherever two
numbers with floating point numbers of their own lie between them, so that numbers which have such
numbers themselves, as all integers up to the 53rd power of two have, are told apart exactly. -/
theorem detects_default_of_numbers (hc : c ∈ model) (hfound : columnNamed? db c.name = some found)
    (htype : c.type ≠ .boolean) (hcounts : ¬ EitherCounts found c) (hwanted : c.default? = some a)
    (hreported : found.default? = some b) (hx : Decimal.read? a.toList = some x)
    (hy : Decimal.read? b.toList = some y) :
    (Detects d db model c .default ↔
      (Binary64.ofDecimal x).numEq (Binary64.ofDecimal y) = false) ∧
    (x.value = y.value → ¬ Detects d db model c .default) ∧
    (Binary64.Apart x.value y.value ∨ Binary64.Apart y.value x.value →
      Detects d db model c .default) ∧
    (Binary64.IsBinary64 x.value → Binary64.IsBinary64 y.value →
      (Detects d db model c .default ↔ x.value ≠ y.value)) ∧
    ∀ i j : ℤ, |i| ≤ 2 ^ 53 → |j| ≤ 2 ^ 53 → x.value = i → y.value = j →
      (Detects d db model c .default ↔ i ≠ j) := by
  have hliterals : Detects d db model c .default ↔
      (Binary64.ofDecimal x).numEq (Binary64.ofDecimal y) = false :=
    detects_default_of_literals hc hfound htype hcounts hwanted hreported hx hy
  have hsame : x.value = y.value → ¬ Detects d db model c .default := by
    intro hvalue hdetects
    rw [hliterals, Binary64.numEq_ofDecimal_of_value_eq hvalue] at hdetects
    cases hdetects
  have hapart : Binary64.Apart x.value y.value ∨ Binary64.Apart y.value x.value →
      Detects d db model c .default := by
    rintro (h | h)
    · exact hliterals.mpr (Binary64.numEq_ofDecimal_of_apart h)
    · rw [hliterals, Binary64.numEq_comm]
      exact Binary64.numEq_ofDecimal_of_apart h
  have hexact : Binary64.IsBinary64 x.value → Binary64.IsBinary64 y.value →
      (Detects d db model c .default ↔ x.value ≠ y.value) := by
    intro hxOwn hyOwn
    refine ⟨fun hdetects hvalue => hsame hvalue hdetects, fun hne => hapart ?_⟩
    rcases lt_or_gt_of_ne hne with hlt | hgt
    · exact .inl (Binary64.apart_of_lt hxOwn hyOwn hlt)
    · exact .inr (Binary64.apart_of_lt hyOwn hxOwn hgt)
  refine ⟨hliterals, hsame, hapart, hexact, ?_⟩
  intro i j hi hj hxi hyj
  rw [hexact (hxi ▸ Binary64.isBinary64_intCast hi) (hyj ▸ Binary64.isBinary64_intCast hj), hxi,
    hyj]
  exact not_congr Int.cast_inj

/-- Numbers with a point, with an exponent and with zeros before them are compared by what they
write. -/
theorem detects_default_of_numbers_of_sample :
    let compared := fun (wanted reported : String) =>
      let c : ModelColumn := { name := "price", type := .decimal 10 2, default? := some wanted }
      let found : DatabaseColumn :=
        { name := "price", rawType := "decimal(10,2)", default? := some reported }
      Detects .mysql [found] [c] c .default
    ¬ compared "1.50e2" "+00150" ∧ compared "-9007199254740992" "-9007199254740991" := by
  intro compared
  constructor
  · let c : ModelColumn := { name := "price", type := .decimal 10 2, default? := some "1.50e2" }
    let found : DatabaseColumn :=
      { name := "price", rawType := "decimal(10,2)", default? := some "+00150" }
    have hc : c ∈ [c] := List.mem_cons_self
    have hfound : columnNamed? [found] c.name = some found := by decide
    refine (detects_default_of_numbers (x := ⟨false, 150, 0⟩) (y := ⟨false, 150, 0⟩) hc hfound
      (by decide) ?_ rfl rfl (by decide) (by decide)).2.1 rfl
    rintro (h | h) <;> cases h
  · let c : ModelColumn :=
      { name := "price", type := .decimal 10 2, default? := some "-9007199254740992" }
    let found : DatabaseColumn :=
      { name := "price", rawType := "decimal(10,2)", default? := some "-9007199254740991" }
    have hc : c ∈ [c] := List.mem_cons_self
    have hfound : columnNamed? [found] c.name = some found := by decide
    refine ((detects_default_of_numbers (x := ⟨true, 9007199254740992, 0⟩)
      (y := ⟨true, 9007199254740991, 0⟩) hc hfound (by decide) ?_ rfl rfl
      (by decide +kernel) (by decide +kernel)).2.2.2.2 (-9007199254740992) (-9007199254740991)
      (by decide) (by decide) ?_ ?_).mpr (by decide)
    · rintro (h | h) <;> cases h
    · norm_num [Decimal.value, Decimal.magnitude, signed]
    · norm_num [Decimal.value, Decimal.magnitude, signed]

/-- The integer after the 53rd power of two and that power have one floating point number, so that
no dialect finds the change between them. -/
theorem detects_default_of_numbers_missed :
    let wanted := "9007199254740993"
    let reported := "9007199254740992"
    let c : ModelColumn := { name := "serial", type := .bigInt, default? := some wanted }
    (∃ x y, Decimal.read? wanted.toList = some x ∧ Decimal.read? reported.toList = some y ∧
      x.value ≠ y.value) ∧
    ∀ d : Dialect, compareColumns d
      [{ d.stored (d.typeText .bigInt) c with default? := some reported }] [c] = [] := by
  intro wanted reported c
  refine ⟨⟨⟨false, 9007199254740993, 0⟩, ⟨false, 9007199254740992, 0⟩, by decide +kernel,
    by decide +kernel, by norm_num [Decimal.value, Decimal.magnitude, signed]⟩, ?_⟩
  intro d
  cases d <;> decide +kernel

end Comparison

end SchemaKeeper
