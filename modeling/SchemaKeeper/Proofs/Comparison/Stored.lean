/-
Columns that are as the model wants them.

`Dialect.stored` is the column that a table has once the model has been carried out
for it: all is as in the model, and the default is the one that the dialect writes.
Only the text of the type is left open, because a dialect has several for one type.

* `defaultsMatch_refl`: a default sets the same value as itself, however it is read,
* `not_differs_stored`: no aspect of such a column differs from the model, if the
  text of its type is one for the type that the model wants.
-/
import SchemaKeeper.Proofs.Comparison.Aspects

namespace SchemaKeeper

namespace Comparison

/-! ### Defaults -/

/-- A text that starts with a quote is no number. -/
theorem read?_quote (r : List Char) : Number.Decimal.read? ('\'' :: r) = none := rfl

theorem sameLiteral_refl (s : List Char) : sameLiteral s s = true := by
  unfold sameLiteral
  rw [Text.sameLetters_refl]
  by_cases hquote : s.head? = some '\''
  · -- a text between quotes is compared as it is, but only if it is no number
    obtain ⟨r, rfl⟩ := List.head?_eq_some_iff.mp hquote
    simp [sameNumber?, read?_quote]
  · simp [hquote]

theorem defaultsMatch_refl (literal? : Option String) : defaultsMatch literal? literal? = true := by
  unfold defaultsMatch
  cases effective? literal? with
  | none => rfl
  | some s => exact sameLiteral_refl s.toList

end Comparison

open Comparison

namespace Dialect

/-- SQLite writes one of five words. -/
theorem baseName_sqliteTypeText (t : ColumnType) :
    TypeText.baseName (sqliteTypeText t) = sqliteTypeText t := by
  have hwords : ∀ word ∈ ["INTEGER", "REAL", "NUMERIC", "TEXT", "BLOB"],
      TypeText.baseName word = word := by
    decide
  refine hwords _ ?_
  cases t <;> simp [sqliteTypeText]

/-- The text that a dialect writes for a type is one for that type. -/
theorem sameType_typeText (d : Dialect) (t : ColumnType) : d.sameType t (d.typeText t) = true := by
  cases d with
  | sqlite => simp [sameType, typeText, baseName_sqliteTypeText]
  | postgres => simp [sameType]
  | mysql => simp [sameType]

/-- The default that a dialect writes for a column. -/
def writtenDefault? (d : Dialect) (c : ModelColumn) : Option String :=
  c.default?.map (d.writeDefault c.type)

theorem wantedDefault?_eq (d : Dialect) (c : ModelColumn) :
    wantedDefault? d c = (d.writtenDefault? c).map d.readDefault := by
  rw [wantedDefault?, writtenDefault?, Option.map_map]
  rfl

/-- The column of a table that is as the model wants it, with the given text for its type. -/
def stored (d : Dialect) (rawType : String) (c : ModelColumn) : DatabaseColumn where
  name := c.name
  rawType := rawType
  length? := c.type.length?
  precision? := c.type.precision?
  scale? := c.type.scale?
  notNull := c.notNull
  primaryKey := c.primaryKey
  autoIncrement := c.autoIncrement
  unique := c.unique
  default? := d.writtenDefault? c
  comment? := c.comment?

variable {d : Dialect} {rawType : String} {c : ModelColumn}

@[simp] theorem stored_name : (d.stored rawType c).name = c.name := rfl

/-- Whether the type differs hangs on its text alone, and no other aspect of the column does. -/
theorem differs_stored {a : Aspect} :
    Differs d (d.stored rawType c) c a ↔ a = .type ∧ d.sameType c.type rawType = false := by
  cases a with
  | type => exact (and_iff_right rfl).symm
  | length =>
    refine iff_of_false ?_ (by simp)
    rintro ⟨-, -, n, hn, found, hfound, hne⟩
    exact hne (Option.some.inj (hfound.symm.trans hn))
  | precision =>
    refine iff_of_false ?_ (by simp)
    rintro ⟨-, -, p, s, hp, hs, ⟨found, hfound, hne⟩ | ⟨found, hfound, hne⟩⟩
    · exact hne (Option.some.inj (hfound.symm.trans hp))
    · exact hne (Option.some.inj (hfound.symm.trans hs))
  | notNull => exact iff_of_false (fun h => h.2 rfl) (by simp)
  | unique => exact iff_of_false (fun h => h.2 rfl) (by simp)
  | default =>
    refine iff_of_false ?_ (by simp)
    rintro ⟨-, -, hmatch⟩
    rw [wantedDefault?_eq] at hmatch
    exact Bool.false_ne_true (hmatch.symm.trans (defaultsMatch_refl _))
  | comment => exact iff_of_false (fun h => h.2 rfl) (by simp)

theorem not_differs_stored (h : d.sameType c.type rawType = true) (a : Aspect) :
    ¬ Differs d (d.stored rawType c) c a := by
  rw [differs_stored, h]
  simp

end Dialect

end SchemaKeeper
