/-
Text defaults without quotes.

MySQL reports the default of a text column without the quotes that it was written with,
so what is reported may be taken for something else than a text.  `ReadsAsText` are the
texts for which it is not.

* `readMysqlDefault_eq_enclose`: a reported text is read as the literal of the text
  exactly if it reads as text,
* `defaultsMatch_literal`: the literal of a text sets the same value as itself alone,
* `compareColumns_reportedBare`: so a column whose default is a literal is as its model
  wants it exactly if the text reads as text, and every other one is modified again and
  again,
* `compareColumns_reportedBare_ne_nil`: a number, a word, a text in quotes and one with
  blanks around it do not read as text.
-/
import SchemaKeeper.Proofs.Comparison.Stored
import SchemaKeeper.Proofs.Dialect.ReportedDefaults
import SchemaKeeper.Proofs.Schema.Plan

namespace SchemaKeeper

open Text Number Comparison

namespace Dialect

/-! ### Reported texts -/

/-- The words of a reported default that MySQL has for values of SQL, in lower case. -/
def mysqlWords : List String :=
  ["current_timestamp", "current_timestamp()", "now()", "null"]

theorem mysqlKeyword?_eq_none {word : String} : mysqlKeyword? word = none ↔ word ∉ mysqlWords := by
  constructor
  · rintro h hmem
    simp only [mysqlWords, List.mem_cons, List.not_mem_nil, or_false] at hmem
    rcases hmem with rfl | rfl | rfl | rfl <;> cases h
  · intro h
    simp only [mysqlWords, List.mem_cons, List.not_mem_nil, or_false, not_or] at h
    unfold mysqlKeyword?
    split <;> simp_all

theorem mysqlKeyword?_cases {word keyword : String} (h : mysqlKeyword? word = some keyword) :
    keyword = "CURRENT_TIMESTAMP" ∨ keyword = "NULL" := by
  unfold mysqlKeyword? at h
  split at h <;> simp_all

/-- A text that is taken for a text when it is reported without its quotes. -/
structure ReadsAsText (s : List Char) : Prop where
  /-- No blanks are cut off at its ends. -/
  blanks : trim s = s
  word : String.ofList (lower s) ∉ mysqlWords
  number : Decimal.isLiteral s = false
  /-- It does not look as if it had kept its quotes. -/
  quotes : ¬ ∃ inside, s = '\'' :: (inside ++ ['\''])

/-- A reported text is read as the literal of the text exactly if it reads as text. -/
theorem readMysqlDefault_eq_enclose {s : List Char} :
    readMysqlDefault s = enclose '\'' s ↔ ReadsAsText s := by
  constructor
  · intro h
    unfold readMysqlDefault at h
    dsimp only at h
    split at h
    · next keyword hkeyword =>
      -- no word starts with a quote
      rcases mysqlKeyword?_cases hkeyword with rfl | rfl <;> simp [enclose] at h
    · next hword =>
      split at h
      · -- what is left as it is would have to be longer than the text
        have hlonger := length_lt_length_enclose '\'' s
        rw [← h] at hlonger
        exact absurd hlonger (Nat.not_lt.mpr (length_trim_le s))
      · next hother =>
        have htrim : trim s = s := enclose_inj.mp h
        rw [htrim, Bool.or_eq_true, not_or, Bool.not_eq_true, Option.not_isSome_iff_eq_none] at hother
        rw [htrim] at hword
        exact ⟨htrim, mysqlKeyword?_eq_none.mp hword, hother.1, inner?_eq_none.mp hother.2⟩
  · rintro ⟨hblanks, hword, hnumber, hquotes⟩
    rw [readMysqlDefault, hblanks, mysqlKeyword?_eq_none.mpr hword]
    simp [hnumber, inner?_eq_none.mpr hquotes]

/-- The literal of a text is read as it is. -/
theorem readDefault_mysql_literal (s : String) : mysql.readDefault (literal s) = literal s := by
  have htrim : trim (enclose '\'' s.toList) = enclose '\'' s.toList :=
    trim_of_isAtom (.inr ⟨_, rfl⟩)
  have hword : mysqlKeyword? (String.ofList (lower (enclose '\'' s.toList))) = none := by
    refine mysqlKeyword?_eq_none.mpr fun hmem => ?_
    have hstart : ∀ word ∈ mysqlWords, word.toList.head? ≠ some '\'' := by decide
    refine hstart _ hmem ?_
    rw [String.toList_ofList]
    rfl
  rw [readDefault, literal, toList_quoted]
  simp [readMysqlDefault, htrim, hword, inner?_enclose, quoted]

end Dialect

namespace Comparison

open Dialect

/-! ### Defaults that are texts -/

/-- A text in quotes sets the same value as itself alone. -/
theorem sameLiteral_quote (r b : List Char) : sameLiteral ('\'' :: r) b = ('\'' :: r == b) := by
  simp [sameLiteral, sameNumber?, read?_quote]

/-- NULL does not start with a quote. -/
theorem effective?_quote (r : List Char) :
    effective? (some (String.ofList ('\'' :: r))) = some (String.ofList ('\'' :: r)) := by
  have hnull : sameName (String.ofList ('\'' :: r)) "NULL" = false := by
    simp [sameName, sameLetters, lower]
  rw [effective?, Option.filter_some, hnull]
  rfl

theorem defaultsMatch_literal {s found : String} :
    defaultsMatch (some (literal s)) (some found) = true ↔ found = literal s := by
  have heffective : effective? (some (literal s)) = some (literal s) := effective?_quote _
  constructor
  · unfold defaultsMatch
    rw [heffective]
    intro h
    split at h
    · next hnone _ => cases hnone
    · next a b ha hb =>
      cases ha
      obtain rfl : found = b := Option.some.inj (Option.eq_some_of_filter_eq_some hb)
      rw [literal, toList_quoted, enclose, sameLiteral_quote, beq_iff_eq] at h
      rw [literal, quoted, enclose, h, String.ofList_toList]
    · cases h
  · rintro rfl
    exact defaultsMatch_refl _

variable {c : ModelColumn} {db : DatabaseColumn} {s : String}

/-- The default differs exactly if the text does not read as text; of a column that counts up it is
not compared. -/
theorem differs_default_iff (hdefault : c.default? = some (literal s))
    (hreported : db.default? = some s) :
    Differs .mysql db c .default ↔ ¬ EitherCounts db c ∧ ¬ ReadsAsText s.toList := by
  have hwanted : wantedDefault? .mysql c = some (literal s) := by
    rw [wantedDefault?, hdefault, Option.map_some]
    exact congrArg some (readDefault_mysql_literal s)
  have hread : mysql.readDefault s = literal s ↔ ReadsAsText s.toList := by
    rw [readDefault, literal, quoted, String.ofList_inj]
    exact readMysqlDefault_eq_enclose
  rw [← hread, ← defaultsMatch_literal, Bool.not_eq_true, ← hwanted, Differs, hreported,
    Option.map_some]
  exact and_iff_right rfl

end Comparison

namespace Dialect

variable {c : ModelColumn} {db : DatabaseColumn} {s : String}

/-- **A text default that MySQL reports without its quotes is the wanted one exactly if the text
reads as text.**  If it does not, the column is found to differ in its default alone, and the
statement that defines the column anew does not change what will be reported. -/
theorem compareColumns_reportedBare (table : String) (hname : db.name = c.name)
    (hdefault : c.default? = some (literal s)) (hreported : db.default? = some s)
    (hrest : ∀ a, a ≠ .default → ¬ Differs .mysql db c a) :
    (compareColumns .mysql [db] [c] = [] ↔ EitherCounts db c ∨ ReadsAsText s.toList) ∧
    (compareColumns .mysql [db] [c] ≠ [] →
      (∃ reasons, compareColumns .mysql [db] [c] = [.modify db c [.default] reasons]) ∧
      alterStatements .mysql table (compareColumns .mysql [db] [c]) =
        .ok [alterTable .mysql table ("MODIFY COLUMN " ++ mysqlDefinition c false)]) := by
  rw [compareColumns_singleton hname, ← not_not (a := EitherCounts db c ∨ _), not_or,
    ← differs_default_iff hdefault hreported]
  by_cases hdiffers : Differs .mysql db c .default
  · have hlisted : differing .mysql db c = [.default] := by
      refine differing_eq_singleton fun a => ⟨fun ha => ?_, fun ha => ha ▸ hdiffers⟩
      by_contra hother
      exact hrest a hother ha
    let reasons := (findings .mysql db c).map (·.2)
    have hmodify : modification? .mysql db c = some (.modify db c [.default] reasons) :=
      modification?_eq_some.mpr ⟨by simp [hlisted], by rw [hlisted]⟩
    have hclause : mysql.alteration table (.modify db c [.default] reasons) =
        { clauses := ["MODIFY COLUMN " ++ mysqlDefinition c false] } := rfl
    rw [hmodify, Option.toList_some]
    exact ⟨iff_of_false (List.cons_ne_nil _ _) (not_not.mpr hdiffers),
      fun _ => ⟨⟨reasons, rfl⟩, alterStatements_of_clause hclause⟩⟩
  · have hsame : modification? .mysql db c = none := by
      refine modification?_eq_none.mpr fun a ha => ?_
      by_cases hother : a = .default
      · exact hdiffers (hother ▸ ha)
      · exact hrest a hother ha
    rw [hsame]
    exact ⟨iff_of_true rfl hdiffers, fun h => absurd rfl h⟩

/-- A default with a quote and a colon reads as text, though it has letters of a number in it. -/
theorem compareColumns_reportedBare_of_sample :
    let c : ModelColumn :=
      { name := "note", type := .varchar 20, notNull := true, default? := some (literal "1e: it's") }
    let db : DatabaseColumn := { mysql.stored "varchar(20)" c with default? := some "1e: it's" }
    db.name = c.name ∧ c.default? = some (literal "1e: it's") ∧ db.default? = some "1e: it's" ∧
      (∀ a, a ≠ .default → ¬ Differs .mysql db c a) ∧ compareColumns .mysql [db] [c] = [] := by
  intro c db
  have hrest : ∀ a, a ≠ .default → ¬ Differs .mysql db c a := by
    intro a ha hdiffers
    have hsame : ¬ Differs .mysql (mysql.stored "varchar(20)" c) c a :=
      not_differs_stored (by decide +kernel) a
    cases a with
    | default => exact ha rfl
    | _ => exact hsame hdiffers
  have hreads : ReadsAsText "1e: it's".toList := readMysqlDefault_eq_enclose.mp (by decide +kernel)
  exact ⟨rfl, rfl, rfl, hrest,
    (compareColumns_reportedBare "notes" rfl rfl rfl hrest).1.mpr (.inr hreads)⟩

/-- A number, a word, a text in quotes and a text with a blank before it are taken for something
else, so that a column with such a default is modified although the default is the wanted one. -/
theorem compareColumns_reportedBare_ne_nil :
    let compared := fun text : String =>
      let c : ModelColumn :=
        { name := "code", type := .varchar 10, default? := some (literal text) }
      compareColumns .mysql [{ mysql.stored "varchar(10)" c with default? := some text }] [c]
    (compared "A1").map (·.changes) = [] ∧ (compared "0").map (·.changes) = [[.default]] ∧
      (compared "null").map (·.changes) = [[.default]] ∧
      (compared "'A1'").map (·.changes) = [[.default]] ∧
      (compared " A1").map (·.changes) = [[.default]] ∧
      alterStatements .mysql "items" (compared "0") =
        .ok ["ALTER TABLE \x60items\x60 MODIFY COLUMN \x60code\x60 VARCHAR(10) DEFAULT '0'"] := by
  decide +kernel

end Dialect

end SchemaKeeper
