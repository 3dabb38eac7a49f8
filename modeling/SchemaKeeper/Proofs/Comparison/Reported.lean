/-
Columns that a catalog reports as their models have them.

`Dialect.Agrees` allows for what catalogs do: a type may be spelled in any way that the
dialect takes for the wanted one, a size may be missing, and what is said of a key does
not count for NOT NULL and for uniqueness.

* `ReportsDefault` are the ways in which a default may be reported, and all of them set
  the wanted value (`defaultsMatch_of_reportsDefault`),
* `not_differs_of_agrees`: no aspect of a column that agrees with its model differs,
* `compareColumns_eq_nil_of_agrees`: so nothing is reported of a table whose columns
  agree, one by one and in any order, with those of its model.
-/
import Mathlib.Data.List.Perm.Basic
import SchemaKeeper.Proofs.Comparison.Stored
import SchemaKeeper.Proofs.Dialect.ReportedDefaults
import SchemaKeeper.Proofs.Lists

namespace SchemaKeeper

open Comparison

namespace Dialect

/-- What a catalog says of the default of a column.  It is what the dialect writes; PostgreSQL may
put a cast after a default that a tag gives. -/
inductive ReportsDefault (d : Dialect) (c : ModelColumn) : Option String → Prop
  | written : ReportsDefault d c (d.writtenDefault? c)
  | cast {value type : String} (postgres : d = .postgres)
      (given : c.default? = some (normalizeDefault value)) :
      ReportsDefault d c
        (some (d.writeDefault c.type (normalizeDefault value) ++ "::" ++ type))

/-- A size that is not reported, or is the wanted one. -/
def IsSize (wanted : UInt32) (found? : Option UInt32) : Prop :=
  found? = none ∨ found? = some wanted

/-- A column of a table is as a column of the model, as far as a catalog shows it. -/
structure Agrees (d : Dialect) (db : DatabaseColumn) (c : ModelColumn) : Prop where
  name : db.name = c.name
  type : d.sameType c.type db.rawType = true
  length : ∀ n, c.type.length? = some n → d.capabilities.length = true → IsSize n db.length?
  precision : ∀ n, c.type.precision? = some n → d.capabilities.precision = true →
    IsSize n db.precision?
  scale : ∀ n, c.type.scale? = some n → d.capabilities.precision = true → IsSize n db.scale?
  primaryKey : db.primaryKey = c.primaryKey
  notNull : c.primaryKey = false → db.notNull = c.notNull
  unique : c.primaryKey = false → db.unique = c.unique
  default : c.autoIncrement = false → d.ReportsDefault c db.default?
  comment : d.capabilities.comments = true → db.comment?.getD "" = c.comment?.getD ""

variable {d : Dialect} {db : DatabaseColumn} {c : ModelColumn}

theorem IsSize.not_otherThan {wanted : UInt32} {found? : Option UInt32}
    (h : IsSize wanted found?) : ¬ OtherThan wanted found? := by
  rintro ⟨found, hfound, hne⟩
  rcases h with h | h <;> rw [h] at hfound
  · cases hfound
  · exact hne (Option.some.inj hfound).symm

/-- However a default is reported, it sets the value that the model wants. -/
theorem defaultsMatch_of_reportsDefault {found? : Option String} (h : d.ReportsDefault c found?) :
    defaultsMatch (wantedDefault? d c) (found?.map d.readDefault) = true := by
  rw [wantedDefault?_eq]
  cases h with
  | written => exact defaultsMatch_refl _
  | @cast value type postgres given =>
    subst postgres
    rw [writtenDefault?, given, Option.map_some, Option.map_some, Option.map_some,
      readDefault_cast]
    exact defaultsMatch_refl _

/-- No comment is the same as an empty one. -/
theorem filter_eq_of_getD_eq {a b : Option String} (h : a.getD "" = b.getD "") :
    a.filter (· != "") = b.filter (· != "") := by
  have hgetD : ∀ x : Option String,
      x.filter (· != "") = if x.getD "" = "" then none else some (x.getD "") := by
    intro x
    cases x with
    | none => simp
    | some text => by_cases htext : text = "" <;> simp [htext]
  rw [hgetD, hgetD, h]

/-- A column that agrees with its model does not differ from it. -/
theorem not_differs_of_agrees (h : d.Agrees db c) (a : Aspect) : ¬ Differs d db c a := by
  have hkeys : ¬ BothKeys db c → c.primaryKey = false := by
    intro hnot
    by_contra hkey
    rw [Bool.not_eq_false] at hkey
    exact hnot ⟨hkey, by rw [h.primaryKey, hkey]⟩
  cases a with
  | type =>
    rintro hdiffers
    exact Bool.false_ne_true (hdiffers.symm.trans h.type)
  | length =>
    rintro ⟨-, hcap, n, hn, hother⟩
    exact (h.length n hn hcap).not_otherThan hother
  | precision =>
    rintro ⟨-, hcap, p, s, hp, hs, hother | hother⟩
    · exact (h.precision p hp hcap).not_otherThan hother
    · exact (h.scale s hs hcap).not_otherThan hother
  | notNull =>
    rintro ⟨hnot, hne⟩
    exact hne (h.notNull (hkeys hnot)).symm
  | unique =>
    rintro ⟨hnot, hne⟩
    exact hne (h.unique (hkeys hnot)).symm
  | default =>
    rintro ⟨-, hcounts, hmatch⟩
    have hfixed : c.autoIncrement = false := by
      by_contra hcount
      exact hcounts (.inl (by simpa using hcount))
    rw [defaultsMatch_of_reportsDefault (h.default hfixed)] at hmatch
    cases hmatch
  | comment =>
    rintro ⟨hcap, hne⟩
    exact hne (filter_eq_of_getD_eq (h.comment hcap)).symm

end Dialect

theorem map_name_eq_of_agrees {d : Dialect} {db : List DatabaseColumn} {listed : List ModelColumn}
    (h : List.Forall₂ d.Agrees db listed) : db.map (·.name) = listed.map (·.name) :=
  map_eq_of_forall₂ h fun _ _ h => h.name

/-- Nothing is reported of a table whose columns agree with those of its model. -/
theorem compareColumns_eq_nil_of_agrees {d : Dialect} {db : List DatabaseColumn}
    {model listed : List ModelColumn} (hnodup : (model.map (·.name)).Nodup)
    (hperm : listed.Perm model) (hagree : List.Forall₂ d.Agrees db listed) :
    compareColumns d db model = [] := by
  have hdb : (db.map (·.name)).Nodup := by
    rw [map_name_eq_of_agrees hagree]
    exact (hperm.map _).nodup_iff.mpr hnodup
  refine (compareColumns_eq_nil_iff hdb).mpr ⟨fun m hm => ?_, fun c hc => ?_⟩
  · obtain ⟨c, hc, h⟩ := exists_of_forall₂ hagree (hperm.mem_iff.mpr hm)
    exact ⟨c, hc, h.name, Dialect.not_differs_of_agrees h⟩
  · obtain ⟨m, hm, h⟩ := exists_of_forall₂ hagree.flip hc
    exact ⟨m, hperm.mem_iff.mp hm, h.name.symm⟩

end SchemaKeeper
