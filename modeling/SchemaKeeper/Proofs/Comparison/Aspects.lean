/-
What a comparison finds.

`Differs d db model a` says of two columns that the aspect `a` of the first is not
as the second, a column of the model, wants it.  What a dialect does not report
never differs.

* `mem_differing`: the aspects that are listed for a column are those that differ,
  and each is listed once (`nodup_differing`),
* `mem_compareColumns`: a difference adds a column of the model, modifies one in the
  aspects that differ, or drops a column that the model lacks,
* `detects_iff`: an aspect of a column is found to differ exactly if it does, whatever
  other columns there are,
* `compareColumns_eq_nil_iff`: nothing is reported of a table exactly if it has the
  columns of the model and no others, and no aspect of any differs.
-/
import Mathlib.Data.List.Nodup
import SchemaKeeper.Schema.Comparison

namespace SchemaKeeper

namespace Comparison

variable {d : Dialect} {db : DatabaseColumn} {model : ModelColumn}

/-! ### Aspects that differ -/

/-- The column is a key, or part of one, on both sides. -/
def BothKeys (db : DatabaseColumn) (model : ModelColumn) : Prop :=
  model.primaryKey = true ∧ db.primaryKey = true

/-- One of the columns counts up by itself. -/
def EitherCounts (db : DatabaseColumn) (model : ModelColumn) : Prop :=
  model.autoIncrement = true ∨ db.autoIncrement = true

/-- A size that is reported and is not the wanted one. -/
def OtherThan (wanted : UInt32) (found? : Option UInt32) : Prop :=
  ∃ found, found? = some found ∧ found ≠ wanted

/-- The aspect of a column in a table is not as the model wants it. -/
def Differs (d : Dialect) (db : DatabaseColumn) (model : ModelColumn) : Aspect → Prop
  | .type => d.sameType model.type db.rawType = false
  | .length =>
    d.sameType model.type db.rawType = true ∧ d.capabilities.length = true ∧
      ∃ n, model.type.length? = some n ∧ OtherThan n db.length?
  | .precision =>
    d.sameType model.type db.rawType = true ∧ d.capabilities.precision = true ∧
      ∃ p s, model.type.precision? = some p ∧ model.type.scale? = some s ∧
        (OtherThan p db.precision? ∨ OtherThan s db.scale?)
  | .notNull => ¬ BothKeys db model ∧ model.notNull ≠ db.notNull
  | .unique => ¬ BothKeys db model ∧ model.unique ≠ db.unique
  | .default =>
    d.capabilities.defaults = true ∧ ¬ EitherCounts db model ∧
      defaultsMatch (wantedDefault? d model) (db.default?.map d.readDefault) = false
  | .comment =>
    d.capabilities.comments = true ∧
      model.comment?.filter (· != "") ≠ db.comment?.filter (· != "")

/-- The aspects that a comparison lists for a column. -/
def differing (d : Dialect) (db : DatabaseColumn) (model : ModelColumn) : List Aspect :=
  (findings d db model).map (·.1)

theorem mem_findingIf {b : Bool} {a x : Aspect} {reason : String} :
    a ∈ (findingIf b x reason).map (·.1) ↔ a = x ∧ b = true := by
  cases b <;> simp [findingIf]

theorem any_ne_iff {found? : Option UInt32} {wanted : UInt32} :
    found?.any (· != wanted) = true ↔ OtherThan wanted found? := by
  cases found? <;> simp [OtherThan]

/-! Each group of findings is about aspects of its own. -/

theorem mem_typeFindings {a : Aspect} :
    a ∈ (typeFindings d db model).map (·.1) ↔ a = .type ∧ Differs d db model a := by
  rw [typeFindings, mem_findingIf, Bool.not_eq_true']
  exact and_congr_right fun h => by rw [h, Differs]

theorem mem_lengthFindings {a : Aspect} :
    a ∈ (lengthFindings db model).map (·.1) ↔
      a = .length ∧ ∃ n, model.type.length? = some n ∧ OtherThan n db.length? := by
  unfold lengthFindings
  cases model.type.length? with
  | none => simp
  | some n =>
    cases db.length? with
    | none => simp [OtherThan]
    | some found =>
      rw [mem_findingIf, bne_iff_ne]
      refine and_congr_right fun _ => ⟨fun h => ⟨n, rfl, found, rfl, h.symm⟩, ?_⟩
      rintro ⟨_, ⟨⟩, _, ⟨⟩, h⟩
      exact h.symm

theorem mem_precisionFindings {a : Aspect} :
    a ∈ (precisionFindings db model).map (·.1) ↔
      a = .precision ∧ ∃ p s, model.type.precision? = some p ∧ model.type.scale? = some s ∧
        (OtherThan p db.precision? ∨ OtherThan s db.scale?) := by
  unfold precisionFindings
  cases model.type.precision? with
  | none => simp
  | some p =>
    cases model.type.scale? with
    | none => simp
    | some s =>
      rw [mem_findingIf, Bool.or_eq_true, any_ne_iff, any_ne_iff]
      simp

theorem mem_parameterFindings {a : Aspect} :
    a ∈ (parameterFindings d db model).map (·.1) ↔
      (a = .length ∨ a = .precision) ∧ Differs d db model a := by
  unfold parameterFindings
  by_cases hsame : d.sameType model.type db.rawType
  · rw [if_pos hsame, List.map_append, List.mem_append]
    constructor
    · rintro (h | h)
      · split at h
        · next hcap =>
          obtain ⟨rfl, hother⟩ := mem_lengthFindings.mp h
          exact ⟨.inl rfl, hsame, hcap, hother⟩
        · cases h
      · split at h
        · next hcap =>
          obtain ⟨rfl, hother⟩ := mem_precisionFindings.mp h
          exact ⟨.inr rfl, hsame, hcap, hother⟩
        · cases h
    · rintro ⟨rfl | rfl, -, hcap, hother⟩
      · left
        rw [if_pos hcap]
        exact mem_lengthFindings.mpr ⟨rfl, hother⟩
      · right
        rw [if_pos hcap]
        exact mem_precisionFindings.mpr ⟨rfl, hother⟩
  · -- of another type, neither is compared
    rw [if_neg hsame]
    constructor
    · intro h
      cases h
    · rintro ⟨rfl | rfl, h, -⟩
      · exact absurd h hsame
      · exact absurd h hsame

theorem mem_constraintFindings {a : Aspect} :
    a ∈ (constraintFindings db model).map (·.1) ↔
      (a = .notNull ∨ a = .unique) ∧ Differs d db model a := by
  unfold constraintFindings
  by_cases hkeys : BothKeys db model
  · have hkeys' : (model.primaryKey && db.primaryKey) = true := by
      rwa [Bool.and_eq_true]
    rw [if_pos hkeys']
    constructor
    · intro h
      cases h
    · rintro ⟨rfl | rfl, h, -⟩
      · exact absurd hkeys h
      · exact absurd hkeys h
  · have hkeys' : ¬ (model.primaryKey && db.primaryKey) = true := by
      rwa [Bool.and_eq_true]
    rw [if_neg hkeys', List.map_append, List.mem_append, mem_findingIf, mem_findingIf]
    cases a <;> simp [Differs, hkeys]

theorem mem_defaultFindings {a : Aspect} :
    a ∈ (defaultFindings d db model).map (·.1) ↔ a = .default ∧ Differs d db model a := by
  have hcounts : (model.autoIncrement || db.autoIncrement) = true ↔ EitherCounts db model := by
    rw [Bool.or_eq_true, EitherCounts]
  unfold defaultFindings
  split
  · next h =>
    rw [Bool.and_eq_true, Bool.not_eq_true', ← Bool.not_eq_true, hcounts] at h
    rw [mem_findingIf, Bool.not_eq_true']
    constructor
    · rintro ⟨rfl, hmatch⟩
      exact ⟨rfl, h.1, h.2, hmatch⟩
    · rintro ⟨rfl, -, -, hmatch⟩
      exact ⟨rfl, hmatch⟩
  · next h =>
    rw [Bool.and_eq_true, Bool.not_eq_true', ← Bool.not_eq_true, hcounts] at h
    constructor
    · intro hmem
      cases hmem
    · rintro ⟨rfl, hcap, hneither, -⟩
      exact absurd ⟨hcap, hneither⟩ h

theorem mem_commentFindings {a : Aspect} :
    a ∈ (commentFindings d db model).map (·.1) ↔ a = .comment ∧ Differs d db model a := by
  unfold commentFindings
  split
  · next hcap =>
    rw [mem_findingIf, bne_iff_ne]
    constructor
    · rintro ⟨rfl, h⟩
      exact ⟨rfl, hcap, h⟩
    · rintro ⟨rfl, -, h⟩
      exact ⟨rfl, h⟩
  · next hcap =>
    constructor
    · intro h
      cases h
    · rintro ⟨rfl, h, -⟩
      exact absurd h hcap

/-- The aspects listed are those that differ. -/
theorem mem_differing {a : Aspect} : a ∈ differing d db model ↔ Differs d db model a := by
  unfold differing findings
  simp only [List.map_append, List.mem_append, mem_typeFindings, mem_parameterFindings,
    mem_constraintFindings (d := d), mem_defaultFindings, mem_commentFindings, ← or_and_right]
  constructor
  · exact fun h => h.2
  · intro h
    refine ⟨?_, h⟩
    cases a <;> simp

/-- The aspects in the order in which they are compared. -/
def order : List Aspect :=
  [.type, .length, .precision, .notNull, .unique, .default, .comment]

theorem findingIf_sublist (b : Bool) (a : Aspect) (reason : String) :
    ((findingIf b a reason).map (·.1)).Sublist [a] := by
  cases b <;> simp [findingIf]

theorem lengthFindings_sublist : ((lengthFindings db model).map (·.1)).Sublist [.length] := by
  unfold lengthFindings
  split
  · exact findingIf_sublist ..
  · exact List.nil_sublist _

theorem precisionFindings_sublist :
    ((precisionFindings db model).map (·.1)).Sublist [.precision] := by
  unfold precisionFindings
  split
  · exact findingIf_sublist ..
  · exact List.nil_sublist _

/-- No aspect is listed before another that is compared earlier. -/
theorem differing_sublist : (differing d db model).Sublist order := by
  have hparameters : ((parameterFindings d db model).map (·.1)).Sublist [.length, .precision] := by
    unfold parameterFindings
    split
    · have hlength : ((if d.capabilities.length then lengthFindings db model else []).map
          (·.1)).Sublist [.length] := by
        split
        · exact lengthFindings_sublist
        · exact List.nil_sublist _
      have hprecision : ((if d.capabilities.precision then precisionFindings db model else []).map
          (·.1)).Sublist [.precision] := by
        split
        · exact precisionFindings_sublist
        · exact List.nil_sublist _
      rw [List.map_append]
      exact hlength.append hprecision
    · exact List.nil_sublist _
  have hconstraints : ((constraintFindings db model).map (·.1)).Sublist [.notNull, .unique] := by
    unfold constraintFindings
    split
    · exact List.nil_sublist _
    · rw [List.map_append]
      exact (findingIf_sublist ..).append (findingIf_sublist ..)
  have hdefault : ((defaultFindings d db model).map (·.1)).Sublist [.default] := by
    unfold defaultFindings
    split
    · exact findingIf_sublist ..
    · exact List.nil_sublist _
  have hcomment : ((commentFindings d db model).map (·.1)).Sublist [.comment] := by
    unfold commentFindings
    split
    · exact findingIf_sublist ..
    · exact List.nil_sublist _
  -- the groups stand in the order of the aspects that they are about
  unfold differing findings
  simp only [List.map_append]
  exact ((((findingIf_sublist ..).append hparameters).append hconstraints).append hdefault).append
    hcomment

theorem nodup_differing : (differing d db model).Nodup :=
  differing_sublist.nodup (by decide)

theorem differing_eq_nil : differing d db model = [] ↔ ∀ a, ¬ Differs d db model a := by
  rw [List.eq_nil_iff_forall_not_mem]
  exact forall_congr' fun a => not_congr mem_differing

/-- If one aspect differs and no other does, it is all that is listed. -/
theorem differing_eq_singleton {a : Aspect} (h : ∀ b, Differs d db model b ↔ b = a) :
    differing d db model = [a] := by
  refine List.perm_singleton.mp ((List.perm_ext_iff_of_nodup nodup_differing
    (List.nodup_singleton _)).mpr fun b => ?_)
  rw [mem_differing, h, List.mem_singleton]

/-- A column is modified in the aspects that differ, if there are any. -/
theorem modification?_eq_some {diff : Difference} :
    modification? d db model = some diff ↔
      differing d db model ≠ [] ∧
        diff = .modify db model (differing d db model) ((findings d db model).map (·.2)) := by
  unfold modification? differing
  cases findings d db model with
  | nil => simp
  | cons f fs =>
    rw [Option.some.injEq, eq_comm]
    simp

theorem modification?_eq_none :
    modification? d db model = none ↔ ∀ a, ¬ Differs d db model a := by
  rw [← differing_eq_nil]
  unfold modification? differing
  cases findings d db model with
  | nil => simp
  | cons f fs => simp

/-! ### Columns by name -/

section Lookup

variable {columns : List DatabaseColumn} {name : String}

theorem columnNamed?_eq_none : columnNamed? columns name = none ↔ ∀ c ∈ columns, c.name ≠ name := by
  simp [columnNamed?]

theorem of_columnNamed?_eq_some {c : DatabaseColumn} (h : columnNamed? columns name = some c) :
    c ∈ columns ∧ c.name = name := by
  have hmem := List.mem_filter.mp (List.mem_of_getLast? h)
  exact ⟨hmem.1, beq_iff_eq.mp hmem.2⟩

/-- If no name is repeated, every column is found by its name. -/
theorem columnNamed?_of_mem (hnodup : (columns.map (·.name)).Nodup) {c : DatabaseColumn}
    (hc : c ∈ columns) : columnNamed? columns c.name = some c := by
  cases hfound : columnNamed? columns c.name with
  | none => exact absurd rfl (columnNamed?_eq_none.mp hfound c hc)
  | some c' =>
    obtain ⟨hc', hname⟩ := of_columnNamed?_eq_some hfound
    rw [List.inj_on_of_nodup_map hnodup hc' hc hname]

end Lookup

end Comparison

open Comparison

variable {d : Dialect} {db : List DatabaseColumn} {model : List ModelColumn}

/-! ### All columns -/

/-- Every difference adds a column, modifies one in the aspects that differ, or drops one. -/
theorem mem_compareColumns {diff : Difference} :
    diff ∈ compareColumns d db model ↔
      (∃ m ∈ model, (∀ c ∈ db, c.name ≠ m.name) ∧ diff = .add m) ∨
      (∃ m ∈ model, ∃ c, columnNamed? db m.name = some c ∧ modification? d c m = some diff) ∨
      ∃ c ∈ db, (∀ m ∈ model, m.name ≠ c.name) ∧ diff = .drop c := by
  unfold compareColumns
  rw [List.mem_append, ← or_assoc]
  refine or_congr ?_ ?_
  · rw [List.mem_filterMap]
    constructor
    · rintro ⟨m, hm, hrequired⟩
      unfold required? at hrequired
      split at hrequired
      · next hnone =>
        cases hrequired
        exact .inl ⟨m, hm, columnNamed?_eq_none.mp hnone, rfl⟩
      · next c hc => exact .inr ⟨m, hm, c, hc, hrequired⟩
    · rintro (⟨m, hm, hnone, rfl⟩ | ⟨m, hm, c, hc, hmodify⟩)
      · refine ⟨m, hm, ?_⟩
        rw [required?, columnNamed?_eq_none.mpr hnone]
      · refine ⟨m, hm, ?_⟩
        rw [required?, hc]
        exact hmodify
  · simp only [List.mem_map, List.mem_filter, Bool.not_eq_true', List.any_eq_false, beq_iff_eq,
      and_assoc, eq_comm (a := diff)]

/-- The comparison finds that an aspect of a column of the model differs. -/
def Detects (d : Dialect) (db : List DatabaseColumn) (model : List ModelColumn) (m : ModelColumn)
    (a : Aspect) : Prop :=
  ∃ diff ∈ compareColumns d db model, diff.new? = some m ∧ diff.touches a = true

/-- Whatever other columns there are, an aspect of a column is found to differ exactly if it does. -/
theorem detects_iff {m : ModelColumn} {c : DatabaseColumn} {a : Aspect} (hm : m ∈ model)
    (hfound : columnNamed? db m.name = some c) : Detects d db model m a ↔ Differs d c m a := by
  constructor
  · rintro ⟨diff, hdiff, hnew, htouches⟩
    rcases mem_compareColumns.mp hdiff with
      ⟨m', -, -, rfl⟩ | ⟨m', -, c', hc', hmodify⟩ | ⟨c', -, -, rfl⟩
    · cases htouches
    · obtain ⟨-, rfl⟩ := modification?_eq_some.mp hmodify
      cases hnew
      rw [hfound] at hc'
      cases hc'
      exact mem_differing.mp (by simpa [Difference.touches, Difference.modify] using htouches)
    · cases hnew
  · intro hdiffers
    have hmem : a ∈ differing d c m := mem_differing.mpr hdiffers
    refine ⟨_, mem_compareColumns.mpr (.inr (.inl ⟨m, hm, c, hfound,
      modification?_eq_some.mpr ⟨List.ne_nil_of_mem hmem, rfl⟩⟩)), rfl, ?_⟩
    simpa [Difference.touches, Difference.modify] using hmem

/-- Of a single column nothing but a modification can be asked. -/
theorem compareColumns_singleton {c : DatabaseColumn} {m : ModelColumn} (hname : c.name = m.name) :
    compareColumns d [c] [m] = (modification? d c m).toList := by
  have hfound : columnNamed? [c] m.name = some c := by
    simp [columnNamed?, hname]
  have hrequired : required? d [c] m = modification? d c m := by
    rw [required?, hfound]
  have hunwanted : [c].filter (fun c => !([m].any (·.name == c.name))) = [] := by
    simp [hname]
  rw [compareColumns, hunwanted, List.filterMap_cons, hrequired]
  cases modification? d c m with
  | none => rfl
  | some diff => rfl

/-- A table is as the model wants it exactly if it has the columns of the model and no others, and
no aspect of any differs. -/
theorem compareColumns_eq_nil_iff (hnodup : (db.map (·.name)).Nodup) :
    compareColumns d db model = [] ↔
      (∀ m ∈ model, ∃ c ∈ db, c.name = m.name ∧ ∀ a, ¬ Differs d c m a) ∧
        ∀ c ∈ db, ∃ m ∈ model, m.name = c.name := by
  rw [List.eq_nil_iff_forall_not_mem]
  constructor
  · intro hnil
    constructor
    · intro m hm
      -- were it not there, it would be reported as one to add
      cases hfound : columnNamed? db m.name with
      | none =>
        have hnone := columnNamed?_eq_none.mp hfound
        exact absurd (mem_compareColumns.mpr (.inl ⟨m, hm, hnone, rfl⟩)) (hnil _)
      | some c =>
        obtain ⟨hc, hname⟩ := of_columnNamed?_eq_some hfound
        refine ⟨c, hc, hname, modification?_eq_none.mp ?_⟩
        refine Option.eq_none_iff_forall_ne_some.mpr fun diff hmodify => ?_
        exact hnil diff (mem_compareColumns.mpr (.inr (.inl ⟨m, hm, c, hfound, hmodify⟩)))
    · intro c hc
      by_contra hnone
      have hlacks : ∀ m ∈ model, m.name ≠ c.name := fun m hm heq => hnone ⟨m, hm, heq⟩
      exact hnil _ (mem_compareColumns.mpr (.inr (.inr ⟨c, hc, hlacks, rfl⟩)))
  · rintro ⟨hthere, hwanted⟩ diff hdiff
    rcases mem_compareColumns.mp hdiff with
      ⟨m, hm, hnone, -⟩ | ⟨m, hm, c, hc, hmodify⟩ | ⟨c, hc, hnone, -⟩
    · obtain ⟨c, hc, hname, -⟩ := hthere m hm
      exact hnone c hc hname
    · obtain ⟨c', hc', hname, hsame⟩ := hthere m hm
      rw [← hname, columnNamed?_of_mem hnodup hc'] at hc
      cases hc
      rw [modification?_eq_none.mpr hsame] at hmodify
      cases hmodify
    · obtain ⟨m, hm, hname⟩ := hwanted c hc
      exact hnone m hm hname

end SchemaKeeper
