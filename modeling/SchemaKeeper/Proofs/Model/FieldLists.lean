/-
The columns of a list of fields.

Of several fields for one column name the first wins, so a field depends on all fields
before it, but only through the names of their columns.

* `firstOfName_congr`, `firstOfName_filter`: of the names that are taken it matters which
  they are, and to take more of them is to leave their columns out afterwards,
* `firstOfName_append`: what is kept of two lists, one after the other,
* `mem_names_columnsOf`: a name is that of a column exactly if some field gives it,
* `columnsOf_laws`: the columns of two lists of fields, the order of the columns, which
  field each of them comes from, and which fields are passed over.
-/
import Mathlib.Data.List.Basic
import Mathlib.Data.List.Induction
import SchemaKeeper.Model.Field

namespace SchemaKeeper

/-! ### Names that are taken -/

section Taken

variable {taken taken' : List String} {cs : List ModelColumn} {name : String}

/-- Which names are taken matters, not how they are listed. -/
theorem firstOfName_congr (h : ∀ n, n ∈ taken ↔ n ∈ taken') (cs : List ModelColumn) :
    firstOfName taken cs = firstOfName taken' cs := by
  induction cs generalizing taken taken' with
  | nil => rfl
  | cons c r ih =>
    have hnext : ∀ n, n ∈ c.name :: taken ↔ n ∈ c.name :: taken' := by
      intro n
      rw [List.mem_cons, List.mem_cons, h]
    rw [firstOfName, firstOfName, ih h, ih hnext]
    simp only [h]

/-- To take more names is to leave out their columns. -/
theorem firstOfName_filter (taken' taken : List String) (cs : List ModelColumn) :
    firstOfName (taken' ++ taken) cs =
      (firstOfName taken cs).filter fun c => c.name ∉ taken' := by
  induction cs generalizing taken with
  | nil => rfl
  | cons c r ih =>
    by_cases htaken : c.name ∈ taken
    · rw [firstOfName, firstOfName, if_pos (List.mem_append_right _ htaken), if_pos htaken, ih]
    · have hnext := ih (c.name :: taken)
      rw [firstOfName, firstOfName, if_neg htaken]
      by_cases htaken' : c.name ∈ taken'
      · rw [if_pos (List.mem_append_left _ htaken'), List.filter_cons_of_neg (by simpa using htaken'),
          ← hnext]
        refine firstOfName_congr (fun n => ?_) r
        simp only [List.mem_append, List.mem_cons]
        constructor
        · exact fun h => h.imp_right .inr
        · rintro (h | rfl | h)
          · exact .inl h
          · exact .inl htaken'
          · exact .inr h
      · rw [if_neg (by simp [htaken, htaken']), List.filter_cons_of_pos (by simpa using htaken'),
          ← hnext]
        refine congrArg (c :: ·) (firstOfName_congr (fun n => ?_) r)
        simp only [List.mem_append, List.mem_cons, or_left_comm]

/-- What is kept of a list takes its names from the list after it. -/
theorem firstOfName_append (taken : List String) (cs ds : List ModelColumn) :
    firstOfName taken (cs ++ ds) = firstOfName taken cs ++
      (firstOfName taken ds).filter fun d =>
        d.name ∉ (firstOfName taken cs).map ModelColumn.name := by
  rw [← firstOfName_filter]
  induction cs generalizing taken with
  | nil => rfl
  | cons c r ih =>
    rw [List.cons_append, firstOfName, firstOfName]
    by_cases htaken : c.name ∈ taken
    · rw [if_pos htaken, if_pos htaken, ih]
    · rw [if_neg htaken, if_neg htaken, ih, List.cons_append, List.map_cons]
      refine congrArg (fun l => c :: (firstOfName (c.name :: taken) r ++ l))
        (firstOfName_congr (fun n => ?_) ds)
      simp only [List.mem_append, List.mem_cons, or_left_comm, or_assoc]

theorem mem_names_firstOfName :
    name ∈ (firstOfName taken cs).map ModelColumn.name ↔
      name ∉ taken ∧ name ∈ cs.map ModelColumn.name := by
  induction cs generalizing taken with
  | nil => simp [firstOfName]
  | cons c r ih =>
    rw [firstOfName, List.map_cons, List.mem_cons]
    by_cases htaken : c.name ∈ taken
    · rw [if_pos htaken, ih]
      refine and_congr_right fun hname => ⟨.inr, ?_⟩
      rintro (rfl | h)
      · exact absurd htaken hname
      · exact h
    · rw [if_neg htaken, List.map_cons, List.mem_cons, ih, List.mem_cons, not_or]
      by_cases hname : name = c.name
      · subst hname
        simp [htaken]
      · simp [hname]

end Taken

/-! ### One field after the other -/

namespace Field

/-- Whether a field becomes a column: it is not embedded, and its tag or an attribute says something
known. -/
def isColumn (f : Field) : Bool :=
  !f.embedded && f.settings.recognized

/-- Whether a field gives a column of this name. -/
def gives (name : String) (f : Field) : Bool :=
  (columnsOf [f]).any (·.name == name)

theorem columnsOf_self (f : Field) : columnsOf [f] = f.ownColumn?.toList := by
  rw [columnsOf, List.filterMap_cons, List.filterMap_nil]
  cases f.ownColumn? with
  | none => rfl
  | some c => rfl

theorem gives_iff {f : Field} {name : String} :
    f.gives name = true ↔ ∃ c, columnsOf [f] = [c] ∧ c.name = name := by
  rw [gives, columnsOf_self]
  cases f.ownColumn? with
  | none => simp
  | some c => simp

/-- A field that is passed over gives no column, and any other gives one. -/
theorem isSome_ownColumn? (f : Field) : f.ownColumn?.isSome = f.isColumn := by
  rw [ownColumn?, column?, isColumn]
  cases f.embedded <;> cases f.settings.recognized <;> rfl

end Field

/-- The place of the first field that gives a column of this name. -/
def placeOf (fields : List Field) (name : String) : Nat :=
  fields.findIdx (Field.gives name)

section Fields

variable {fields : List Field} {name : String}

theorem columnsOf_append (xs ys : List Field) :
    columnsOf (xs ++ ys) = columnsOf xs ++
      (columnsOf ys).filter fun c => c.name ∉ (columnsOf xs).map ModelColumn.name := by
  rw [columnsOf, List.filterMap_append, firstOfName_append]
  rfl

/-- A name is that of a column exactly if some field gives it. -/
theorem mem_names_columnsOf :
    name ∈ (columnsOf fields).map ModelColumn.name ↔ placeOf fields name < fields.length := by
  have hgives : ∀ f : Field, f.gives name = true ↔ ∃ c, f.ownColumn? = some c ∧ c.name = name := by
    intro f
    rw [Field.gives_iff, Field.columnsOf_self]
    simp only [Option.toList_eq_singleton_iff]
  rw [columnsOf, mem_names_firstOfName, placeOf, List.findIdx_lt_length]
  simp only [List.not_mem_nil, not_false_eq_true, true_and, List.mem_map, List.mem_filterMap, hgives]
  constructor
  · rintro ⟨c, ⟨f, hf, hc⟩, rfl⟩
    exact ⟨f, hf, c, hc, rfl⟩
  · rintro ⟨f, hf, c, hc, rfl⟩
    exact ⟨c, ⟨f, hf, hc⟩, rfl⟩

/-- A field at the end gives its column, if the name is not taken. -/
theorem columnsOf_concat (fields : List Field) (f : Field) :
    columnsOf (fields ++ [f]) = columnsOf fields ++
      (columnsOf [f]).filter fun c => c.name ∉ (columnsOf fields).map ModelColumn.name :=
  columnsOf_append fields [f]

theorem placeOf_concat_of_lt {f : Field} (h : placeOf fields name < fields.length) :
    placeOf (fields ++ [f]) name = placeOf fields name := by
  rw [placeOf, List.findIdx_append]
  exact if_pos h

theorem placeOf_concat {f : Field} (h : ¬ placeOf fields name < fields.length) :
    placeOf (fields ++ [f]) name =
      if f.gives name = true then fields.length else fields.length + 1 := by
  rw [placeOf] at h
  rw [placeOf, List.findIdx_append, if_neg h, List.findIdx_cons]
  cases f.gives name with
  | true => exact Nat.zero_add _
  | false => exact Nat.add_comm _ _

/-- Each column is that of the first field that gives its name. -/
theorem mem_columnsOf {c : ModelColumn} :
    c ∈ columnsOf fields ↔ ∃ f, fields[placeOf fields c.name]? = some f ∧ columnsOf [f] = [c] := by
  -- from the end of the list: the last field counts if the name is not taken before
  induction fields using List.reverseRecOn with
  | nil => simp [columnsOf, firstOfName]
  | append_singleton fields f ih =>
    rw [columnsOf_concat, List.mem_append, List.mem_filter, decide_eq_true_iff, mem_names_columnsOf]
    by_cases hplace : placeOf fields c.name < fields.length
    · rw [placeOf_concat_of_lt hplace, List.getElem?_append_left hplace, ← ih]
      exact or_iff_left fun h => h.2 hplace
    · have hnew : c ∉ columnsOf fields :=
        fun hc => hplace (mem_names_columnsOf.mp (List.mem_map_of_mem hc))
      have hself : c ∈ columnsOf [f] ↔ columnsOf [f] = [c] := by
        rw [Field.columnsOf_self]
        cases f.ownColumn? <;> simp [eq_comm]
      rw [placeOf_concat hplace, hself, or_iff_right hnew, and_iff_left hplace]
      split
      · simp
      · next hgives =>
        have hnone : columnsOf [f] ≠ [c] := fun h => hgives (Field.gives_iff.mpr ⟨c, h, rfl⟩)
        simp [hnone]

/-- The columns come in the order of the fields that give them. -/
theorem pairwise_placeOf (fields : List Field) :
    (columnsOf fields).Pairwise fun c d => placeOf fields c.name < placeOf fields d.name := by
  induction fields using List.reverseRecOn with
  | nil => exact .nil
  | append_singleton fields f ih =>
    have hold : ∀ c ∈ columnsOf fields, placeOf fields c.name < fields.length :=
      fun c hc => mem_names_columnsOf.mp (List.mem_map_of_mem hc)
    rw [columnsOf_concat, List.pairwise_append]
    refine ⟨ih.imp_of_mem fun hc hd h => ?_, ?_, fun c hc d hd => ?_⟩
    · rwa [placeOf_concat_of_lt (hold _ hc), placeOf_concat_of_lt (hold _ hd)]
    · rw [Field.columnsOf_self]
      cases f.ownColumn? with
      | none => exact .nil
      | some c => exact (List.pairwise_singleton _ c).filter _
    · -- the name of a new column is not taken, so its field comes behind all others
      obtain ⟨-, hnew⟩ := List.mem_filter.mp hd
      rw [decide_eq_true_iff, mem_names_columnsOf] at hnew
      rw [placeOf_concat_of_lt (hold c hc), placeOf_concat hnew]
      have hlt := hold c hc
      split
      · exact hlt
      · exact Nat.lt_succ_of_lt hlt

theorem nodup_names_columnsOf (fields : List Field) :
    ((columnsOf fields).map ModelColumn.name).Nodup := by
  rw [List.Nodup, List.pairwise_map]
  refine (pairwise_placeOf fields).imp fun hlt hname => ?_
  rw [hname] at hlt
  exact Nat.lt_irrefl _ hlt

/-- A field that is passed over may be left out. -/
theorem columnsOf_filter_isColumn (fields : List Field) :
    columnsOf (fields.filter Field.isColumn) = columnsOf fields := by
  rw [columnsOf, List.filterMap_filter]
  refine congrArg (firstOfName []) (List.filterMap_congr fun f _ => ?_)
  rw [← Field.isSome_ownColumn?]
  cases f.ownColumn? <;> rfl

end Fields

/-- **The columns of a list of fields.**  A list of fields adds to the columns of the fields before
it those whose names are new.  So all names are distinct, the columns come in the order of the fields
and each is the one that the first field for its name has on its own; and a field that is embedded
or says nothing known may come or go at any place. -/
theorem columnsOf_laws :
    (∀ xs ys, columnsOf (xs ++ ys) = columnsOf xs ++
      (columnsOf ys).filter fun c => c.name ∉ (columnsOf xs).map ModelColumn.name) ∧
    (∀ fields, ((columnsOf fields).map ModelColumn.name).Nodup ∧
      ((columnsOf fields).Pairwise fun c d => placeOf fields c.name < placeOf fields d.name) ∧
      ∀ c, c ∈ columnsOf fields ↔
        ∃ f, fields[placeOf fields c.name]? = some f ∧ columnsOf [f] = [c]) ∧
    (∀ fields fields', fields.filter Field.isColumn = fields'.filter Field.isColumn →
      columnsOf fields = columnsOf fields') := by
  refine ⟨columnsOf_append, fun fields => ⟨nodup_names_columnsOf fields, pairwise_placeOf fields,
    fun c => mem_columnsOf⟩, fun fields fields' h => ?_⟩
  rw [← columnsOf_filter_isColumn fields, h, columnsOf_filter_isColumn fields']

/-- A renamed field that comes first, one for the same name after it, an embedded field, and one
that says nothing known. -/
theorem columnsOf_laws_of_sample :
    let code : Field := { name := "Code", typeText := "String", tag? := some "column:id, size:9" }
    let key : Field := { name := "ID", typeText := "i64", tag? := some "pk" }
    let base : Field := { name := "Base", typeText := "i64", tag? := some "pk", embedded := true }
    let note : Field := { name := "note", typeText := "String", tag? := some "remark" }
    let fields : List Field := [base, code, note, key]
    fields.filter Field.isColumn = [code, key].filter Field.isColumn ∧
      columnsOf fields = columnsOf [code, key] := by
  intro code key base note fields
  have hcolumns : fields.filter Field.isColumn = [code, key].filter Field.isColumn := by decide
  exact ⟨hcolumns, columnsOf_laws.2.2 fields [code, key] hcolumns⟩

end SchemaKeeper
