/-
Keys and unique columns of PostgreSQL, whatever the order of constraints.

The catalog gives the constraints of a table row by row, and the rows of different
constraints may be mixed.  The reader marks columns row by row; one may as well gather
the rows by their constraints first (`gathered`) and mark what each constraint says
(`Constraint.apply`):

* `Gathers`, `gathers_gathered`: there is one entry for each constraint, with the kind
  of its first row and the members of all its rows,
* `foldl_apply_eq`: the entries, in whatever order they are taken, mark the same columns
  as the rows do, because both mark what the rows name (`mem_keyMembers`,
  `mem_soleMembers`),
* `Consistent.exists_reads`: so the rows of constraints may come in any order, as long as
  those of one constraint agree on its type.

`columns_by_constraints` is the main statement.  It says which columns are read from
the rows, and how the reading fails if a row does not name what it is about.
-/
import Mathlib.Data.List.Induction
import SchemaKeeper.Proofs.Catalog.Readers

namespace SchemaKeeper

open SchemaKeeper.Action

namespace Catalog.Postgres

/-! ### Constraints gathered from their rows -/

/-- A constraint with the members that its rows name. -/
structure Constraint where
  name : String
  kind : String
  members : List String
deriving Repr, DecidableEq

/-- The entry of a constraint after one more row, which may be about another constraint. -/
def Constraint.add (m : Membership) (g : Constraint) : Constraint :=
  if g.name = m.constraint then { g with members := g.members ++ [m.member] } else g

/-- The entries after one more row.  If its constraint has no entry yet, it gets one, of the kind
that the row gives. -/
def addMember (entries : List Constraint) (m : Membership) : List Constraint :=
  if m.constraint ∈ entries.map (·.name) then entries.map (Constraint.add m)
  else entries ++ [⟨m.constraint, m.kind, [m.member]⟩]

/-- The constraints of all rows. -/
def gathered (ms : List Membership) : List Constraint :=
  ms.foldl addMember []

/-- The columns after what a constraint says of its members. -/
def Constraint.apply (columns : List DatabaseColumn) (g : Constraint) : List DatabaseColumn :=
  g.members.foldl (fun columns member =>
    if g.kind = "PRIMARY KEY" then updateFirst member asKey columns
    else if g.kind = "UNIQUE" ∧ g.members.length = 1 then updateFirst member asUnique columns
    else columns) columns

/-- The members that the rows of a constraint name. -/
def membersOf (ms : List Membership) (constraint : String) : List String :=
  (ms.filter (·.constraint == constraint)).map (·.member)

/-- There is one entry for each constraint of the rows. -/
structure Gathers (ms : List Membership) (entries : List Constraint) : Prop where
  nodup : (entries.map (·.name)).Nodup
  mem_names : ∀ name, name ∈ entries.map (·.name) ↔ name ∈ ms.map (·.constraint)
  kind : ∀ g ∈ entries, g.kind = kindOf ms g.name
  members : ∀ g ∈ entries, g.members = membersOf ms g.name

section Gathered

variable {ms : List Membership} {m : Membership} {entries : List Constraint} {constraint : String}

@[simp] theorem Constraint.add_name (m : Membership) (g : Constraint) :
    (g.add m).name = g.name := by
  rw [add]
  split <;> rfl

@[simp] theorem Constraint.add_kind (m : Membership) (g : Constraint) :
    (g.add m).kind = g.kind := by
  rw [add]
  split <;> rfl

theorem kindOf_append_of_mem (h : constraint ∈ ms.map (·.constraint)) :
    kindOf (ms ++ [m]) constraint = kindOf ms constraint := by
  obtain ⟨m', hm', rfl⟩ := List.mem_map.mp h
  have hsome : (ms.find? (·.constraint == m'.constraint)).isSome :=
    List.find?_isSome.mpr ⟨m', hm', by simp⟩
  rw [kindOf, List.find?_append, Option.or_of_isSome hsome, kindOf]

theorem kindOf_append_of_not_mem (h : m.constraint ∉ ms.map (·.constraint)) :
    kindOf (ms ++ [m]) m.constraint = m.kind := by
  have hnone : ms.find? (·.constraint == m.constraint) = none := by
    refine List.find?_eq_none.mpr fun m' hm' hsame => h ?_
    exact List.mem_map.mpr ⟨m', hm', by simpa using hsame⟩
  rw [kindOf, List.find?_append, hnone, Option.none_or, List.find?_singleton]
  simp

theorem membersOf_append_self :
    membersOf (ms ++ [m]) m.constraint = membersOf ms m.constraint ++ [m.member] := by
  simp [membersOf]

theorem membersOf_append_of_ne (h : constraint ≠ m.constraint) :
    membersOf (ms ++ [m]) constraint = membersOf ms constraint := by
  simp [membersOf, h.symm]

theorem membersOf_eq_nil (h : constraint ∉ ms.map (·.constraint)) :
    membersOf ms constraint = [] := by
  rw [membersOf, List.map_eq_nil_iff, List.filter_eq_nil_iff]
  intro m hm hsame
  exact h (List.mem_map.mpr ⟨m, hm, by simpa using hsame⟩)

theorem Gathers.kind_append (h : Gathers ms entries) {g : Constraint} (hg : g ∈ entries) :
    g.kind = kindOf (ms ++ [m]) g.name := by
  rw [kindOf_append_of_mem ((h.mem_names _).mp (List.mem_map_of_mem hg)), h.kind g hg]

/-- One more row of a constraint that has an entry. -/
theorem Gathers.map_add (h : Gathers ms entries) (hm : m.constraint ∈ entries.map (·.name)) :
    Gathers (ms ++ [m]) (entries.map (Constraint.add m)) := by
  have hnames : (entries.map (Constraint.add m)).map (·.name) = entries.map (·.name) := by
    simp
  refine ⟨hnames ▸ h.nodup, fun name => ?_, List.forall_mem_map.mpr fun g hg => ?_,
    List.forall_mem_map.mpr fun g hg => ?_⟩
  · rw [hnames, h.mem_names, List.map_append, List.mem_append]
    refine ⟨Or.inl, ?_⟩
    rintro (hname | hname)
    · exact hname
    · rw [List.mem_singleton.mp hname]
      exact (h.mem_names _).mp hm
  · rw [Constraint.add_kind, Constraint.add_name, h.kind_append hg]
  · rw [Constraint.add_name, Constraint.add]
    split
    · next hsame =>
      show g.members ++ [m.member] = _
      rw [hsame, membersOf_append_self, ← hsame, h.members g hg]
    · next hsame => rw [membersOf_append_of_ne hsame, h.members g hg]

/-- The first row of a constraint. -/
theorem Gathers.append_new (h : Gathers ms entries) (hm : m.constraint ∉ entries.map (·.name)) :
    Gathers (ms ++ [m]) (entries ++ [⟨m.constraint, m.kind, [m.member]⟩]) := by
  have hnew : m.constraint ∉ ms.map (·.constraint) := mt (h.mem_names _).mpr hm
  have hold : ∀ g ∈ entries, g.name ≠ m.constraint := fun g hg hsame =>
    hm (hsame ▸ List.mem_map_of_mem hg)
  refine ⟨?_, fun name => ?_, List.forall_mem_append.mpr ⟨fun g hg => h.kind_append hg, ?_⟩,
    List.forall_mem_append.mpr ⟨fun g hg => ?_, ?_⟩⟩
  · rw [List.map_append]
    exact List.nodup_append.mpr ⟨h.nodup, by simp, by simpa using hold⟩
  · rw [List.map_append, List.map_append, List.mem_append, List.mem_append, h.mem_names]
    rfl
  · rw [List.forall_mem_singleton]
    exact (kindOf_append_of_not_mem hnew).symm
  · rw [membersOf_append_of_ne (hold g hg), h.members g hg]
  · rw [List.forall_mem_singleton, membersOf_append_self, membersOf_eq_nil hnew]
    rfl

/-- Each constraint has one entry, with the kind that its first row gives and the members that
its rows name. -/
theorem gathers_gathered (ms : List Membership) : Gathers ms (gathered ms) := by
  induction ms using List.reverseRecOn with
  | nil => exact ⟨by simp [gathered], by simp [gathered], by simp [gathered], by simp [gathered]⟩
  | append_singleton ms m ih =>
    have hstep : gathered (ms ++ [m]) = addMember (gathered ms) m := List.foldl_append
    rw [hstep, addMember]
    split
    · next hm => exact ih.map_add hm
    · next hm => exact ih.append_new hm

end Gathered

/-! ### The order of the constraints -/

/-- One of the rows names the member for the constraint. -/
def Names (listed : List Membership) (constraint member : String) : Prop :=
  ∃ m ∈ listed, m.constraint = constraint ∧ m.member = member

section Marks

variable {ms listed : List Membership} {member : String} {columns : List DatabaseColumn}

theorem mem_keyMembers : member ∈ keyMembers ms listed ↔
    ∃ constraint, kindOf ms constraint = "PRIMARY KEY" ∧ Names listed constraint member := by
  rw [keyMembers, List.mem_map]
  constructor
  · rintro ⟨m, hm, hmember⟩
    obtain ⟨hm, hkind⟩ := List.mem_filter.mp hm
    exact ⟨m.constraint, by simpa using hkind, m, hm, rfl, hmember⟩
  · rintro ⟨_, hkind, m, hm, rfl, hmember⟩
    exact ⟨m, List.mem_filter.mpr ⟨hm, by simpa using hkind⟩, hmember⟩

theorem mem_soleMembers : member ∈ soleMembers ms listed ↔
    ∃ constraint, kindOf ms constraint = "UNIQUE" ∧ sizeOf ms constraint = 1 ∧
      Names listed constraint member := by
  rw [soleMembers, List.mem_map]
  constructor
  · rintro ⟨m, hm, hmember⟩
    obtain ⟨hm, hsole⟩ := List.mem_filter.mp hm
    rw [Bool.and_eq_true, beq_iff_eq, beq_iff_eq] at hsole
    exact ⟨m.constraint, hsole.1, hsole.2, m, hm, rfl, hmember⟩
  · rintro ⟨_, hkind, hsize, m, hm, rfl, hmember⟩
    refine ⟨m, List.mem_filter.mpr ⟨hm, ?_⟩, hmember⟩
    rw [Bool.and_eq_true, beq_iff_eq, beq_iff_eq]
    exact ⟨hkind, hsize⟩

/-- The rows that an entry stands for. -/
def Constraint.rows (g : Constraint) : List Membership :=
  g.members.map fun member => ⟨g.name, g.kind, member⟩

theorem Constraint.apply_eq_foldl {g : Constraint} (hkind : g.kind = kindOf ms g.name)
    (hmembers : g.members = membersOf ms g.name) :
    g.apply columns = g.rows.foldl (applyMembership ms) columns := by
  have hsize : g.members.length = sizeOf ms g.name := by
    rw [hmembers, membersOf, List.length_map, sizeOf]
  rw [Constraint.apply, rows, List.foldl_map, hsize, hkind]
  rfl

theorem names_rows_gathered {order : List Constraint} (h : order.Perm (gathered ms))
    {constraint : String} :
    Names (order.flatMap Constraint.rows) constraint member ↔ Names ms constraint member := by
  have hgathers : Gathers ms (gathered ms) := gathers_gathered ms
  constructor
  · rintro ⟨m, hm, rfl, rfl⟩
    obtain ⟨g, hg, hm⟩ := List.mem_flatMap.mp hm
    obtain ⟨member, hmember, rfl⟩ := List.mem_map.mp hm
    rw [hgathers.members g (h.mem_iff.mp hg), membersOf] at hmember
    obtain ⟨m, hm, hsame⟩ := List.mem_map.mp hmember
    obtain ⟨hm, hconstraint⟩ := List.mem_filter.mp hm
    exact ⟨m, hm, by simpa using hconstraint, hsame⟩
  · rintro ⟨m, hm, rfl, rfl⟩
    obtain ⟨g, hg, hname⟩ :=
      List.mem_map.mp ((hgathers.mem_names _).mpr (List.mem_map_of_mem hm))
    refine ⟨⟨g.name, g.kind, m.member⟩, List.mem_flatMap.mpr ⟨g, h.mem_iff.mpr hg, ?_⟩, hname, rfl⟩
    refine List.mem_map.mpr ⟨m.member, ?_, rfl⟩
    rw [hgathers.members g hg, membersOf]
    exact List.mem_map_of_mem (List.mem_filter.mpr ⟨hm, by simpa using hname.symm⟩)

/-- In whatever order the constraints are taken, the columns are marked in the same way. -/
theorem foldl_apply_eq (hnodup : (columns.map (·.name)).Nodup) {order : List Constraint}
    (h : order.Perm (gathered ms)) :
    order.foldl Constraint.apply columns = applyConstraints ms columns := by
  have hgathers : Gathers ms (gathered ms) := gathers_gathered ms
  have hrows : order.foldl Constraint.apply columns =
      (order.flatMap Constraint.rows).foldl (applyMembership ms) columns := by
    rw [List.foldl_flatMap]
    refine List.foldl_ext _ _ _ fun columns g hg => ?_
    have hg : g ∈ gathered ms := h.mem_iff.mp hg
    exact Constraint.apply_eq_foldl (hgathers.kind g hg) (hgathers.members g hg)
  -- the kinds and sizes are those of all rows on both sides, and so are the members they name
  rw [hrows, applyConstraints, foldl_applyMembership_eq_map hnodup,
    foldl_applyMembership_eq_map hnodup]
  refine congrArg (columns.map ·) (marked_congr (fun member => ?_) fun member => ?_)
  · rw [mem_keyMembers, mem_keyMembers]
    simp only [names_rows_gathered h]
  · rw [mem_soleMembers, mem_soleMembers]
    simp only [names_rows_gathered h]

end Marks

/-! ### Rows of constraints -/

/-- The rows of a constraint. -/
def rowsOf (constraints : List Row) (constraint : String) : List Row :=
  constraints.filter fun row => row.text? "constraint_name" == some constraint

/-- Some row of a primary key names the column. -/
def InKey (constraints : List Row) (column : String) : Prop :=
  ∃ row ∈ constraints, row.text? "constraint_type" = some "PRIMARY KEY" ∧
    row.text? "column_name" = some column

/-- Some unique constraint has one row, and this row names the column. -/
def UniqueAlone (constraints : List Row) (column : String) : Prop :=
  ∃ constraint row, rowsOf constraints constraint = [row] ∧
    row.text? "constraint_type" = some "UNIQUE" ∧ row.text? "column_name" = some column

/-- The rows of the catalog name what they are about: columns that differ, and constraints of one
type each.  A type that is missing counts as an empty one. -/
structure Consistent (rows constraints : List Row) : Prop where
  ne_nil : rows ≠ []
  named : ∀ row ∈ rows, ¬ row.Lacks "column_name"
  nodup : (rows.map (·.text? "column_name")).Nodup
  constraint : ∀ row ∈ constraints, ¬ row.Lacks "constraint_name"
  member : ∀ row ∈ constraints, ¬ row.Lacks "column_name"
  uniform : ∀ row ∈ constraints, ∀ row' ∈ constraints,
    row.text? "constraint_name" = row'.text? "constraint_name" →
      textOrEmpty row "constraint_type" = textOrEmpty row' "constraint_type"

/-- What a row of a constraint says. -/
def membershipOf (row : Row) : Membership :=
  ⟨textOrEmpty row "constraint_name", textOrEmpty row "constraint_type",
    textOrEmpty row "column_name"⟩

section Rows

variable {rows constraints constraints' : List Row} {column : String}

theorem inKey_congr (h : constraints'.Perm constraints) :
    InKey constraints' column ↔ InKey constraints column := by
  simp only [InKey, h.mem_iff]

theorem uniqueAlone_congr (h : constraints'.Perm constraints) :
    UniqueAlone constraints' column ↔ UniqueAlone constraints column := by
  have hrows : ∀ constraint row,
      rowsOf constraints' constraint = [row] ↔ rowsOf constraints constraint = [row] := by
    intro constraint row
    rw [← List.perm_singleton, ← List.perm_singleton]
    exact (h.filter _).congr_left _
  simp only [UniqueAlone, hrows]

theorem Consistent.of_perm (h : Consistent rows constraints)
    (hperm : constraints'.Perm constraints) : Consistent rows constraints' where
  ne_nil := h.ne_nil
  named := h.named
  nodup := h.nodup
  constraint row hrow := h.constraint row (hperm.mem_iff.mp hrow)
  member row hrow := h.member row (hperm.mem_iff.mp hrow)
  uniform row hrow row' hrow' := h.uniform row (hperm.mem_iff.mp hrow) row' (hperm.mem_iff.mp hrow')

theorem membership_eq {row : Row} (table : String) (hconstraint : ¬ row.Lacks "constraint_name")
    (hmember : ¬ row.Lacks "column_name") : membership table row = .ok (membershipOf row) := by
  obtain ⟨constraint, hconstraint⟩ := Row.exists_text?_eq hconstraint
  obtain ⟨member, hmember⟩ := Row.exists_text?_eq hmember
  rw [membership, requiredText_eq_ok hconstraint, requiredText_eq_ok hmember, membershipOf,
    textOrEmpty, textOrEmpty, textOrEmpty, hconstraint, hmember]
  rfl

theorem Consistent.mapM_membership (h : Consistent rows constraints) (table : String) :
    constraints.mapM (membership table) = .ok (constraints.map membershipOf) :=
  mapM_eq_ok_map fun row hrow => membership_eq table (h.constraint row hrow) (h.member row hrow)

theorem Consistent.uniform_membershipOf (h : Consistent rows constraints) :
    ∀ m ∈ constraints.map membershipOf, ∀ m' ∈ constraints.map membershipOf,
      m.constraint = m'.constraint → m.kind = m'.kind := by
  refine List.forall_mem_map.mpr fun row hrow => List.forall_mem_map.mpr fun row' hrow' hsame => ?_
  obtain ⟨constraint, hconstraint⟩ := Row.exists_text?_eq (h.constraint row hrow)
  obtain ⟨constraint', hconstraint'⟩ := Row.exists_text?_eq (h.constraint row' hrow')
  refine h.uniform row hrow row' hrow' ?_
  simp only [membershipOf, textOrEmpty, hconstraint, hconstraint', Option.getD_some] at hsame
  rw [hconstraint, hconstraint', hsame]

theorem Consistent.filter_membershipOf (h : Consistent rows constraints) (constraint : String) :
    (constraints.map membershipOf).filter (·.constraint == constraint) =
      (rowsOf constraints constraint).map membershipOf := by
  rw [List.filter_map, rowsOf]
  refine congrArg _ (List.filter_congr fun row hrow => ?_)
  obtain ⟨name, hname⟩ := Row.exists_text?_eq (h.constraint row hrow)
  simp [membershipOf, textOrEmpty, hname]

/-- The members of primary keys are the columns that rows of primary keys name. -/
theorem Consistent.mem_keyMembers (h : Consistent rows constraints) :
    column ∈ keyMembers (constraints.map membershipOf) (constraints.map membershipOf) ↔
      InKey constraints column := by
  rw [Postgres.mem_keyMembers]
  constructor
  · rintro ⟨_, hkind, m, hm, rfl, rfl⟩
    rw [kindOf_eq_of_uniform h.uniform_membershipOf hm] at hkind
    obtain ⟨row, hrow, rfl⟩ := List.mem_map.mp hm
    exact ⟨row, hrow, (textOrEmpty_eq (by decide)).mp hkind,
      text?_eq_textOrEmpty (h.member row hrow)⟩
  · rintro ⟨row, hrow, hkind, hcolumn⟩
    have hm : membershipOf row ∈ constraints.map membershipOf := List.mem_map_of_mem hrow
    refine ⟨_, ?_, membershipOf row, hm, rfl, ?_⟩
    · rw [kindOf_eq_of_uniform h.uniform_membershipOf hm]
      exact (textOrEmpty_eq (by decide)).mpr hkind
    · exact textOrEmpty_of_text? hcolumn

/-- The only members of unique constraints are the columns that the only row of one names. -/
theorem Consistent.mem_soleMembers (h : Consistent rows constraints) :
    column ∈ soleMembers (constraints.map membershipOf) (constraints.map membershipOf) ↔
      UniqueAlone constraints column := by
  rw [Postgres.mem_soleMembers]
  constructor
  · rintro ⟨constraint, hkind, hsize, m, hm, rfl, rfl⟩
    rw [kindOf_eq_of_uniform h.uniform_membershipOf hm] at hkind
    rw [sizeOf_eq_one hm, h.filter_membershipOf, List.map_eq_singleton_iff] at hsize
    obtain ⟨row, halone, rfl⟩ := hsize
    have hrow : row ∈ constraints := by
      have hmem : row ∈ rowsOf constraints (membershipOf row).constraint := by
        rw [halone]
        exact List.mem_singleton_self row
      exact (List.mem_filter.mp hmem).1
    exact ⟨_, row, halone, (textOrEmpty_eq (by decide)).mp hkind,
      text?_eq_textOrEmpty (h.member row hrow)⟩
  · rintro ⟨constraint, row, halone, hkind, hcolumn⟩
    have hmem : row ∈ rowsOf constraints constraint := by
      rw [halone]
      exact List.mem_singleton_self row
    obtain ⟨hrow, hconstraint⟩ := List.mem_filter.mp hmem
    have hm : membershipOf row ∈ constraints.map membershipOf := List.mem_map_of_mem hrow
    have hname : (membershipOf row).constraint = constraint :=
      textOrEmpty_of_text? (by simpa using hconstraint)
    refine ⟨constraint, ?_, ?_, membershipOf row, hm, hname, ?_⟩
    · rw [← hname, kindOf_eq_of_uniform h.uniform_membershipOf hm]
      exact (textOrEmpty_eq (by decide)).mpr hkind
    · rw [← hname, sizeOf_eq_one hm, h.filter_membershipOf, hname, halone]
      rfl
    · exact textOrEmpty_of_text? hcolumn

end Rows

/-! ### Columns by their constraints -/

/-- A column is read from a row, and is a key or unique if the rows of constraints say so. -/
structure ReadFrom (table : String) (constraints : List Row) (row : Row) (c : DatabaseColumn) :
    Prop where
  name : row.text? "column_name" = some c.name
  plain : column table row = .ok { c with primaryKey := false, unique := false }
  primaryKey : c.primaryKey = true ↔ InKey constraints c.name
  unique : c.unique = true ↔ UniqueAlone constraints c.name

section Columns

variable {σ : Type} {c : Connection σ} {table : String} {rows constraints : List Row}
variable {row : Row} {base : List DatabaseColumn}

/-- Before constraints are looked at, no column is a key or unique. -/
theorem column_eq_ok {col : DatabaseColumn} (h : column table row = .ok col) :
    row.text? "column_name" = some col.name ∧ col.primaryKey = false ∧ col.unique = false := by
  rw [column, requiredText] at h
  cases hname : row.text? "column_name" with
  | none =>
    rw [hname] at h
    cases h
  | some name =>
    rw [hname] at h
    obtain rfl := Except.ok.inj h
    exact ⟨rfl, rfl, rfl⟩

theorem exists_column_eq (table : String) (h : ¬ row.Lacks "column_name") :
    ∃ col, column table row = .ok col := by
  obtain ⟨name, hname⟩ := Row.exists_text?_eq h
  rw [column, requiredText_eq_ok hname]
  exact ⟨_, rfl⟩

theorem column_of_lacks (table : String) (h : row.Lacks "column_name") :
    column table row = .error (missing table "column_name") := by
  rw [column, requiredText_of_lacks h]
  rfl

theorem readFrom_marked {keys uniques : List String} {col : DatabaseColumn}
    (hkeys : ∀ name, name ∈ keys ↔ InKey constraints name)
    (huniques : ∀ name, name ∈ uniques ↔ UniqueAlone constraints name)
    (h : column table row = .ok col) :
    ReadFrom table constraints row (marked keys uniques col) := by
  obtain ⟨hname, hkey, hunique⟩ := column_eq_ok h
  refine ⟨hname, ?_, ?_, ?_⟩
  · have hplain : { marked keys uniques col with primaryKey := false, unique := false } = col := by
      obtain ⟨⟩ := col
      obtain rfl : _ = false := hkey
      obtain rfl : _ = false := hunique
      rfl
    rw [h, hplain]
  · rw [marked_name, ← hkeys]
    simp [marked, hkey]
  · rw [marked_name, ← huniques]
    simp [marked, hunique]

theorem membership_of_lacks (table : String)
    (h : row.Lacks "constraint_name" ∨ row.Lacks "column_name") :
    ∃ column ∈ ["constraint_name", "column_name"], row.Lacks column ∧
      membership table row = .error (missing table column) := by
  by_cases hconstraint : row.Lacks "constraint_name"
  · refine ⟨"constraint_name", by simp, hconstraint, ?_⟩
    rw [membership, requiredText_of_lacks hconstraint]
    rfl
  · have hmember : row.Lacks "column_name" := h.resolve_left hconstraint
    obtain ⟨name, hname⟩ := Row.exists_text?_eq hconstraint
    refine ⟨"column_name", by simp, hmember, ?_⟩
    rw [membership, requiredText_eq_ok hname, requiredText_of_lacks hmember]
    rfl

theorem reads_columns_of_lacks (h : ∃ row ∈ rows, row.Lacks "column_name") :
    Reads c (columns c table) [⟨columnsQuery, [.text table], rows⟩]
      (.error (missing table "column_name")) := by
  obtain ⟨row, hrow, hlacks⟩ := h
  obtain ⟨row, -, e, he, hfail⟩ :=
    exists_mapM_of_error ⟨row, hrow, _, column_of_lacks table hlacks⟩
  have hlacks : row.Lacks "column_name" := by
    by_contra hnamed
    obtain ⟨col, hcol⟩ := exists_column_eq table hnamed
    rw [hcol] at he
    cases he
  rw [column_of_lacks table hlacks] at he
  obtain rfl := Except.error.inj he
  exact Reads.query_bind (reads_of_error hfail _)

/-- The result of a catalog whose rows name what they are about, in whatever order the rows of
constraints come and in whatever order their constraints are taken. -/
theorem Consistent.exists_reads (h : Consistent rows constraints) (c : Connection σ)
    (table : String) :
    ∃ base columns, rows.mapM (column table) = .ok base ∧ columns ≠ [] ∧
      List.Forall₂ (ReadFrom table constraints) rows columns ∧
      ∀ constraints', constraints'.Perm constraints →
        Reads c (Postgres.columns c table) (replies table rows constraints') (.ok columns) ∧
        ∃ ms, constraints'.mapM (membership table) = .ok ms ∧
          ∀ order : List Constraint, order.Perm (gathered ms) →
            order.foldl Constraint.apply base = columns := by
  obtain ⟨base, hbase, hne, hnodup, hread⟩ := exists_columns_of_named
    (fun row hrow => exists_column_eq table (h.named row hrow))
    (fun row col hcol => (column_eq_ok hcol).1) h.ne_nil h.nodup
  let ms := constraints.map membershipOf
  refine ⟨base, base.map (marked (keyMembers ms ms) (soleMembers ms ms)), hbase, by simpa using hne,
    ?_, fun constraints' hperm => ?_⟩
  · rw [List.forall₂_map_right_iff]
    exact hread.imp fun row col =>
      readFrom_marked (fun _ => h.mem_keyMembers) fun _ => h.mem_soleMembers
  · have h' : Consistent rows constraints' := h.of_perm hperm
    -- what the rows say of a column does not depend on their order
    have hmarks : applyConstraints (constraints'.map membershipOf) base =
        base.map (marked (keyMembers ms ms) (soleMembers ms ms)) := by
      rw [applyConstraints, foldl_applyMembership_eq_map hnodup]
      refine congrArg (base.map ·) (marked_congr (fun name => ?_) fun name => ?_)
      · rw [h'.mem_keyMembers, h.mem_keyMembers, inKey_congr hperm]
      · rw [h'.mem_soleMembers, h.mem_soleMembers, uniqueAlone_congr hperm]
    have hms : constraints'.mapM (membership table) = .ok (constraints'.map membershipOf) :=
      h'.mapM_membership table
    refine ⟨?_, _, hms, fun order horder => ?_⟩
    · rw [← hmarks]
      exact reads_columns hbase hne hms
    · rw [foldl_apply_eq hnodup horder, hmarks]

/-- A row of constraints without a name makes the reading fail. -/
theorem exists_reads_of_lacks (hne : rows ≠ []) (hnamed : ∀ row ∈ rows, ¬ row.Lacks "column_name")
    (h : ∃ row ∈ constraints, row.Lacks "constraint_name" ∨ row.Lacks "column_name")
    (c : Connection σ) (table : String) :
    ∃ row ∈ constraints, ∃ column ∈ ["constraint_name", "column_name"], row.Lacks column ∧
      Reads c (Postgres.columns c table) (replies table rows constraints)
        (.error (missing table column)) := by
  obtain ⟨base, hbase, hread⟩ :=
    exists_mapM_of_forall fun row hrow => exists_column_eq table (hnamed row hrow)
  have hbase_ne : base ≠ [] := ne_nil_of_forall₂ hread hne
  obtain ⟨row, hrow, hlacks⟩ := h
  obtain ⟨_, -, -, hfailure⟩ := membership_of_lacks table hlacks
  obtain ⟨row, hrow, e, he, hms⟩ := exists_mapM_of_error ⟨row, hrow, _, hfailure⟩
  -- this row need not be the one that is given, but it cannot be read either
  have hlacks : row.Lacks "constraint_name" ∨ row.Lacks "column_name" := by
    by_contra hnamed
    rw [not_or] at hnamed
    rw [membership_eq table hnamed.1 hnamed.2] at he
    cases he
  obtain ⟨column, hcolumn, hcell, hfailure⟩ := membership_of_lacks table hlacks
  obtain rfl := Except.error.inj (hfailure.symm.trans he)
  exact ⟨row, hrow, column, hcolumn, hcell, reads_columns hbase hbase_ne hms⟩

end Columns

/-- The columns of a table with their keys and unique columns.  Each row of the catalog gives one
column, in order.  A column is a key if a row of a primary key names it, and unique if it is named
by the only row of a unique constraint.  The rows of constraints may come in any order, and the
constraints that are gathered from them may be taken in any order.  A row without a name makes the
reading fail. -/
theorem columns_by_constraints {σ : Type} {c : Connection σ} {table : String}
    (hdialect : c.dialect = .postgres) (hname : isNoName table = false)
    (rows constraints : List Row) :
    (Consistent rows constraints →
      ∃ base columns, rows.mapM (column table) = .ok base ∧
        List.Forall₂ (ReadFrom table constraints) rows columns ∧
        ∀ constraints', constraints'.Perm constraints →
          Reads c (c.tableColumns table) (replies table rows constraints') (.ok columns) ∧
          ∃ ms, constraints'.mapM (membership table) = .ok ms ∧
            ∀ order : List Constraint, order.Perm (gathered ms) →
              order.foldl Constraint.apply base = columns) ∧
    ((∃ row ∈ rows, row.Lacks "column_name") →
      Reads c (c.tableColumns table) [⟨columnsQuery, [.text table], rows⟩]
        (.error (missing table "column_name"))) ∧
    (rows ≠ [] → (∀ row ∈ rows, ¬ row.Lacks "column_name") →
      (∃ row ∈ constraints, row.Lacks "constraint_name" ∨ row.Lacks "column_name") →
      ∃ row ∈ constraints, ∃ column ∈ ["constraint_name", "column_name"], row.Lacks column ∧
        Reads c (c.tableColumns table) (replies table rows constraints)
          (.error (missing table column))) := by
  have hcatalog : c.catalogColumns table = Postgres.columns c table := by
    rw [Connection.catalogColumns, hdialect]
  refine ⟨fun h => ?_, fun h => ?_, fun hne hnamed h => ?_⟩
  · obtain ⟨base, columns, hbase, hne, hread, horder⟩ := h.exists_reads c table
    refine ⟨base, columns, hbase, hread, fun constraints' hperm => ?_⟩
    obtain ⟨hreads, hgathered⟩ := horder constraints' hperm
    exact ⟨Connection.reads_tableColumns hname hne (hcatalog ▸ hreads), hgathered⟩
  · exact Connection.reads_tableColumns_error hname (hcatalog ▸ reads_columns_of_lacks h)
  · obtain ⟨row, hrow, column, hcolumn, hcell, hreads⟩ := exists_reads_of_lacks hne hnamed h c table
    exact ⟨row, hrow, column, hcolumn, hcell,
      Connection.reads_tableColumns_error hname (hcatalog ▸ hreads)⟩

section Sample

/-- Rows of a table with a key of one column and two columns that are unique together; one of these
is unique alone as well. -/
def sampleRows : List Row :=
  [[("column_name", .text "id"), ("data_type", .text "bigint"), ("is_nullable", .text "NO")],
    [("column_name", .text "mail"), ("data_type", .text "text"), ("is_nullable", .text "YES")],
    [("column_name", .text "team"), ("data_type", .text "text"), ("is_nullable", .text "YES")]]

def sampleConstraints : List Row :=
  [[("constraint_name", .text "pair"), ("constraint_type", .text "UNIQUE"),
      ("column_name", .text "mail")],
    [("constraint_name", .text "key"), ("constraint_type", .text "PRIMARY KEY"),
      ("column_name", .text "id")],
    [("constraint_name", .text "pair"), ("constraint_type", .text "UNIQUE"),
      ("column_name", .text "team")],
    [("constraint_name", .text "mail_key"), ("constraint_type", .text "UNIQUE"),
      ("column_name", .text "mail")]]

/-- A row of constraints whose member is NULL. -/
def sampleGap : Row :=
  [("constraint_name", .text "key"), ("constraint_type", .text "PRIMARY KEY"),
    ("column_name", .null)]

theorem consistent_sample : Consistent sampleRows sampleConstraints where
  ne_nil := by simp [sampleRows]
  named := by decide
  nodup := by decide
  constraint := by decide
  member := by decide
  uniform := by decide

theorem columns_by_constraints_of_sample :
    (∃ columns, List.Forall₂ (ReadFrom "people" sampleConstraints) sampleRows columns ∧
      ((Connection.reciting .postgres).tableColumns "people"
        { state := [sampleRows, sampleConstraints.reverse] }).1 = .ok columns) ∧
    ((Connection.reciting .postgres).tableColumns "people" { state := [[sampleGap]] }).1 =
      .error (missing "people" "column_name") ∧
    ((Connection.reciting .postgres).tableColumns "people"
      { state := [sampleRows, [sampleGap]] }).1 = .error (missing "people" "column_name") := by
  have hname : isNoName "people" = false := by decide
  refine ⟨?_, ?_, ?_⟩
  · obtain ⟨base, columns, -, hread, horder⟩ :=
      (columns_by_constraints (c := Connection.reciting .postgres) rfl hname sampleRows
        sampleConstraints).1 consistent_sample
    exact ⟨columns, hread, (horder _ (List.reverse_perm _)).1.eq_of_reciting⟩
  · exact ((columns_by_constraints rfl hname [sampleGap] []).2.1
      ⟨sampleGap, by simp, by decide⟩).eq_of_reciting
  · obtain ⟨row, hrow, column, hcolumn, hcell, hreads⟩ :=
      (columns_by_constraints (c := Connection.reciting .postgres) rfl hname sampleRows
        [sampleGap]).2.2 consistent_sample.ne_nil consistent_sample.named
        ⟨sampleGap, by simp, by decide⟩
    obtain rfl := List.mem_singleton.mp hrow
    have hconstraint : ¬ sampleGap.Lacks "constraint_name" := by decide
    simp only [List.mem_cons, List.not_mem_nil, or_false] at hcolumn
    rcases hcolumn with rfl | rfl
    · exact absurd hcell hconstraint
    · exact hreads.eq_of_reciting

end Sample

end Catalog.Postgres

end SchemaKeeper
