/-
What the readers of the catalog find.

The readers of SQLite and PostgreSQL make columns first and then mark those that are
keys or unique.  However many marks there are and in whatever order they come, the
result is the list of columns with each of them marked as it should be (`marked`).  The
rows that answer the queries tell which (`Action.Reads`):

* `Sqlite.reads_markUnique`: a column is unique if a unique index has no other member,
* `Postgres.foldl_applyMembership`: a column is a key if it is a member of a primary key,
  and unique if it is the only member of a unique constraint.

Queries may change the state of a connection.  A connection reports rows
(`Connection.Reports`) if it answers a query with them as long as it is only asked, and
an action finds a value (`Action.Finds`) if it comes to it by queries alone.  What an
action reads by replies that are reported, it finds (`Reads.finds`): `finds_columns`
says so of each reader.
-/
import SchemaKeeper.Proofs.Catalog.Replies

namespace SchemaKeeper

namespace Connection

variable {σ : Type} (c : Connection σ)

/-! ### Answers that last -/

/-- Queries lead from one state to another. -/
def LeadsTo (s t : σ) : Prop :=
  ∃ calls : List Call, (∀ call ∈ calls, call.verb = .query) ∧ t = c.after calls s

/-- As long as it is only asked, the database answers a query with these rows. -/
def Reports (s : σ) (sql : String) (args : List Value) (rows : List Row) : Prop :=
  ∀ t, c.LeadsTo s t → (c.onQuery sql args t).1 = .ok rows

variable {c}

theorem LeadsTo.refl (s : σ) : c.LeadsTo s s :=
  ⟨[], by simp, rfl⟩

theorem LeadsTo.after {s t : σ} (h : c.LeadsTo s t) {l : List Call}
    (hl : ∀ call ∈ l, call.verb = .query) : c.LeadsTo s (c.after l t) := by
  obtain ⟨calls, hcalls, rfl⟩ := h
  refine ⟨calls ++ l, fun call hcall => ?_, (c.after_append calls l s).symm⟩
  rcases List.mem_append.mp hcall with hcall | hcall
  · exact hcalls call hcall
  · exact hl call hcall

/-- Replies that are reported are given, in whatever order the queries are sent. -/
theorem gives_of_reports {s t : σ} (ht : c.LeadsTo s t) {replies : List Reply}
    (h : ∀ reply ∈ replies, c.Reports s reply.sql reply.args reply.rows) : c.Gives replies t := by
  induction replies generalizing t with
  | nil => trivial
  | cons reply r ih =>
    obtain ⟨hfirst, hrest⟩ := List.forall_mem_cons.mp h
    have hnext : c.LeadsTo s (c.after [reply.call] t) := ht.after (by simp [Reply.call])
    exact ⟨hfirst t ht, ih hnext hrest⟩

end Connection

namespace Action

variable {σ α β : Type} {c : Connection σ} {s : σ}

/-- From every state that queries lead to, the action comes to a result by queries alone, and the
result satisfies `P`. -/
def Answers (c : Connection σ) (s : σ) (x : Action σ α) (P : Except Failure α → Prop) : Prop :=
  ∀ t : Conversation σ, c.LeadsTo s t.state →
    x.Runs c t fun r l => P r ∧ ∀ call ∈ l, call.verb = .query

/-- From every state that queries lead to, the action comes to the value by queries alone. -/
def Finds (c : Connection σ) (s : σ) (x : Action σ α) (a : α) : Prop :=
  Answers c s x (· = .ok a)

/-- What is read by replies that are reported is found. -/
theorem Reads.finds {x : Action σ α} {replies : List Reply} {a : α}
    (h : Reads c x replies (.ok a))
    (hreports : ∀ reply ∈ replies, c.Reports s reply.sql reply.args reply.rows) :
    Finds c s x a := by
  intro t ht
  refine ⟨.ok a, replies.map Reply.call, h t (Connection.gives_of_reports ht hreports), rfl, ?_⟩
  exact List.forall_mem_map.mpr fun reply _ => rfl

theorem finds_pure (a : α) : Finds c s (pure a) a :=
  (reads_pure a).finds (by simp)

/-- What is asked after a value has been found. -/
theorem Finds.bind {x : Action σ α} {g : α → Action σ β} {a : α} {P : Except Failure β → Prop}
    (hx : Finds c s x a) (hg : Answers c s (g a) P) : Answers c s (x >>= g) P := by
  intro t ht
  refine (hx t ht).bind ?_ ?_
  · rintro a' l ⟨⟨⟩, hl⟩
    refine (hg _ (ht.after hl)).mono ?_
    rintro r k ⟨hr, hk⟩
    refine ⟨hr, fun call hcall => ?_⟩
    rcases List.mem_append.mp hcall with hcall | hcall
    · exact hl call hcall
    · exact hk call hcall
  · rintro f l ⟨h, -⟩
    cases h

end Action

open SchemaKeeper.Action

namespace Catalog

/-! ### Marks -/

/-- A column marked as a key and as unique, if it is among those. -/
def marked (keys uniques : List String) (c : DatabaseColumn) : DatabaseColumn :=
  { c with
    primaryKey := c.primaryKey || keys.contains c.name
    unique := c.unique || uniques.contains c.name }

@[simp] theorem marked_name (keys uniques : List String) (c : DatabaseColumn) :
    (marked keys uniques c).name = c.name := rfl

theorem marked_nil (c : DatabaseColumn) : marked [] [] c = c := by
  simp [marked]

/-- Marks depend on who is among the keys and the unique columns, not on their order. -/
theorem marked_congr {keys keys' uniques uniques' : List String}
    (hkeys : ∀ name, name ∈ keys ↔ name ∈ keys')
    (huniques : ∀ name, name ∈ uniques ↔ name ∈ uniques') :
    marked keys uniques = marked keys' uniques' := by
  funext c
  have hkey : keys.contains c.name = keys'.contains c.name := by
    rw [Bool.eq_iff_iff, List.contains_iff_mem, List.contains_iff_mem, hkeys]
  have hunique : uniques.contains c.name = uniques'.contains c.name := by
    rw [Bool.eq_iff_iff, List.contains_iff_mem, List.contains_iff_mem, huniques]
  rw [marked, marked, hkey, hunique]

section Marks

variable {columns : List DatabaseColumn} {keys uniques : List String} {name : String}

/-- If names are distinct, the first column of a name is the only one. -/
theorem updateFirst_eq_map {change : DatabaseColumn → DatabaseColumn}
    (hnodup : (columns.map (·.name)).Nodup) :
    updateFirst name change columns =
      columns.map fun c => if c.name = name then change c else c := by
  induction columns with
  | nil => rfl
  | cons c r ih =>
    rw [List.map_cons, List.nodup_cons] at hnodup
    rw [updateFirst, List.map_cons]
    split
    · next hname =>
      have hrest : r.map (fun c => if c.name = name then change c else c) = r := by
        refine (List.map_congr_left fun c' hc' => ?_).trans (List.map_id r)
        refine if_neg fun hname' => hnodup.1 ?_
        rw [hname, ← hname']
        exact List.mem_map_of_mem hc'
      rw [hrest]
    · rw [ih hnodup.2]

theorem map_name_marked :
    (columns.map (marked keys uniques)).map (·.name) = columns.map (·.name) := by
  rw [List.map_map]
  rfl

/-- One more column is marked as a key. -/
theorem updateFirst_asKey (hnodup : (columns.map (·.name)).Nodup) :
    updateFirst name asKey (columns.map (marked keys uniques)) =
      columns.map (marked (keys ++ [name]) uniques) := by
  rw [updateFirst_eq_map (by rwa [map_name_marked]), List.map_map]
  refine List.map_congr_left fun c _ => ?_
  by_cases hname : c.name = name <;> simp [marked, asKey, hname]

/-- One more column is marked as unique. -/
theorem updateFirst_asUnique (hnodup : (columns.map (·.name)).Nodup) :
    updateFirst name asUnique (columns.map (marked keys uniques)) =
      columns.map (marked keys (uniques ++ [name])) := by
  rw [updateFirst_eq_map (by rwa [map_name_marked]), List.map_map]
  refine List.map_congr_left fun c _ => ?_
  by_cases hname : c.name = name <;> simp [marked, asUnique, hname]

end Marks

section Readers

variable {σ : Type} {c : Connection σ} {s : σ} {table : String}

/-! ### SQLite -/

namespace Sqlite

/-- An index can make a column unique: it is unique and not that of the primary key. -/
def CanMark (index : Row) : Prop :=
  index.isTrue "unique" = true ∧ index.text? "origin" ≠ some "pk"

instance (index : Row) : Decidable (CanMark index) :=
  inferInstanceAs (Decidable (_ ∧ _))

/-- The questions for the members of indexes.  There are none after an index without a name. -/
def inquiries : List (Row × List Row) → List Reply
  | [] => []
  | (index, members) :: r =>
    if CanMark index then
      match index.text? "name" with
      | some name => ⟨indexInfoQuery, [.text name], members⟩ :: inquiries r
      | none => []
    else inquiries r

/-- The replies to the queries of the catalog. -/
def replies (table : String) (rows : List Row) (listed : List (Row × List Row)) : List Reply :=
  ⟨columnsQuery, [.text table], rows⟩ ::
    ⟨indexListQuery, [.text table], listed.map (·.1)⟩ :: inquiries listed

/-- The only members of the indexes. -/
def solesOf (listed : List (Row × List Row)) : List String :=
  listed.flatMap fun p => if CanMark p.1 then (onlyMember? p.2).toList else []

/-- The columns that are the only members of unique indexes, given what each index has as its
members. -/
def soleMembers (members : String → List Row) (indexes : List Row) : List String :=
  (indexes.filter isUniqueIndex).filterMap fun index =>
    (index.text? "name").bind fun name => onlyMember? (members name)

/-- The members of the unique indexes can be asked for. -/
def ReportsMembers (c : Connection σ) (s : σ) (members : String → List Row) (indexes : List Row) :
    Prop :=
  ∀ index ∈ indexes, isUniqueIndex index = true →
    ∃ name, index.text? "name" = some name ∧
      c.Reports s indexInfoQuery [.text name] (members name)

theorem onlyMember?_eq_some {rows : List Row} {column : String} :
    onlyMember? rows = some column ↔ rows.map (·.text? "name") = [some column] := by
  unfold onlyMember?
  split <;> simp_all

theorem isUniqueIndex_iff {index : Row} : isUniqueIndex index = true ↔ CanMark index := by
  rw [isUniqueIndex, Bool.and_eq_true, bne_iff_ne, CanMark]
  exact and_congr_right fun _ => not_congr (textOrEmpty_eq (by decide))

variable {columns : List DatabaseColumn} {members : String → List Row}
variable {listed : List (Row × List Row)}

/-- Indexes that have names, as far as they can make columns unique, are read to the end, and the
columns are marked that are the only members. -/
theorem reads_markUnique (hnodup : (columns.map (·.name)).Nodup)
    (hnamed : ∀ p ∈ listed, CanMark p.1 → ¬ p.1.Lacks "name") (uniques : List String) :
    Reads c (markUnique c table (listed.map (·.1)) (columns.map (marked [] uniques)))
      (inquiries listed) (.ok (columns.map (marked [] (uniques ++ solesOf listed)))) := by
  -- each index may add to the marks that are there, so these are arbitrary
  induction listed generalizing uniques with
  | nil =>
    rw [solesOf, List.flatMap_nil, List.append_nil]
    exact reads_pure _
  | cons p r ih =>
    obtain ⟨index, members⟩ := p
    obtain ⟨hfirst, hrest⟩ := List.forall_mem_cons.mp hnamed
    rw [List.map_cons, markUnique, inquiries]
    by_cases hmark : CanMark index
    · have hunique : isUniqueIndex index = true := isUniqueIndex_iff.mpr hmark
      obtain ⟨name, hname⟩ := Row.exists_text?_eq (hfirst hmark)
      have hsoles : solesOf ((index, members) :: r) =
          (onlyMember? members).toList ++ solesOf r := by
        rw [solesOf, List.flatMap_cons, if_pos hmark, solesOf]
      rw [if_pos hunique, if_pos hmark, hname, hsoles]
      refine Reads.ofExcept_bind (requiredText_eq_ok hname) (Reads.query_bind ?_)
      cases onlyMember? members with
      | none => exact ih hrest uniques
      | some member =>
        dsimp only
        rw [updateFirst_asUnique hnodup, Option.toList_some, ← List.append_assoc]
        exact ih hrest (uniques ++ [member])
    · have hunique : ¬ isUniqueIndex index = true := mt isUniqueIndex_iff.mp hmark
      have hsoles : solesOf ((index, members) :: r) = solesOf r := by
        rw [solesOf, List.flatMap_cons, if_neg hmark, List.nil_append, solesOf]
      rw [if_neg hunique, if_neg hmark, hsoles]
      exact ih hrest uniques

/-- Rows of columns are read, then the list of indexes, and then what there is to read of them. -/
theorem reads_columns {rows : List Row} {base : List DatabaseColumn}
    (hbase : columnsOfRows table rows = .ok base) (hne : base ≠ [])
    {r : Except Failure (List DatabaseColumn)}
    (h : Reads c (markUnique c table (listed.map (·.1)) base) (inquiries listed) r) :
    Reads c (Sqlite.columns c table) (replies table rows listed) r := by
  refine Reads.query_bind (Reads.ofExcept_bind hbase ?_)
  rw [if_neg (by simpa using hne)]
  exact Reads.query_bind h

/-- The questions are those for the members of indexes that can make columns unique. -/
theorem forall_mem_inquiries {Q : Reply → Prop}
    (h : ∀ p ∈ listed, CanMark p.1 → ∀ name, p.1.text? "name" = some name →
      Q ⟨indexInfoQuery, [.text name], p.2⟩) : ∀ reply ∈ inquiries listed, Q reply := by
  induction listed with
  | nil => simp [inquiries]
  | cons p r ih =>
    obtain ⟨index, members⟩ := p
    obtain ⟨hfirst, hrest⟩ := List.forall_mem_cons.mp h
    rw [inquiries]
    split
    · next hmark =>
      split
      · next name hname => exact List.forall_mem_cons.mpr ⟨hfirst hmark name hname, ih hrest⟩
      · exact List.forall_mem_nil _
    · exact ih hrest

/-- Each index with what it has as its members. -/
def withMembers (members : String → List Row) (indexes : List Row) : List (Row × List Row) :=
  indexes.map fun index => (index, members (textOrEmpty index "name"))

theorem solesOf_withMembers {indexes : List Row} (hmembers : ReportsMembers c s members indexes) :
    solesOf (withMembers members indexes) = soleMembers members indexes := by
  induction indexes with
  | nil => rfl
  | cons index r ih =>
    obtain ⟨hfirst, hrest⟩ := List.forall_mem_cons.mp hmembers
    have hcons : solesOf (withMembers members (index :: r)) =
        (if CanMark index then
          (onlyMember? (members (textOrEmpty index "name"))).toList else []) ++
        solesOf (withMembers members r) := List.flatMap_cons
    rw [hcons, ih hrest, soleMembers, soleMembers]
    by_cases hunique : isUniqueIndex index = true
    · obtain ⟨name, hname, -⟩ := hfirst hunique
      rw [if_pos (isUniqueIndex_iff.mp hunique), textOrEmpty_of_text? hname,
        List.filter_cons_of_pos hunique, List.filterMap_cons, hname, Option.bind_some]
      cases onlyMember? (members name) <;> rfl
    · rw [if_neg (mt isUniqueIndex_iff.mpr hunique), List.filter_cons_of_neg hunique,
        List.nil_append]

/-- The columns of the rows, of which those are unique that are the only members of unique
indexes. -/
theorem finds_columns {rows indexes : List Row}
    (hrows : c.Reports s columnsQuery [.text table] rows) (hcolumns : columnsOfRows table rows = .ok columns)
    (hne : columns ≠ []) (hnodup : (columns.map (·.name)).Nodup)
    (hindexes : c.Reports s indexListQuery [.text table] indexes)
    (hmembers : ReportsMembers c s members indexes) :
    (Sqlite.columns c table).Finds c s (columns.map (marked [] (soleMembers members indexes))) := by
  have hlisted : (withMembers members indexes).map (·.1) = indexes := by
    rw [withMembers, List.map_map]
    exact List.map_id indexes
  have hnamed : ∀ p ∈ withMembers members indexes, CanMark p.1 → ¬ p.1.Lacks "name" := by
    refine List.forall_mem_map.mpr fun index hindex hmark => ?_
    obtain ⟨name, hname, -⟩ := hmembers index hindex (isUniqueIndex_iff.mpr hmark)
    rw [← Row.text?_eq_none, hname]
    exact Option.some_ne_none name
  have hmarks : Reads c (markUnique c table ((withMembers members indexes).map (·.1))
      (columns.map (marked [] []))) (inquiries (withMembers members indexes))
      (.ok (columns.map (marked [] (solesOf (withMembers members indexes))))) :=
    reads_markUnique hnodup hnamed []
  rw [List.map_id'' marked_nil, solesOf_withMembers hmembers] at hmarks
  refine (reads_columns hcolumns hne hmarks).finds ?_
  rw [replies, hlisted]
  refine List.forall_mem_cons.mpr ⟨hrows, List.forall_mem_cons.mpr ⟨hindexes,
    forall_mem_inquiries (List.forall_mem_map.mpr fun index hindex hmark name hname => ?_)⟩⟩
  obtain ⟨name', hname', hreports⟩ := hmembers index hindex (isUniqueIndex_iff.mpr hmark)
  obtain rfl := Option.some.inj (hname.symm.trans hname')
  rwa [textOrEmpty_of_text? hname]

end Sqlite

/-! ### PostgreSQL -/

namespace Postgres

/-- The members of primary keys. -/
def keyMembers (ms listed : List Membership) : List String :=
  (listed.filter fun m => kindOf ms m.constraint == "PRIMARY KEY").map (·.member)

/-- The members of unique constraints without other members. -/
def soleMembers (ms listed : List Membership) : List String :=
  (listed.filter fun m => kindOf ms m.constraint == "UNIQUE" &&
    sizeOf ms m.constraint == 1).map (·.member)

/-- The replies to the two queries of the catalog. -/
def replies (table : String) (rows constraints : List Row) : List Reply :=
  [⟨columnsQuery, [.text table], rows⟩, ⟨constraintsQuery, [.text table], constraints⟩]

variable {columns : List DatabaseColumn} {ms : List Membership}

/-- If the rows of a constraint agree on its kind, then each of them gives it. -/
theorem kindOf_eq_of_uniform
    (huniform : ∀ m ∈ ms, ∀ m' ∈ ms, m.constraint = m'.constraint → m.kind = m'.kind)
    {m : Membership} (hm : m ∈ ms) : kindOf ms m.constraint = m.kind := by
  rw [kindOf]
  cases hfound : ms.find? (·.constraint == m.constraint) with
  | none =>
    have hnone := List.find?_eq_none.mp hfound m hm
    simp at hnone
  | some m' =>
    have hsame : m'.constraint = m.constraint := by
      simpa using List.find?_some hfound
    exact huniform m' (List.mem_of_find?_eq_some hfound) m hm hsame

/-- A constraint with one row has no other. -/
theorem sizeOf_eq_one {m : Membership} (hm : m ∈ ms) :
    sizeOf ms m.constraint = 1 ↔ ms.filter (·.constraint == m.constraint) = [m] := by
  rw [sizeOf, List.length_eq_one_iff]
  constructor
  · rintro ⟨m', hm'⟩
    have hmem : m ∈ ms.filter (·.constraint == m.constraint) :=
      List.mem_filter.mpr ⟨hm, by simp⟩
    rw [hm', List.mem_singleton] at hmem
    rw [hm', hmem]
  · intro h
    exact ⟨m, h⟩

theorem foldl_applyMembership (hnodup : (columns.map (·.name)).Nodup) (listed : List Membership)
    (keys uniques : List String) :
    listed.foldl (applyMembership ms) (columns.map (marked keys uniques)) =
      columns.map (marked (keys ++ keyMembers ms listed) (uniques ++ soleMembers ms listed)) := by
  -- the kinds and sizes are those of all memberships, while the induction is on those to be applied
  induction listed generalizing keys uniques with
  | nil => simp [keyMembers, soleMembers]
  | cons m r ih =>
    rw [List.foldl_cons, applyMembership]
    split
    · next hkey =>
      rw [updateFirst_asKey hnodup, ih]
      simp [keyMembers, soleMembers, hkey]
    · next hkey =>
      split
      · next hunique =>
        rw [updateFirst_asUnique hnodup, ih]
        simp [keyMembers, soleMembers, hunique.1, hunique.2]
      · next hunique =>
        have hkeys : keyMembers ms (m :: r) = keyMembers ms r := by
          rw [keyMembers, List.filter_cons_of_neg (by simpa using hkey)]
          rfl
        have hsole : soleMembers ms (m :: r) = soleMembers ms r := by
          rw [soleMembers, List.filter_cons_of_neg (by simpa using hunique)]
          rfl
        rw [ih, hkeys, hsole]

theorem foldl_applyMembership_eq_map (hnodup : (columns.map (·.name)).Nodup)
    (listed : List Membership) : listed.foldl (applyMembership ms) columns =
      columns.map (marked (keyMembers ms listed) (soleMembers ms listed)) := by
  have hmarks : listed.foldl (applyMembership ms) (columns.map (marked [] [])) = _ :=
    foldl_applyMembership hnodup listed [] []
  rwa [List.map_id'' marked_nil] at hmarks

/-- The rows of columns are read, then those of constraints. -/
theorem reads_columns {rows constraints : List Row}
    (hcolumns : rows.mapM (column table) = .ok columns) (hne : columns ≠ [])
    {read : Except Failure (List Membership)} (hms : constraints.mapM (membership table) = read) :
    Reads c (Postgres.columns c table) (replies table rows constraints)
      (read.map fun ms => applyConstraints ms columns) := by
  refine Reads.query_bind (Reads.ofExcept_bind hcolumns ?_)
  rw [if_neg (by simpa using hne)]
  refine Reads.query_bind ?_
  cases read with
  | ok ms => exact Reads.ofExcept_bind hms (reads_pure _)
  | error f => exact reads_of_error hms _

/-- The columns of the rows, of which those are keys and unique that the constraints say so of. -/
theorem finds_columns {rows constraints : List Row}
    (hrows : c.Reports s columnsQuery [.text table] rows)
    (hcolumns : rows.mapM (column table) = .ok columns) (hne : columns ≠ [])
    (hnodup : (columns.map (·.name)).Nodup)
    (hconstraints : c.Reports s constraintsQuery [.text table] constraints)
    (hmemberships : constraints.mapM (membership table) = .ok ms) :
    (Postgres.columns c table).Finds c s
      (columns.map (marked (keyMembers ms ms) (soleMembers ms ms))) := by
  have hreads := reads_columns (c := c) hcolumns hne hmemberships
  rw [Except.map, applyConstraints, foldl_applyMembership_eq_map hnodup] at hreads
  refine hreads.finds (List.forall_mem_cons.mpr ⟨hrows, ?_⟩)
  rwa [List.forall_mem_singleton]

end Postgres

/-! ### MySQL -/

/-- The columns of the rows. -/
theorem Mysql.finds_columns {rows : List Row} {columns : List DatabaseColumn}
    (hrows : c.Reports s columnsQuery [.text table] rows)
    (hcolumns : rows.mapM (column table) = .ok columns) :
    (Mysql.columns c table).Finds c s columns := by
  have hreads : Reads c (Mysql.columns c table) [⟨columnsQuery, [.text table], rows⟩]
      (.ok columns) := by
    refine Reads.query_bind ?_
    rw [hcolumns]
    exact reads_ofExcept _
  exact hreads.finds (by simpa using hrows)

end Readers

end Catalog

end SchemaKeeper
