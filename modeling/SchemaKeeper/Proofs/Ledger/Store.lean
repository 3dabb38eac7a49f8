/-
A ledger in memory.

`Store` is a database whose only table is the ledger.  It is given beforehand which
calls it refuses, and refuses besides what a table of SQL has to refuse: a version
that is there already, and rows of a table that is missing.

* `Store.connection` is the connection to it, for each dialect and name,
* `Store.sqlLedger`: it behaves as a table of SQL, so the assumptions on a ledger can
  be met whatever is refused.
-/
import SchemaKeeper.Proofs.Ledger.Rows

namespace SchemaKeeper

open Ledger

/-! ### Texts of queries -/

namespace Ledger

/-- Texts differ if their beginnings do. -/
theorem append_ne {s t : String} (n : Nat) (hs : n ≤ s.toList.length) (ht : n ≤ t.toList.length)
    (h : s.toList.take n ≠ t.toList.take n) (u v : String) : s ++ u ≠ t ++ v := by
  intro heq
  have htake := congrArg (fun w : String => w.toList.take n) heq
  simp only [String.toList_append, List.take_append_of_le_length hs,
    List.take_append_of_le_length ht] at htake
  exact h htake

theorem selectMaxSql_ne_selectSql (d : Dialect) (table : String) :
    selectMaxSql d table ≠ selectSql d table := by
  unfold selectMaxSql selectSql
  rw [String.append_assoc]
  exact append_ne 8 (by decide) (by decide) (by decide) _ _

theorem selectCountSql_ne_selectSql (d : Dialect) (table : String) :
    selectCountSql d table ≠ selectSql d table := by
  unfold selectCountSql selectSql
  rw [String.append_assoc]
  exact append_ne 8 (by decide) (by decide) (by decide) _ _

theorem selectCountSql_ne_selectMaxSql (d : Dialect) (table : String) :
    selectCountSql d table ≠ selectMaxSql d table := by
  unfold selectMaxSql selectCountSql
  exact append_ne 8 (by decide) (by decide) (by decide) _ _

end Ledger

/-- A database in memory. -/
structure Store where
  /-- The rows in the order of their insertion; none while there is no such table. -/
  rows? : Option (List LedgerRow) := none
  /-- The id of the next row. -/
  nextId : Nat := 1
  /-- Which of the next calls are refused. -/
  refusals : List Bool := []

namespace Store

/-! ### Answers -/

/-- The cells of a row. -/
def cells (row : LedgerRow) : Row := [
  ("id", .integer (Int64.ofInt row.id)),
  ("version", .text row.version),
  ("description", .text row.description),
  ("applied_at", .text row.appliedAt),
  ("batch", .integer row.batch)]

def create (s : Store) : Store :=
  { s with rows? := some (s.rows?.getD []) }

/-- Inserts a row, whose version has to be new.  The id must not be the last of 64 bits. -/
def insert (version description time : String) (batch : Int64) (s : Store) : Option (Nat × Store) :=
  match s.rows? with
  | some rows =>
    if (∀ row ∈ rows, row.version ≠ version) ∧ s.nextId + 1 < 2 ^ 63 then
      some (1, { s with
        rows? := some (rows ++ [⟨s.nextId, version, description, time, batch⟩])
        nextId := s.nextId + 1 })
    else none
  | none => none

/-- Deletes and counts the rows of a version. -/
def delete (version : String) (s : Store) : Option (Nat × Store) :=
  s.rows?.map fun rows =>
    ((rows.filter fun row => row.version = version).length,
      { s with rows? := some (rows.filter fun row => row.version ≠ version) })

/-- What a statement does; those that are none of the ledger do nothing. -/
def execute (d : Dialect) (table sql : String) (args : List Value) (s : Store) :
    Option (Nat × Store) :=
  match args with
  | [] => some (0, if sql = createSql d table then s.create else s)
  | [.text version, .text description, .text time, .integer batch] =>
    if sql = insertSql d table then s.insert version description time batch else some (0, s)
  | [.text version] => if sql = deleteSql d table then s.delete version else some (0, s)
  | _ => some (0, s)

/-- What a query finds; those that are none on the ledger find nothing. -/
def find (d : Dialect) (table sql : String) (args : List Value) (s : Store) : Option (List Row) :=
  match args with
  | [] =>
    if sql = selectSql d table then
      s.rows?.map fun rows => (oldestFirst rows).map cells
    else if sql = selectMaxSql d table then
      s.rows?.map fun rows =>
        [[("batch", ((maxBatch? rows).map Value.integer).getD .null)]]
    else if sql = selectCountSql d table then
      s.rows?.map fun rows => [[("total", .integer (Int64.ofInt rows.length))]]
    else some []
  | [.text name] =>
    some (if sql = catalogSql d ∧ name = table ∧ s.rows?.isSome then [[("name", .text name)]]
      else [])
  | [.integer n] =>
    if sql = selectLatestSql d table then
      s.rows?.map fun rows =>
        ((oldestFirst rows).reverse.take n.toInt.toNat).map cells
    else some []
  | _ => some []

/-- The store after it was settled whether the next call is refused. -/
def advance (s : Store) : Store :=
  { s with refusals := s.refusals.tail }

/-- The reply to a call: its answer, unless it is to be refused or has none. -/
def reply {α : Type} (sql : String) (answer : Store → Option (α × Store)) (s : Store) :
    Except Failure α × Store :=
  match s.refusals.headD false, answer s.advance with
  | false, some (a, s') => (.ok a, s')
  | _, _ => (.error (.execution sql "refused"), s.advance)

/-- The connection to a database in memory whose clock stands still. -/
def connection (d : Dialect) (table : String) (now : Moment) : Connection Store where
  dialect := d
  onExec sql args := reply sql (execute d table sql args)
  onQuery sql args := reply sql fun s => (find d table sql args s).map fun rows => (rows, s)
  clock _ := now

/-! ### States -/

/-- Ids are numbers of 64 bits and below the next. -/
structure Legal (s : Store) : Prop where
  nextId_lt : s.nextId < 2 ^ 63
  length_le : ∀ rows, s.rows? = some rows → rows.length ≤ s.nextId
  ids : ∀ rows, s.rows? = some rows → ∀ row ∈ rows, 0 ≤ row.id ∧ row.id < s.nextId

variable {s s' : Store}

theorem Legal.create (h : s.Legal) : s.create.Legal where
  nextId_lt := h.nextId_lt
  length_le := by
    rintro _ ⟨⟩
    cases hrows : s.rows? with
    | none => exact Nat.zero_le _
    | some rows => exact h.length_le rows hrows
  ids := by
    rintro _ ⟨⟩
    cases hrows : s.rows? with
    | none => simp
    | some rows => exact h.ids rows hrows

theorem Legal.insert (h : s.Legal) {version description time : String} {batch : Int64} {n : Nat}
    (hs' : s.insert version description time batch = some (n, s')) : s'.Legal := by
  unfold Store.insert at hs'
  split at hs'
  · next rows hrows =>
    split at hs'
    · next hnew =>
      cases hs'
      have hlength := h.length_le rows hrows
      refine ⟨hnew.2, ?_, ?_⟩
      · rintro _ ⟨⟩
        simpa using hlength
      · rintro _ ⟨⟩ row hrow
        rcases List.mem_append.mp hrow with hrow | hrow
        · obtain ⟨hpos, hlt⟩ := h.ids rows hrows row hrow
          exact ⟨hpos, Int.lt_trans hlt (Int.lt_succ _)⟩
        · rw [List.mem_singleton.mp hrow]
          exact ⟨Int.natCast_nonneg _, Int.lt_succ _⟩
    · cases hs'
  · cases hs'

theorem Legal.delete (h : s.Legal) {version : String} {n : Nat}
    (hs' : s.delete version = some (n, s')) : s'.Legal := by
  obtain ⟨rows, hrows, heq⟩ := Option.map_eq_some_iff.mp hs'
  cases heq
  refine ⟨h.nextId_lt, ?_, ?_⟩
  · rintro _ ⟨⟩
    exact Nat.le_trans (List.length_filter_le _ _) (h.length_le rows hrows)
  · rintro _ ⟨⟩ row hrow
    exact h.ids rows hrows row (List.mem_of_mem_filter hrow)

theorem Legal.execute (h : s.Legal) {d : Dialect} {table sql : String} {args : List Value} {n : Nat}
    (hs' : s.execute d table sql args = some (n, s')) : s'.Legal := by
  unfold Store.execute at hs'
  split at hs'
  · cases hs'
    split
    · exact h.create
    · exact h
  · split at hs'
    · exact h.insert hs'
    · cases hs'
      exact h
  · split at hs'
    · exact h.delete hs'
    · cases hs'
      exact h
  · cases hs'
    exact h

theorem Legal.advance (h : s.Legal) : s.advance.Legal :=
  ⟨h.nextId_lt, h.length_le, h.ids⟩

/-! ### Replies -/

theorem reply_cases {α : Type} (sql : String) (answer : Store → Option (α × Store)) (s : Store) :
    (∃ a s', answer s.advance = some (a, s') ∧ reply sql answer s = (.ok a, s')) ∨
      reply sql answer s = (.error (.execution sql "refused"), s.advance) := by
  unfold reply
  split
  · next hanswer => exact .inl ⟨_, _, hanswer, rfl⟩
  · exact .inr rfl

theorem answer_of_reply {α : Type} {sql : String} {answer : Store → Option (α × Store)} {a : α}
    (h : (reply sql answer s).1 = .ok a) :
    answer s.advance = some (a, (reply sql answer s).2) := by
  rcases reply_cases sql answer s with ⟨a', s', hanswer, hreply⟩ | hreply
  · rw [hreply] at h ⊢
    cases h
    exact hanswer
  · rw [hreply] at h
    cases h

theorem reply_of_refused {α : Type} {sql : String} {answer : Store → Option (α × Store)}
    {f : Failure} (h : (reply sql answer s).1 = .error f) :
    f = .execution sql "refused" ∧ (reply sql answer s).2 = s.advance := by
  rcases reply_cases sql answer s with ⟨a', s', hanswer, hreply⟩ | hreply
  · rw [hreply] at h
    cases h
  · rw [hreply] at h ⊢
    cases h
    exact ⟨rfl, rfl⟩

/-! ### Rows -/

theorem shows_cells {row : LedgerRow} (h : 0 ≤ row.id ∧ row.id < 2 ^ 63) :
    Shows (cells row) row := by
  have hid : (Int64.ofInt row.id).toInt = row.id := Int64.toInt_ofInt_of_le (by omega) (by omega)
  refine ⟨⟨_, ?_, hid⟩, ?_, ?_, ?_, ?_⟩ <;>
    simp [Row.int?, Row.text?, Row.cell?, cells, Text.sameName,
      Text.sameLetters, Text.lower, Value.toInt?, Value.toText?]

theorem shows_map_cells {rows : List LedgerRow} (h : ∀ row ∈ rows, 0 ≤ row.id ∧ row.id < 2 ^ 63) :
    List.Forall₂ Shows (rows.map cells) rows := by
  induction rows with
  | nil => exact .nil
  | cons row r ih =>
    exact .cons (shows_cells (h row (by simp))) (ih fun row hrow => h row (by simp [hrow]))

theorem int?_singleton (column : String) (cell : Value) :
    Row.int? [(column, cell)] column = cell.toInt? := by
  simp [Row.int?, Row.cell?, Text.sameName, Text.sameLetters_refl]

/-! ### The table -/

variable {d : Dialect} {table : String} {now : Moment}

theorem rows?_execute_refused {sql : String} {args : List Value} {f : Failure}
    (h : (connection d table now).refusal? ⟨.exec, sql, args⟩ s = some f) :
    (connection d table now).next ⟨.exec, sql, args⟩ s = s.advance :=
  (reply_of_refused (Connection.refusal?_exec_eq_some _ |>.mp h)).2

theorem execute_of_accepted {sql : String} {args : List Value}
    (h : (connection d table now).refusal? ⟨.exec, sql, args⟩ s = none) :
    ∃ n s', s.advance.execute d table sql args = some (n, s') ∧
      (connection d table now).next ⟨.exec, sql, args⟩ s = s' := by
  obtain ⟨n, hn⟩ := Connection.refusal?_exec_eq_none _ |>.mp h
  exact ⟨n, _, answer_of_reply hn, rfl⟩

theorem next_query (sql : String) (args : List Value) :
    (connection d table now).next ⟨.query, sql, args⟩ s = s.advance := by
  show (reply sql _ s).2 = _
  rcases reply_cases sql (fun s => (find d table sql args s).map fun rows => (rows, s)) s with
    ⟨rows, s', hanswer, hreply⟩ | hreply
  · obtain ⟨_, -, heq⟩ := Option.map_eq_some_iff.mp hanswer
    rw [hreply]
    exact (Prod.mk.inj heq).2.symm
  · rw [hreply]

theorem find_of_query {sql : String} {args : List Value} {found : List Row}
    (h : ((connection d table now).onQuery sql args s).1 = .ok found) :
    s.advance.find d table sql args = some found := by
  obtain ⟨rows, hfind, heq⟩ := Option.map_eq_some_iff.mp (answer_of_reply h)
  rw [hfind, (Prod.mk.inj heq).1]

theorem legal_next (hs : s.Legal) (call : Call) : ((connection d table now).next call s).Legal := by
  obtain ⟨verb, sql, args⟩ := call
  cases verb with
  | query =>
    rw [next_query]
    exact hs.advance
  | exec =>
    cases hrefused : (connection d table now).refusal? ⟨.exec, sql, args⟩ s with
    | some f =>
      rw [rows?_execute_refused hrefused]
      exact hs.advance
    | none =>
      obtain ⟨n, s', hn, hnext⟩ := execute_of_accepted hrefused
      rw [hnext]
      exact hs.advance.execute hn

theorem refused_execution {call : Call} {f : Failure}
    (h : (connection d table now).refusal? call s = some f) :
    f = .execution call.sql "refused" := by
  obtain ⟨verb, sql, args⟩ := call
  cases verb with
  | exec => exact (reply_of_refused (Connection.refusal?_exec_eq_some _ |>.mp h)).1
  | query => exact (reply_of_refused (Connection.refusal?_query_eq_some _ |>.mp h)).1

theorem Legal.shows {rows listed : List LedgerRow} (hs : s.Legal) (hrows : s.rows? = some rows)
    (h : listed ⊆ rows) : List.Forall₂ Shows (listed.map cells) listed := by
  refine shows_map_cells fun row hrow => ?_
  have hnext : (s.nextId : Int) < 2 ^ 63 := by exact_mod_cast hs.nextId_lt
  obtain ⟨hpos, hlt⟩ := hs.ids rows hrows row (h hrow)
  exact ⟨hpos, Int.lt_trans hlt hnext⟩

/-- A database in memory behaves as a table of SQL. -/
def sqlLedger (d : Dialect) (table : String) (now : Moment) :
    SqlLedger (connection d table now) table where
  legal := Legal
  rows? := Store.rows?
  legal_next hs call := legal_next hs call
  ofDatabase _ h := by
    rw [refused_execution h]
    trivial
  length_lt hs hrows := Nat.lt_of_le_of_lt (hs.length_le _ hrows) hs.nextId_lt
  rows?_query _ sql args := by
    rw [next_query]
    rfl
  rows?_refused _ _ h := by
    rw [rows?_execute_refused h]
    rfl
  find {s found} _ h := by
    have hfind := find_of_query h
    simp only [Store.find, connection, advance, true_and, Option.some.injEq] at hfind
    rw [← hfind]
    cases s.rows? with
    | none => rfl
    | some rows => rfl
  create _ h := by
    obtain ⟨n, s', hn, hnext⟩ := execute_of_accepted h
    rw [hnext]
    simp only [execute, connection, if_true] at hn
    cases hn
    rfl
  insert {s version description time batch} hs h := by
    obtain ⟨n, s', hn, hnext⟩ := execute_of_accepted h
    rw [insertCall, hnext]
    simp only [execute, connection, if_true, Store.insert] at hn
    split at hn
    · next rows hrows =>
      split at hn
      · next hnew =>
        cases hn
        exact ⟨rows, s.nextId, hrows, fun row hrow =>
          ⟨hnew.1 row hrow, (hs.ids rows hrows row hrow).2⟩, rfl⟩
      · cases hn
    · cases hn
  delete {s version n} _ h := by
    have hdelete : s.advance.delete version = some (n,
        ((connection d table now).onExec (deleteSql d table) [.text version] s).2) := by
      have hexecute := answer_of_reply h
      simpa only [execute, connection, if_true] using hexecute
    obtain ⟨rows, hrows, heq⟩ := Option.map_eq_some_iff.mp hdelete
    refine ⟨rows, hrows, ?_, (Prod.mk.inj heq).1.symm⟩
    show ((connection d table now).onExec (deleteSql d table) [.text version] s).2.rows? = _
    rw [← (Prod.mk.inj heq).2]
  selectApplied {s rows found} hs hrows h := by
    have hfind := find_of_query h
    simp only [Store.find, connection, if_true, advance, hrows, Option.map_some] at hfind
    cases hfind
    exact ⟨oldestFirst rows, isOldestFirst_oldestFirst rows,
      hs.shows hrows (isOldestFirst_oldestFirst rows).1.subset⟩
  selectLatest {s rows found n} hs hrows _ h := by
    have hfind := find_of_query h
    simp only [Store.find, connection, if_true, advance, hrows, Option.map_some] at hfind
    cases hfind
    have hnewest := (isOldestFirst_oldestFirst rows).reverse
    exact ⟨_, hnewest, hs.shows hrows fun row hrow =>
      hnewest.1.subset (List.mem_of_mem_take hrow)⟩
  selectMax {s rows found} _ hrows h := by
    have hfind := find_of_query h
    simp only [Store.find, connection, if_neg (selectMaxSql_ne_selectSql d table), if_true,
      advance, hrows, Option.map_some] at hfind
    cases hfind
    refine ⟨_, rfl, ?_⟩
    rw [int?_singleton]
    have hmax := isMaxBatch_maxBatch? rows
    cases hb : maxBatch? rows <;> rwa [hb] at hmax
  selectCount {s rows found} hs hrows h := by
    have hfind := find_of_query h
    simp only [Store.find, connection, if_neg (selectCountSql_ne_selectSql d table),
      if_neg (selectCountSql_ne_selectMaxSql d table), if_true, advance, hrows,
      Option.map_some] at hfind
    cases hfind
    have hlength := hs.length_le rows hrows
    have hnext := hs.nextId_lt
    exact ⟨_, _, rfl, int?_singleton _ _, Int64.toInt_ofInt_of_le (by omega) (by omega)⟩

/-! ### Statements that do not address the ledger -/

theorem head?_createSql (d : Dialect) (table : String) :
    (createSql d table).toList.head? = some 'C' := by
  unfold createSql
  have hbegins : "CREATE TABLE IF NOT EXISTS ".toList =
      'C' :: "REATE TABLE IF NOT EXISTS ".toList := by decide
  simp only [String.append_assoc, String.toList_append, hbegins, List.cons_append, List.head?_cons]

/-- A statement with another beginning than the one that creates the ledger does not address it. -/
theorem ignores_of_head? {sql : String} (h : sql.toList.head? ≠ some 'C') :
    (sqlLedger d table now).Ignores sql := by
  intro s _
  show ((connection d table now).next ⟨.exec, sql, []⟩ s).rows? = s.rows?
  cases hrefused : (connection d table now).refusal? ⟨.exec, sql, []⟩ s with
  | some f =>
    rw [rows?_execute_refused hrefused]
    rfl
  | none =>
    have hne : sql ≠ createSql d table := fun heq => h (heq ▸ head?_createSql d table)
    obtain ⟨n, s', hn, hnext⟩ := execute_of_accepted hrefused
    rw [execute, if_neg hne] at hn
    cases hn
    rw [hnext]
    rfl

theorem spares_of_head? {p : Migration} (h : ∀ direction sqls,
    p.statements direction d = .ok sqls → ∀ sql ∈ sqls, sql.toList.head? ≠ some 'C') :
    (sqlLedger d table now).Spares p :=
  fun direction sqls hsqls sql hmem => ignores_of_head? (h direction sqls hsqls sql hmem)

/-! ### A sample -/

/-- Migrations that are registered in another order than that of their versions.  One cannot be
undone. -/
def sample : List Migration := [
  { version := "3_roles"
    description := "roles of users"
    up := fun _ => .ok ["ALTER TABLE users ADD role TEXT"]
    down := fun _ => .ok ["ALTER TABLE users DROP COLUMN role"] },
  { version := "4_tags"
    up := fun _ => .ok ["ALTER TABLE users ADD tags TEXT"]
    down := fun _ => .ok ["ALTER TABLE users DROP COLUMN tags"] },
  { version := "1_mail"
    up := fun _ => .ok ["ALTER TABLE users ADD mail TEXT", "UPDATE users SET mail = name"]
    down := fun _ => .ok ["ALTER TABLE users DROP COLUMN mail"] },
  { version := "2_age"
    up := fun _ => .ok ["ALTER TABLE users ADD age INTEGER"]
    down := fun _ => .error (.unsupported "users" "age" "cannot be dropped") }]

theorem sample_spares {p : Migration} (h : p ∈ sample) : (sqlLedger d table now).Spares p := by
  refine spares_of_head? fun direction sqls hsqls => ?_
  simp only [sample, List.mem_cons, List.not_mem_nil, or_false] at h
  rcases h with rfl | rfl | rfl | rfl <;> cases direction <;> cases hsqls <;> decide

theorem legal_missing (refusals : List Bool) : Legal { refusals := refusals } where
  nextId_lt := by simp
  length_le := by
    rintro _ ⟨⟩
  ids := by
    rintro _ ⟨⟩

theorem legal_of_rows {rows : List LedgerRow} {n : Nat} (hn : n < 2 ^ 63)
    (hlength : rows.length ≤ n) (hids : ∀ row ∈ rows, 0 ≤ row.id ∧ row.id < n)
    (refusals : List Bool) :
    Legal { rows? := some rows, nextId := n, refusals := refusals } where
  nextId_lt := hn
  length_le := by
    rintro _ ⟨⟩
    exact hlength
  ids := by
    rintro _ ⟨⟩
    exact hids

/-- A ledger that was edited by hand.  It has a version that is not in the sample, and the highest
id is not in the last row. -/
def edited (refusals : List Bool) : Store where
  rows? := some [
    ⟨4, "2_age", "", "2024-05-02T08:30:00Z", 9⟩,
    ⟨9, "3_roles", "roles of users", "2024-05-02T08:30:01Z", 9⟩,
    ⟨7, "0_users", "users", "2024-05-01 10:00:00", 6⟩]
  nextId := 12
  refusals := refusals

theorem legal_edited (refusals : List Bool) : (edited refusals).Legal :=
  legal_of_rows (by decide) (by decide) (by decide) refusals

end Store

end SchemaKeeper
