/-
What each operation on the ledger does to a table of SQL.

For a ledger that behaves as a table (`SqlLedger`) there is one statement about each
operation of `Ledger`.  It names the calls that are sent, says what they do to the
rows, and which refusal makes the operation fail:

* `statements_definition`, `insertStatement_eq` and `deleteStatement_eq` say that the
  texts which are sent are those that a table of SQL knows,
* `runs_exists?` and `runs_create` are for the table itself,
* `runs_recordApplied` and `runs_recordUnapplied` for its rows,
* `runs_applied`, `runs_latest`, `runs_lastBatch` and `runs_count` for what is read.
-/
import SchemaKeeper.Proofs.Ledger.SqlTable

namespace SchemaKeeper

open SchemaKeeper.Action Ledger

namespace Ledger

/-! ### Texts

What the migrator sends are the texts that a table of SQL knows. -/

theorem items_definition (d : Dialect) (table : String) :
    (definition table).items d = columnSql d := by
  -- the name of the table is of no account
  have hitems : ∀ d, (definition "").items d = columnSql d := by
    intro d
    cases d <;> decide +kernel
  exact hitems d

theorem statements_definition (d : Dialect) (table : String) :
    (definition table).statements d = [createSql d table] := by
  have hcompanions : (definition table).columns.flatMap (d.companions table) = [] := by
    cases d <;> rfl
  have hopen : "CREATE TABLE " ++ Dialect.textIf true "IF NOT EXISTS " =
      "CREATE TABLE IF NOT EXISTS " := by decide
  have hcreate : (definition table).createStatement d = createSql d table := by
    unfold Table.createStatement createSql
    rw [items_definition, ← hopen]
    rfl
  show (definition table).createStatement d ::
    ((definition table).columns.flatMap (d.companions table) ++ []) = _
  rw [hcreate, hcompanions]
  rfl

theorem insertStatement_eq (d : Dialect) (table : String) :
    insertStatement d table = insertSql d table :=
  rfl

theorem deleteStatement_eq (d : Dialect) (table : String) :
    deleteStatement d table = deleteSql d table :=
  rfl

/-! ### Reading rows -/

/-- A record agrees with a row of the ledger. -/
structure Matches (table : String) (r : LedgerRecord) (row : LedgerRow) : Prop where
  id : r.id.toInt = row.id
  version : r.version = row.version
  description : r.description = row.description
  time : appliedAt table row.appliedAt = .ok r.appliedAt
  batch : r.batch = row.batch

theorem record_of_shows (table : String) {found : Row} {row : LedgerRow} (h : Shows found row) :
    (∃ r, record table found = .ok r ∧ Matches table r row) ∨
      ((∃ detail, record table found = .error (.ledger table detail)) ∧ ¬ Readable table row) := by
  obtain ⟨n, hid, hn⟩ := h.id
  -- the cells are there, so it is up to the time alone
  have hrecord : record table found = (appliedAt table row.appliedAt).map fun time =>
      ⟨n, row.version, row.description, time, row.batch⟩ := by
    simp only [record, required, h.appliedAt, hid, h.version, h.batch, h.description, Bind.bind,
      Except.bind]
    cases appliedAt table row.appliedAt <;> rfl
  cases htime : appliedAt table row.appliedAt with
  | ok time => exact .inl ⟨_, by rw [hrecord, htime]; rfl, hn, rfl, rfl, htime, rfl⟩
  | error f =>
    refine .inr ⟨?_, fun ⟨time, h⟩ => by rw [htime] at h; cases h⟩
    obtain ⟨detail, rfl⟩ : ∃ detail, f = .ledger table detail := by
      unfold appliedAt at htime
      split at htime
      · cases htime
      · cases hplain : Moment.readPlain row.appliedAt with
        | ok time => rw [hplain] at htime; cases htime
        | error fault => rw [hplain] at htime; cases htime; exact ⟨_, rfl⟩
    exact ⟨detail, by rw [hrecord, htime]; rfl⟩

/-- The rows of an answer are read in order, unless one of them cannot be read. -/
theorem mapM_record (table : String) {found : List Row} {listed : List LedgerRow}
    (h : List.Forall₂ Shows found listed) :
    (∃ records, found.mapM (record table) = .ok records ∧
        List.Forall₂ (Matches table) records listed) ∨
      ((∃ detail, found.mapM (record table) = .error (.ledger table detail)) ∧
        ∃ row ∈ listed, ¬ Readable table row) := by
  induction h with
  | nil => exact .inl ⟨[], rfl, .nil⟩
  | cons hrow _ ih =>
    rw [List.mapM_cons]
    rcases record_of_shows table hrow with ⟨r, hr, hmatch⟩ | ⟨⟨detail, hr⟩, hunreadable⟩
    · rcases ih with ⟨records, hrecords, hmatches⟩ | ⟨⟨detail, hrecords⟩, row, hmem, hunreadable⟩
      · exact .inl ⟨r :: records, by rw [hr, hrecords]; rfl, .cons hmatch hmatches⟩
      · exact .inr ⟨⟨detail, by rw [hr, hrecords]; rfl⟩, row, List.mem_cons_of_mem _ hmem,
          hunreadable⟩
    · exact .inr ⟨⟨detail, by rw [hr]; rfl⟩, _, List.mem_cons_self, hunreadable⟩

theorem versions_of_matches {table : String} {records : List LedgerRecord} {rows : List LedgerRow}
    (h : List.Forall₂ (Matches table) records rows) :
    records.map (·.version) = rows.map (·.version) :=
  map_eq_of_forall₂ h fun _ _ h => h.version

end Ledger

namespace SqlLedger

variable {σ : Type} {c : Connection σ} {table : String} (L : SqlLedger c table)
  {s : Conversation σ}

/-! ### The table -/

/-- The catalog is asked for the ledger, unless its name is one of blanks. -/
theorem runs_exists? (hs : L.legal s.state) :
    (Ledger.exists? c table).Runs c s fun r l =>
      (∀ call ∈ l, call.verb = .query) ∧
      ((¬ c.Accepts l s.state ∧ ∃ f : Failure, f.OfDatabase ∧ r = .error f) ∨
        (c.Accepts l s.state ∧
          r = .ok (!Catalog.isNoName table && (L.rows? s.state).isSome))) := by
  refine (c.runs_tableExists table s).mono ?_
  rintro r l (⟨hname, rfl, rfl⟩ | ⟨hname, rfl, rfl⟩)
  · exact ⟨by simp, .inr ⟨trivial, by simp [hname]⟩⟩
  · refine ⟨by simp, ?_⟩
    cases hfound : (c.onQuery c.dialect.tableQuery [.text table] s.state).1 with
    | ok found =>
      have hok := c.refusal?_query_eq_none.mpr ⟨found, hfound⟩
      refine .inr ⟨by simp [hok], ?_⟩
      rw [hname, Bool.not_false, Bool.true_and, ← L.find hs hfound]
      rfl
    | error f =>
      have hrefused := c.refusal?_query_eq_some.mpr hfound
      exact .inl ⟨by simp [hrefused], f, L.ofDatabase hs hrefused, rfl⟩

theorem runs_create (hs : L.legal s.state) :
    (Ledger.create c table).Runs c s fun r l =>
      l = [⟨.exec, createSql c.dialect table, []⟩] ∧
      ((¬ c.Accepts l s.state ∧ (∃ detail, r = .error (.ledger table detail)) ∧
          L.rows? (c.after l s.state) = L.rows? s.state) ∨
        (c.Accepts l s.state ∧ r = .ok () ∧
          L.rows? (c.after l s.state) = some ((L.rows? s.state).getD []))) := by
  unfold Ledger.create
  rw [statements_definition]
  refine ((runs_execAll _ 0 s).mapFailure _).bind ?_ ?_
  · rintro n l (⟨_, ⟨⟩, ⟨haccepts, rfl, -⟩ | ⟨_, _, _, -, -, ⟨⟩⟩⟩ | ⟨_, ⟨⟩, -⟩)
    exact runs_pure ⟨rfl, .inr ⟨haccepts, rfl, L.create hs haccepts.1⟩⟩
  · rintro f l (⟨_, ⟨⟩, -⟩ | ⟨f, ⟨⟩, ⟨-, -, _, -, ⟨⟩⟩ | ⟨before, sql, f, hstop, rfl, ⟨⟩⟩⟩)
    -- of a single statement nothing comes before the one that is refused
    obtain ⟨rfl, rfl⟩ : before = [] ∧ sql = createSql c.dialect table := by
      obtain ⟨rest, hrest⟩ := hstop.isPrefix
      cases before with
      | nil => exact ⟨rfl, (List.cons.inj hrest).1⟩
      | cons first r => simp at hrest
    have hrefused : c.refusal? _ s.state = some f := hstop.refused
    refine ⟨rfl, .inl ⟨by simp [hrefused], ⟨_, rfl⟩, L.rows?_refused hs (by simp) hrefused⟩⟩

/-! ### Rows -/

/-- A row is recorded by one call. -/
theorem runs_recordApplied (hs : L.legal s.state) (version description : String) (batch : Int64) :
    (Ledger.recordApplied c table version description batch).Runs c s fun r l =>
      l = [insertCall c.dialect table version description (c.clock s.state).toText batch] ∧
      ((∃ f, c.refusal? (insertCall c.dialect table version description
            (c.clock s.state).toText batch) s.state = some f ∧
          r = .error (.ledger table f.message) ∧
          L.rows? (c.after l s.state) = L.rows? s.state) ∨
        (c.Accepts l s.state ∧ r = .ok () ∧ ∃ rows id, L.rows? s.state = some rows ∧
          (∀ row ∈ rows, row.version ≠ version ∧ row.id < id) ∧
          L.rows? (c.after l s.state) =
            some (rows ++ [⟨id, version, description, (c.clock s.state).toText, batch⟩]))) := by
  refine runs_now.bind ?_ ?_
  · rintro now l ⟨⟨⟩, rfl⟩
    rw [Conversation.extend_nil]
    refine (runs_exec_mapFailure _ _ _).bind ?_ ?_
    · rintro n l ⟨rfl, ⟨_, -, ⟨⟩⟩ | ⟨hok, _, -, ⟨⟩⟩⟩
      exact runs_pure ⟨rfl, .inr ⟨⟨hok, trivial⟩, rfl, L.insert hs hok⟩⟩
    · rintro _ l ⟨rfl, ⟨f, hrefused, ⟨⟩⟩ | ⟨-, _, -, ⟨⟩⟩⟩
      have hsame := L.rows?_refused hs (by simp [insertStatement_eq]) hrefused
      exact ⟨rfl, .inl ⟨f, hrefused, rfl, hsame⟩⟩
  · rintro f l ⟨⟨⟩, -⟩

/-- The row of a version that the ledger has is removed by one call. -/
theorem runs_recordUnapplied (hs : L.legal s.state) {rows : List LedgerRow} {version : String}
    (hrows : L.rows? s.state = some rows) (hversion : ∃ row ∈ rows, row.version = version) :
    (Ledger.recordUnapplied c table version).Runs c s fun r l =>
      l = [deleteCall c.dialect table version] ∧
      ((∃ f, c.refusal? (deleteCall c.dialect table version) s.state = some f ∧
          r = .error (.ledger table f.message) ∧ L.rows? (c.after l s.state) = some rows) ∨
        (c.Accepts l s.state ∧ r = .ok () ∧
          L.rows? (c.after l s.state) = some (rows.filter fun row => row.version ≠ version))) := by
  refine (runs_exec_mapFailure _ _ _).bind ?_ ?_
  · rintro n l ⟨rfl, ⟨_, -, ⟨⟩⟩ | ⟨hok, _, hn, ⟨⟩⟩⟩
    obtain ⟨rows', hrows', hafter, hcount⟩ := L.delete hs hn
    obtain rfl : rows' = rows := Option.some.inj (hrows'.symm.trans hrows)
    -- at least the row itself is deleted
    have hpos : n ≠ 0 := by
      obtain ⟨row, hmem, hrow⟩ := hversion
      have hfound : row ∈ rows'.filter fun r => r.version = version := by simp [hmem, hrow]
      rw [hcount]
      exact Nat.pos_iff_ne_zero.mp (List.length_pos_of_mem hfound)
    refine runs_ite (fun h => absurd h hpos) fun _ => runs_pure ⟨rfl, .inr ?_⟩
    exact ⟨⟨hok, trivial⟩, rfl, hafter⟩
  · rintro _ l ⟨rfl, ⟨f, hrefused, ⟨⟩⟩ | ⟨-, _, -, ⟨⟩⟩⟩
    have hsame := L.rows?_refused hs (by simp [deleteStatement_eq]) hrefused
    exact ⟨rfl, .inl ⟨f, hrefused, rfl, hsame.trans hrows⟩⟩

/-! ### Queries -/

/-- The answer to a query for rows is read, unless the query is refused or a row cannot be read. -/
theorem runs_fetch {sql : String} {args : List Value} (rows : List LedgerRow)
    (Listed : List LedgerRow → Prop)
    (h : ∀ found, (c.onQuery sql args s.state).1 = .ok found →
      ∃ listed, Listed listed ∧ listed ⊆ rows ∧ List.Forall₂ Shows found listed) :
    (Ledger.fetch c table sql args).Runs c s fun r l =>
      l = [⟨.query, sql, args⟩] ∧
      (((¬ c.Accepts l s.state ∨ ∃ row ∈ rows, ¬ Readable table row) ∧
          ∃ detail, r = .error (.ledger table detail)) ∨
        (c.Accepts l s.state ∧ ∃ records listed, r = .ok records ∧ Listed listed ∧
          List.Forall₂ (Matches table) records listed)) := by
  refine (runs_query_mapFailure _ _ _).bind ?_ ?_
  · rintro found l ⟨rfl, ⟨_, -, ⟨⟩⟩ | ⟨hok, _, hfound, ⟨⟩⟩⟩
    obtain ⟨listed, hlisted, hsubset, hshows⟩ := h found hfound
    refine (runs_ofExcept _).mono ?_
    rintro r l ⟨rfl, rfl⟩
    refine ⟨rfl, ?_⟩
    rcases mapM_record table hshows with
      ⟨records, hrecords, hmatches⟩ | ⟨⟨detail, hrecords⟩, row, hmem, hunreadable⟩
    · exact .inr ⟨⟨hok, trivial⟩, records, listed, hrecords, hlisted, hmatches⟩
    · exact .inl ⟨.inr ⟨row, hsubset hmem, hunreadable⟩, detail, hrecords⟩
  · rintro _ l ⟨rfl, ⟨f, hrefused, ⟨⟩⟩ | ⟨-, _, -, ⟨⟩⟩⟩
    exact ⟨rfl, .inl ⟨.inl (by simp [hrefused]), _, rfl⟩⟩

/-- All rows are read, oldest first. -/
theorem runs_applied (hs : L.legal s.state) {rows : List LedgerRow}
    (hrows : L.rows? s.state = some rows) :
    (Ledger.applied c table).Runs c s fun r l =>
      l = [⟨.query, selectSql c.dialect table, []⟩] ∧
      (((¬ c.Accepts l s.state ∨ ∃ row ∈ rows, ¬ Readable table row) ∧
          ∃ detail, r = .error (.ledger table detail)) ∨
        (c.Accepts l s.state ∧ ∃ records listed, r = .ok records ∧
          IsOldestFirst rows listed ∧ List.Forall₂ (Matches table) records listed)) := by
  refine runs_fetch _ _ fun found hfound => ?_
  obtain ⟨listed, hlisted, hshows⟩ := L.selectApplied hs hrows hfound
  exact ⟨listed, hlisted, hlisted.1.subset, hshows⟩

theorem clampInt64_natCast (n : Nat) :
    (Number.clampInt64 n).toInt = (min n (2 ^ 63 - 1) : Nat) := by
  have hmin : Int64.minValue.toInt = -2 ^ 63 := by decide
  have hmax : Int64.maxValue.toInt = 2 ^ 63 - 1 := by decide
  rw [Number.clampInt64, hmin, hmax, Int64.toInt_ofInt_of_le] <;> omega

/-- So many rows are read, newest first; all of them if there are no more. -/
theorem runs_latest (hs : L.legal s.state) {rows : List LedgerRow}
    (hrows : L.rows? s.state = some rows) (n : Nat) :
    (Ledger.latest c table n).Runs c s fun r l =>
      l = [⟨.query, selectLatestSql c.dialect table, [.integer (Number.clampInt64 n)]⟩] ∧
      (((¬ c.Accepts l s.state ∨ ∃ row ∈ rows, ¬ Readable table row) ∧
          ∃ detail, r = .error (.ledger table detail)) ∨
        (c.Accepts l s.state ∧ ∃ records ordered, r = .ok records ∧ IsNewestFirst rows ordered ∧
          List.Forall₂ (Matches table) records (ordered.take n))) := by
  refine (runs_fetch rows (fun listed => ∃ ordered, IsNewestFirst rows ordered ∧
    listed = ordered.take n) fun found hfound => ?_).mono ?_
  · have hclamp := clampInt64_natCast n
    obtain ⟨ordered, hordered, hshows⟩ := L.selectLatest hs hrows (by omega) hfound
    -- a limit that 64 bits cannot hold is more than the number of rows
    have htake : ordered.take (Number.clampInt64 n).toInt.toNat = ordered.take n := by
      have hlength : ordered.length < 2 ^ 63 := hordered.1.length_eq ▸ L.length_lt hs hrows
      rw [hclamp, Int.toNat_natCast, List.take_eq_take_iff]
      omega
    rw [htake] at hshows
    exact ⟨_, ⟨ordered, hordered, rfl⟩,
      fun row hrow => hordered.1.subset (List.mem_of_mem_take hrow), hshows⟩
  · rintro r l ⟨rfl, h⟩
    refine ⟨rfl, h.imp_right ?_⟩
    rintro ⟨haccepts, records, _, hr, ⟨ordered, hordered, rfl⟩, hmatches⟩
    exact ⟨haccepts, records, ordered, hr, hordered, hmatches⟩

/-- A number is read from the first row of an answer. -/
theorem runs_numberOf {sql column : String} (Read : Option Int64 → Prop)
    (h : ∀ found, (c.onQuery sql [] s.state).1 = .ok found →
      ∃ row, found = [row] ∧ Read (row.int? column)) :
    (Ledger.numberOf c table sql column).Runs c s fun r l =>
      l = [⟨.query, sql, []⟩] ∧
      ((¬ c.Accepts l s.state ∧ ∃ detail, r = .error (.ledger table detail)) ∨
        (c.Accepts l s.state ∧ ∃ n?, Read n? ∧ r = .ok (n?.getD 0))) := by
  refine ((runs_queryRow _ _).mapFailure _).bind ?_ ?_
  · rintro row? l (⟨_, ⟨⟩, hrow, rfl⟩ | ⟨_, ⟨⟩, -⟩)
    cases hfound : (c.onQuery sql [] s.state).1 with
    | ok found =>
      obtain ⟨row, rfl, hread⟩ := h found hfound
      rw [hfound] at hrow
      cases hrow
      have hok := c.refusal?_query_eq_none.mpr ⟨_, hfound⟩
      exact runs_pure ⟨rfl, .inr ⟨⟨hok, trivial⟩, _, hread, rfl⟩⟩
    | error f =>
      rw [hfound] at hrow
      cases hrow
  · rintro f l (⟨_, ⟨⟩, -⟩ | ⟨f, ⟨⟩, hf, rfl⟩)
    cases hfound : (c.onQuery sql [] s.state).1 with
    | ok found =>
      rw [hfound] at hf
      cases hf
    | error f' =>
      have hrefused := c.refusal?_query_eq_some.mpr hfound
      exact ⟨rfl, .inl ⟨by simp [hrefused], _, rfl⟩⟩

/-- The highest batch is read, zero if there is none. -/
theorem runs_lastBatch (hs : L.legal s.state) {rows : List LedgerRow}
    (hrows : L.rows? s.state = some rows) :
    (Ledger.lastBatch c table).Runs c s fun r l =>
      l = [⟨.query, selectMaxSql c.dialect table, []⟩] ∧
      ((¬ c.Accepts l s.state ∧ ∃ detail, r = .error (.ledger table detail)) ∨
        (c.Accepts l s.state ∧ ∃ b?, IsMaxBatch rows b? ∧ r = .ok (b?.getD 0))) :=
  runs_numberOf _ fun _ hfound => L.selectMax hs hrows hfound

/-- The rows are counted. -/
theorem runs_count (hs : L.legal s.state) {rows : List LedgerRow}
    (hrows : L.rows? s.state = some rows) :
    (Ledger.count c table).Runs c s fun r l =>
      l = [⟨.query, selectCountSql c.dialect table, []⟩] ∧
      ((¬ c.Accepts l s.state ∧ ∃ detail, r = .error (.ledger table detail)) ∨
        (c.Accepts l s.state ∧ r = .ok rows.length)) := by
  refine (runs_numberOf (fun n? => ∃ n, n? = some n ∧ n.toInt = rows.length) ?_).bind ?_ ?_
  · intro found hfound
    obtain ⟨row, n, rfl, hn, hcount⟩ := L.selectCount hs hrows hfound
    exact ⟨row, rfl, n, hn, hcount⟩
  · rintro n l ⟨rfl, ⟨-, _, ⟨⟩⟩ | ⟨haccepts, n?, ⟨k, rfl, hk⟩, ⟨⟩⟩⟩
    refine runs_pure ⟨rfl, .inr ⟨haccepts, ?_⟩⟩
    rw [Option.getD_some, hk, Int.toNat_natCast]
  · rintro f l ⟨rfl, ⟨hrefused, detail, ⟨⟩⟩ | ⟨-, _, -, ⟨⟩⟩⟩
    exact ⟨rfl, .inl ⟨hrefused, detail, rfl⟩⟩

end SqlLedger

end SchemaKeeper
