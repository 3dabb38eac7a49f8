/-
Round trips.

What `up` has applied sorts above every other row of the ledger
(`Appended.isNewestFirst`), so `down` undoes it and nothing else, whatever batches and
ids the other rows have.

* `Regular` are the ledgers that can be read and have distinct ids and versions,
* `CarriedAll.dated`: the rows that `up` inserts have times that the clock has shown,
* `roundTrips` says this of `up` and `down`, and what `reset` and `fresh` leave,
* `roundTrip_fails`: no call needs to be refused for `down` or `reset` to fail, since the
  description of a migration may, and a ledger under a name of blanks is not found.
-/
import SchemaKeeper.Proofs.Migrator.Succeeding

namespace SchemaKeeper

open SchemaKeeper.Action Ledger SqlLedger

/-- Rows that can be read, of distinct ids and versions, with a batch to come after them. -/
structure Ledger.Regular (table : String) (rows : List LedgerRow) : Prop where
  ids : (rows.map (·.id)).Nodup
  versions : (rows.map (·.version)).Nodup
  readable : ∀ row ∈ rows, Readable table row
  batch_lt : ∀ row ∈ rows, row.batch < Int64.maxValue

namespace Migrator

variable {σ : Type} {c : Connection σ} {m : Migrator} {L : SqlLedger c m.table} {batch : Int64}
  {ps : List Migration} {rows added : List LedgerRow}

/-! ### Rows on top -/

theorem Appended.map_version (h : Appended batch ps rows added) :
    added.map (·.version) = ps.map (·.version) :=
  (map_eq_of_forall₂ h.records fun _ _ hrecords => hrecords.version.symm).symm

/-- What differs between a row and a newer one is still distinct after rows were appended. -/
theorem Appended.nodup_map {α : Type} {g : LedgerRow → α} (h : Appended batch ps rows added)
    (hg : ∀ old new, Newer old new → g old ≠ g new) (hrows : (rows.map g).Nodup) :
    ((rows ++ added).map g).Nodup := by
  rw [List.map_append, List.nodup_append]
  refine ⟨hrows, List.pairwise_map.mpr (h.newer.imp fun hnewer => hg _ _ hnewer), ?_⟩
  intro a ha b hb
  obtain ⟨row, hrow, rfl⟩ := List.mem_map.mp ha
  obtain ⟨new, hnew, rfl⟩ := List.mem_map.mp hb
  exact hg _ _ (h.above row hrow new hnew)

theorem Appended.nodup_ids (h : Appended batch ps rows added) (hids : (rows.map (·.id)).Nodup) :
    ((rows ++ added).map (·.id)).Nodup :=
  h.nodup_map (fun _ _ hnewer => Int.ne_of_lt hnewer.2) hids

theorem Appended.nodup_versions (h : Appended batch ps rows added)
    (hversions : (rows.map (·.version)).Nodup) : ((rows ++ added).map (·.version)).Nodup :=
  h.nodup_map (fun _ _ hnewer => hnewer.1) hversions

theorem Appended.batch_eq (h : Appended batch ps rows added) {new : LedgerRow}
    (hnew : new ∈ added) : new.batch = batch := by
  obtain ⟨p, -, hrecords⟩ := h.exists_of_mem hnew
  exact hrecords.batch

/-- The new rows are in one batch, so they are listed by their ids. -/
theorem Appended.isNewestFirst_reverse (h : Appended batch ps rows added) :
    IsNewestFirst added added.reverse := by
  refine ⟨List.reverse_perm added, List.pairwise_reverse.mpr ?_⟩
  refine h.newer.imp_of_mem fun {a b} ha hb hnewer => .inr ⟨?_, Int.le_of_lt hnewer.2⟩
  rw [h.batch_eq ha, h.batch_eq hb]

/-- The rows of the next batch come first in the order `batch DESC, id DESC`. -/
theorem Appended.isNewestFirst (h : Appended batch ps rows added) (hnext : IsNextBatch rows batch)
    {ordered : List LedgerRow} (hordered : IsNewestFirst rows ordered) :
    IsNewestFirst (rows ++ added) (added.reverse ++ ordered) := by
  have hadded := h.isNewestFirst_reverse
  refine ⟨?_, List.pairwise_append.mpr ⟨hadded.2, hordered.2, ?_⟩⟩
  · exact (List.perm_append_comm).trans (hordered.1.append hadded.1)
  · -- the next batch is above the highest, so that ids do not matter across the two lists
    intro new hnew row hrow
    refine .inl ?_
    rw [h.batch_eq (List.mem_reverse.mp hnew)]
    exact hnext.lt_of_mem (hordered.1.subset hrow)

/-- Without the rows that were appended, those that were there are left. -/
theorem Appended.filter_not_mem (h : Appended batch ps rows added) :
    (rows ++ added).filter (· ∉ added.reverse) = rows := by
  rw [List.filter_append]
  have hrows : rows.filter (· ∉ added.reverse) = rows := by
    refine List.filter_eq_self.mpr fun row hrow => decide_eq_true fun hadded => ?_
    exact (h.above row hrow row (List.mem_reverse.mp hadded)).1 rfl
  have hadded : added.filter (· ∉ added.reverse) = [] :=
    List.filter_eq_nil_iff.mpr fun row hrow => by simpa using hrow
  rw [hrows, hadded, List.append_nil]

/-! ### The times of rows -/

/-- A migration that is carried out gets a row with a time that the clock has shown. -/
theorem Carried.dated {p : Migration} {s : σ} {calls : List Call}
    (h : Carried c (applying c m.table batch) p s calls) (hspares : L.Spares p) (hs : L.legal s)
    (hrows : L.rows? s = some rows) :
    ∃ row t, L.rows? (c.after calls s) = some (rows ++ [row]) ∧ L.legal t ∧
      row.appliedAt = (c.clock t).toText := by
  -- the statements leave the rows as they are, and then comes the insertion
  obtain @⟨sqls, s', hdescribed, -, rfl, hrecorded⟩ := h
  have hs' := legal_after hs (Call.statements sqls)
  obtain ⟨rows', id, hrows', -, hinserted⟩ := L.insert hs' hrecorded
  rw [rows?_after_statements hs (hspares _ _ hdescribed), hrows] at hrows'
  obtain rfl := Option.some.inj hrows'
  rw [c.after_append]
  exact ⟨_, _, hinserted, hs', rfl⟩

/-- The rows of all migrations that are carried out have such times. -/
theorem CarriedAll.dated {s : σ} {calls : List Call}
    (h : CarriedAll c (applying c m.table batch) ps s calls) (hspares : ∀ p ∈ ps, L.Spares p)
    (hs : L.legal s) (hrows : L.rows? s = some rows) :
    ∃ added, L.rows? (c.after calls s) = some (rows ++ added) ∧
      ∀ row ∈ added, ∃ t, L.legal t ∧ row.appliedAt = (c.clock t).toText := by
  induction h generalizing rows with
  | nil => exact ⟨[], by rw [c.after_nil, hrows, List.append_nil], by simp⟩
  | @cons p ps s l k first _ ih =>
    obtain ⟨row, t, hrow, ht, htime⟩ := first.dated (hspares p List.mem_cons_self) hs hrows
    obtain ⟨added, hadded, hdated⟩ :=
      ih (fun q hq => hspares q (List.mem_cons_of_mem _ hq)) (legal_after hs l) hrow
    refine ⟨row :: added, ?_, List.forall_mem_cons.mpr ⟨⟨t, ht, htime⟩, hdated⟩⟩
    rw [c.after_append, hadded, List.append_assoc, List.singleton_append]

/-- With rows of such times, rows can still be read. -/
theorem readable_append
    (htimes : ∀ t, L.legal t → ∃ time, appliedAt m.table (c.clock t).toText = .ok time)
    (hrows : ∀ row ∈ rows, Readable m.table row)
    (hdated : ∀ row ∈ added, ∃ t, L.legal t ∧ row.appliedAt = (c.clock t).toText) :
    ∀ row ∈ rows ++ added, Readable m.table row := by
  intro row hrow
  rcases List.mem_append.mp hrow with hrow | hrow
  · exact hrows row hrow
  · obtain ⟨t, ht, htime⟩ := hdated row hrow
    rw [Readable, htime]
    exact htimes t ht

/-! ### Registered and described migrations -/

/-- A direction can be described for the migrations of given versions. -/
def Described (m : Migrator) (d : Dialect) (direction : Direction) (versions : List String) :
    Prop :=
  ∀ p ∈ m.migrations, p.version ∈ versions → ∃ sqls, p.statements direction d = .ok sqls

/-- Each row names a registered migration. -/
def Registers (m : Migrator) (rows : List LedgerRow) : Prop :=
  ∀ row ∈ rows, ∃ p ∈ m.migrations, p.version = row.version

theorem undoable_of_described {d : Dialect} (hregistered : m.Registers rows)
    (hdescribed : m.Described d .backward (rows.map (·.version))) : m.Undoable d rows := by
  intro row hrow
  cases hp : m.find? row.version with
  | none =>
    obtain ⟨p, hmem, hversion⟩ := hregistered row hrow
    exact absurd hversion (find?_eq_none.mp hp p hmem)
  | some p =>
    obtain ⟨hmem, hversion⟩ := find?_eq_some hp
    exact ⟨p, rfl, hdescribed p hmem (hversion ▸ List.mem_map_of_mem hrow)⟩

/-- A ledger under a name of blanks is not found. -/
theorem ensureLedger_of_isNoName (c : Connection σ) (hname : Catalog.isNoName m.table = true)
    (hauto : m.options.autoCreate = false) : m.ensureLedger c = throw (.ledgerMissing m.table) := by
  unfold ensureLedger Ledger.exists? Connection.tableExists
  rw [if_pos hname, hauto]
  rfl

/-- A ledger under a name of blanks is used only if it may be created. -/
theorem autoCreate_of_up {s s₁ : Conversation σ} {versions : List String}
    (h : m.up c s = (.ok versions, s₁)) :
    m.options.autoCreate = true ∨ Catalog.isNoName m.table = false := by
  refine Decidable.by_contra fun hnot => ?_
  obtain ⟨hauto, hname⟩ := not_or.mp hnot
  unfold up at h
  rw [ensureLedger_of_isNoName c (by simpa using hname) (by simpa using hauto)] at h
  cases (Prod.mk.inj h).1

/-! ### There and back -/

/-- A run that returns. -/
theorem eq_ok_of_toOption {α : Type} {x : Action σ α} {s : Conversation σ} {a : α}
    (h : (x s).1.toOption = some a) : x s = (.ok a, (x s).2) := by
  refine Prod.ext ?_ rfl
  show (x s).1 = .ok a
  cases hr : (x s).1 with
  | ok b =>
    rw [hr] at h
    exact congrArg Except.ok (Option.some.inj h)
  | error f =>
    rw [hr] at h
    cases h

variable {s s₁ : Conversation σ} {versions : List String}

/-- What is left by a run of `up` that returns. -/
theorem appended_of_up (hspares : ∀ p ∈ m.migrations, L.Spares p) (hs : L.legal s.state)
    (hnext : IsNextBatch (L.rowsOf s.state) batch) (hup : m.up c s = (.ok versions, s₁)) :
    ∃ added, Appended batch (m.pendingFor (L.rowsOf s.state)) (L.rowsOf s.state) added ∧
      versions = added.map (·.version) ∧ L.rows? s₁.state = some (L.rowsOf s.state ++ added) ∧
      L.legal s₁.state ∧ ∀ row ∈ added, ∃ t, L.legal t ∧ row.appliedAt = (c.clock t).toText := by
  obtain ⟨r, l, hrun, hcourse⟩ := runs_up hspares hs hnext
  obtain ⟨rfl, rfl⟩ := Prod.mk.inj (hup.symm.trans hrun)
  cases hcourse with
  | @ready lead calls _ _ _ left course =>
    have hs' := legal_after hs lead
    cases course with
    | @finished _ added carried appended left' =>
      obtain ⟨added', hadded', hdated⟩ :=
        carried.dated (fun p hp => hspares p (mem_of_mem_pendingFor hp)) hs' left
      -- both are what the rows have grown by
      obtain rfl := List.append_cancel_left (Option.some.inj (left'.symm.trans hadded'))
      refine ⟨added, appended, appended.map_version.symm, ?_, legal_after hs _, hdated⟩
      rw [Conversation.state_extend, c.after_append]
      exact left'

/-- What `up` has applied is undone, and nothing else. -/
theorem succeeds_down_of_up (hspares : ∀ p ∈ m.migrations, L.Spares p)
    (htimes : ∀ t, L.legal t → ∃ time, appliedAt m.table (c.clock t).toText = .ok time)
    (hs : L.legal s.state) (hregular : Regular m.table (L.rowsOf s.state))
    (hup : m.up c s = (.ok versions, s₁)) (hdescribed : m.Described c.dialect .backward versions) :
    (m.down c versions.length).Succeeds c s₁ fun undone t =>
      undone = versions.reverse ∧ L.rowsOf t = L.rowsOf s.state := by
  obtain ⟨batch, hnext⟩ := exists_isNextBatch hregular.batch_lt
  obtain ⟨added, happended, rfl, hrows, hs₁, hdated⟩ := appended_of_up hspares hs hnext hup
  have hreadable := readable_append htimes hregular.readable hdated
  have ha : L.Available m.options s₁.state :=
    { found := (autoCreate_of_up hup).imp_right fun hname => ⟨hname, _, hrows⟩
      readable := L.rowsOf_eq hrows ▸ hreadable }
  -- the rows that are selected are those that were added, in the reverse of their order
  have hordered := happended.isNewestFirst hnext (isOldestFirst_oldestFirst _).reverse
  have htake : (added.reverse ++ (oldestFirst (L.rowsOf s.state)).reverse).take
      (added.map (·.version)).length = added.reverse :=
    List.take_left' (by simp)
  have hregistered : m.Registers added := fun row hrow => by
    obtain ⟨p, hp, hrecords⟩ := happended.exists_of_mem hrow
    exact ⟨p, mem_of_mem_pendingFor hp, hrecords.version.symm⟩
  have hundoable : m.Undoable c.dialect added.reverse := fun row hrow =>
    undoable_of_described hregistered hdescribed row (List.mem_reverse.mp hrow)
  rw [← htake] at hundoable
  refine (succeeds_down hspares hs₁ ha hrows (happended.nodup_ids hregular.ids)
    (happended.nodup_versions hregular.versions) hordered hundoable).mono ?_
  rintro _ t ⟨rfl, hleft⟩
  rw [htake, happended.filter_not_mem] at hleft
  exact ⟨by rw [htake, List.map_reverse], L.rowsOf_eq hleft⟩

/-- **What was applied can be undone**, whatever ledger it was applied to.  Unless a call is refused
or a description fails, `down` undoes what `up` has applied, and leaves the rows that were there
before; `reset` undoes everything, newest first; and `fresh` leaves one row for each registered
migration, all in batch 1. -/
theorem roundTrips (L : SqlLedger c m.table) (hspares : ∀ p ∈ m.migrations, L.Spares p)
    (htimes : ∀ t, L.legal t → ∃ time, appliedAt m.table (c.clock t).toText = .ok time)
    (s : Conversation σ) (hs : L.legal s.state) (hregular : Regular m.table (L.rowsOf s.state)) :
    (∀ versions s₁, m.up c s = (.ok versions, s₁) → m.Described c.dialect .backward versions →
      (m.down c versions.length).Succeeds c s₁ fun undone t =>
        undone = versions.reverse ∧ L.rowsOf t = L.rowsOf s.state) ∧
    (m.Registers (L.rowsOf s.state) → L.Found m.options s.state →
      m.Described c.dialect .backward ((L.rowsOf s.state).map (·.version)) →
      (∃ ordered, IsNewestFirst (L.rowsOf s.state) ordered ∧
        (m.reset c).Succeeds c s fun undone t =>
          undone = ordered.map (·.version) ∧ L.rows? t = some []) ∧
      (m.Described c.dialect .forward (m.migrations.map (·.version)) →
        ∃ ps, ps.Perm m.migrations ∧
          (ps.Pairwise fun p q => Text.bytes p.version ≤ Text.bytes q.version) ∧
          (m.fresh c).Succeeds c s fun applied t => applied = ps.map (·.version) ∧
            ∃ rows, L.rows? t = some rows ∧ List.Forall₂ (Records 1) ps rows ∧
              (rows.map (·.version)).Nodup)) := by
  refine ⟨fun versions s₁ hup hdescribed =>
    succeeds_down_of_up hspares htimes hs hregular hup hdescribed,
    fun hregistered hfound hbackward => ?_⟩
  have ha : L.Available m.options s.state := ⟨hfound, hregular.readable⟩
  have hordered := (isOldestFirst_oldestFirst (L.rowsOf s.state)).reverse
  have hundoable := undoable_of_described hregistered hbackward
  refine ⟨⟨_, hordered, succeeds_reset hspares hs ha hregular.ids hregular.versions hordered
    hundoable⟩, fun hforward => ?_⟩
  have hpending := m.isPending_pendingFor []
  refine ⟨_, by simpa using hpending.perm, hpending.ascending, ?_⟩
  refine (succeeds_fresh hspares hs ha hregular.ids hregular.versions hordered hundoable
    fun p hp => hforward p hp (List.mem_map_of_mem hp)).mono ?_
  rintro _ t ⟨rfl, added, happended, hrows⟩
  exact ⟨rfl, added, hrows, happended.records, happended.nodup_versions List.nodup_nil⟩

/-- A row in batch 9, and a migration that is applied on top and undone. -/
theorem roundTrips_of_sample :
    let m : Migrator := { migrations := Store.sample.take 2 }
    let c := Store.connection .sqlite m.table ⟨0, 0, 0⟩
    let L := Store.sqlLedger .sqlite m.table ⟨0, 0, 0⟩
    let s : Conversation Store := { state := {
      rows? := some [⟨4, "3_roles", "roles", "2024-05-02 08:30:00", 9⟩]
      nextId := 12 } }
    ∃ s₁, (∀ p ∈ m.migrations, L.Spares p) ∧
      (∀ t, L.legal t → ∃ time, appliedAt m.table (c.clock t).toText = .ok time) ∧
      L.legal s.state ∧ Regular m.table (L.rowsOf s.state) ∧
      m.up c s = (.ok ["4_tags"], s₁) ∧ m.Described .sqlite .backward ["4_tags"] ∧
      (m.down c 1).Succeeds c s₁ (fun undone t =>
        undone = ["4_tags"] ∧ L.rowsOf t = L.rowsOf s.state) ∧
      m.Registers (L.rowsOf s.state) ∧ L.Found m.options s.state ∧
      m.Described .sqlite .backward ((L.rowsOf s.state).map (·.version)) ∧
      m.Described .sqlite .forward (m.migrations.map (·.version)) ∧
      (∃ ordered, IsNewestFirst (L.rowsOf s.state) ordered ∧
        (m.reset c).Succeeds c s fun undone t =>
          undone = ordered.map (·.version) ∧ L.rows? t = some []) ∧
      ∃ ps, ps.Perm m.migrations ∧
        (ps.Pairwise fun p q => Text.bytes p.version ≤ Text.bytes q.version) ∧
        (m.fresh c).Succeeds c s fun applied t => applied = ps.map (·.version) ∧
          ∃ rows, L.rows? t = some rows ∧ List.Forall₂ (Records 1) ps rows ∧
            (rows.map (·.version)).Nodup := by
  intro m c L s
  have hspares : ∀ p ∈ m.migrations, L.Spares p := fun p hp =>
    Store.sample_spares (List.mem_of_mem_take hp)
  have htime : ∃ time, appliedAt "migrations" (Moment.mk 0 0 0).toText = .ok time := ⟨_, rfl⟩
  have htimes : ∀ t, L.legal t → ∃ time, appliedAt m.table (c.clock t).toText = .ok time :=
    fun _ _ => htime
  have hs : L.legal s.state :=
    { nextId_lt := by decide
      length_le := by rintro _ ⟨⟩; decide
      ids := by rintro _ ⟨⟩; decide }
  have hroles : ∃ time, appliedAt "migrations" "2024-05-02 08:30:00" = .ok time := ⟨_, rfl⟩
  have hregular : Regular m.table (L.rowsOf s.state) :=
    { ids := List.nodup_singleton _
      versions := List.nodup_singleton _
      readable := List.forall_mem_singleton.mpr hroles
      batch_lt := List.forall_mem_singleton.mpr (by decide) }
  have hdescribed : ∀ direction versions, m.Described .sqlite direction versions := by
    rintro direction versions p hp -
    simp only [m, Store.sample, List.take_succ_cons, List.take_zero, List.mem_cons,
      List.not_mem_nil, or_false] at hp
    rcases hp with rfl | rfl <;> cases direction <;> exact ⟨_, rfl⟩
  have hregistered : m.Registers (L.rowsOf s.state) :=
    List.forall_mem_singleton.mpr ⟨_, List.mem_cons_self, rfl⟩
  have hfound : L.Found m.options s.state := .inl rfl
  have hsorted : m.sorted = Store.sample.take 2 := List.mergeSort_of_pairwise (by decide)
  have hup : m.up c s = (.ok ["4_tags"], (m.up c s).2) := by
    refine eq_ok_of_toOption ?_
    unfold up
    rw [hsorted]
    unfold m c s
    decide +kernel
  obtain ⟨hdown, hrest⟩ := roundTrips L hspares htimes s hs hregular
  obtain ⟨hreset, hfresh⟩ := hrest hregistered hfound (hdescribed _ _)
  exact ⟨_, hspares, htimes, hs, hregular, hup, hdescribed _ _, hdown _ _ hup (hdescribed _ _),
    hregistered, hfound, hdescribed _ _, hdescribed _ _, hreset, hfresh (hdescribed _ _)⟩

/-- There is no way back where the premises fail, although no call is refused.  SQLite does not
describe how a column is dropped in place, so that `down` fails.  And a ledger under a name of
blanks is not found, so that `reset` fails unless it may be created. -/
theorem roundTrip_fails :
    (let m : Migrator := { migrations := [.ofSteps "1_age" "age of users"
      [.raw "ALTER TABLE users ADD age INTEGER"] [.dropColumn "users" "age"]] }
    let c := Store.connection .sqlite m.table ⟨0, 0, 0⟩
    let L := Store.sqlLedger .sqlite m.table ⟨0, 0, 0⟩
    let s : Conversation Store := { state := { rows? := some [] } }
    let asked : List Call := [⟨.query, catalogSql .sqlite, [.text "migrations"]⟩,
      ⟨.query, selectLatestSql .sqlite "migrations", [.integer 1]⟩]
    ∃ s₁ s₂, (∀ p ∈ m.migrations, L.Spares p) ∧
      (∀ t, L.legal t → ∃ time, appliedAt m.table (c.clock t).toText = .ok time) ∧
      L.legal s.state ∧ Regular m.table (L.rowsOf s.state) ∧
      m.up c s = (.ok ["1_age"], s₁) ∧
      m.down c 1 s₁ = (.error (.migrationFailed "1_age"
        "Cannot drop column 'age' of 'users' in place: table recreation required"), s₂) ∧
      s₂.calls = s₁.calls ++ asked ∧ c.Accepts asked s₁.state ∧
      L.rowsOf s₂.state ≠ L.rowsOf s.state) ∧
    (let m : Migrator := {
      options := { table := " ", autoCreate := false }
      migrations := [.ofSteps "1_age" "age of users" [.raw "ALTER TABLE users ADD age INTEGER"]
        [.raw "ALTER TABLE users DROP COLUMN age"]] }
    let c := Store.connection .sqlite m.table ⟨0, 0, 0⟩
    let L := Store.sqlLedger .sqlite m.table ⟨0, 0, 0⟩
    let s : Conversation Store := { state := {
      rows? := some [⟨1, "1_age", "age of users", "2024-01-01T00:00:00Z", 1⟩]
      nextId := 2 } }
    (∀ p ∈ m.migrations, L.Spares p) ∧
      (∀ t, L.legal t → ∃ time, appliedAt m.table (c.clock t).toText = .ok time) ∧
      L.legal s.state ∧ Regular m.table (L.rowsOf s.state) ∧ m.Registers (L.rowsOf s.state) ∧
      (∀ direction versions, m.Described .sqlite direction versions) ∧
      m.reset c s = (.error (.ledgerMissing " "), s)) := by
  have htime : ∀ table, ∃ time, appliedAt table (Moment.mk 0 0 0).toText = .ok time :=
    fun _ => ⟨_, rfl⟩
  constructor
  · -- the description of the way back fails
    intro m c L s asked
    have hspares : ∀ p ∈ m.migrations, L.Spares p := by
      refine List.forall_mem_singleton.mpr (Store.spares_of_head? fun direction sqls hsqls => ?_)
      cases direction <;> cases hsqls
      decide
    have hs : L.legal s.state := Store.legal_of_rows (by decide) (by decide) (by simp) _
    have hregular : Regular m.table (L.rowsOf s.state) :=
      { ids := List.nodup_nil
        versions := List.nodup_nil
        readable := by rintro row ⟨⟩
        batch_lt := by rintro row ⟨⟩ }
    have hup : m.up c s = (.ok ["1_age"], (m.up c s).2) := by
      refine eq_ok_of_toOption ?_
      unfold m c s
      decide +kernel
    have hdown : (m.down c 1 (m.up c s).2).1 = .error (.migrationFailed "1_age"
        "Cannot drop column 'age' of 'users' in place: table recreation required") := by
      refine Failure.of?_eq_some.mp ?_
      unfold m c s
      decide +kernel
    have hcalls : (m.down c 1 (m.up c s).2).2.calls = (m.up c s).2.calls ++ asked := by
      unfold m c s asked
      decide +kernel
    have haccepts : c.Accepts asked (m.up c s).2.state := by
      refine ⟨?_, ?_, trivial⟩ <;> unfold m c s <;> decide +kernel
    have hleft : (m.down c 1 (m.up c s).2).2.state.rows?.getD [] ≠ [] := by
      unfold m c s
      decide +kernel
    exact ⟨_, _, hspares, fun _ _ => htime _, hs, hregular, hup, Prod.ext hdown rfl, hcalls,
      haccepts, hleft⟩
  · -- the catalog is not even asked for the ledger
    intro m c L s
    have hspares : ∀ p ∈ m.migrations, L.Spares p := by
      refine List.forall_mem_singleton.mpr (Store.spares_of_head? fun direction sqls hsqls => ?_)
      cases direction <;> cases hsqls <;> decide
    have hs : L.legal s.state := Store.legal_of_rows (by decide) (by decide) (by decide) []
    have hread : ∃ time, appliedAt " " "2024-01-01T00:00:00Z" = .ok time := ⟨_, rfl⟩
    have hregular : Regular m.table (L.rowsOf s.state) :=
      { ids := List.nodup_singleton _
        versions := List.nodup_singleton _
        readable := List.forall_mem_singleton.mpr hread
        batch_lt := List.forall_mem_singleton.mpr (by decide) }
    have hregistered : m.Registers (L.rowsOf s.state) :=
      List.forall_mem_singleton.mpr ⟨_, List.mem_cons_self, rfl⟩
    have hdescribed : ∀ direction versions, m.Described .sqlite direction versions := by
      intro direction versions
      refine List.forall_mem_singleton.mpr fun _ => ?_
      cases direction <;> exact ⟨_, rfl⟩
    have hreset : m.reset c s = (.error (.ledgerMissing " "), s) := by
      unfold reset
      rw [ensureLedger_of_isNoName c (by decide +kernel) rfl]
      rfl
    exact ⟨hspares, fun _ _ => htime _, hs, hregular, hregistered, hdescribed, hreset⟩

end Migrator

end SchemaKeeper
