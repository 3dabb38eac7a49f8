/-
Applying what is pending.

`up` gets the ledger ready, reads which versions it has and applies the others,
lowest version first.  Each is run and then recorded, all in one new batch, and
the first that breaks off ends it.

* `IsPending` are the migrations to be applied, `Appended` the rows that record them,
* `Applied` lists the two ways in which applying can come to its end, with the calls,
  the result and the rows,
* `runs_up` is the specification of `up` for the migrations as it lists them, where a batch
  comes after the highest, and `runs_up_of_maxValue` the one where the sum overflows,
* `up_applies_pending` is the former for the migrations as they are registered.
-/
import SchemaKeeper.Proofs.Ledger.Store
import SchemaKeeper.Proofs.Migrator.Carrying
import SchemaKeeper.Proofs.Migrator.Readiness
import SchemaKeeper.Proofs.Text.ByteOrder

namespace SchemaKeeper

open SchemaKeeper.Action Ledger SqlLedger

namespace Migrator

variable {σ : Type}

/-! ### What is pending -/

/-- The migrations that the ledger does not have, lowest version first. -/
structure IsPending (m : Migrator) (rows : List LedgerRow) (ps : List Migration) : Prop where
  perm : ps.Perm (m.migrations.filter fun p => p.version ∉ rows.map (·.version))
  ascending : ps.Pairwise fun p q => Text.bytes p.version ≤ Text.bytes q.version

/-- The migrations that the ledger does not have, as `up` lists them. -/
def pendingFor (m : Migrator) (rows : List LedgerRow) : List Migration :=
  m.sorted.filter fun p => p.version ∉ rows.map (·.version)

theorem ascending_sorted (m : Migrator) :
    m.sorted.Pairwise fun p q => Text.bytes p.version ≤ Text.bytes q.version := by
  have hsorted : m.sorted.Pairwise fun p q => decide (p.version ≤ q.version) = true := by
    refine List.pairwise_mergeSort ?_ ?_ _
    · intro p q r hpq hqr
      exact decide_eq_true ((of_decide_eq_true hpq).trans (of_decide_eq_true hqr))
    · intro p q
      rcases le_total p.version q.version with h | h <;> simp [h]
  exact hsorted.imp fun h => Text.bytes_le_iff.mpr (of_decide_eq_true h)

theorem isPending_pendingFor (m : Migrator) (rows : List LedgerRow) :
    m.IsPending rows (m.pendingFor rows) where
  perm := (List.mergeSort_perm _ _).filter _
  ascending := m.ascending_sorted.sublist List.filter_sublist

/-- The versions may be read in another order than that of the rows. -/
theorem filter_sorted_of_perm {m : Migrator} {rows : List LedgerRow} {versions : List String}
    (h : versions.Perm (rows.map (·.version))) :
    (m.sorted.filter fun p => !versions.contains p.version) = m.pendingFor rows := by
  refine List.filter_congr fun p _ => ?_
  rw [Bool.eq_iff_iff]
  simp [h.mem_iff]

theorem mem_of_mem_pendingFor {m : Migrator} {rows : List LedgerRow} {p : Migration}
    (h : p ∈ m.pendingFor rows) : p ∈ m.migrations :=
  List.mem_of_mem_filter ((m.isPending_pendingFor rows).perm.subset h)

/-! ### Rows that record migrations -/

/-- The row records the migration in a batch. -/
structure Records (batch : Int64) (p : Migration) (row : LedgerRow) : Prop where
  version : row.version = p.version
  description : row.description = p.description
  batch : row.batch = batch

/-- The rows record the migrations in order, and come after the rows that were there. -/
structure Appended (batch : Int64) (ps : List Migration) (rows added : List LedgerRow) : Prop where
  records : List.Forall₂ (Records batch) ps added
  newer : added.Pairwise Newer
  above : ∀ row ∈ rows, ∀ new ∈ added, Newer row new

theorem Appended.nil {batch : Int64} {rows : List LedgerRow} : Appended batch [] rows [] :=
  ⟨.nil, .nil, by simp⟩

theorem Appended.cons {batch : Int64} {p : Migration} {ps : List Migration}
    {rows added : List LedgerRow} {row : LedgerRow} (hrow : Records batch p row)
    (hnew : ∀ r ∈ rows, Newer r row) (h : Appended batch ps (rows ++ [row]) added) :
    Appended batch (p :: ps) rows (row :: added) where
  records := .cons hrow h.records
  newer := .cons (h.above row (by simp)) h.newer
  above r hr new hmem := by
    rcases List.mem_cons.mp hmem with rfl | hmem
    · exact hnew r hr
    · exact h.above r (List.mem_append_left _ hr) new hmem

theorem Appended.exists_of_mem {batch : Int64} {ps : List Migration} {rows added : List LedgerRow}
    (h : Appended batch ps rows added) {row : LedgerRow} (hrow : row ∈ added) :
    ∃ p ∈ ps, Records batch p row :=
  exists_of_forall₂ h.records hrow

/-! ### The course of applying -/

/-- The ways in which migrations `ps` are applied after one another. -/
inductive Applied {c : Connection σ} {table : String} (L : SqlLedger c table) (batch : Int64)
    (ps : List Migration) (s : σ) (rows : List LedgerRow) :
    Except Failure (List String) → List Call → Prop
  /-- All are carried out. -/
  | finished {calls : List Call} {added : List LedgerRow}
      (carried : CarriedAll c (applying c table batch) ps s calls)
      (appended : Appended batch ps rows added)
      (left : L.rows? (c.after calls s) = some (rows ++ added)) :
      Applied L batch ps s rows (.ok (ps.map (·.version))) calls
  /-- Those before `p` are carried out, and `p` breaks off. -/
  | broken {done rest : List Migration} {p : Migration} {calls own : List Call} {f : Failure}
      {added : List LedgerRow} (split : ps = done ++ p :: rest)
      (carried : CarriedAll c (applying c table batch) done s calls)
      (breaks : Breaks c table (applying c table batch) p (c.after calls s) own f)
      (appended : Appended batch done rows added)
      (left : L.rows? (c.after (calls ++ own) s) = some (rows ++ added)) :
      Applied L batch ps s rows (.error f) (calls ++ own)

variable {c : Connection σ} {m : Migrator} {L : SqlLedger c m.table} {s : Conversation σ}

theorem Applied.cons {batch : Int64} {p : Migration} {ps : List Migration} {s : σ}
    {rows : List LedgerRow} {row : LedgerRow} {r : Except Failure (List String)}
    {first calls : List Call} (hfirst : Carried c (applying c m.table batch) p s first)
    (hrow : Records batch p row) (hnew : ∀ old ∈ rows, Newer old row)
    (h : Applied L batch ps (c.after first s) (rows ++ [row]) r calls) :
    Applied L batch (p :: ps) s rows (r.map fun versions => p.version :: versions)
      (first ++ calls) := by
  cases h with
  | finished carried appended left =>
    refine .finished (.cons hfirst carried) (appended.cons hrow hnew) ?_
    rw [Connection.after_append, left, List.append_assoc, List.singleton_append]
  | broken split carried breaks appended left =>
    subst split
    rw [← List.append_assoc]
    rw [← Connection.after_append] at breaks
    refine .broken (List.cons_append ..).symm (.cons hfirst carried) breaks
      (appended.cons hrow hnew) ?_
    rw [List.append_assoc, Connection.after_append, left, List.append_assoc, List.singleton_append]

/-- One migration is applied: it is carried out and gets its row, or it breaks off. -/
theorem runs_apply {batch : Int64} {p : Migration} {rows : List LedgerRow}
    (hspares : L.Spares p) (hs : L.legal s.state) (hrows : L.rows? s.state = some rows) :
    (run c p .forward >>= fun _ =>
        Ledger.recordApplied c m.table p.version p.description batch).Runs c s fun r l =>
      (r = .ok () ∧ Carried c (applying c m.table batch) p s.state l ∧
        ∃ rows', L.rows? (c.after l s.state) = some rows' ∧
          ∃ row, rows' = rows ++ [row] ∧ Records batch p row ∧ ∀ old ∈ rows, Newer old row) ∨
      (∃ f, r = .error f ∧ Breaks c m.table (applying c m.table batch) p s.state l f ∧
        L.rows? (c.after l s.state) = some rows) := by
  refine runs_task (applying c m.table batch) hspares hs hrows fun s' hs' hrows' => ?_
  refine (L.runs_recordApplied hs' p.version p.description batch).mono ?_
  rintro r l ⟨rfl, h⟩
  refine ⟨rfl, h.imp_right ?_⟩
  rintro ⟨haccepts, rfl, rows', id, hrows'', hnew, hafter⟩
  cases hrows'.symm.trans hrows''
  exact ⟨haccepts.1, rfl, _, hafter, _, rfl, ⟨rfl, rfl, rfl⟩, hnew⟩

/-- Migrations are applied up to the first that breaks off. -/
theorem runs_applyAll {batch : Int64} {ps : List Migration} (hspares : ∀ p ∈ ps, L.Spares p)
    {s : Conversation σ} {rows : List LedgerRow} (hs : L.legal s.state)
    (hrows : L.rows? s.state = some rows) :
    (m.applyAll c batch ps).Runs c s (Applied L batch ps s.state rows) := by
  induction ps generalizing s rows with
  | nil => exact runs_pure (.finished .nil .nil (by simpa using hrows))
  | cons p ps ih =>
    have hp : L.Spares p := hspares p List.mem_cons_self
    unfold applyAll
    rw [← bind_assoc]
    refine (runs_apply hp hs hrows).bind ?_ ?_
    · -- the others start from the rows with that of `p`
      rintro _ l (⟨-, hcarried, rows', hrows', row, rfl, hrow, hnew⟩ | ⟨_, ⟨⟩, -⟩)
      have hrest : ∀ q ∈ ps, L.Spares q := fun q hq => hspares q (List.mem_cons_of_mem _ hq)
      rw [bind_pure_comp]
      refine ((ih hrest (s := s.extend c l) (legal_after hs l) hrows').map _).mono ?_
      rintro r k ⟨r, happlied, rfl⟩
      exact happlied.cons hcarried hrow hnew
    · rintro f l (⟨⟨⟩, -⟩ | ⟨_, ⟨⟩, hbreaks, hrows'⟩)
      have hsplit : p :: ps = [] ++ p :: ps := rfl
      rw [← List.nil_append l]
      exact .broken hsplit .nil hbreaks .nil (by rwa [List.append_nil])

/-- `up` reads the ledger, and if something is pending it goes on from the highest batch. -/
theorem runs_up_of_max {b? : Option Int64} (hs : L.legal s.state)
    (hmax : IsMaxBatch (L.rowsOf s.state) b?)
    {Course : σ → Except Failure (List String) → List Call → Prop}
    (hnone : m.pendingFor (L.rowsOf s.state) = [] →
      ∀ s', L.rows? s' = some (L.rowsOf s.state) → Course s' (.ok []) [])
    (hsome : m.pendingFor (L.rowsOf s.state) ≠ [] →
      ∀ s' : Conversation σ, L.legal s'.state → L.rows? s'.state = some (L.rowsOf s.state) →
      (Action.ofExcept (batchAfter (b?.getD 0)) >>= fun batch =>
        m.applyAll c batch (m.pendingFor (L.rowsOf s.state))).Runs c s' (Course s'.state)) :
    (m.up c).Runs c s (L.Readied m.options Course s.state) := by
  unfold up
  refine (prepares_ensureLedger hs).bind_readied hs fun _ s₁ _ hs₁ hrows₁ => ?_
  refine (prepares_appliedVersions hs₁ hrows₁).bind_readied hs₁
    fun versions s₂ hperm hs₂ hrows₂ => ?_
  rw [L.rowsOf_eq hrows₁] at hrows₂
  rw [filter_sorted_of_perm hperm]
  refine runs_ite (fun hempty => ?_) fun hempty => ?_
  · -- nothing is pending, and the batch is not asked for
    have hpending := List.isEmpty_iff.mp hempty
    exact runs_pure (.of_course hrows₂ (hnone hpending _ hrows₂))
  · refine (prepares_lastBatch hs₂ hrows₂).bind_readied hs₂ fun b s₃ hb hs₃ hrows₃ => ?_
    obtain ⟨b?', hmax', rfl⟩ := hb
    obtain rfl := hmax'.unique hmax
    rw [L.rowsOf_eq hrows₂] at hrows₃
    have hpending : m.pendingFor (L.rowsOf s.state) ≠ [] := fun h => hempty (by simp [h])
    exact (hsome hpending s₃ hs₃ hrows₃).mono fun r l h => .of_course hrows₃ h

/-- The specification of `up` where a batch comes after the highest. -/
theorem runs_up {batch : Int64} (hspares : ∀ p ∈ m.migrations, L.Spares p)
    (hs : L.legal s.state) (hbatch : IsNextBatch (L.rowsOf s.state) batch) :
    (m.up c).Runs c s (L.Readied m.options
      (fun s' => Applied L batch (m.pendingFor (L.rowsOf s.state)) s' (L.rowsOf s.state))
      s.state) := by
  have hmax := isMaxBatch_maxBatch? (L.rowsOf s.state)
  refine runs_up_of_max hs hmax (fun hpending s' hrows => ?_) fun _ s' hs' hrows => ?_
  · -- no migration is left, so that the batch is of no account
    rw [hpending]
    exact .finished .nil .nil (by simpa using hrows)
  · rw [hbatch.batchAfter_eq hmax]
    exact runs_applyAll (fun p hp => hspares p (mem_of_mem_pendingFor hp)) hs' hrows

/-- What `up` comes to where no batch comes after the highest: nothing is sent, and what is pending
is not applied. -/
def Overflown (ps : List Migration) (r : Except Failure (List String)) (l : List Call) : Prop :=
  l = [] ∧ (ps = [] ∧ r = .ok [] ∨ ps ≠ [] ∧ r = .error .overflow)

/-- The specification of `up` where no batch comes after the highest. -/
theorem runs_up_of_maxValue (hs : L.legal s.state) {row : LedgerRow}
    (hrow : row ∈ L.rowsOf s.state) (hbatch : row.batch = Int64.maxValue) :
    (m.up c).Runs c s (L.Readied m.options
      (fun _ => Overflown (m.pendingFor (L.rowsOf s.state))) s.state) := by
  have hmax := isMaxBatch_maxBatch? (L.rowsOf s.state)
  refine runs_up_of_max hs hmax (fun hpending s' _ => ⟨rfl, .inl ⟨hpending, rfl⟩⟩)
    fun hpending s' _ _ => ?_
  rw [hmax.batchAfter_eq hrow hbatch]
  exact runs_throw ⟨rfl, .inr ⟨hpending, rfl⟩⟩

/-! ### The result -/

/-- From every ledger, whatever is refused, `up` is hindered before it touches a migration, or
applies what is pending up to the first migration that breaks off.  Each migration that is carried
out gets a row, all in the batch after the highest one. -/
theorem up_applies_pending (L : SqlLedger c m.table) (hspares : ∀ p ∈ m.migrations, L.Spares p)
    (s : Conversation σ) (hs : L.legal s.state)
    (hbatch : ∀ row ∈ L.rowsOf s.state, row.batch < Int64.maxValue) :
    ∃ ps batch r l, m.IsPending (L.rowsOf s.state) ps ∧ IsNextBatch (L.rowsOf s.state) batch ∧
      m.up c s = (r, s.extend c l) ∧
      L.Readied m.options (fun s' => Applied L batch ps s' (L.rowsOf s.state)) s.state r l := by
  obtain ⟨batch, hnext⟩ := exists_isNextBatch hbatch
  obtain ⟨r, l, hup, hcourse⟩ := runs_up hspares hs hnext
  exact ⟨_, batch, r, l, m.isPending_pendingFor _, hnext, hup, hcourse⟩

/-- The second of two insertions is refused, in a ledger that was edited by hand. -/
theorem up_applies_pending_of_sample :
    let m : Migrator := { migrations := Store.sample }
    let c := Store.connection .sqlite m.table ⟨0, 0, 0⟩
    let L := Store.sqlLedger .sqlite m.table ⟨0, 0, 0⟩
    let s : Conversation Store := { state := Store.edited (List.replicate 7 false ++ [true]) }
    (∀ p ∈ m.migrations, L.Spares p) ∧ L.legal s.state ∧
      (∀ row ∈ L.rowsOf s.state, row.batch < Int64.maxValue) ∧
      ∃ ps batch r l, m.IsPending (L.rowsOf s.state) ps ∧ IsNextBatch (L.rowsOf s.state) batch ∧
        m.up c s = (r, s.extend c l) ∧
        L.Readied m.options (fun s' => Applied L batch ps s' (L.rowsOf s.state)) s.state r l := by
  intro m c L s
  have hspares : ∀ p ∈ m.migrations, L.Spares p := fun p hp => Store.sample_spares hp
  have hs : L.legal s.state := Store.legal_edited _
  have hbatch : ∀ row ∈ L.rowsOf s.state, row.batch < Int64.maxValue := by
    show ∀ row ∈ [_, _, _], _
    decide
  exact ⟨hspares, hs, hbatch, up_applies_pending L hspares s hs hbatch⟩

end Migrator

end SchemaKeeper
