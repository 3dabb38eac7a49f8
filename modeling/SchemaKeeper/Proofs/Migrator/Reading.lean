/-
What `status` and `pending` read.

Neither of them sends a statement (`asks_status`, `asks_pending`), and `up` does not
either when nothing is pending (`consults_up`).

* `Action.Consults` is the specification of an action that sends queries alone and
  fails only when one of them is refused,
* `Reports` says what is reported of a migration, and `reports_statusOf` that
  `statusOf` reports it from the records of the rows,
* `pending_foretells_up`: `status` tells the rows of the ledger, `pending` what `up`
  will return, and after it nothing is pending,
* `pending_ne_up`: not so for a ledger under a name of blanks, nor for a migration
  that is not described.
-/
import SchemaKeeper.Proofs.Migrator.RoundTrip

namespace SchemaKeeper

open SchemaKeeper.Action Ledger SqlLedger

/-! ### Actions that consult a database -/

namespace Action

variable {σ α β : Type} {c : Connection σ} {s : Conversation σ}

/-- All calls of the action are queries, and unless one of them is refused it has a result of which
`Q` holds, with the state that it leads to. -/
def Consults (c : Connection σ) (x : Action σ α) (s : Conversation σ) (Q : α → σ → Prop) : Prop :=
  x.Runs c s fun r l => (∀ call ∈ l, call.verb = .query) ∧ Succeeded c s.state Q r l

theorem Consults.mono {x : Action σ α} {P Q : α → σ → Prop} (hx : x.Consults c s P)
    (hPQ : ∀ a t, P a t → Q a t) : x.Consults c s Q :=
  Runs.mono hx fun _ _ h => ⟨h.1, h.2.mono hPQ⟩

theorem consults_pure {a : α} {Q : α → σ → Prop} (h : Q a s.state) : Consults c (pure a) s Q :=
  runs_pure ⟨by simp, .inl ⟨trivial, a, rfl, h⟩⟩

theorem consults_ite {b : Prop} [Decidable b] {x y : Action σ α} {Q : α → σ → Prop}
    (hx : b → x.Consults c s Q) (hy : ¬b → y.Consults c s Q) :
    Consults c (if b then x else y) s Q :=
  runs_ite hx hy

theorem Consults.bind {x : Action σ α} {g : α → Action σ β} {P : α → σ → Prop}
    {Q : β → σ → Prop} (hx : x.Consults c s P)
    (hg : ∀ a l, (∀ call ∈ l, call.verb = .query) → P a (c.after l s.state) →
      (g a).Consults c (s.extend c l) Q) :
    (x >>= g).Consults c s Q := by
  refine Runs.bind hx ?_ ?_
  · rintro a l ⟨hl, ⟨haccepts, _, ⟨⟩, ha⟩ | ⟨-, _, ⟨⟩⟩⟩
    refine Runs.mono (hg a l hl ha) ?_
    rintro r k ⟨hk, h⟩
    exact ⟨List.forall_mem_append.mpr ⟨hl, hk⟩, h.after haccepts⟩
  · rintro f l ⟨hl, ⟨-, _, ⟨⟩, -⟩ | ⟨hrefused, -⟩⟩
    exact ⟨hl, .inr ⟨hrefused, f, rfl⟩⟩

/-- What holds of a run that returns. -/
theorem Consults.of_eq_ok {x : Action σ α} {Q : α → σ → Prop} (hx : x.Consults c s Q) {a : α}
    {s' : Conversation σ} (h : x s = (.ok a, s')) :
    Q a s'.state ∧ ∃ l, s' = s.extend c l := by
  obtain ⟨r, l, hrun, -, hr⟩ := hx
  obtain ⟨rfl, rfl⟩ := Prod.mk.inj (h.symm.trans hrun)
  rcases hr with ⟨-, _, ⟨⟩, ha⟩ | ⟨-, _, ⟨⟩⟩
  exact ⟨ha, l, rfl⟩

end Action

/-! ### Reading the ledger -/

namespace SqlLedger

variable {σ : Type} {c : Connection σ} {table : String} {L : SqlLedger c table}
  {s : Conversation σ}

/-- Queries leave the rows as they are. -/
theorem rows?_of_consults {α : Type} {x : Action σ α} {Q : α → σ → Prop} (hs : L.legal s.state)
    (hx : x.Consults c s Q) :
    x.Consults c s fun a t => Q a t ∧ L.rows? t = L.rows? s.state := by
  refine Runs.mono hx ?_
  rintro r l ⟨hl, ⟨haccepts, a, rfl, ha⟩ | hrefused⟩
  · exact ⟨hl, .inl ⟨haccepts, a, rfl, ha, rows?_after_queries hs hl⟩⟩
  · exact ⟨hl, .inr hrefused⟩

theorem consults_exists? (hs : L.legal s.state) (hname : Catalog.isNoName table = false) :
    (Ledger.exists? c table).Consults c s fun found _ => found = (L.rows? s.state).isSome := by
  refine (L.runs_exists? hs).mono ?_
  rintro r l ⟨hl, ⟨hrefused, f, -, rfl⟩ | ⟨haccepts, rfl⟩⟩
  · exact ⟨hl, .inr ⟨hrefused, f, rfl⟩⟩
  · exact ⟨hl, .inl ⟨haccepts, _, rfl, by rw [hname, Bool.not_false, Bool.true_and]⟩⟩

theorem consults_applied {rows : List LedgerRow} (hs : L.legal s.state)
    (hrows : L.rows? s.state = some rows) (hreadable : ∀ row ∈ rows, Readable table row) :
    (Ledger.applied c table).Consults c s fun records _ =>
      ∃ listed, listed.Perm rows ∧ List.Forall₂ (Matches table) records listed := by
  refine (L.runs_applied hs hrows).mono ?_
  rintro r l ⟨rfl, ⟨hrefused | ⟨row, hrow, hunreadable⟩, detail, rfl⟩ |
    ⟨haccepts, records, listed, rfl, hlisted, hmatches⟩⟩
  · exact ⟨by simp, .inr ⟨hrefused, _, rfl⟩⟩
  · exact absurd (hreadable row hrow) hunreadable
  · exact ⟨by simp, .inl ⟨haccepts, records, rfl, listed, hlisted.1, hmatches⟩⟩

theorem consults_appliedVersions {rows : List LedgerRow} (hs : L.legal s.state)
    (hrows : L.rows? s.state = some rows) (hreadable : ∀ row ∈ rows, Readable table row) :
    (Ledger.appliedVersions c table).Consults c s fun versions _ =>
      versions.Perm (rows.map (·.version)) := by
  refine (consults_applied hs hrows hreadable).bind fun records l _ ⟨listed, hlisted, hmatches⟩ =>
    consults_pure ?_
  rw [versions_of_matches hmatches]
  exact hlisted.map _

end SqlLedger

namespace Migrator

variable {σ : Type}

/-! ### No statement is sent -/

section Asking

variable (m : Migrator) (c : Connection σ)

theorem asks_status : Asks c (m.status c) := by
  have hrecords : AsksAlike c c (Ledger.applied c m.table) (Ledger.applied c m.table) :=
    (AsksAlike.mapFailure (asksAlike_query _ _) _).bind fun _ => asksAlike_ofExcept _
  refine AsksAlike.asks ((c.asksAlike_tableExists m.table rfl).bind fun found => ?_)
  exact asksAlike_ite (hrecords.bind fun _ => asksAlike_pure _)
    ((asksAlike_pure _).bind fun _ => asksAlike_pure _)

theorem asks_pending : Asks c (m.pending c) := by
  intro s
  refine (m.asks_status c s).bind (fun statuses l hl => runs_pure ?_) fun f l hl => hl
  rwa [List.append_nil]

end Asking

/-! ### What is reported of a migration -/

/-- What is reported of a migration, given the rows of the ledger. -/
inductive Reports (table : String) (rows : List LedgerRow) (p : Migration) :
    MigrationStatus → Prop
  /-- It has a row, which has the batch and the time. -/
  | applied {row : LedgerRow} {time : Moment} (mem : row ∈ rows) (version : row.version = p.version)
      (read : appliedAt table row.appliedAt = .ok time) :
      Reports table rows p ⟨p.version, p.description, true, some row.batch, some time⟩
  /-- It has none. -/
  | pending (missing : p.version ∉ rows.map (·.version)) :
      Reports table rows p ⟨p.version, p.description, false, none, none⟩

variable {m : Migrator} {rows : List LedgerRow} {records : List LedgerRecord} {p : Migration}

theorem statusOf_of_not_mem (h : p.version ∉ records.map (·.version)) :
    statusOf records p = ⟨p.version, p.description, false, none, none⟩ := by
  have hnone : records.filter (·.version == p.version) = [] := by
    refine List.filter_eq_nil_iff.mpr fun r hr heq => h ?_
    rw [← eq_of_beq heq]
    exact List.mem_map_of_mem hr
  unfold statusOf
  rw [hnone]
  rfl

/-- Of distinct versions, the last record of one is the only one. -/
theorem statusOf_of_mem (hversions : (records.map (·.version)).Nodup) {r : LedgerRecord}
    (hr : r ∈ records) (hversion : r.version = p.version) :
    statusOf records p = ⟨p.version, p.description, true, some r.batch, some r.appliedAt⟩ := by
  have hlast : (records.filter (·.version == p.version)).getLast? = some r := by
    have hmem : r ∈ records.filter (·.version == p.version) :=
      List.mem_filter.mpr ⟨hr, beq_iff_eq.mpr hversion⟩
    obtain ⟨last, hlast⟩ :=
      Option.isSome_iff_exists.mp (List.getLast?_isSome.mpr (List.ne_nil_of_mem hmem))
    obtain ⟨hmem', heq⟩ := List.mem_filter.mp (List.mem_of_getLast? hlast)
    rw [hlast, List.inj_on_of_nodup_map hversions hmem' hr ((eq_of_beq heq).trans hversion.symm)]
  unfold statusOf
  rw [hlast]
  rfl

/-- From records of the rows, in any order, the rows are reported. -/
theorem reports_statusOf {table : String} {listed : List LedgerRow} (hlisted : listed.Perm rows)
    (hmatches : List.Forall₂ (Matches table) records listed)
    (hversions : (rows.map (·.version)).Nodup) (p : Migration) :
    Reports table rows p (statusOf records p) := by
  have hperm : (records.map (·.version)).Perm (rows.map (·.version)) := by
    rw [versions_of_matches hmatches]
    exact hlisted.map _
  by_cases hmem : p.version ∈ records.map (·.version)
  · obtain ⟨r, hr, hversion⟩ := List.mem_map.mp hmem
    obtain ⟨row, hrow, hmatch⟩ := exists_of_forall₂ hmatches.flip hr
    rw [statusOf_of_mem (hperm.nodup_iff.mpr hversions) hr hversion, hmatch.batch]
    exact .applied (hlisted.subset hrow) (hmatch.version.symm.trans hversion) hmatch.time
  · rw [statusOf_of_not_mem hmem]
    exact .pending fun h => hmem (hperm.mem_iff.mpr h)

/-- Those that are not reported as applied have no row. -/
theorem map_version_of_reports {table : String} {ps : List Migration}
    {statuses : List MigrationStatus} (h : List.Forall₂ (Reports table rows) ps statuses) :
    (statuses.filter (!·.applied)).map (·.version) =
      (ps.filter fun p => p.version ∉ rows.map (·.version)).map (·.version) := by
  induction h with
  | nil => rfl
  | @cons p status ps statuses hfirst _ ih =>
    cases hfirst with
    | applied mem version read =>
      have hmem : p.version ∈ rows.map (·.version) := version ▸ List.mem_map_of_mem mem
      rw [List.filter_cons_of_neg (by simp), List.filter_cons_of_neg (by simpa using hmem), ih]
    | pending missing =>
      rw [List.filter_cons_of_pos (by simp), List.filter_cons_of_pos (by simpa using missing),
        List.map_cons, List.map_cons, ih]

/-! ### Reading the status -/

variable {c : Connection σ} {L : SqlLedger c m.table} {s : Conversation σ}

theorem consults_status (hs : L.legal s.state) (hname : Catalog.isNoName m.table = false)
    (hversions : ((L.rowsOf s.state).map (·.version)).Nodup)
    (hreadable : ∀ row ∈ L.rowsOf s.state, Readable m.table row) :
    (m.status c).Consults c s fun statuses _ =>
      List.Forall₂ (Reports m.table (L.rowsOf s.state)) m.sorted statuses := by
  -- the migrations are reported one by one, from the same records
  have hreports : ∀ {records listed}, listed.Perm (L.rowsOf s.state) →
      List.Forall₂ (Matches m.table) records listed →
      List.Forall₂ (Reports m.table (L.rowsOf s.state)) m.sorted
        (m.sorted.map (statusOf records)) := fun hlisted hmatches =>
    forall₂_map_self fun p _ => reports_statusOf hlisted hmatches hversions p
  unfold status
  refine (consults_exists? hs hname).bind fun found l hl hfound => ?_
  have hs₁ : L.legal (s.extend c l).state := legal_after hs l
  have hsame : L.rows? (s.extend c l).state = L.rows? s.state := rows?_after_queries hs hl
  refine consults_ite (fun h => ?_) fun h => ?_
  · obtain ⟨rows, hrows⟩ := Option.isSome_iff_exists.mp (hfound ▸ h)
    rw [L.rowsOf_eq hrows] at hreadable hreports
    refine (consults_applied hs₁ (hsame.trans hrows) hreadable).bind
      fun records k _ ⟨listed, hlisted, hmatches⟩ => consults_pure ?_
    rw [L.rowsOf_eq hrows]
    exact hreports hlisted hmatches
  · -- a ledger that is missing has no rows
    have hnone : L.rowsOf s.state = [] := by
      rw [hfound, Bool.not_eq_true, Option.isSome_eq_false_iff, Option.isNone_iff_eq_none] at h
      rw [rowsOf, h, Option.getD_none]
    rw [pure_bind]
    exact consults_pure (hreports (hnone ▸ .nil) .nil)

theorem consults_pending (hs : L.legal s.state) (hname : Catalog.isNoName m.table = false)
    (hversions : ((L.rowsOf s.state).map (·.version)).Nodup)
    (hreadable : ∀ row ∈ L.rowsOf s.state, Readable m.table row) :
    (m.pending c).Consults c s fun versions _ =>
      versions = (m.pendingFor (L.rowsOf s.state)).map (·.version) :=
  (consults_status hs hname hversions hreadable).bind fun _ _ _ h =>
    consults_pure (map_version_of_reports h)

theorem consults_ensureLedger {rows : List LedgerRow} (hs : L.legal s.state)
    (hname : Catalog.isNoName m.table = false) (hrows : L.rows? s.state = some rows) :
    (m.ensureLedger c).Consults c s fun _ _ => True := by
  unfold ensureLedger
  refine (consults_exists? hs hname).bind fun found l _ hfound => ?_
  rw [hfound, hrows, Option.isSome_some, if_pos rfl]
  exact consults_pure trivial

/-- `up` sends no statement when nothing is pending. -/
theorem consults_up {rows : List LedgerRow} (hs : L.legal s.state)
    (hname : Catalog.isNoName m.table = false) (hrows : L.rows? s.state = some rows)
    (hreadable : ∀ row ∈ rows, Readable m.table row) (hnone : m.pendingFor rows = []) :
    (m.up c).Consults c s fun versions _ => versions = [] := by
  unfold up
  refine (consults_ensureLedger hs hname hrows).bind fun _ l hl _ => ?_
  have hs₁ : L.legal (s.extend c l).state := legal_after hs l
  have hrows₁ : L.rows? (s.extend c l).state = some rows := (rows?_after_queries hs hl).trans hrows
  refine (consults_appliedVersions hs₁ hrows₁ hreadable).bind fun versions k _ hperm => ?_
  rw [filter_sorted_of_perm hperm, hnone]
  exact consults_pure rfl

/-! ### Before and after `up` -/

/-- Nothing is pending any more when the rows are there that record what was. -/
theorem pendingFor_append {batch : Int64} {added : List LedgerRow}
    (h : Appended batch (m.pendingFor rows) rows added) : m.pendingFor (rows ++ added) = [] := by
  refine List.filter_eq_nil_iff.mpr fun p hp hmissing => ?_
  rw [decide_eq_true_eq, List.map_append, List.mem_append, not_or, h.map_version] at hmissing
  obtain ⟨hrows, hadded⟩ := hmissing
  exact hadded (List.mem_map_of_mem (List.mem_filter.mpr ⟨hp, decide_eq_true hrows⟩))

/-- After `up` nothing is pending, and another `up` has nothing to do. -/
theorem settled_of_up (hspares : ∀ p ∈ m.migrations, L.Spares p)
    (htimes : ∀ t, L.legal t → ∃ time, appliedAt m.table (c.clock t).toText = .ok time)
    (hname : Catalog.isNoName m.table = false) (hs : L.legal s.state)
    (hversions : ((L.rowsOf s.state).map (·.version)).Nodup)
    (hreadable : ∀ row ∈ L.rowsOf s.state, Readable m.table row)
    (hbatch : ∀ row ∈ L.rowsOf s.state, row.batch < Int64.maxValue) {versions : List String}
    {s₁ : Conversation σ} (hup : m.up c s = (.ok versions, s₁)) :
    (m.pending c).Consults c s₁ (fun left t => left = [] ∧ L.rows? t = L.rows? s₁.state) ∧
      (m.up c).Consults c s₁ (fun again t => again = [] ∧ L.rows? t = L.rows? s₁.state) := by
  obtain ⟨batch, hnext⟩ := exists_isNextBatch hbatch
  obtain ⟨added, happended, -, hrows, hs₁, hdated⟩ := appended_of_up hspares hs hnext hup
  have hnone := pendingFor_append happended
  have hreadable₁ := readable_append htimes hreadable hdated
  have hversions₁ := happended.nodup_versions hversions
  refine ⟨rows?_of_consults hs₁ ?_,
    rows?_of_consults hs₁ (consults_up hs₁ hname hrows hreadable₁ hnone)⟩
  rw [← L.rowsOf_eq hrows] at hnone hreadable₁ hversions₁
  refine (consults_pending hs₁ hname hversions₁ hreadable₁).mono ?_
  rintro _ t rfl
  rw [hnone, List.map_nil]

/-- Of distinct versions, each is above those before it. -/
theorem ascending_sorted_of_nodup (hdistinct : (m.migrations.map (·.version)).Nodup) :
    m.sorted.Pairwise fun p q => Text.bytes p.version < Text.bytes q.version := by
  have hnodup : (m.sorted.map (·.version)).Nodup :=
    ((List.mergeSort_perm m.migrations _).map _).nodup_iff.mpr hdistinct
  refine (m.ascending_sorted.and (List.pairwise_map.mp hnodup)).imp fun ⟨hle, hne⟩ => ?_
  exact Text.bytes_lt (lt_of_le_of_ne (Text.bytes_le_iff.mp hle) hne)

/-- **What is reported is what the ledger says**, and what is pending is what `up` returns, unless
a call is refused or a description fails.  Afterwards nothing is pending, and another `up` sends
queries alone and changes no row.  Nor do `status` and `pending` send statements, whatever the
database answers. -/
theorem pending_foretells_up (L : SqlLedger c m.table) (hspares : ∀ p ∈ m.migrations, L.Spares p)
    (htimes : ∀ t, L.legal t → ∃ time, appliedAt m.table (c.clock t).toText = .ok time)
    (hname : Catalog.isNoName m.table = false) (s : Conversation σ) (hs : L.legal s.state)
    (hversions : ((L.rowsOf s.state).map (·.version)).Nodup)
    (hreadable : ∀ row ∈ L.rowsOf s.state, Readable m.table row)
    (hbatch : ∀ row ∈ L.rowsOf s.state, row.batch < Int64.maxValue) :
    (∃ ps, ps.Perm m.migrations ∧
      (ps.Pairwise fun p q => Text.bytes p.version ≤ Text.bytes q.version) ∧
      ((m.migrations.map (·.version)).Nodup →
        ps.Pairwise fun p q => Text.bytes p.version < Text.bytes q.version) ∧
      (m.status c).Consults c s fun statuses t =>
        List.Forall₂ (Reports m.table (L.rowsOf s.state)) ps statuses ∧
          L.rows? t = L.rows? s.state) ∧
    (∃ ps, m.IsPending (L.rowsOf s.state) ps ∧
      (m.pending c).Consults c s fun versions t =>
        versions = ps.map (·.version) ∧ L.rows? t = L.rows? s.state) ∧
    (∀ versions s₁, m.pending c s = (.ok versions, s₁) →
      (L.Found m.options s.state → m.Described c.dialect .forward versions →
        (m.up c).Succeeds c s₁ fun applied _ => applied = versions) ∧
      ∀ applied s₂, m.up c s₁ = (.ok applied, s₂) →
        (m.pending c).Consults c s₂ (fun left t => left = [] ∧ L.rows? t = L.rows? s₂.state) ∧
        (m.up c).Consults c s₂ (fun again t => again = [] ∧ L.rows? t = L.rows? s₂.state)) ∧
    ∀ {τ : Type} (k : Connection τ), Asks k (m.status k) ∧ Asks k (m.pending k) := by
  have hstatus := rows?_of_consults hs (consults_status hs hname hversions hreadable)
  have hpending := rows?_of_consults hs (consults_pending hs hname hversions hreadable)
  refine ⟨⟨m.sorted, List.mergeSort_perm _ _, m.ascending_sorted, ascending_sorted_of_nodup,
    hstatus⟩, ⟨_, m.isPending_pendingFor _, hpending⟩, fun versions s₁ hrun => ?_,
    fun k => ⟨m.asks_status k, m.asks_pending k⟩⟩
  -- `up` starts from the rows that `pending` has read
  obtain ⟨⟨rfl, hrows⟩, l, rfl⟩ := hpending.of_eq_ok hrun
  have hs₁ : L.legal (s.extend c l).state := legal_after hs l
  have hsame : L.rowsOf (s.extend c l).state = L.rowsOf s.state := L.rowsOf_congr hrows
  rw [← hsame] at hversions hreadable hbatch ⊢
  refine ⟨fun hfound hdescribed => ?_, fun applied s₂ hup =>
    settled_of_up hspares htimes hname hs₁ hversions hreadable hbatch hup⟩
  obtain ⟨batch, hnext⟩ := exists_isNextBatch hbatch
  have ha : L.Available m.options (s.extend c l).state :=
    { found := hfound.imp_right fun ⟨hname, rows, h⟩ => ⟨hname, rows, hrows.trans h⟩
      readable := hreadable }
  refine (succeeds_up hspares hs₁ ha hnext fun p hp => ?_).mono fun _ _ h => h.1
  exact hdescribed p (mem_of_mem_pendingFor hp) (List.mem_map_of_mem hp)

/-- Of two migrations one has a row, which was written by hand. -/
theorem pending_foretells_up_of_sample :
    let m : Migrator := { migrations := Store.sample.take 2 }
    let c := Store.connection .sqlite m.table ⟨0, 0, 0⟩
    let L := Store.sqlLedger .sqlite m.table ⟨0, 0, 0⟩
    let s : Conversation Store := { state := {
      rows? := some [⟨4, "3_roles", "roles", "2024-05-02 08:30:00", 9⟩]
      nextId := 12 } }
    ∃ s₁ s₂, (∀ p ∈ m.migrations, L.Spares p) ∧
      (∀ t, L.legal t → ∃ time, appliedAt m.table (c.clock t).toText = .ok time) ∧
      Catalog.isNoName m.table = false ∧ L.legal s.state ∧
      ((L.rowsOf s.state).map (·.version)).Nodup ∧
      (∀ row ∈ L.rowsOf s.state, Readable m.table row) ∧
      (∀ row ∈ L.rowsOf s.state, row.batch < Int64.maxValue) ∧
      (m.migrations.map (·.version)).Nodup ∧ m.pending c s = (.ok ["4_tags"], s₁) ∧
      L.Found m.options s.state ∧ m.Described .sqlite .forward ["4_tags"] ∧
      m.up c s₁ = (.ok ["4_tags"], s₂) ∧
      (∃ ps, ps.Perm m.migrations ∧
        (ps.Pairwise fun p q => Text.bytes p.version < Text.bytes q.version) ∧
        (m.status c).Consults c s fun statuses t =>
          List.Forall₂ (Reports m.table (L.rowsOf s.state)) ps statuses ∧
            L.rows? t = L.rows? s.state) ∧
      (m.up c).Succeeds c s₁ (fun applied _ => applied = ["4_tags"]) ∧
      (m.pending c).Consults c s₂ (fun left t => left = [] ∧ L.rows? t = L.rows? s₂.state) ∧
      (m.up c).Consults c s₂ (fun again t => again = [] ∧ L.rows? t = L.rows? s₂.state) ∧
      Asks c (m.status c) := by
  intro m c L s
  have hspares : ∀ p ∈ m.migrations, L.Spares p := fun p hp =>
    Store.sample_spares (List.mem_of_mem_take hp)
  have htime : ∃ time, appliedAt "migrations" (Moment.mk 0 0 0).toText = .ok time := ⟨_, rfl⟩
  have htimes : ∀ t, L.legal t → ∃ time, appliedAt m.table (c.clock t).toText = .ok time :=
    fun _ _ => htime
  have hname : Catalog.isNoName m.table = false := by decide
  have hs : L.legal s.state := Store.legal_of_rows (by decide) (by decide) (by decide) _
  have hversions : ((L.rowsOf s.state).map (·.version)).Nodup := List.nodup_singleton _
  have hroles : ∃ time, appliedAt "migrations" "2024-05-02 08:30:00" = .ok time := ⟨_, rfl⟩
  have hreadable : ∀ row ∈ L.rowsOf s.state, Readable m.table row :=
    List.forall_mem_singleton.mpr hroles
  have hbatch : ∀ row ∈ L.rowsOf s.state, row.batch < Int64.maxValue :=
    List.forall_mem_singleton.mpr (by decide)
  have hdistinct : (m.migrations.map (·.version)).Nodup := by decide
  have hdescribed : m.Described .sqlite .forward ["4_tags"] := by
    rintro p hp -
    simp only [m, Store.sample, List.take_succ_cons, List.take_zero, List.mem_cons,
      List.not_mem_nil, or_false] at hp
    rcases hp with rfl | rfl <;> exact ⟨_, rfl⟩
  have hsorted : m.sorted = Store.sample.take 2 := List.mergeSort_of_pairwise (by decide)
  have hpending : m.pending c s = (.ok ["4_tags"], (m.pending c s).2) := by
    refine eq_ok_of_toOption ?_
    unfold pending status
    rw [hsorted]
    unfold m c s
    decide +kernel
  have hup : m.up c (m.pending c s).2 = (.ok ["4_tags"], (m.up c (m.pending c s).2).2) := by
    refine eq_ok_of_toOption ?_
    unfold up pending status
    rw [hsorted]
    unfold m c s
    decide +kernel
  obtain ⟨⟨ps, hperm, -, hascending, hstatus⟩, -, hnext, hasks⟩ :=
    pending_foretells_up L hspares htimes hname s hs hversions hreadable hbatch
  obtain ⟨hforetold, hsettled⟩ := hnext _ _ hpending
  obtain ⟨hleft, hagain⟩ := hsettled _ _ hup
  exact ⟨_, _, hspares, htimes, hname, hs, hversions, hreadable, hbatch, hdistinct, hpending,
    .inl rfl, hdescribed, hup, ⟨ps, hperm, hascending hdistinct, hstatus⟩,
    hforetold (.inl rfl) hdescribed, hleft, hagain, (hasks c).1⟩

/-- What is pending is not what `up` returns where the premises fail.  A ledger under a name of
blanks is created and written, but `pending` does not find it, and another `up` creates it once
more.  And SQLite does not describe how a column is dropped in place, so that `up` fails although
no call is refused. -/
theorem pending_ne_up :
    (let m : Migrator := {
      options := { table := " " }
      migrations := [.ofSteps "1_age" "age of users"
        [.raw "ALTER TABLE users ADD age INTEGER"] []] }
    let c := Store.connection .sqlite m.table ⟨0, 0, 0⟩
    let L := Store.sqlLedger .sqlite m.table ⟨0, 0, 0⟩
    let s : Conversation Store := { state := {} }
    ∃ s₁ s₂ s₃, (∀ p ∈ m.migrations, L.Spares p) ∧
      (∀ t, L.legal t → ∃ time, appliedAt m.table (c.clock t).toText = .ok time) ∧
      L.legal s.state ∧ L.Found m.options s.state ∧ L.rows? s.state = none ∧
      m.up c s = (.ok ["1_age"], s₁) ∧ m.pending c s₁ = (.ok ["1_age"], s₂) ∧
      m.up c s₂ = (.ok [], s₃) ∧ s₃.calls = s₂.calls ++
        [⟨.exec, createSql .sqlite " ", []⟩, ⟨.query, selectSql .sqlite " ", []⟩]) ∧
    (let m : Migrator := {
      migrations := [.ofSteps "1_age" "age of users" [.dropColumn "users" "age"] []] }
    let c := Store.connection .sqlite m.table ⟨0, 0, 0⟩
    let L := Store.sqlLedger .sqlite m.table ⟨0, 0, 0⟩
    let s : Conversation Store := { state := { rows? := some [] } }
    let asked : List Call := [⟨.query, catalogSql .sqlite, [.text "migrations"]⟩,
      ⟨.query, selectSql .sqlite "migrations", []⟩,
      ⟨.query, selectMaxSql .sqlite "migrations", []⟩]
    ∃ s₁ s₂, (∀ p ∈ m.migrations, L.Spares p) ∧
      (∀ t, L.legal t → ∃ time, appliedAt m.table (c.clock t).toText = .ok time) ∧
      L.legal s.state ∧ L.Found m.options s.state ∧ L.rows? s.state = some [] ∧
      m.pending c s = (.ok ["1_age"], s₁) ∧
      m.up c s₁ = (.error (.migrationFailed "1_age"
        "Cannot drop column 'age' of 'users' in place: table recreation required"), s₂) ∧
      s₂.calls = s₁.calls ++ asked ∧ c.Accepts asked s₁.state) := by
  have htime : ∀ table, ∃ time, appliedAt table (Moment.mk 0 0 0).toText = .ok time :=
    fun _ => ⟨_, rfl⟩
  constructor
  · intro m c L s
    have hspares : ∀ p ∈ m.migrations, L.Spares p := by
      refine List.forall_mem_singleton.mpr (Store.spares_of_head? fun direction sqls hsqls => ?_)
      cases direction <;> cases hsqls <;> decide
    have hup : m.up c s = (.ok ["1_age"], (m.up c s).2) := by
      refine eq_ok_of_toOption ?_
      unfold m c s
      decide +kernel
    have hpending : m.pending c (m.up c s).2 = (.ok ["1_age"], (m.pending c (m.up c s).2).2) := by
      refine eq_ok_of_toOption ?_
      unfold m c s
      decide +kernel
    have hagain : m.up c (m.pending c (m.up c s).2).2 =
        (.ok [], (m.up c (m.pending c (m.up c s).2).2).2) := by
      refine eq_ok_of_toOption ?_
      unfold m c s
      decide +kernel
    have hcalls : (m.up c (m.pending c (m.up c s).2).2).2.calls =
        (m.pending c (m.up c s).2).2.calls ++
          [⟨.exec, createSql .sqlite " ", []⟩, ⟨.query, selectSql .sqlite " ", []⟩] := by
      unfold m c s
      decide +kernel
    exact ⟨_, _, _, hspares, fun _ _ => htime _, Store.legal_missing _, .inl rfl, rfl, hup,
      hpending, hagain, hcalls⟩
  · intro m c L s asked
    have hspares : ∀ p ∈ m.migrations, L.Spares p := by
      refine List.forall_mem_singleton.mpr (Store.spares_of_head? fun direction sqls hsqls => ?_)
      cases direction <;> cases hsqls
      decide
    have hs : L.legal s.state := Store.legal_of_rows (by decide) (by decide) (by simp) _
    have hpending : m.pending c s = (.ok ["1_age"], (m.pending c s).2) := by
      refine eq_ok_of_toOption ?_
      unfold m c s
      decide +kernel
    have hup : (m.up c (m.pending c s).2).1 = .error (.migrationFailed "1_age"
        "Cannot drop column 'age' of 'users' in place: table recreation required") := by
      refine Failure.of?_eq_some.mp ?_
      unfold m c s
      decide +kernel
    have hcalls : (m.up c (m.pending c s).2).2.calls = (m.pending c s).2.calls ++ asked := by
      unfold m c s asked
      decide +kernel
    have haccepts : c.Accepts asked (m.pending c s).2.state := by
      refine ⟨?_, ?_, ?_, trivial⟩ <;> unfold m c s <;> decide +kernel
    exact ⟨_, _, hspares, fun _ _ => htime _, hs, .inl rfl, rfl, hpending, Prod.ext hup rfl, hcalls,
      haccepts⟩

end Migrator

end SchemaKeeper
