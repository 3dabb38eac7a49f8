/-
Undoing what was applied last.

`down` gets the ledger ready, reads the rows applied last and undoes their
migrations, newest first.  Each is run backward and then its row is deleted; the
first that is not registered or breaks off ends it.

* `Undone` lists the three ways in which undoing can come to its end, with the calls,
  the result and the rows,
* `runs_down_of_take` is the specification of `down` where the rows applied last are the
  same in every order, and `runs_down` that for rows of distinct ids and versions,
* `down_undoes_latest` says that from every ledger with distinct ids and versions it comes
  to one of these ends.
-/
import SchemaKeeper.Proofs.Ledger.Store
import SchemaKeeper.Proofs.Migrator.Carrying
import SchemaKeeper.Proofs.Migrator.Readiness

namespace SchemaKeeper

open SchemaKeeper.Action Ledger SqlLedger

namespace Migrator

variable {σ : Type} {m : Migrator}

/-! ### Looking migrations up -/

theorem find?_eq_some {version : String} {p : Migration} (h : m.find? version = some p) :
    p ∈ m.migrations ∧ p.version = version :=
  ⟨List.mem_of_find?_eq_some h, by simpa using List.find?_some h⟩

theorem find?_eq_none {version : String} :
    m.find? version = none ↔ ∀ p ∈ m.migrations, p.version ≠ version := by
  simp [find?]

/-! ### Rows that are left -/

/-- The row is there, and no other has its version. -/
structure Alone (rows : List LedgerRow) (row : LedgerRow) : Prop where
  mem : row ∈ rows
  eq_of_version : ∀ r ∈ rows, r.version = row.version → r = row

theorem alone_of_nodup {rows : List LedgerRow} {row : LedgerRow}
    (hversions : (rows.map (·.version)).Nodup) (hmem : row ∈ rows) : Alone rows row :=
  ⟨hmem, fun _ hr h => List.inj_on_of_nodup_map hversions hr hmem h⟩

/-- Rows are left without such a row by its version. -/
theorem Alone.filter_version_ne {rows : List LedgerRow} {row : LedgerRow} (h : Alone rows row)
    (done : List LedgerRow) :
    (rows.filter fun r => r.version ≠ row.version).filter (· ∉ done) =
      rows.filter (· ∉ row :: done) := by
  rw [List.filter_filter]
  refine List.filter_congr fun r hr => ?_
  have hiff : r.version = row.version ↔ r = row :=
    ⟨h.eq_of_version r hr, fun heq => heq ▸ rfl⟩
  simp [hiff, Bool.and_comm]

/-- A row stays alone when another one goes. -/
theorem Alone.of_filter {rows : List LedgerRow} {row other : LedgerRow} (h : Alone rows row)
    (hother : Alone rows other) (hne : other ≠ row) :
    Alone (rows.filter fun r => r.version ≠ row.version) other where
  mem := by
    refine List.mem_filter.mpr ⟨hother.mem, decide_eq_true fun heq => hne ?_⟩
    exact h.eq_of_version other hother.mem heq
  eq_of_version r hr := hother.eq_of_version r (List.mem_of_mem_filter hr)

/-! ### The course of undoing -/

/-- The ways in which the migrations of selected rows are undone after one another. -/
inductive Undone {c : Connection σ} (L : SqlLedger c m.table) (selected : List LedgerRow) (s : σ)
    (rows : List LedgerRow) : Except Failure (List String) → List Call → Prop
  /-- All are carried out. -/
  | finished {ps : List Migration} {calls : List Call}
      (named : List.Forall₂ (fun row p => m.find? row.version = some p) selected ps)
      (carried : CarriedAll c (undoing c m.table) ps s calls)
      (left : L.rows? (c.after calls s) = some (rows.filter (· ∉ selected))) :
      Undone L selected s rows (.ok (selected.map (·.version))) calls
  /-- Those before `row` are carried out, and `row` names no registered migration. -/
  | unregistered {done rest : List LedgerRow} {row : LedgerRow} {ps : List Migration}
      {calls : List Call} (split : selected = done ++ row :: rest)
      (named : List.Forall₂ (fun row p => m.find? row.version = some p) done ps)
      (carried : CarriedAll c (undoing c m.table) ps s calls)
      (unknown : ∀ p ∈ m.migrations, p.version ≠ row.version)
      (left : L.rows? (c.after calls s) = some (rows.filter (· ∉ done))) :
      Undone L selected s rows (.error (.migrationNotFound row.version)) calls
  /-- Those before `row` are carried out, and the migration of `row` breaks off. -/
  | broken {done rest : List LedgerRow} {row : LedgerRow} {ps : List Migration} {p : Migration}
      {calls own : List Call} {f : Failure} (split : selected = done ++ row :: rest)
      (named : List.Forall₂ (fun row p => m.find? row.version = some p) done ps)
      (carried : CarriedAll c (undoing c m.table) ps s calls)
      (own_named : m.find? row.version = some p)
      (breaks : Breaks c m.table (undoing c m.table) p (c.after calls s) own f)
      (left : L.rows? (c.after (calls ++ own) s) = some (rows.filter (· ∉ done))) :
      Undone L selected s rows (.error f) (calls ++ own)

variable {c : Connection σ} {L : SqlLedger c m.table} {s : Conversation σ}

theorem Undone.cons {row : LedgerRow} {p : Migration} {selected rows : List LedgerRow} {s : σ}
    {r : Except Failure (List String)} {first calls : List Call} (halone : Alone rows row)
    (hp : m.find? row.version = some p) (hfirst : Carried c (undoing c m.table) p s first)
    (h : Undone L selected (c.after first s) (rows.filter fun r => r.version ≠ row.version) r
      calls) :
    Undone L (row :: selected) s rows (r.map fun versions => row.version :: versions)
      (first ++ calls) := by
  have hleft := halone.filter_version_ne
  cases h with
  | finished named carried left =>
    refine .finished (.cons hp named) (.cons hfirst carried) ?_
    rw [Connection.after_append, left, hleft]
  | unregistered split named carried unknown left =>
    subst split
    refine .unregistered (List.cons_append ..).symm (.cons hp named) (.cons hfirst carried)
      unknown ?_
    rw [Connection.after_append, left, hleft]
  | broken split named carried own_named breaks left =>
    subst split
    rw [← List.append_assoc]
    rw [← Connection.after_append] at breaks
    refine .broken (List.cons_append ..).symm (.cons hp named) (.cons hfirst carried) own_named
      breaks ?_
    rw [List.append_assoc, Connection.after_append, left, hleft]

/-- One migration is undone: it is carried out and its row goes, or it breaks off. -/
theorem runs_unapply {row : LedgerRow} {p : Migration} {rows : List LedgerRow}
    (hspares : L.Spares p) (hs : L.legal s.state) (hrows : L.rows? s.state = some rows)
    (hmem : row ∈ rows) (hp : p.version = row.version) :
    (run c p .backward >>= fun _ =>
        Ledger.recordUnapplied c m.table row.version).Runs c s fun r l =>
      (r = .ok () ∧ Carried c (undoing c m.table) p s.state l ∧
        ∃ rows', L.rows? (c.after l s.state) = some rows' ∧
          rows' = rows.filter fun r => r.version ≠ row.version) ∨
      (∃ f, r = .error f ∧ Breaks c m.table (undoing c m.table) p s.state l f ∧
        L.rows? (c.after l s.state) = some rows) := by
  rw [← hp]
  refine runs_task (undoing c m.table) hspares hs hrows fun s' hs' hrows' => ?_
  refine (L.runs_recordUnapplied hs' hrows' ⟨row, hmem, hp.symm⟩).mono ?_
  rintro r l ⟨rfl, h⟩
  refine ⟨rfl, ?_⟩
  rcases h with ⟨f, hrefused, rfl, hsame⟩ | ⟨haccepts, rfl, hleft⟩
  · exact .inl ⟨f, hrefused, rfl, hsame.trans hrows'.symm⟩
  · exact .inr ⟨haccepts.1, rfl, _, hleft, rfl⟩

/-- The migrations of rows are undone up to the first that is not registered or breaks off. -/
theorem runs_undoAll {records : List LedgerRecord} {selected : List LedgerRow}
    (hmatches : List.Forall₂ (Matches m.table) records selected)
    (hspares : ∀ p ∈ m.migrations, L.Spares p)
    {s : Conversation σ} {rows : List LedgerRow} (hs : L.legal s.state)
    (hrows : L.rows? s.state = some rows) (halone : ∀ row ∈ selected, Alone rows row)
    (hnodup : selected.Nodup) :
    (m.undoAll c records).Runs c s (Undone L selected s.state rows) := by
  induction hmatches generalizing s rows with
  | nil => exact runs_pure (.finished .nil .nil (by simpa using hrows))
  | @cons record row records selected hmatch _ ih =>
    obtain ⟨hrow, halone⟩ := List.forall_mem_cons.mp halone
    obtain ⟨hnew, hnodup⟩ := List.nodup_cons.mp hnodup
    unfold undoAll
    rw [hmatch.version]
    cases hp : m.find? row.version with
    | none =>
      have hsplit : row :: selected = [] ++ row :: selected := rfl
      exact runs_throw (.unregistered hsplit .nil .nil (find?_eq_none.mp hp) (by simpa using hrows))
    | some p =>
      obtain ⟨hregistered, hversion⟩ := find?_eq_some hp
      dsimp only
      rw [← bind_assoc]
      refine (runs_unapply (hspares p hregistered) hs hrows hrow.mem hversion).bind ?_ ?_
      · rintro _ l (⟨-, hcarried, rows', hrows', rfl⟩ | ⟨_, ⟨⟩, -⟩)
        -- no other of the selected rows is deleted along with `row`
        have hleft : ∀ other ∈ selected,
            Alone (rows.filter fun r => r.version ≠ row.version) other := fun other hother =>
          hrow.of_filter (halone other hother) fun heq => hnew (heq ▸ hother)
        rw [bind_pure_comp]
        refine ((ih (s := s.extend c l) (legal_after hs l) hrows' hleft hnodup).map _).mono ?_
        rintro r k ⟨r, hundone, rfl⟩
        exact hundone.cons hrow hp hcarried
      · rintro f l (⟨⟨⟩, -⟩ | ⟨_, ⟨⟩, hbreaks, hrows'⟩)
        have hsplit : row :: selected = [] ++ row :: selected := rfl
        rw [← List.nil_append l]
        exact .broken hsplit .nil .nil hp hbreaks (by simpa using hrows')

/-- The specification of `down`, where each order `batch DESC, id DESC` starts with the same rows. -/
theorem runs_down_of_take {selected : List LedgerRow} {n : Nat} (hn : n ≠ 0)
    (hspares : ∀ p ∈ m.migrations, L.Spares p) (hs : L.legal s.state)
    (hselected : ∀ ordered, IsNewestFirst (L.rowsOf s.state) ordered → ordered.take n = selected)
    (halone : ∀ row ∈ selected, Alone (L.rowsOf s.state) row) (hnodup : selected.Nodup) :
    (m.down c n).Runs c s (L.Readied m.options
      (fun s' => Undone L selected s' (L.rowsOf s.state)) s.state) := by
  unfold down
  rw [if_neg hn]
  refine (prepares_ensureLedger hs).bind_readied hs fun _ s₁ _ hs₁ hrows₁ => ?_
  refine (prepares_latest hs₁ hrows₁ n).bind_readied hs₁ fun records s₂ hfound hs₂ hrows₂ => ?_
  obtain ⟨found, hnewest, hmatches⟩ := hfound
  rw [hselected found hnewest] at hmatches
  rw [L.rowsOf_eq hrows₁] at hrows₂
  refine (runs_undoAll hmatches hspares hs₂ hrows₂ halone hnodup).mono ?_
  exact fun r l h => .of_course hrows₂ h

/-- The specification of `down` for rows of distinct ids and versions. -/
theorem runs_down {ordered : List LedgerRow} {n : Nat} (hn : n ≠ 0)
    (hspares : ∀ p ∈ m.migrations, L.Spares p) (hs : L.legal s.state)
    (hids : ((L.rowsOf s.state).map (·.id)).Nodup)
    (hversions : ((L.rowsOf s.state).map (·.version)).Nodup)
    (hordered : IsNewestFirst (L.rowsOf s.state) ordered) :
    (m.down c n).Runs c s (L.Readied m.options
      (fun s' => Undone L (ordered.take n) s' (L.rowsOf s.state)) s.state) := by
  have hnodup : ordered.Nodup := hordered.1.nodup_iff.mpr (hids.of_map _)
  refine runs_down_of_take hn hspares hs (fun found hnewest => ?_) (fun row hrow => ?_)
    (hnodup.sublist (List.take_sublist ..))
  · rw [hnewest.unique hids hordered]
  · exact alone_of_nodup hversions (hordered.1.subset (List.mem_of_mem_take hrow))

/-! ### The result -/

/-- From every ledger of distinct ids and versions, whatever is refused, `down` is hindered before
it touches a migration, or undoes the rows applied last up to the first that names no registered
migration or whose migration breaks off.  The rows of those undone go, and no others. -/
theorem down_undoes_latest (L : SqlLedger c m.table) (hspares : ∀ p ∈ m.migrations, L.Spares p)
    {n : Nat} (hn : 1 ≤ n) (s : Conversation σ) (hs : L.legal s.state)
    (hids : ((L.rowsOf s.state).map (·.id)).Nodup)
    (hversions : ((L.rowsOf s.state).map (·.version)).Nodup) :
    ∃ ordered r l, IsNewestFirst (L.rowsOf s.state) ordered ∧ m.down c n s = (r, s.extend c l) ∧
      L.Readied m.options (fun s' => Undone L (ordered.take n) s' (L.rowsOf s.state)) s.state r
        l := by
  have hordered := (isOldestFirst_oldestFirst (L.rowsOf s.state)).reverse
  obtain ⟨r, l, hdown, hcourse⟩ :=
    runs_down (Nat.ne_of_gt hn) hspares hs hids hversions hordered
  exact ⟨_, r, l, hordered, hdown, hcourse⟩

/-- Of three rows the first is undone, the description of the second fails, and the third names a
migration that is not registered. -/
theorem down_undoes_latest_of_sample :
    let m : Migrator := { migrations := Store.sample }
    let c := Store.connection .sqlite m.table ⟨0, 0, 0⟩
    let L := Store.sqlLedger .sqlite m.table ⟨0, 0, 0⟩
    let s : Conversation Store := { state := Store.edited [] }
    (∀ p ∈ m.migrations, L.Spares p) ∧ L.legal s.state ∧
      ((L.rowsOf s.state).map (·.id)).Nodup ∧ ((L.rowsOf s.state).map (·.version)).Nodup ∧
      ∃ ordered r l, IsNewestFirst (L.rowsOf s.state) ordered ∧ m.down c 3 s = (r, s.extend c l) ∧
        L.Readied m.options (fun s' => Undone L (ordered.take 3) s' (L.rowsOf s.state)) s.state r
          l := by
  intro m c L s
  have hspares : ∀ p ∈ m.migrations, L.Spares p := fun p hp => Store.sample_spares hp
  have hs : L.legal s.state := Store.legal_edited _
  have hids : ((L.rowsOf s.state).map (·.id)).Nodup := by
    show [_, _, _].Nodup
    decide
  have hversions : ((L.rowsOf s.state).map (·.version)).Nodup := by
    show [_, _, _].Nodup
    decide
  exact ⟨hspares, hs, hids, hversions,
    down_undoes_latest L hspares (by decide) s hs hids hversions⟩

end Migrator

end SchemaKeeper
