/-
Batch numbers.

`up` reads the highest batch of the ledger and adds one.  The sum is above every batch of
the ledger, except that nothing is above the highest number of 64 bits: there it overflows.

* `toInt?_of_tells`: the highest batch is read as it is, whether it is reported as an
  integer or in digits,
* `exists_appended`: the rows that `up` leaves, wherever it breaks off,
* `Appended.isPrefix_reverse`: rows in a batch above all others come first in every order
  `batch DESC, id DESC`, the last of them at the front,
* `up_batch`: so what `up` has applied is what `down` undoes first, and the sum overflows
  exactly where a row is in the highest batch of 64 bits and something is pending,
* `up_batch_overflows`: such a row may be in a ledger that was edited by hand.
-/
import SchemaKeeper.Proofs.Column.Type
import SchemaKeeper.Proofs.Migrator.RoundTrip

namespace SchemaKeeper

open SchemaKeeper.Action Ledger SqlLedger

/-! ### Numbers that are reported -/

theorem Number.trim_integerText (n : Int) :
    Text.trim (integerText n).toList = (integerText n).toList := by
  refine Text.trim_eq_self fun c hc => ?_
  rw [integerText, String.toList_ofList] at hc
  have hdigits : ∀ c ∈ digits n.natAbs, Text.isBlank c = false := fun c hc =>
    isBlank_of_isDigit (isDigit_of_mem_digits hc)
  split at hc
  · exact (List.mem_cons.mp hc).elim (fun h => h ▸ rfl) (hdigits c)
  · exact hdigits c hc

/-- The cells in which a database may report an integer. -/
inductive Value.Tells (n : Int64) : Value → Prop
  | integer : Tells n (.integer n)
  | digits : Tells n (.text (Number.integerText n.toInt))

theorem Value.toInt?_of_tells {n : Int64} {cell : Value} (h : cell.Tells n) :
    cell.toInt? = some n := by
  cases h with
  | integer => rfl
  | digits => rw [Value.toInt?, Number.trim_integerText, Number.int64?_integerText]

namespace Migrator

variable {σ : Type} {c : Connection σ} {m : Migrator} {L : SqlLedger c m.table} {batch : Int64}
  {ps : List Migration} {rows added : List LedgerRow} {s : Conversation σ}

/-! ### The rows that are left -/

/-- Wherever applying ends, the migrations that were carried out before have their rows. -/
theorem Applied.exists_appended {s : σ} {r : Except Failure (List String)} {l : List Call}
    (h : Applied L batch ps s rows r l) : ∃ done added, done <+: ps ∧
      Appended batch done rows added ∧ L.rows? (c.after l s) = some (rows ++ added) := by
  cases h with
  | @finished _ added _ appended left => exact ⟨ps, added, List.prefix_rfl, appended, left⟩
  | @broken done rest p _ _ _ added split _ _ appended left =>
    exact ⟨done, added, ⟨p :: rest, split.symm⟩, appended, left⟩

/-- What is hindered leaves no new rows. -/
theorem exists_appended {r : Except Failure (List String)} {l : List Call} {s : σ}
    (h : L.Readied m.options (fun s' => Applied L batch ps s' (L.rowsOf s)) s r l) :
    ∃ done added, done <+: ps ∧ Appended batch done (L.rowsOf s) added ∧
      L.rowsOf (c.after l s) = L.rowsOf s ++ added := by
  cases h with
  | hindered _ _ left =>
    exact ⟨[], [], List.nil_prefix, .nil, by rw [left, List.append_nil]⟩
  | ready _ _ _ course =>
    obtain ⟨done, added, hdone, happended, hleft⟩ := course.exists_appended
    exact ⟨done, added, hdone, happended, L.rowsOf_eq (by rwa [c.after_append])⟩

/-- Where a batch comes after the highest, nothing overflows. -/
theorem Applied.ne_overflow {s : σ} {r : Except Failure (List String)} {l : List Call}
    (h : Applied L batch ps s rows r l) : r ≠ .error .overflow := by
  cases h with
  | finished => exact nofun
  | broken _ _ breaks => exact fun h => breaks.ne_overflow (Except.error.inj h)

theorem ne_overflow_of_readied {r : Except Failure (List String)} {l : List Call} {s : σ}
    (h : L.Readied m.options (fun s' => Applied L batch ps s' (L.rowsOf s)) s r l) :
    r ≠ .error .overflow := by
  cases h with
  | hindered _ hindered _ => exact fun h => hindered.ne_overflow (Except.error.inj h)
  | ready _ _ _ course => exact course.ne_overflow

/-- Where no batch comes after the highest, the rows stay. -/
theorem rowsOf_of_overflown {r : Except Failure (List String)} {l : List Call} {s : σ}
    (h : L.Readied m.options (fun _ => Overflown ps) s r l) :
    L.rowsOf (c.after l s) = L.rowsOf s := by
  cases h with
  | hindered _ _ left => exact left
  | ready _ _ left course =>
    obtain ⟨rfl, -⟩ := course
    rw [List.append_nil]
    exact L.rowsOf_eq left

/-! ### Rows on top -/

/-- Rows in a batch above all others come first in every order `batch DESC, id DESC`. -/
theorem Appended.isPrefix_reverse (h : Appended batch ps rows added)
    (hlt : ∀ row ∈ rows, row.batch < batch) {ordered : List LedgerRow}
    (hordered : IsNewestFirst (rows ++ added) ordered) : added.reverse <+: ordered := by
  have hle : ∀ row ∈ rows ++ added, row.batch ≤ batch := by
    intro row hrow
    rcases List.mem_append.mp hrow with hrow | hrow
    · exact Int64.le_of_lt (hlt row hrow)
    · rw [h.batch_eq hrow]
      exact Int64.le_refl batch
  -- the rows of the batch are the new ones, whose ids leave one order
  have htop : (rows ++ added).filter (·.batch = batch) = added := by
    rw [List.filter_append, List.filter_eq_nil_iff.mpr, List.nil_append,
      List.filter_eq_self.mpr]
    · exact fun row hrow => by simpa using h.batch_eq hrow
    · intro row hrow
      simpa using Int64.ne_of_lt (hlt row hrow)
  have hfiltered : IsNewestFirst added (ordered.filter (·.batch = batch)) :=
    ⟨htop ▸ hordered.1.filter _, hordered.2.filter _⟩
  rw [h.isNewestFirst_reverse.unique (nodup_ids_of_newer h.newer) hfiltered]
  exact hordered.isPrefix_filter hle

/-- A new row is the only one of its version. -/
theorem Appended.alone (h : Appended batch ps rows added) {new : LedgerRow} (hnew : new ∈ added) :
    Alone (rows ++ added) new where
  mem := List.mem_append_right _ hnew
  eq_of_version row hrow hversion := by
    rcases List.mem_append.mp hrow with hrow | hrow
    · exact absurd hversion (h.above row hrow new hnew).1
    · exact List.inj_on_of_nodup_map (nodup_versions_of_newer h.newer) hrow hnew hversion

/-- What was applied last is undone first. -/
theorem runs_down_of_appended (h : Appended batch ps rows added)
    (hlt : ∀ row ∈ rows, row.batch < batch) (hspares : ∀ p ∈ m.migrations, L.Spares p)
    (hs : L.legal s.state) (hrows : L.rowsOf s.state = rows ++ added) {n : Nat} (hn : 1 ≤ n)
    (hle : n ≤ added.length) :
    (m.down c n).Runs c s (L.Readied m.options
      (fun s' => Undone L (added.reverse.take n) s' (rows ++ added)) s.state) := by
  rw [← hrows]
  refine runs_down_of_take (Nat.ne_of_gt hn) hspares hs (fun ordered hordered => ?_)
    (fun row hrow => ?_) ?_
  · rw [hrows] at hordered
    obtain ⟨rest, rfl⟩ := h.isPrefix_reverse hlt hordered
    exact List.take_append_of_le_length (by rwa [List.length_reverse])
  · rw [hrows]
    exact h.alone (List.mem_reverse.mp (List.mem_of_mem_take hrow))
  · have hnodup : added.Nodup := (nodup_ids_of_newer h.newer).of_map _
    exact (List.nodup_reverse.mpr hnodup).sublist (List.take_sublist ..)

/-! ### The result -/

/-- **What was applied last is what `down` undoes first, unless a row was in the highest batch of 64
bits.**  From every ledger, and wherever it breaks off, `up` records the first of the pending
migrations in one batch.  It comes right after the highest and is above every other, and `down`
undoes the new rows before any other.  But nothing comes after the highest number of 64 bits: then
the sum overflows if something is pending, and nothing is applied or recorded. -/
theorem up_batch (L : SqlLedger c m.table) (hspares : ∀ p ∈ m.migrations, L.Spares p)
    (s : Conversation σ) (hs : L.legal s.state) :
    (∀ (n : Int64) (cell : Value), cell.Tells n → cell.toInt? = some n) ∧
    ∃ ps r l, m.IsPending (L.rowsOf s.state) ps ∧ m.up c s = (r, s.extend c l) ∧
      ((∀ row ∈ L.rowsOf s.state, row.batch < Int64.maxValue) →
        r ≠ .error .overflow ∧ ∃ done batch added, done <+: ps ∧
          Appended batch done (L.rowsOf s.state) added ∧
          L.rowsOf (s.extend c l).state = L.rowsOf s.state ++ added ∧
          IsNextBatch (L.rowsOf s.state) batch ∧ (∀ row ∈ L.rowsOf s.state, row.batch < batch) ∧
          (∀ ordered, IsNewestFirst (L.rowsOf s.state ++ added) ordered →
            added.reverse <+: ordered) ∧
          ∀ n, 1 ≤ n → n ≤ added.length →
            (m.down c n).Runs c (s.extend c l) (L.Readied m.options
              (fun s' => Undone L (added.reverse.take n) s' (L.rowsOf s.state ++ added))
              (s.extend c l).state)) ∧
      ((∃ row ∈ L.rowsOf s.state, row.batch = Int64.maxValue) →
        L.rowsOf (s.extend c l).state = L.rowsOf s.state ∧
        L.Readied m.options (fun _ => Overflown ps) s.state r l) := by
  refine ⟨fun n cell h => Value.toInt?_of_tells h, m.pendingFor (L.rowsOf s.state), ?_⟩
  have hpending := m.isPending_pendingFor (L.rowsOf s.state)
  by_cases hbelow : ∀ row ∈ L.rowsOf s.state, row.batch < Int64.maxValue
  · obtain ⟨batch, hnext⟩ := exists_isNextBatch hbelow
    obtain ⟨r, l, hup, hreadied⟩ := runs_up hspares hs hnext
    obtain ⟨done, added, hdone, happended, hrows⟩ := exists_appended hreadied
    have hlt : ∀ row ∈ L.rowsOf s.state, row.batch < batch := fun row hrow => hnext.lt_of_mem hrow
    refine ⟨r, l, hpending, hup, fun _ => ?_, fun ⟨row, hrow, hbatch⟩ => ?_⟩
    · refine ⟨ne_overflow_of_readied hreadied, done, batch, added, hdone, happended, hrows, hnext,
        hlt, fun ordered hordered => happended.isPrefix_reverse hlt hordered, fun n hn hle => ?_⟩
      exact runs_down_of_appended happended hlt hspares (legal_after hs l) hrows hn hle
    · exact absurd (hbatch ▸ hbelow row hrow) Int64.lt_irrefl
  · -- some row is in the last batch there is
    obtain ⟨row, hrow, hbatch⟩ : ∃ row ∈ L.rowsOf s.state, row.batch = Int64.maxValue := by
      push Not at hbelow
      obtain ⟨row, hrow, hle⟩ := hbelow
      exact ⟨row, hrow, Int64.le_antisymm (le_maxValue row.batch) (Int64.not_lt.mp hle)⟩
    obtain ⟨r, l, hup, hreadied⟩ := runs_up_of_maxValue hs hrow hbatch
    exact ⟨r, l, hpending, hup, fun h => absurd h hbelow,
      fun _ => ⟨rowsOf_of_overflown hreadied, hreadied⟩⟩

/-- In a ledger of negative batches the next one is negative too. -/
theorem up_batch_of_sample :
    let m : Migrator := { migrations := Store.sample.take 2 }
    let c := Store.connection .sqlite m.table ⟨0, 0, 0⟩
    let L := Store.sqlLedger .sqlite m.table ⟨0, 0, 0⟩
    let s : Conversation Store := { state := {
      rows? := some [⟨4, "3_roles", "roles", "2024-05-02 08:30:00", -7⟩,
        ⟨9, "0_users", "users", "2024-05-01 10:00:00", Int64.minValue⟩]
      nextId := 12 } }
    (∀ p ∈ m.migrations, L.Spares p) ∧ L.legal s.state ∧
      (∀ row ∈ L.rowsOf s.state, row.batch < Int64.maxValue) ∧
      ∃ done batch added r l, m.up c s = (r, s.extend c l) ∧
        Appended batch done (L.rowsOf s.state) added ∧ batch = -6 ∧
        ∀ n, 1 ≤ n → n ≤ added.length →
          (m.down c n).Runs c (s.extend c l) (L.Readied m.options
            (fun s' => Undone L (added.reverse.take n) s' (L.rowsOf s.state ++ added))
            (s.extend c l).state) := by
  intro m c L s
  have hspares : ∀ p ∈ m.migrations, L.Spares p := fun p hp =>
    Store.sample_spares (List.mem_of_mem_take hp)
  have hs : L.legal s.state :=
    Store.legal_of_rows (by decide) (by decide) (by decide) []
  have hbelow : ∀ row ∈ L.rowsOf s.state, row.batch < Int64.maxValue := by
    show ∀ row ∈ [_, _], _
    decide
  have hmax : IsMaxBatch (L.rowsOf s.state) (some (-7)) := by
    show (∃ row ∈ [_, _], _) ∧ ∀ row ∈ [_, _], _
    decide
  obtain ⟨-, ps, r, l, -, hup, hrecorded, -⟩ := up_batch L hspares s hs
  obtain ⟨-, done, batch, added, -, happended, -, hnext, -, -, hdown⟩ := hrecorded hbelow
  exact ⟨hspares, hs, hbelow, done, batch, added, r, l, hup, happended, hnext.eq_add_one hmax,
    hdown⟩

/-- In a ledger that was edited by hand nothing comes after the highest batch, and what is pending
cannot be applied. -/
theorem up_batch_overflows :
    let m : Migrator := { migrations := [.ofSteps "1_age" "age of users"
      [.raw "ALTER TABLE users ADD age INTEGER"] []] }
    let c := Store.connection .sqlite m.table ⟨0, 0, 0⟩
    let L := Store.sqlLedger .sqlite m.table ⟨0, 0, 0⟩
    let old : LedgerRow := ⟨1, "0_users", "users", "2024-01-01T00:00:00Z", Int64.maxValue⟩
    let s : Conversation Store := { state := { rows? := some [old], nextId := 2 } }
    ∃ s₁, (∀ p ∈ m.migrations, L.Spares p) ∧ L.legal s.state ∧ Readable m.table old ∧
      m.up c s = (.error .overflow, s₁) ∧ s₁.calls = [
        ⟨.query, catalogSql .sqlite, [.text "migrations"]⟩,
        ⟨.query, selectSql .sqlite "migrations", []⟩,
        ⟨.query, selectMaxSql .sqlite "migrations", []⟩] ∧
      L.rowsOf s₁.state = [old] ∧ ∀ batch, ¬ old.batch < batch := by
  intro m c L old s
  have hspares : ∀ p ∈ m.migrations, L.Spares p := by
    refine List.forall_mem_singleton.mpr (Store.spares_of_head? fun direction sqls hsqls => ?_)
    cases direction <;> cases hsqls <;> decide
  have hs : L.legal s.state := Store.legal_of_rows (by decide) (by decide) (by decide) []
  have hup : (m.up c s).1 = .error .overflow := by
    refine Failure.of?_eq_some.mp ?_
    unfold m c s old
    decide +kernel
  have hcalls : (m.up c s).2.calls = [
      ⟨.query, catalogSql .sqlite, [.text "migrations"]⟩,
      ⟨.query, selectSql .sqlite "migrations", []⟩,
      ⟨.query, selectMaxSql .sqlite "migrations", []⟩] := by
    unfold m c s old
    decide +kernel
  have hrows : (m.up c s).2.state.rows?.getD [] = [old] := by
    unfold m c s old
    decide +kernel
  have htime : ∃ time, appliedAt "migrations" "2024-01-01T00:00:00Z" = .ok time := ⟨_, rfl⟩
  exact ⟨_, hspares, hs, htime, Prod.ext hup rfl, hcalls, hrows,
    fun batch => Int64.not_lt.mpr (le_maxValue batch)⟩

end Migrator

end SchemaKeeper
