/-
Ledgers in layers.

A ledger that only the migrator has written consists of layers: the rows of batch 1
at the bottom, those of the following batches above them without a gap, each row
newer than those below it.

* `Layered.append` puts a batch on top, `Layered.ofPrefix` takes rows off the top,
* `Layered.isNewestFirst_reverse`: the order `batch DESC, id DESC` goes through a
  layered ledger from the top,
* `filter_not_mem_of_reverse`: without the rows that come first in that order, a
  prefix is left.
-/
import SchemaKeeper.Proofs.Ledger.Rows

namespace SchemaKeeper.Ledger

/-- Rows in the order of their insertion are in layers, of which `top` is the highest. -/
structure Layered (top : Nat) (rows : List LedgerRow) : Prop where
  newer : rows.Pairwise Newer
  ascending : rows.Pairwise fun a b => a.batch ≤ b.batch
  batches : ∀ b : Int, (∃ row ∈ rows, row.batch.toInt = b) ↔ 1 ≤ b ∧ b ≤ top

variable {top : Nat} {rows : List LedgerRow}

theorem Layered.nil : Layered 0 [] where
  newer := .nil
  ascending := .nil
  batches b := by
    simp only [List.not_mem_nil, false_and, exists_false, false_iff]
    omega

theorem Layered.batch_le (h : Layered top rows) {row : LedgerRow} (hrow : row ∈ rows) :
    1 ≤ row.batch.toInt ∧ row.batch.toInt ≤ top :=
  (h.batches _).mp ⟨row, hrow, rfl⟩

theorem Layered.nodup_ids (h : Layered top rows) : (rows.map (·.id)).Nodup :=
  nodup_ids_of_newer h.newer

theorem Layered.nodup_versions (h : Layered top rows) : (rows.map (·.version)).Nodup :=
  nodup_versions_of_newer h.newer

/-! ### The top -/

/-- The next batch is the one above the top. -/
theorem Layered.isNextBatch (h : Layered top rows) {batch : Int64}
    (hbatch : IsNextBatch rows batch) : batch.toInt = top + 1 := by
  obtain ⟨b?, hmax, hbatch⟩ := hbatch
  rw [hbatch]
  have hzero : (0 : Int64).toInt = 0 := by decide
  cases b? with
  | none =>
    obtain rfl : rows = [] := hmax
    -- no row is in batch 1
    have htop : ¬ (1 : Int) ≤ top := by
      intro hle
      obtain ⟨row, hrow, -⟩ := (h.batches 1).mpr ⟨Int.le_refl 1, hle⟩
      cases hrow
    rw [Option.getD_none, hzero]
    omega
  | some b =>
    obtain ⟨⟨row, hrow, rfl⟩, hle⟩ := hmax
    obtain ⟨hpos, htop⟩ := h.batch_le hrow
    obtain ⟨highest, hmem, hhighest⟩ := (h.batches top).mpr ⟨by omega, Int.le_refl _⟩
    have hbelow : highest.batch.toInt ≤ row.batch.toInt := Int64.le_iff_toInt_le.mp (hle _ hmem)
    rw [Option.getD_some]
    omega

/-- A batch is put on top. -/
theorem Layered.append (h : Layered top rows) {added : List LedgerRow} {batch : Int64}
    (hnewer : added.Pairwise Newer) (habove : ∀ row ∈ rows, ∀ new ∈ added, Newer row new)
    (hadded : ∀ row ∈ added, row.batch = batch) (hbatch : batch.toInt = top + 1) :
    ∃ top' ≤ top + 1, Layered top' (rows ++ added) := by
  have hbatches : ∀ row ∈ added, row.batch.toInt = top + 1 := fun row hrow => by
    rw [hadded row hrow, hbatch]
  cases added with
  | nil => exact ⟨top, Nat.le_succ top, by rwa [List.append_nil]⟩
  | cons first r =>
    refine ⟨top + 1, Nat.le_refl _, ⟨List.pairwise_append.mpr ⟨h.newer, hnewer, habove⟩, ?_, ?_⟩⟩
    · refine List.pairwise_append.mpr ⟨h.ascending, ?_, ?_⟩
      · refine List.pairwise_of_forall_mem_list fun a ha b hb => ?_
        rw [hadded a ha, hadded b hb]
        exact Int64.le_refl batch
      · intro row hrow new hnew
        have hrow := (h.batch_le hrow).2
        have hnew := hbatches new hnew
        exact Int64.le_iff_toInt_le.mpr (by omega)
    · intro b
      constructor
      · rintro ⟨row, hrow, rfl⟩
        rcases List.mem_append.mp hrow with hrow | hrow
        · have := h.batch_le hrow
          omega
        · have := hbatches row hrow
          omega
      · rintro ⟨hpos, hle⟩
        by_cases htop : b ≤ top
        · obtain ⟨row, hrow, hb⟩ := (h.batches b).mpr ⟨hpos, htop⟩
          exact ⟨row, List.mem_append_left _ hrow, hb⟩
        · -- only the new batch is above the old top
          have := hbatches first List.mem_cons_self
          exact ⟨first, List.mem_append_right _ List.mem_cons_self, by omega⟩

/-- Rows are taken off the top. -/
theorem Layered.ofPrefix (h : Layered top rows) {rows' : List LedgerRow} (hpre : rows' <+: rows) :
    ∃ top' ≤ top, Layered top' rows' := by
  obtain ⟨rest, rfl⟩ := hpre
  obtain ⟨hnewer, -, -⟩ := List.pairwise_append.mp h.newer
  obtain ⟨hascending, -, hrest⟩ := List.pairwise_append.mp h.ascending
  rcases rows'.eq_nil_or_concat with rfl | ⟨init, last, rfl⟩
  · exact ⟨0, Nat.zero_le top, .nil⟩
  -- the batch of the row that is now the last is the top
  rw [List.concat_eq_append] at *
  have hlast : last ∈ init ++ [last] := by simp
  obtain ⟨hpos, htop⟩ := h.batch_le (List.mem_append_left rest hlast)
  refine ⟨last.batch.toInt.toNat, by omega, hnewer, hascending, fun b => ⟨?_, ?_⟩⟩
  · rintro ⟨row, hrow, rfl⟩
    have hrow' := h.batch_le (List.mem_append_left rest hrow)
    have hle : row.batch ≤ last.batch := by
      rcases List.mem_append.mp hrow with hrow | hrow
      · exact (List.pairwise_append.mp hascending).2.2 row hrow last List.mem_cons_self
      · rw [List.mem_singleton.mp hrow]
        exact Int64.le_refl _
    have hle := Int64.le_iff_toInt_le.mp hle
    omega
  · rintro ⟨hb, hle⟩
    obtain ⟨row, hrow, rfl⟩ := (h.batches b).mpr ⟨hb, by omega⟩
    rcases List.mem_append.mp hrow with hrow | hrow
    · exact ⟨row, hrow, rfl⟩
    · -- a row that is taken off is in no lower batch than the last that stays
      have hge := Int64.le_iff_toInt_le.mp (hrest last hlast row hrow)
      exact ⟨last, hlast, by omega⟩

/-! ### From the top -/

theorem Layered.isNewestFirst_reverse (h : Layered top rows) : IsNewestFirst rows rows.reverse := by
  refine ⟨List.reverse_perm rows, List.pairwise_reverse.mpr ?_⟩
  refine (h.ascending.and h.newer).imp fun {a b} ⟨hle, hnewer⟩ => ?_
  rcases Int64.lt_or_eq_of_le hle with hlt | heq
  · exact .inl hlt
  · exact .inr ⟨heq, Int.le_of_lt hnewer.2⟩

/-- Without the rows that come last, the others are left. -/
theorem filter_not_mem_of_reverse (hnodup : rows.Nodup) {done rest : List LedgerRow}
    (h : rows.reverse = done ++ rest) : rows.filter (· ∉ done) = rest.reverse := by
  obtain rfl : rows = rest.reverse ++ done.reverse := by
    rw [← List.reverse_append, ← h, List.reverse_reverse]
  obtain ⟨-, -, hdisjoint⟩ := List.nodup_append.mp hnodup
  rw [List.filter_append]
  have hrest : rest.reverse.filter (· ∉ done) = rest.reverse := by
    refine List.filter_eq_self.mpr fun row hrow => decide_eq_true fun hdone => ?_
    exact hdisjoint row hrow row (List.mem_reverse.mpr hdone) rfl
  have hdone : done.reverse.filter (· ∉ done) = [] := by
    refine List.filter_eq_nil_iff.mpr fun row hrow => ?_
    simpa using hrow
  rw [hrest, hdone, List.append_nil]

end SchemaKeeper.Ledger
