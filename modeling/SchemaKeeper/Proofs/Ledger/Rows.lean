/-
The rows of a ledger.

Facts about lists of rows, without a database.

* `isMaxBatch_maxBatch?` and `IsMaxBatch.unique`: rows have one highest batch,
* `IsNextBatch` is the batch that comes after all others, `exists_isNextBatch` says
  that there is one as long as 64 bits hold it, and the two lemmas `batchAfter_eq` what
  adding one to the highest comes to,
* `IsNewestFirst.unique`: ids that differ leave one order `batch DESC, id DESC`,
* `IsNewestFirst.isPrefix_filter`: each such order starts with the rows of the highest batch.
-/
import Mathlib.Data.List.Nodup
import SchemaKeeper.Proofs.Ledger.SqlTable

namespace SchemaKeeper.Ledger

variable {rows : List LedgerRow}

/-! ### The highest batch -/

instance lawfulOrderMaxInt64 : Std.LawfulOrderMax Int64 := by
  refine .of_max_le_iff ?_ ?_
  · intro a b d
    show (if a ≤ b then b else a) ≤ d ↔ _
    simp only [Int64.le_iff_toInt_le]
    split <;> omega
  · intro a b
    show (if a ≤ b then b else a) = a ∨ (if a ≤ b then b else a) = b
    split <;> simp

/-- The highest batch, if there is a row. -/
def maxBatch? (rows : List LedgerRow) : Option Int64 :=
  (rows.map (·.batch)).max?

theorem isMaxBatch_maxBatch? (rows : List LedgerRow) : IsMaxBatch rows (maxBatch? rows) := by
  cases h : maxBatch? rows with
  | none => exact List.map_eq_nil_iff.mp (List.max?_eq_none_iff.mp h)
  | some b =>
    obtain ⟨hmem, hle⟩ := List.max?_eq_some_iff.mp h
    obtain ⟨row, hrow, rfl⟩ := List.mem_map.mp hmem
    exact ⟨⟨row, hrow, rfl⟩, fun other hother => hle _ (List.mem_map_of_mem hother)⟩

theorem le_maxValue (n : Int64) : n ≤ Int64.maxValue :=
  Int64.le_iff_toInt_le.mpr n.toInt_le

theorem IsMaxBatch.unique {b? b?' : Option Int64} (h : IsMaxBatch rows b?)
    (h' : IsMaxBatch rows b?') : b? = b?' := by
  cases b? with
  | none =>
    obtain rfl : rows = [] := h
    cases b?' with
    | none => rfl
    | some b' =>
      obtain ⟨⟨row, hmem, -⟩, -⟩ := h'
      cases hmem
  | some b =>
    obtain ⟨⟨row, hmem, rfl⟩, hle⟩ := h
    cases b?' with
    | none =>
      obtain rfl : rows = [] := h'
      cases hmem
    | some b' =>
      obtain ⟨⟨row', hmem', rfl⟩, hle'⟩ := h'
      exact congrArg some (Int64.le_antisymm (hle' row hmem) (hle row' hmem'))

/-- The batch comes right after the highest, and is the first if there are no rows. -/
def IsNextBatch (rows : List LedgerRow) (batch : Int64) : Prop :=
  ∃ b?, IsMaxBatch rows b? ∧ batch.toInt = (b?.getD 0).toInt + 1

theorem toInt_add_one {b : Int64} (h : b < Int64.maxValue) : (b + 1).toInt = b.toInt + 1 := by
  have hlt : b.toInt < 2 ^ 63 - 1 := Int64.lt_iff_toInt_lt.mp h
  have hge := b.le_toInt
  have hone : (1 : Int64).toInt = 1 := by decide
  rw [Int64.toInt_add, hone, Int.bmod_def]
  omega

theorem IsMaxBatch.isNextBatch {b? : Option Int64} (h : IsMaxBatch rows b?)
    (hlt : ∀ row ∈ rows, row.batch < Int64.maxValue) : IsNextBatch rows (b?.getD 0 + 1) := by
  refine ⟨b?, h, toInt_add_one ?_⟩
  cases b? with
  | none => decide
  | some b =>
    obtain ⟨⟨row, hmem, rfl⟩, -⟩ := h
    exact hlt row hmem

theorem exists_isNextBatch (hlt : ∀ row ∈ rows, row.batch < Int64.maxValue) :
    ∃ batch, IsNextBatch rows batch :=
  ⟨_, (isMaxBatch_maxBatch? rows).isNextBatch hlt⟩

theorem IsNextBatch.toInt_eq {batch : Int64} {b? : Option Int64} (h : IsNextBatch rows batch)
    (hmax : IsMaxBatch rows b?) : batch.toInt = (b?.getD 0).toInt + 1 := by
  obtain ⟨b?', hmax', hbatch⟩ := h
  rw [hmax.unique hmax', hbatch]

/-- A batch that has a next one is not the highest of 64 bits. -/
theorem IsNextBatch.lt_maxValue {batch : Int64} {b? : Option Int64} (h : IsNextBatch rows batch)
    (hmax : IsMaxBatch rows b?) : b?.getD 0 < Int64.maxValue := by
  -- 64 bits hold the batch that comes after it
  have hbatch := h.toInt_eq hmax
  have hle := batch.toInt_le
  have hmaxValue : Int64.maxValue.toInt = 2 ^ 63 - 1 := by decide
  rw [Int64.lt_iff_toInt_lt]
  omega

theorem IsNextBatch.eq_add_one {batch : Int64} {b? : Option Int64} (h : IsNextBatch rows batch)
    (hmax : IsMaxBatch rows b?) : batch = b?.getD 0 + 1 := by
  rw [← Int64.toInt_inj, h.toInt_eq hmax, toInt_add_one (h.lt_maxValue hmax)]

/-- The next batch is the one that comes out of the highest. -/
theorem IsNextBatch.batchAfter_eq {batch : Int64} {b? : Option Int64} (h : IsNextBatch rows batch)
    (hmax : IsMaxBatch rows b?) : batchAfter (b?.getD 0) = .ok batch := by
  have hlt := h.lt_maxValue hmax
  rw [batchAfter, if_neg (Int64.ne_of_lt hlt), h.eq_add_one hmax]

/-- Nothing comes after a row in the highest batch of 64 bits. -/
theorem IsMaxBatch.batchAfter_eq {b? : Option Int64} (h : IsMaxBatch rows b?) {row : LedgerRow}
    (hrow : row ∈ rows) (hbatch : row.batch = Int64.maxValue) :
    batchAfter (b?.getD 0) = .error .overflow := by
  have hmax : b? = some Int64.maxValue :=
    h.unique ⟨⟨row, hrow, hbatch⟩, fun other _ => le_maxValue other.batch⟩
  rw [hmax]
  rfl

/-- All rows are in batches before the next one. -/
theorem IsNextBatch.lt_of_mem {batch : Int64} (h : IsNextBatch rows batch) {row : LedgerRow}
    (hrow : row ∈ rows) : row.batch < batch := by
  obtain ⟨b?, hmax, hbatch⟩ := h
  cases b? with
  | none =>
    obtain rfl : rows = [] := hmax
    cases hrow
  | some b =>
    have hle := Int64.le_iff_toInt_le.mp (hmax.2 row hrow)
    rw [Option.getD_some] at hbatch
    exact Int64.lt_iff_toInt_lt.mpr (by omega)

/-! ### The order of rows -/

/-- A row can have been inserted while the other was there. -/
def Newer (old new : LedgerRow) : Prop :=
  old.version ≠ new.version ∧ old.id < new.id

theorem nodup_ids_of_newer (h : rows.Pairwise Newer) : (rows.map (·.id)).Nodup :=
  List.pairwise_map.mpr (h.imp fun hnewer => Int.ne_of_lt hnewer.2)

theorem nodup_versions_of_newer (h : rows.Pairwise Newer) : (rows.map (·.version)).Nodup :=
  List.pairwise_map.mpr (h.imp fun hnewer => hnewer.1)

theorem Precedes.total (a b : LedgerRow) : Precedes a b ∨ Precedes b a := by
  have hbatch := @Int64.toInt_inj a.batch b.batch
  simp only [Precedes, Int64.lt_iff_toInt_lt, ← Int64.toInt_inj]
  omega

theorem Precedes.trans {a b d : LedgerRow} (h : Precedes a b) (h' : Precedes b d) :
    Precedes a d := by
  simp only [Precedes, Int64.lt_iff_toInt_lt, ← Int64.toInt_inj] at *
  omega

theorem Precedes.eq {a b : LedgerRow} (h : Precedes a b) (h' : Precedes b a) :
    a.batch = b.batch ∧ a.id = b.id := by
  rcases h with h | ⟨h, hid⟩
  · rcases h' with h' | ⟨h', -⟩
    · exact absurd h' (Int64.lt_asymm h)
    · exact absurd h (h' ▸ Int64.lt_irrefl)
  · rcases h' with h' | ⟨-, hid'⟩
    · exact absurd h' (h ▸ Int64.lt_irrefl)
    · exact ⟨h, Int.le_antisymm hid hid'⟩

/-- Rows whose ids differ are one row if each precedes the other. -/
theorem Precedes.antisymm (hids : (rows.map (·.id)).Nodup) {a b : LedgerRow} (ha : a ∈ rows)
    (hb : b ∈ rows) (h : Precedes a b) (h' : Precedes b a) : a = b :=
  List.inj_on_of_nodup_map hids ha hb (h.eq h').2

instance (a b : LedgerRow) : Decidable (Precedes a b) :=
  inferInstanceAs (Decidable (_ ∨ _))

/-- The rows put into the order `batch, id`. -/
def oldestFirst (rows : List LedgerRow) : List LedgerRow :=
  rows.mergeSort fun a b => decide (Precedes a b)

theorem isOldestFirst_oldestFirst (rows : List LedgerRow) :
    IsOldestFirst rows (oldestFirst rows) := by
  refine ⟨List.mergeSort_perm _ _, ?_⟩
  refine (List.pairwise_mergeSort ?_ ?_ rows).imp of_decide_eq_true
  · intro a b d hab hbd
    exact decide_eq_true ((of_decide_eq_true hab).trans (of_decide_eq_true hbd))
  · intro a b
    rw [Bool.or_eq_true, decide_eq_true_iff, decide_eq_true_iff]
    exact Precedes.total a b

theorem IsOldestFirst.reverse {listed : List LedgerRow} (h : IsOldestFirst rows listed) :
    IsNewestFirst rows listed.reverse :=
  ⟨(List.reverse_perm _).trans h.1, List.pairwise_reverse.mpr h.2⟩

theorem IsNewestFirst.unique {listed listed' : List LedgerRow} (hids : (rows.map (·.id)).Nodup)
    (h : IsNewestFirst rows listed) (h' : IsNewestFirst rows listed') : listed = listed' := by
  refine List.Perm.eq_of_pairwise ?_ h.2 h'.2 (h.1.trans h'.1.symm)
  intro a b ha hb hba hab
  exact Precedes.antisymm hids (h.1.subset ha) (h'.1.subset hb) hab hba

/-- The rows of the highest batch come first. -/
theorem IsNewestFirst.isPrefix_filter {listed : List LedgerRow} {batch : Int64}
    (h : IsNewestFirst rows listed) (hle : ∀ row ∈ rows, row.batch ≤ batch) :
    listed.filter (·.batch = batch) <+: listed := by
  have hle : ∀ row ∈ listed, row.batch ≤ batch := fun row hrow => hle row (h.1.subset hrow)
  have hsorted := h.2
  clear h
  induction listed with
  | nil => exact List.prefix_rfl
  | cons a r ih =>
    obtain ⟨ha, hr⟩ := List.forall_mem_cons.mp hle
    obtain ⟨hbefore, hsorted⟩ := List.pairwise_cons.mp hsorted
    by_cases hbatch : a.batch = batch
    · rw [List.filter_cons_of_pos (by simpa using hbatch)]
      exact (List.prefix_cons_inj a).mpr (ih hr hsorted)
    · -- no row after a lower one is in the highest batch
      have hlower : ∀ b ∈ r, b.batch ≠ batch := by
        rintro b hb rfl
        rcases hbefore b hb with hlt | ⟨heq, -⟩
        · exact Int64.lt_irrefl (Int64.lt_of_lt_of_le hlt ha)
        · exact hbatch heq.symm
      have hnone : (a :: r).filter (·.batch = batch) = [] := by
        rw [List.filter_cons_of_neg (by simpa using hbatch)]
        exact List.filter_eq_nil_iff.mpr fun b hb => by simpa using hlower b hb
      rw [hnone]
      exact List.nil_prefix

end SchemaKeeper.Ledger
