/-
Getting the ledger ready.

Before it touches a migration, the migrator makes sure that the ledger is there
and reads it.  Such an action leaves the rows as they are and sends preparatory
calls alone: queries, and the statement that creates the ledger.  It may be
hindered, and `Hindered` lists the ways.

* `Prepares` is the specification of these actions, with what they find out,
* `Readied` is the course of an action that starts with them (`Prepares.bind_readied`),
* `prepares_ensureLedger` starts from any state of the ledger; the other actions
  read a ledger that is there.
-/
import SchemaKeeper.Proofs.Ledger.Operations

namespace SchemaKeeper

open SchemaKeeper.Action Ledger

namespace SqlLedger

variable {σ α β : Type} {c : Connection σ} {table : String} (L : SqlLedger c table)

/-- The rows of the ledger; a ledger that is missing has none. -/
def rowsOf (s : σ) : List LedgerRow :=
  (L.rows? s).getD []

theorem rowsOf_eq {s : σ} {rows : List LedgerRow} (h : L.rows? s = some rows) :
    L.rowsOf s = rows := by
  rw [rowsOf, h, Option.getD_some]

theorem rowsOf_congr {s s' : σ} (h : L.rows? s' = L.rows? s) : L.rowsOf s' = L.rowsOf s := by
  rw [rowsOf, rowsOf, h]

/-! ### Preparatory calls -/

/-- A call by which the ledger is looked for, created or read. -/
def Preparatory (c : Connection σ) (table : String) (call : Call) : Prop :=
  call.verb = .query ∨ call = ⟨.exec, createSql c.dialect table, []⟩

/-- The ways in which the ledger cannot be made ready or be read. -/
inductive Hindered (options : LedgerOptions) (s : σ) (l : List Call) : Failure → Prop
  /-- The catalog is not read. -/
  | unasked {f : Failure} (refused : ¬ c.Accepts l s) (database : f.OfDatabase) :
      Hindered options s l f
  /-- There is no ledger, or none that the catalog can tell, and it must not be created. -/
  | missing (missing : L.rows? s = none ∨ Catalog.isNoName table = true)
      (denied : options.autoCreate = false) : Hindered options s l (.ledgerMissing table)
  /-- The ledger is not created or not read. -/
  | refused {detail : String} (refused : ¬ c.Accepts l s) :
      Hindered options s l (.ledger table detail)
  /-- A row of the ledger cannot be read. -/
  | unreadable {detail : String} {row : LedgerRow} (mem : row ∈ L.rowsOf s)
      (unreadable : ¬ Readable table row) : Hindered options s l (.ledger table detail)

variable {L}

/-- What hinders an action after preparatory calls hinders both. -/
theorem Hindered.after {options : LedgerOptions} {s : σ} {l k : List Call} {f : Failure}
    (hrows : L.rows? (c.after l s) = some (L.rowsOf s))
    (h : L.Hindered options (c.after l s) k f) : L.Hindered options s (l ++ k) f := by
  have hrefused : ¬ c.Accepts k (c.after l s) → ¬ c.Accepts (l ++ k) s := fun h ha =>
    h ((c.accepts_append l k s).mp ha).2
  cases h with
  | unasked refused database => exact .unasked (hrefused refused) database
  | missing missing denied =>
    refine .missing (missing.imp_left fun hnone => ?_) denied
    rw [hrows] at hnone
    cases hnone
  | refused refused => exact .refused (hrefused refused)
  | unreadable mem unreadable =>
    rw [L.rowsOf_eq hrows] at mem
    exact .unreadable mem unreadable

theorem Hindered.ne_migrationNotFound {options : LedgerOptions} {s : σ} {l : List Call}
    {f : Failure} (h : L.Hindered options s l f) (version : String) :
    f ≠ .migrationNotFound version := by
  rintro rfl
  cases h with
  | unasked _ database => exact database

theorem Hindered.ne_overflow {options : LedgerOptions} {s : σ} {l : List Call} {f : Failure}
    (h : L.Hindered options s l f) : f ≠ .overflow := by
  rintro rfl
  cases h with
  | unasked _ database => exact database

/-! ### Specifications -/

variable (L)

/-- What an action comes to that makes the ledger ready or reads it: it is hindered, or the ledger
is there afterwards and `Found` holds of the result.  The rows stay in either case. -/
def Prepared (options : LedgerOptions) (s : σ) (Found : α → Prop) (r : Except Failure α)
    (l : List Call) : Prop :=
  (∀ call ∈ l, Preparatory c table call) ∧
    ((∃ f, r = .error f ∧ L.Hindered options s l f ∧ L.rowsOf (c.after l s) = L.rowsOf s) ∨
      ∃ a, r = .ok a ∧ Found a ∧ c.Accepts l s ∧ L.rows? (c.after l s) = some (L.rowsOf s))

/-- The specification of an action that makes the ledger ready or reads it. -/
def Prepares (options : LedgerOptions) (x : Action σ α) (s : Conversation σ) (Found : α → Prop) :
    Prop :=
  x.Runs c s (L.Prepared options s.state Found)

variable {L} {options : LedgerOptions} {s : Conversation σ}

/-- Two actions that prepare, one after the other. -/
theorem Prepares.bind {x : Action σ α} {g : α → Action σ β} {Found : α → Prop}
    {Found' : β → Prop} (hx : L.Prepares options x s Found)
    (hg : ∀ a l, Found a → L.rows? (c.after l s.state) = some (L.rowsOf s.state) →
      L.Prepares options (g a) (s.extend c l) Found') :
    L.Prepares options (x >>= g) s Found' := by
  refine Runs.bind hx ?_ ?_
  · rintro a l ⟨hl, ⟨_, ⟨⟩, -⟩ | ⟨_, ⟨⟩, hfound, haccepts, hrows⟩⟩
    refine Runs.mono (hg a l hfound hrows) ?_
    rintro r k ⟨hk, hr⟩
    have hsame : L.rowsOf (c.after l s.state) = L.rowsOf s.state := L.rowsOf_eq hrows
    refine ⟨List.forall_mem_append.mpr ⟨hl, hk⟩, ?_⟩
    rcases hr with ⟨f, rfl, hhindered, hrows'⟩ | ⟨b, rfl, hfound', haccepts', hrows'⟩
    · refine .inl ⟨f, rfl, hhindered.after hrows, ?_⟩
      rw [Connection.after_append]
      exact hrows'.trans hsame
    · refine .inr ⟨b, rfl, hfound', (c.accepts_append l k s.state).mpr ⟨haccepts, haccepts'⟩, ?_⟩
      rw [Connection.after_append, ← hsame]
      exact hrows'
  · rintro f l ⟨hl, ⟨_, ⟨⟩, hhindered, hrows⟩ | ⟨_, ⟨⟩, -⟩⟩
    exact ⟨hl, .inl ⟨f, rfl, hhindered, hrows⟩⟩

theorem prepares_pure {a : α} {Found : α → Prop} {rows : List LedgerRow}
    (hrows : L.rows? s.state = some rows) (h : Found a) : L.Prepares options (pure a) s Found :=
  runs_pure ⟨by simp, .inr ⟨a, rfl, h, trivial, by
    rw [Connection.after_nil, hrows, L.rowsOf_eq hrows]⟩⟩

/-- A query on a ledger that is there prepares if it is read, or else fails as one of the ledger. -/
theorem prepares_query {x : Action σ α} {Found : α → Prop} {rows : List LedgerRow}
    (hs : L.legal s.state) (hrows : L.rows? s.state = some rows)
    (hx : x.Runs c s fun r l => (∀ call ∈ l, call.verb = .query) ∧
      (((¬ c.Accepts l s.state ∨ ∃ row ∈ rows, ¬ Readable table row) ∧
          ∃ detail, r = .error (.ledger table detail)) ∨
        (c.Accepts l s.state ∧ ∃ a, r = .ok a ∧ Found a))) :
    L.Prepares options x s Found := by
  refine Runs.mono hx ?_
  rintro r l ⟨hl, h⟩
  have hsame : L.rows? (c.after l s.state) = L.rows? s.state := rows?_after_queries hs hl
  have hrowsOf : L.rowsOf s.state = rows := L.rowsOf_eq hrows
  refine ⟨fun call h => .inl (hl call h), ?_⟩
  rcases h with ⟨hrefused | ⟨row, hmem, hunreadable⟩, detail, rfl⟩ | ⟨haccepts, a, rfl, hfound⟩
  · exact .inl ⟨_, rfl, .refused hrefused, L.rowsOf_congr hsame⟩
  · exact .inl ⟨_, rfl, .unreadable (hrowsOf ▸ hmem) hunreadable, L.rowsOf_congr hsame⟩
  · exact .inr ⟨a, rfl, hfound, haccepts, by rw [hsame, hrows, hrowsOf]⟩

/-! ### What the readings are for -/

/-- The ways in which an action goes that starts with the readings: it is hindered, or comes to a
ledger that is there and goes on as `Course` says. -/
inductive Readied (L : SqlLedger c table) (options : LedgerOptions)
    (Course : σ → Except Failure α → List Call → Prop) (s : σ) :
    Except Failure α → List Call → Prop
  | hindered {lead : List Call} {f : Failure}
      (preparatory : ∀ call ∈ lead, Preparatory c table call)
      (hindered : L.Hindered options s lead f)
      (left : L.rowsOf (c.after lead s) = L.rowsOf s) : Readied L options Course s (.error f) lead
  | ready {lead calls : List Call} {r : Except Failure α}
      (preparatory : ∀ call ∈ lead, Preparatory c table call) (accepted : c.Accepts lead s)
      (left : L.rows? (c.after lead s) = some (L.rowsOf s))
      (course : Course (c.after lead s) r calls) : Readied L options Course s r (lead ++ calls)

variable {Course : σ → Except Failure α → List Call → Prop}

/-- The course of an action that finds the ledger as it is read. -/
theorem Readied.of_course {s : σ} {rows : List LedgerRow} {r : Except Failure α} {l : List Call}
    (hrows : L.rows? s = some rows) (h : Course s r l) : L.Readied options Course s r l := by
  rw [← List.nil_append l]
  refine .ready (by simp) trivial ?_ h
  rw [L.rowsOf_eq hrows, ← hrows, Connection.after_nil]

/-- Readings before others are readings. -/
theorem Readied.after {s : σ} {r : Except Failure α} {lead l : List Call}
    (hlead : ∀ call ∈ lead, Preparatory c table call) (haccepts : c.Accepts lead s)
    (hrows : L.rows? (c.after lead s) = some (L.rowsOf s))
    (h : L.Readied options Course (c.after lead s) r l) :
    L.Readied options Course s r (lead ++ l) := by
  have happend : ∀ k, (∀ call ∈ k, Preparatory c table call) →
      ∀ call ∈ lead ++ k, Preparatory c table call := fun k hk =>
    List.forall_mem_append.mpr ⟨hlead, hk⟩
  have hsame : L.rowsOf (c.after lead s) = L.rowsOf s := L.rowsOf_eq hrows
  cases h with
  | hindered preparatory hindered left =>
    refine .hindered (happend _ preparatory) (hindered.after hrows) ?_
    rw [Connection.after_append, left, hsame]
  | ready preparatory accepted left course =>
    rw [← List.append_assoc]
    rw [← Connection.after_append] at left course
    exact .ready (happend _ preparatory) ((c.accepts_append ..).mpr ⟨haccepts, accepted⟩)
      (left.trans (congrArg some hsame)) course

/-- A reading, and then an action that may read further. -/
theorem Prepares.bind_readied {x : Action σ β} {g : β → Action σ α} {Found : β → Prop}
    {s : Conversation σ} (hs : L.legal s.state) (hx : L.Prepares options x s Found)
    (hg : ∀ (a : β) (s' : Conversation σ), Found a → L.legal s'.state →
      L.rows? s'.state = some (L.rowsOf s.state) →
      (g a).Runs c s' (L.Readied options Course s'.state)) :
    (x >>= g).Runs c s (L.Readied options Course s.state) := by
  refine Runs.bind hx ?_ ?_
  · rintro a l ⟨hl, ⟨_, ⟨⟩, -⟩ | ⟨_, ⟨⟩, hfound, haccepts, hrows⟩⟩
    refine (hg a (s.extend c l) hfound (legal_after hs l) hrows).mono ?_
    exact fun r k h => h.after hl haccepts hrows
  · rintro f l ⟨hl, ⟨_, ⟨⟩, hhindered, hrows⟩ | ⟨_, ⟨⟩, -⟩⟩
    exact .hindered hl hhindered hrows

end SqlLedger

/-! ### The actions of the migrator -/

namespace Migrator

open SqlLedger

variable {σ : Type} {c : Connection σ} {m : Migrator} {L : SqlLedger c m.table}
  {s : Conversation σ}

theorem prepares_ensureLedger (hs : L.legal s.state) :
    L.Prepares m.options (m.ensureLedger c) s fun _ => True := by
  refine Runs.bind (L.runs_exists? hs) ?_ ?_
  · rintro found l ⟨hl, ⟨-, _, -, ⟨⟩⟩ | ⟨haccepts, ⟨⟩⟩⟩
    have hsame : L.rows? (c.after l s.state) = L.rows? s.state := rows?_after_queries hs hl
    have hpreparatory : ∀ call ∈ l, Preparatory c m.table call := fun call h => .inl (hl call h)
    refine runs_ite (fun hfound => runs_pure ?_) fun hfound =>
      runs_ite (fun _ => ?_) fun hauto => ?_
    · -- the catalog knows the table
      rw [List.append_nil]
      refine ⟨hpreparatory, .inr ⟨(), rfl, trivial, haccepts, ?_⟩⟩
      rw [hsame, rowsOf]
      simp only [Bool.and_eq_true, Option.isSome_iff_exists] at hfound
      obtain ⟨-, rows, hrows⟩ := hfound
      rw [hrows, Option.getD_some]
    · -- the ledger is created
      refine (L.runs_create (legal_after hs l)).mono ?_
      rintro r k ⟨rfl, h⟩
      refine ⟨?_, ?_⟩
      · intro call hcall
        rcases List.mem_append.mp hcall with h | h
        · exact hpreparatory call h
        · exact .inr (List.mem_singleton.mp h)
      rw [Connection.after_append, Connection.accepts_append]
      rcases h with ⟨hrefused, ⟨detail, rfl⟩, hrows⟩ | ⟨haccepts', rfl, hrows⟩
      · refine .inl ⟨_, rfl, .refused fun h => hrefused ?_, L.rowsOf_congr (hrows.trans hsame)⟩
        exact ((c.accepts_append ..).mp h).2
      · refine .inr ⟨(), rfl, trivial, ⟨haccepts, haccepts'⟩, ?_⟩
        rw [Conversation.state_extend, hsame] at hrows
        exact hrows
    · -- the ledger must not be created
      refine runs_throw ?_
      rw [List.append_nil]
      refine ⟨hpreparatory, .inl ⟨_, rfl, .missing ?_ (by simpa using hauto),
        L.rowsOf_congr hsame⟩⟩
      cases hname : Catalog.isNoName m.table with
      | true => exact .inr rfl
      | false =>
        rw [hname, Bool.not_false, Bool.true_and, Option.isSome_iff_ne_none, not_not] at hfound
        exact .inl hfound
  · rintro f l ⟨hl, ⟨hrefused, f', hf', ⟨⟩⟩ | ⟨-, ⟨⟩⟩⟩
    exact ⟨fun call h => .inl (hl call h), .inl ⟨f, rfl, .unasked hrefused hf',
      L.rowsOf_congr (rows?_after_queries hs hl)⟩⟩

theorem prepares_applied {rows : List LedgerRow} (hs : L.legal s.state)
    (hrows : L.rows? s.state = some rows) :
    L.Prepares m.options (Ledger.applied c m.table) s fun records =>
      ∃ listed, IsOldestFirst rows listed ∧ List.Forall₂ (Matches m.table) records listed := by
  refine prepares_query hs hrows (Runs.mono (L.runs_applied hs hrows) ?_)
  rintro r l ⟨rfl, h⟩
  refine ⟨by simp, h.imp_right ?_⟩
  rintro ⟨haccepts, records, listed, rfl, hlisted⟩
  exact ⟨haccepts, records, rfl, listed, hlisted⟩

theorem prepares_appliedVersions {rows : List LedgerRow} (hs : L.legal s.state)
    (hrows : L.rows? s.state = some rows) :
    L.Prepares m.options (Ledger.appliedVersions c m.table) s fun versions =>
      versions.Perm (rows.map (·.version)) := by
  refine (prepares_applied hs hrows).bind fun records l ⟨listed, hlisted, hmatches⟩ hrows' =>
    prepares_pure hrows' ?_
  rw [versions_of_matches hmatches]
  exact hlisted.1.map _

theorem prepares_lastBatch {rows : List LedgerRow} (hs : L.legal s.state)
    (hrows : L.rows? s.state = some rows) :
    L.Prepares m.options (Ledger.lastBatch c m.table) s fun batch =>
      ∃ b?, IsMaxBatch rows b? ∧ batch = b?.getD 0 := by
  refine prepares_query hs hrows (Runs.mono (L.runs_lastBatch hs hrows) ?_)
  rintro r l ⟨rfl, h⟩
  refine ⟨by simp, h.imp (And.imp_left .inl) ?_⟩
  rintro ⟨haccepts, b?, hmax, rfl⟩
  exact ⟨haccepts, _, rfl, b?, hmax, rfl⟩

theorem prepares_latest {rows : List LedgerRow} (hs : L.legal s.state)
    (hrows : L.rows? s.state = some rows) (n : Nat) :
    L.Prepares m.options (Ledger.latest c m.table n) s fun records =>
      ∃ ordered, IsNewestFirst rows ordered ∧
        List.Forall₂ (Matches m.table) records (ordered.take n) := by
  refine prepares_query hs hrows (Runs.mono (L.runs_latest hs hrows n) ?_)
  rintro r l ⟨rfl, h⟩
  refine ⟨by simp, h.imp_right ?_⟩
  rintro ⟨haccepts, records, ordered, rfl, hordered⟩
  exact ⟨haccepts, records, rfl, ordered, hordered⟩

theorem prepares_count {rows : List LedgerRow} (hs : L.legal s.state)
    (hrows : L.rows? s.state = some rows) :
    L.Prepares m.options (Ledger.count c m.table) s fun n => n = rows.length := by
  refine prepares_query hs hrows (Runs.mono (L.runs_count hs hrows) ?_)
  rintro r l ⟨rfl, h⟩
  refine ⟨by simp, h.imp (And.imp_left .inl) ?_⟩
  rintro ⟨haccepts, rfl⟩
  exact ⟨haccepts, _, rfl, rfl⟩

end Migrator

end SchemaKeeper
