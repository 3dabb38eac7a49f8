/-
Sessions of a migrator.

A session is a migrator with the database that it talks to.  It takes commands one
after another, and each of their calls may be refused.

* `Orderly` is the invariant: the rows are in layers, and each names a registered
  migration,
* `Keeps` says of an action that it preserves the invariant and never misses a
  migration; there is one such lemma for each action,
* `orderly_run` goes through the commands, and `layered_of_course` through a list of
  them: from an empty ledger every command leaves the ledger in layers.
-/
import SchemaKeeper.Proofs.Ledger.Layers
import SchemaKeeper.Proofs.Migrator.Applying
import SchemaKeeper.Proofs.Migrator.Undoing

namespace SchemaKeeper

open SchemaKeeper.Action Ledger SqlLedger

namespace Migrator

variable {σ α β : Type}

/-! ### Ledgers in order -/

/-- The rows are in at most `k` layers, and each names a registered migration. -/
structure Orderly (m : Migrator) (k : Nat) (rows : List LedgerRow) : Prop where
  registered : ∀ row ∈ rows, ∃ p ∈ m.migrations, p.version = row.version
  layered : ∃ top ≤ k, Layered top rows

variable {m : Migrator} {k k' k'' : Nat} {rows : List LedgerRow} {c : Connection σ}

theorem Orderly.mono (h : m.Orderly k rows) (hk : k ≤ k') : m.Orderly k' rows where
  registered := h.registered
  layered := by
    obtain ⟨top, htop, hlayered⟩ := h.layered
    exact ⟨top, Nat.le_trans htop hk, hlayered⟩

theorem Orderly.ofPrefix (h : m.Orderly k rows) {rows' : List LedgerRow}
    (hpre : rows' <+: rows) : m.Orderly k rows' where
  registered row hrow := h.registered row (hpre.subset hrow)
  layered := by
    obtain ⟨top, htop, hlayered⟩ := h.layered
    obtain ⟨top', htop', hlayered'⟩ := hlayered.ofPrefix hpre
    exact ⟨top', Nat.le_trans htop' htop, hlayered'⟩

/-- The batch after the highest is one of 64 bits. -/
theorem Orderly.batch_lt (h : m.Orderly k rows) (hk : k + 1 < 2 ^ 63) :
    ∀ row ∈ rows, row.batch < Int64.maxValue := by
  intro row hrow
  obtain ⟨top, htop, hlayered⟩ := h.layered
  have hle := (hlayered.batch_le hrow).2
  have hmax : Int64.maxValue.toInt = 2 ^ 63 - 1 := by decide
  rw [Int64.lt_iff_toInt_lt]
  omega

/-- The rows of registered migrations are put on top as one batch. -/
theorem Orderly.append (h : m.Orderly k rows) {batch : Int64} {ps : List Migration}
    {added : List LedgerRow} (hnext : IsNextBatch rows batch) (hps : ∀ p ∈ ps, p ∈ m.migrations)
    (hadded : Appended batch ps rows added) : m.Orderly (k + 1) (rows ++ added) where
  registered row hrow := by
    rcases List.mem_append.mp hrow with hrow | hrow
    · exact h.registered row hrow
    · obtain ⟨p, hp, hrecords⟩ := hadded.exists_of_mem hrow
      exact ⟨p, hps p hp, hrecords.version.symm⟩
  layered := by
    obtain ⟨top, htop, hlayered⟩ := h.layered
    have hbatch : ∀ row ∈ added, row.batch = batch := fun row hrow => by
      obtain ⟨p, -, hrecords⟩ := hadded.exists_of_mem hrow
      exact hrecords.batch
    obtain ⟨top', htop', hlayered'⟩ :=
      hlayered.append hadded.newer hadded.above hbatch (hlayered.isNextBatch hnext)
    exact ⟨top', by omega, hlayered'⟩

/-- The rows that come first from the top are taken off. -/
theorem Orderly.filter_not_mem (h : m.Orderly k rows) {n : Nat} {done rest : List LedgerRow}
    (hsplit : rows.reverse.take n = done ++ rest) :
    m.Orderly k (rows.filter (· ∉ done)) := by
  obtain ⟨top, -, hlayered⟩ := h.layered
  have hreverse : rows.reverse = done ++ (rest ++ rows.reverse.drop n) := by
    rw [← List.append_assoc, ← hsplit, List.take_append_drop]
  rw [filter_not_mem_of_reverse (hlayered.nodup_ids.of_map _) hreverse]
  refine h.ofPrefix ⟨done.reverse, ?_⟩
  rw [← List.reverse_append, ← hreverse, List.reverse_reverse]

/-! ### Actions that keep it in order -/

/-- After the calls the ledger is in order, and the answer misses no migration. -/
def Kept (L : SqlLedger c m.table) (k : Nat) (s : σ) (r : Except Failure α) (l : List Call) :
    Prop :=
  m.Orderly k (L.rowsOf (c.after l s)) ∧ ∀ version, r ≠ .error (.migrationNotFound version)

/-- Whatever is refused, the action leaves a ledger of at most `k` layers with at most `k'`, and
never misses a migration. -/
def Keeps (L : SqlLedger c m.table) (k k' : Nat) (x : Action σ α) : Prop :=
  ∀ s : Conversation σ, L.legal s.state → m.Orderly k (L.rowsOf s.state) →
    x.Runs c s (Kept L k' s.state)

variable {L : SqlLedger c m.table}

theorem kept_ok {s : σ} {l : List Call} (h : m.Orderly k (L.rowsOf (c.after l s))) (a : α) :
    Kept L k s (.ok a) l :=
  ⟨h, fun _ hr => by cases hr⟩

theorem kept_error {s : σ} {l : List Call} {f : Failure}
    (h : m.Orderly k (L.rowsOf (c.after l s))) (hf : ∀ version, f ≠ .migrationNotFound version) :
    Kept L k s (.error f : Except Failure α) l :=
  ⟨h, fun version hr => hf version (Except.error.inj hr)⟩

/-- An action whose first part is specified keeps the ledger if the second does. -/
theorem runs_bind_kept {x : Action σ β} {g : β → Action σ α} {s : Conversation σ}
    {P : Except Failure β → List Call → Prop} (hx : x.Runs c s P)
    (hok : ∀ a l, P (.ok a) l → (g a).Runs c (s.extend c l) (Kept L k (s.extend c l).state))
    (herror : ∀ f l, P (.error f) l → Kept L k s.state (.error f : Except Failure α) l) :
    (x >>= g).Runs c s (Kept L k s.state) := by
  refine hx.bind (fun a l ha => (hok a l ha).mono ?_) herror
  rintro r j ⟨hj, hr⟩
  rw [Conversation.state_extend, ← Connection.after_append] at hj
  exact ⟨hj, hr⟩

theorem keeps_pure (a : α) : Keeps L k k (pure a) := fun _ _ h => runs_pure (kept_ok h a)

theorem Keeps.bind {x : Action σ β} {g : β → Action σ α} (hx : Keeps L k k' x)
    (hg : ∀ a, Keeps L k' k'' (g a)) (hk : k' ≤ k'') : Keeps L k k'' (x >>= g) := by
  intro s hs h
  refine runs_bind_kept (hx s hs h) ?_ ?_
  · rintro a l ⟨hl, -⟩
    exact hg a (s.extend c l) (legal_after hs l) hl
  · rintro f l ⟨hl, hf⟩
    exact kept_error (hl.mono hk) fun version heq => hf version (heq ▸ rfl)

/-- Reading the ledger keeps it, and what follows starts from what was read. -/
theorem Prepares.bind_keeps {x : Action σ β} {g : β → Action σ α} {Found : β → Prop}
    {s : Conversation σ} (hs : L.legal s.state) (h : m.Orderly k (L.rowsOf s.state))
    (hx : L.Prepares m.options x s Found)
    (hg : ∀ (a : β) (s' : Conversation σ), L.legal s'.state →
      L.rows? s'.state = some (L.rowsOf s.state) → (g a).Runs c s' (Kept L k s'.state)) :
    (x >>= g).Runs c s (Kept L k s.state) := by
  refine runs_bind_kept hx ?_ ?_
  · rintro a l ⟨-, ⟨_, ⟨⟩, -⟩ | ⟨_, ⟨⟩, -, -, hrows⟩⟩
    exact hg a (s.extend c l) (legal_after hs l) hrows
  · rintro f l ⟨-, ⟨_, ⟨⟩, hhindered, hrows⟩ | ⟨_, ⟨⟩, -⟩⟩
    exact kept_error (hrows ▸ h) hhindered.ne_migrationNotFound

/-! ### The commands one by one -/

/-- Applying puts at most one layer on top. -/
theorem keeps_up (hspares : ∀ p ∈ m.migrations, L.Spares p) (hk : k + 1 < 2 ^ 63) :
    Keeps L k (k + 1) (m.up c) := by
  intro s hs h
  obtain ⟨batch, hnext⟩ := exists_isNextBatch (h.batch_lt hk)
  have hregistered : ∀ p ∈ m.pendingFor (L.rowsOf s.state), p ∈ m.migrations :=
    fun p hp => mem_of_mem_pendingFor hp
  refine (runs_up hspares hs hnext).mono ?_
  intro r l hcourse
  cases hcourse with
  | hindered _ hindered left =>
    exact kept_error (left ▸ h.mono (Nat.le_succ k)) hindered.ne_migrationNotFound
  | ready _ _ _ course =>
    cases course with
    | finished _ appended left =>
      refine kept_ok ?_ _
      rw [Connection.after_append, L.rowsOf_eq left]
      exact h.append hnext hregistered appended
    | @broken done rest _ _ _ _ _ split _ breaks appended left =>
      -- the layer consists of those that were carried out
      have hdone : ∀ p ∈ done, p ∈ m.migrations := fun p hp =>
        hregistered p (split ▸ List.mem_append_left _ hp)
      refine kept_error ?_ breaks.ne_migrationNotFound
      rw [Connection.after_append, L.rowsOf_eq left]
      exact h.append hnext hdone appended

/-- Undoing takes rows off the top, and each of them names a registered migration. -/
theorem keeps_down (hspares : ∀ p ∈ m.migrations, L.Spares p) (n : Nat) :
    Keeps L k k (m.down c n) := by
  intro s hs h
  by_cases hn : n = 0
  · -- nothing is to be undone, and the ledger is not even asked for
    unfold down
    rw [if_pos hn]
    exact keeps_pure [] s hs h
  obtain ⟨top, htop, hlayered⟩ := h.layered
  refine (runs_down hn hspares hs hlayered.nodup_ids hlayered.nodup_versions
    hlayered.isNewestFirst_reverse).mono ?_
  intro r l hcourse
  cases hcourse with
  | hindered _ hindered left =>
    exact kept_error (left ▸ h) hindered.ne_migrationNotFound
  | ready _ _ _ course =>
    cases course with
    | finished _ _ left =>
      refine kept_ok ?_ _
      rw [Connection.after_append, L.rowsOf_eq left]
      exact h.filter_not_mem (List.append_nil _).symm
    | @unregistered _ _ row _ _ split _ _ unknown left =>
      -- the row is one of the ledger, so this does not happen
      have hrow : row ∈ (L.rowsOf s.state).reverse.take n := by simp [split]
      obtain ⟨p, hp, hversion⟩ :=
        h.registered row (List.mem_reverse.mp (List.mem_of_mem_take hrow))
      exact absurd hversion (unknown p hp)
    | broken split _ _ _ breaks left =>
      refine kept_error ?_ breaks.ne_migrationNotFound
      rw [Connection.after_append, L.rowsOf_eq left]
      exact h.filter_not_mem split

theorem keeps_reset (hspares : ∀ p ∈ m.migrations, L.Spares p) : Keeps L k k (m.reset c) := by
  intro s hs h
  refine Prepares.bind_keeps hs h (prepares_ensureLedger hs) fun _ s₁ hs₁ hrows₁ => ?_
  rw [← L.rowsOf_eq hrows₁] at h
  refine Prepares.bind_keeps hs₁ h (prepares_count hs₁ hrows₁) fun total s₂ hs₂ hrows₂ => ?_
  rw [← L.rowsOf_eq hrows₂] at h
  exact keeps_down hspares total s₂ hs₂ h

theorem keeps_fresh (hspares : ∀ p ∈ m.migrations, L.Spares p) (hk : k + 1 < 2 ^ 63) :
    Keeps L k (k + 1) (m.fresh c) :=
  (keeps_reset hspares).bind (fun _ => keeps_up hspares hk) (Nat.le_succ k)

/-- Reading the status changes nothing. -/
theorem keeps_status : Keeps L k k (m.status c) := by
  intro s hs h
  unfold status
  refine runs_bind_kept (L.runs_exists? hs) ?_ ?_
  · rintro found l ⟨hl, ⟨-, _, -, ⟨⟩⟩ | ⟨-, ⟨⟩⟩⟩
    have hsame : L.rows? (s.extend c l).state = L.rows? s.state := rows?_after_queries hs hl
    rw [← L.rowsOf_congr hsame] at h
    refine runs_ite (fun hfound => ?_) fun _ => keeps_pure _ _ (legal_after hs l) h
    obtain ⟨-, hsome⟩ := Bool.and_eq_true_iff.mp hfound
    obtain ⟨rows, hrows⟩ := Option.isSome_iff_exists.mp hsome
    have hs₁ : L.legal (s.extend c l).state := legal_after hs l
    refine Prepares.bind_keeps hs₁ h (prepares_applied hs₁ (hsame.trans hrows))
      fun records s₂ hs₂ hrows₂ => ?_
    rw [← L.rowsOf_eq hrows₂] at h
    exact keeps_pure _ s₂ hs₂ h
  · rintro f l ⟨hl, ⟨-, _, hf, ⟨⟩⟩ | ⟨-, ⟨⟩⟩⟩
    refine kept_error (L.rowsOf_congr (rows?_after_queries hs hl) ▸ h) ?_
    rintro version rfl
    exact hf

theorem keeps_pending : Keeps L k k (m.pending c) :=
  keeps_status.bind (fun _ => keeps_pure _) (Nat.le_refl k)

/-! ### Commands -/

/-- What a migrator can be asked for. -/
inductive Command where
  | register (migration : Migration)
  | up
  | down (steps : Nat)
  | reset
  | fresh
  | status
  | pending

/-- A migrator with the database that it talks to. -/
structure Session (σ : Type) where
  migrator : Migrator
  conversation : Conversation σ

/-- What an action on the database answers, apart from its value, and the session after it. -/
def Session.perform (S : Session σ) (x : Action σ α) : Except Failure Unit × Session σ :=
  let (answer, conversation) := x S.conversation
  (answer.map fun _ => (), { S with conversation := conversation })

/-- Whether a migration is registered, and the session after it. -/
def Session.register (S : Session σ) (migration : Migration) : Except Failure Unit × Session σ :=
  match S.migrator.register migration with
  | .ok m => (.ok (), { S with migrator := m })
  | .error f => (.error f, S)

/-- The answer to a command, apart from its value, and the session after it. -/
def Command.run (c : Connection σ) (command : Command) (S : Session σ) :
    Except Failure Unit × Session σ :=
  match command with
  | .register migration => S.register migration
  | .up => S.perform (S.migrator.up c)
  | .down steps => S.perform (S.migrator.down c steps)
  | .reset => S.perform (S.migrator.reset c)
  | .fresh => S.perform (S.migrator.fresh c)
  | .status => S.perform (S.migrator.status c)
  | .pending => S.perform (S.migrator.pending c)

/-- The answers to commands in order, each with the session after it. -/
def course (c : Connection σ) : List Command → Session σ → List (Except Failure Unit × Session σ)
  | [], _ => []
  | command :: r, S => command.run c S :: course c r (command.run c S).2

/-! ### The invariant of a session -/

/-- The ledger of the session is in at most `k` layers, and none of its migrations addresses it. -/
structure Session.Orderly {table : String} (L : SqlLedger c table) (k : Nat) (S : Session σ) :
    Prop where
  table_eq : S.migrator.table = table
  legal : L.legal S.conversation.state
  spares : ∀ p ∈ S.migrator.migrations, L.Spares p
  orderly : S.migrator.Orderly k (L.rowsOf S.conversation.state)

theorem Session.Orderly.mono {table : String} {L : SqlLedger c table} {S : Session σ}
    (h : S.Orderly L k) (hk : k ≤ k') : S.Orderly L k' :=
  ⟨h.table_eq, h.legal, h.spares, h.orderly.mono hk⟩

theorem orderly_perform {S : Session σ} {L : SqlLedger c S.migrator.table} {x : Action σ α}
    (h : S.Orderly L k) (hx : Keeps L k k' x) :
    (S.perform x).2.Orderly L k' ∧
      ∀ version, (S.perform x).1 ≠ .error (.migrationNotFound version) := by
  obtain ⟨r, l, hrun, horderly, hfound⟩ := hx S.conversation h.legal h.orderly
  have hperform : S.perform x =
      (r.map fun _ => (), { S with conversation := S.conversation.extend c l }) := by
    rw [Session.perform, hrun]
  rw [hperform]
  refine ⟨⟨rfl, legal_after h.legal l, h.spares, horderly⟩, fun version hr => hfound version ?_⟩
  cases r with
  | ok a => cases hr
  | error f => exact congrArg Except.error (Except.error.inj hr)

/-- Registering changes no row, and the rows still name registered migrations. -/
theorem orderly_register {table : String} {L : SqlLedger c table} {S : Session σ}
    (h : S.Orderly L k) {migration : Migration} (hspares : L.Spares migration) :
    (S.register migration).2.Orderly L k ∧
      ∀ version, (S.register migration).1 ≠ .error (.migrationNotFound version) := by
  unfold Session.register Migrator.register
  by_cases hknown : S.migrator.migrations.any (·.version == migration.version) = true
  · rw [if_pos hknown]
    exact ⟨h, fun version hr => by cases hr⟩
  · rw [if_neg hknown]
    refine ⟨⟨h.table_eq, h.legal, fun p hp => ?_, fun row hrow => ?_, h.orderly.layered⟩,
      fun version hr => by cases hr⟩
    · rcases List.mem_append.mp hp with hp | hp
      · exact h.spares p hp
      · rw [List.mem_singleton.mp hp]
        exact hspares
    · obtain ⟨p, hp, hversion⟩ := h.orderly.registered row hrow
      exact ⟨p, List.mem_append_left _ hp, hversion⟩

/-- A command puts at most one layer on the ledger of a session. -/
theorem orderly_run {table : String} {L : SqlLedger c table} {S : Session σ} (h : S.Orderly L k)
    (hk : k + 1 < 2 ^ 63) (command : Command)
    (hspares : ∀ p, command = .register p → L.Spares p) :
    (command.run c S).2.Orderly L (k + 1) ∧
      ∀ version, (command.run c S).1 ≠ .error (.migrationNotFound version) := by
  have hmigrations := h.spares
  have hsucc := h.mono (Nat.le_succ k)
  obtain rfl := h.table_eq
  cases command with
  | register migration => exact orderly_register hsucc (hspares migration rfl)
  | up => exact orderly_perform h (keeps_up hmigrations hk)
  | down steps => exact orderly_perform hsucc (keeps_down hmigrations steps)
  | reset => exact orderly_perform hsucc (keeps_reset hmigrations)
  | fresh => exact orderly_perform h (keeps_fresh hmigrations hk)
  | status => exact orderly_perform hsucc keeps_status
  | pending => exact orderly_perform hsucc keeps_pending

/-- Each of several commands leaves the ledger in as many layers at most. -/
theorem orderly_course {table : String} {L : SqlLedger c table} {commands : List Command}
    {S : Session σ} (h : S.Orderly L k) (hk : k + commands.length < 2 ^ 63)
    (hspares : ∀ p, .register p ∈ commands → L.Spares p) :
    ∀ o ∈ course c commands S, o.2.Orderly L (k + commands.length) ∧
      ∀ version, o.1 ≠ .error (.migrationNotFound version) := by
  induction commands generalizing S k with
  | nil => intro o ho; cases ho
  | cons command r ih =>
    rw [List.length_cons] at hk
    have hcommand : ∀ p, command = .register p → L.Spares p := fun p hp => hspares p (by simp [hp])
    have hrun := orderly_run h (by omega) command hcommand
    intro o ho
    rcases List.mem_cons.mp ho with rfl | ho
    · exact ⟨hrun.1.mono (by simp), hrun.2⟩
    · have hlength : k + (r.length + 1) = k + 1 + r.length := by omega
      rw [List.length_cons, hlength]
      exact ih hrun.1 (by omega) (fun p hp => hspares p (List.mem_cons_of_mem _ hp)) o ho

/-! ### The result -/

/-- What a ledger shows that only the migrator has written. -/
structure InLayers (migrations : List Migration) (rows : List LedgerRow) : Prop where
  distinct : (rows.map (·.version)).Nodup
  registered : ∀ row ∈ rows, ∃ p ∈ migrations, p.version = row.version
  /-- The batches are those from 1 to the highest. -/
  batches : ∃ top : Nat, ∀ b : Int, (∃ row ∈ rows, row.batch.toInt = b) ↔ 1 ≤ b ∧ b ≤ top
  /-- By id the rows stand as they were inserted, and their batches ascend. -/
  byId : ∀ listed, listed.Perm rows → (listed.Pairwise fun a b => a.id ≤ b.id) →
    listed = rows ∧ listed.Pairwise fun a b => a.batch ≤ b.batch
  /-- Newest first, the rows stand the other way round. -/
  newestFirst : ∀ listed, IsNewestFirst rows listed ↔ listed = rows.reverse

theorem Orderly.inLayers (h : m.Orderly k rows) : InLayers m.migrations rows := by
  obtain ⟨top, -, hlayered⟩ := h.layered
  have hids := hlayered.nodup_ids
  refine ⟨hlayered.nodup_versions, h.registered, ⟨top, hlayered.batches⟩, ?_, fun listed => ?_⟩
  · intro listed hperm hsorted
    have hrows : rows.Pairwise fun a b => a.id ≤ b.id :=
      hlayered.newer.imp fun hnewer => Int.le_of_lt hnewer.2
    -- ids that differ leave one order by id
    have heq : listed = rows := by
      refine List.Perm.eq_of_pairwise (fun a b ha hb hab hba => ?_) hsorted hrows hperm
      exact List.inj_on_of_nodup_map hids (hperm.subset ha) hb (Int.le_antisymm hab hba)
    exact ⟨heq, heq ▸ hlayered.ascending⟩
  · constructor
    · exact fun hlisted => hlisted.unique hids hlayered.isNewestFirst_reverse
    · rintro rfl
      exact hlayered.isNewestFirst_reverse

/-- From a ledger that is empty or missing, whatever is refused, every command of a session leaves
the ledger in layers, and none misses a migration. -/
theorem layered_of_course {m : Migrator} (L : SqlLedger c m.table) {s : Conversation σ}
    (hs : L.legal s.state) (hempty : L.rowsOf s.state = []) {commands : List Command}
    (hlength : commands.length < 2 ^ 63)
    (hspares : ∀ p, p ∈ m.migrations ∨ .register p ∈ commands → L.Spares p) :
    ∀ o ∈ course c commands ⟨m, s⟩,
      InLayers o.2.migrator.migrations (L.rowsOf o.2.conversation.state) ∧
        ∀ version, o.1 ≠ .error (.migrationNotFound version) := by
  have hstart : Session.Orderly L 0 ⟨m, s⟩ := by
    refine ⟨rfl, hs, fun p hp => hspares p (.inl hp), ?_⟩
    rw [hempty]
    exact ⟨by simp, 0, Nat.le_refl 0, .nil⟩
  intro o ho
  have hcourse := orderly_course hstart (by omega) (fun p hp => hspares p (.inr hp)) o ho
  exact ⟨hcourse.1.orderly.inLayers, hcourse.2⟩

/-- A session on a missing ledger in which every seventh call is refused, and migrations are
registered when others are applied already. -/
theorem layered_of_course_of_sample :
    let m : Migrator := {}
    let c := Store.connection .sqlite m.table ⟨0, 0, 0⟩
    let L := Store.sqlLedger .sqlite m.table ⟨0, 0, 0⟩
    let s : Conversation Store :=
      { state := { refusals := (List.range 100).map fun k => k % 7 == 6 } }
    let commands : List Command :=
      (Store.sample.take 2).map .register ++ [.up, .up, .status, .down 1, .up] ++
        (Store.sample.drop 2).map .register ++ [.pending, .up, .up, .down 3, .fresh, .reset, .up]
    L.legal s.state ∧ L.rowsOf s.state = [] ∧ commands.length < 2 ^ 63 ∧
      (∀ p, p ∈ m.migrations ∨ .register p ∈ commands → L.Spares p) ∧
      ∀ o ∈ course c commands ⟨m, s⟩,
        InLayers o.2.migrator.migrations (L.rowsOf o.2.conversation.state) ∧
          ∀ version, o.1 ≠ .error (.migrationNotFound version) := by
  intro m c L s commands
  have hs : L.legal s.state := Store.legal_missing _
  have hempty : L.rowsOf s.state = [] := rfl
  have hlength : commands.length < 2 ^ 63 := by decide
  have hspares : ∀ p, p ∈ m.migrations ∨ .register p ∈ commands → L.Spares p := by
    rintro p (hp | hp)
    · cases hp
    · have hmem : p ∈ Store.sample := by
        simpa [commands, Store.sample] using hp
      exact Store.sample_spares hmem
  exact ⟨hs, hempty, hlength, hspares, layered_of_course L hs hempty hlength hspares⟩

end Migrator

end SchemaKeeper
