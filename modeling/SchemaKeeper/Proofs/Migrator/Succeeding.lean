/-
Runs in which no call is refused.

`Action.Succeeds` is the specification of an action that fails only when one of its
calls is refused.  It goes from the parts of an action to the whole (`Succeeds.bind`).

* Getting the ledger ready succeeds if it is found or may be created, and its rows can
  be read (`SqlLedger.Available`),
* migrations are applied and undone if they are registered and described
  (`Applied.succeeded`, `Undone.succeeded`),
* so `up`, `down`, `reset` and `fresh` succeed, with the rows that they leave.
-/
import SchemaKeeper.Proofs.Migrator.Applying
import SchemaKeeper.Proofs.Migrator.Undoing

namespace SchemaKeeper

open SchemaKeeper.Action Ledger SqlLedger

/-! ### Actions that fail with a call alone -/

namespace Action

variable {σ α β : Type}

/-- No call is refused and there is a result of which `Q` holds, with the state at the end; or a
call is refused and there is none. -/
def Succeeded (c : Connection σ) (s : σ) (Q : α → σ → Prop) (r : Except Failure α)
    (l : List Call) : Prop :=
  (c.Accepts l s ∧ ∃ a, r = .ok a ∧ Q a (c.after l s)) ∨ (¬ c.Accepts l s ∧ ∃ f, r = .error f)

/-- The action has a result of which `Q` holds, with the state that it leads to, unless one of its
calls is refused; then it fails. -/
def Succeeds (c : Connection σ) (x : Action σ α) (s : Conversation σ) (Q : α → σ → Prop) : Prop :=
  x.Runs c s (Succeeded c s.state Q)

variable {c : Connection σ}

theorem Succeeded.mono {s : σ} {P Q : α → σ → Prop} {r : Except Failure α} {l : List Call}
    (h : Succeeded c s P r l) (hPQ : ∀ a t, P a t → Q a t) : Succeeded c s Q r l := by
  rcases h with ⟨haccepts, a, rfl, ha⟩ | hrefused
  · exact .inl ⟨haccepts, a, rfl, hPQ _ _ ha⟩
  · exact .inr hrefused

/-- Calls that are accepted come before others. -/
theorem Succeeded.after {s : σ} {Q : α → σ → Prop} {r : Except Failure α} {lead l : List Call}
    (hlead : c.Accepts lead s) (h : Succeeded c (c.after lead s) Q r l) :
    Succeeded c s Q r (lead ++ l) := by
  unfold Succeeded
  rw [c.accepts_append, c.after_append]
  rcases h with ⟨haccepts, ha⟩ | ⟨hrefused, hf⟩
  · exact .inl ⟨⟨hlead, haccepts⟩, ha⟩
  · exact .inr ⟨fun h => hrefused h.2, hf⟩

variable {s : Conversation σ}

theorem Succeeds.mono {x : Action σ α} {P Q : α → σ → Prop} (hx : x.Succeeds c s P)
    (hPQ : ∀ a t, P a t → Q a t) : x.Succeeds c s Q :=
  Runs.mono hx fun _ _ h => h.mono hPQ

theorem succeeds_pure {a : α} {Q : α → σ → Prop} (h : Q a s.state) :
    Succeeds c (pure a) s Q :=
  runs_pure (.inl ⟨trivial, a, rfl, h⟩)

theorem Succeeds.bind {x : Action σ α} {g : α → Action σ β} {P : α → σ → Prop}
    {Q : β → σ → Prop} (hx : x.Succeeds c s P)
    (hg : ∀ a l, P a (c.after l s.state) → (g a).Succeeds c (s.extend c l) Q) :
    (x >>= g).Succeeds c s Q := by
  refine Runs.bind hx ?_ ?_
  · rintro a l (⟨haccepts, _, ⟨⟩, ha⟩ | ⟨-, _, ⟨⟩⟩)
    exact Runs.mono (hg a l ha) fun _ _ h => h.after haccepts
  · rintro f l (⟨-, _, ⟨⟩, -⟩ | ⟨hrefused, -⟩)
    exact .inr ⟨hrefused, f, rfl⟩

end Action

/-! ### Getting the ledger ready -/

namespace SqlLedger

variable {σ α : Type} {c : Connection σ} {table : String}

/-- The ledger may be created, or it is there under a name that the catalog can tell. -/
def Found (L : SqlLedger c table) (options : LedgerOptions) (s : σ) : Prop :=
  options.autoCreate = true ∨ (Catalog.isNoName table = false ∧ ∃ rows, L.rows? s = some rows)

/-- The ledger is found, and its rows can be read. -/
structure Available (L : SqlLedger c table) (options : LedgerOptions) (s : σ) : Prop where
  found : L.Found options s
  readable : ∀ row ∈ L.rowsOf s, Readable table row

variable {L : SqlLedger c table} {options : LedgerOptions}

/-- A ledger that is there with the same rows is available. -/
theorem Available.of_rows {s s' : σ} (ha : L.Available options s)
    (hrows : L.rows? s' = some (L.rowsOf s)) : L.Available options s' where
  found := ha.found.imp_right fun ⟨hname, _⟩ => ⟨hname, _, hrows⟩
  readable := by
    rw [L.rowsOf_eq hrows]
    exact ha.readable

/-- A ledger that is available can only be hindered by a refusal. -/
theorem Hindered.not_accepts {s : σ} {l : List Call} {f : Failure}
    (h : L.Hindered options s l f) (ha : L.Available options s) : ¬ c.Accepts l s := by
  cases h with
  | unasked refused _ => exact refused
  | missing missing denied =>
    rcases ha.found with hauto | ⟨hname, rows, hrows⟩
    · cases denied.symm.trans hauto
    · rcases missing with hnone | hblank
      · cases hnone.symm.trans hrows
      · cases hname.symm.trans hblank
  | refused refused => exact refused
  | unreadable mem unreadable => exact absurd (ha.readable _ mem) unreadable

theorem Prepares.succeeds {x : Action σ α} {s : Conversation σ} {Found : α → Prop}
    (hx : L.Prepares options x s Found) (ha : L.Available options s.state) :
    x.Succeeds c s fun a t => Found a ∧ L.rows? t = some (L.rowsOf s.state) := by
  refine Runs.mono hx ?_
  rintro r l ⟨-, ⟨f, rfl, hhindered, -⟩ | ⟨a, rfl, hfound, haccepts, hrows⟩⟩
  · exact .inr ⟨hhindered.not_accepts ha, f, rfl⟩
  · exact .inl ⟨haccepts, a, rfl, hfound, hrows⟩

/-- An action that starts with the readings succeeds if its course from a ledger that is there
does. -/
theorem Readied.succeeded {Course : σ → Except Failure α → List Call → Prop} {s : σ}
    {Q : α → σ → Prop} {r : Except Failure α} {l : List Call}
    (h : L.Readied options Course s r l) (ha : L.Available options s)
    (hcourse : ∀ s' calls, Course s' r calls → Succeeded c s' Q r calls) :
    Succeeded c s Q r l := by
  cases h with
  | hindered _ hindered _ => exact .inr ⟨hindered.not_accepts ha, _, rfl⟩
  | ready _ accepted _ course => exact (hcourse _ _ course).after accepted

end SqlLedger

namespace Migrator

variable {σ : Type} {c : Connection σ}

/-! ### Migrations that are described -/

theorem Carried.accepts {task : Task σ} {p : Migration} {s : σ} {l : List Call}
    (h : Carried c task p s l) : c.Accepts l s := by
  obtain ⟨-, haccepted, rfl, hrecorded⟩ := h
  exact (c.accepts_append ..).mpr ⟨haccepted, hrecorded, trivial⟩

theorem CarriedAll.accepts {task : Task σ} {ps : List Migration} {s : σ} {l : List Call}
    (h : CarriedAll c task ps s l) : c.Accepts l s := by
  induction h with
  | nil => trivial
  | cons first _ ih => exact (c.accepts_append ..).mpr ⟨first.accepts, ih⟩

/-- A migration that is described can only break off with a refusal. -/
theorem Breaks.not_accepts {table : String} {task : Task σ} {p : Migration} {s : σ}
    {l : List Call} {f : Failure} (h : Breaks c table task p s l f)
    (hdescribed : ∃ sqls, p.statements task.direction c.dialect = .ok sqls) :
    ¬ c.Accepts l s := by
  cases h with
  | undescribed undescribed =>
    obtain ⟨sqls, hsqls⟩ := hdescribed
    cases hsqls.symm.trans undescribed
  | refused _ stops =>
    -- the statement that is refused is the last of those sent
    intro haccepts
    rw [Call.statements_append, c.accepts_append] at haccepts
    cases stops.refused.symm.trans haccepts.2.1
  | unrecorded _ _ reached refused =>
    subst reached
    intro haccepts
    cases refused.symm.trans ((c.accepts_append ..).mp haccepts).2.1

variable {m : Migrator} {L : SqlLedger c m.table}

theorem Applied.succeeded {batch : Int64} {ps : List Migration} {s : σ} {rows : List LedgerRow}
    {r : Except Failure (List String)} {l : List Call} (h : Applied L batch ps s rows r l)
    (hdescribed : ∀ p ∈ ps, ∃ sqls, p.statements .forward c.dialect = .ok sqls) :
    Succeeded c s (fun versions t => versions = ps.map (·.version) ∧
      ∃ added, Appended batch ps rows added ∧ L.rows? t = some (rows ++ added)) r l := by
  cases h with
  | finished carried appended left =>
    exact .inl ⟨carried.accepts, _, rfl, rfl, _, appended, left⟩
  | @broken _ _ p _ _ _ _ split carried breaks _ _ =>
    have hp : p ∈ ps := by simp [split]
    refine .inr ⟨fun haccepts => ?_, _, rfl⟩
    exact breaks.not_accepts (hdescribed p hp) ((c.accepts_append ..).mp haccepts).2

/-- The migration of each row is registered, and can be described backward. -/
def Undoable (m : Migrator) (d : Dialect) (rows : List LedgerRow) : Prop :=
  ∀ row ∈ rows, ∃ p, m.find? row.version = some p ∧ ∃ sqls, p.statements .backward d = .ok sqls

theorem Undone.succeeded {selected rows : List LedgerRow} {s : σ}
    {r : Except Failure (List String)} {l : List Call} (h : Undone L selected s rows r l)
    (hundoable : m.Undoable c.dialect selected) :
    Succeeded c s (fun versions t => versions = selected.map (·.version) ∧
      L.rows? t = some (rows.filter (· ∉ selected))) r l := by
  cases h with
  | finished _ carried left => exact .inl ⟨carried.accepts, _, rfl, rfl, left⟩
  | @unregistered _ _ row _ _ split _ _ unknown _ =>
    obtain ⟨p, hp, -⟩ := hundoable row (by simp [split])
    cases (find?_eq_none.mpr unknown).symm.trans hp
  | @broken _ _ row _ _ _ _ _ split _ carried named breaks _ =>
    obtain ⟨p, hp, hdescribed⟩ := hundoable row (by simp [split])
    cases hp.symm.trans named
    refine .inr ⟨fun haccepts => ?_, _, rfl⟩
    exact breaks.not_accepts hdescribed ((c.accepts_append ..).mp haccepts).2

/-! ### The commands -/

variable {s : Conversation σ}

theorem succeeds_up {batch : Int64} (hspares : ∀ p ∈ m.migrations, L.Spares p)
    (hs : L.legal s.state) (ha : L.Available m.options s.state)
    (hbatch : IsNextBatch (L.rowsOf s.state) batch)
    (hdescribed : ∀ p ∈ m.pendingFor (L.rowsOf s.state),
      ∃ sqls, p.statements .forward c.dialect = .ok sqls) :
    (m.up c).Succeeds c s fun versions t =>
      versions = (m.pendingFor (L.rowsOf s.state)).map (·.version) ∧
      ∃ added, Appended batch (m.pendingFor (L.rowsOf s.state)) (L.rowsOf s.state) added ∧
        L.rows? t = some (L.rowsOf s.state ++ added) :=
  Runs.mono (runs_up hspares hs hbatch) fun _ _ h =>
    h.succeeded ha fun _ _ hcourse => hcourse.succeeded hdescribed

theorem succeeds_down {rows ordered : List LedgerRow} {n : Nat}
    (hspares : ∀ p ∈ m.migrations, L.Spares p) (hs : L.legal s.state)
    (ha : L.Available m.options s.state) (hrows : L.rows? s.state = some rows)
    (hids : (rows.map (·.id)).Nodup) (hversions : (rows.map (·.version)).Nodup)
    (hordered : IsNewestFirst rows ordered) (hundoable : m.Undoable c.dialect (ordered.take n)) :
    (m.down c n).Succeeds c s fun versions t => versions = (ordered.take n).map (·.version) ∧
      L.rows? t = some (rows.filter (· ∉ ordered.take n)) := by
  by_cases hn : n = 0
  · -- the ledger is not even asked for
    unfold down
    rw [if_pos hn]
    exact succeeds_pure (by simp [hn, hrows])
  · obtain rfl := L.rowsOf_eq hrows
    exact Runs.mono (runs_down hn hspares hs hids hversions hordered) fun _ _ h =>
      h.succeeded ha fun _ _ hcourse => hcourse.succeeded hundoable

theorem succeeds_reset {ordered : List LedgerRow} (hspares : ∀ p ∈ m.migrations, L.Spares p)
    (hs : L.legal s.state) (ha : L.Available m.options s.state)
    (hids : ((L.rowsOf s.state).map (·.id)).Nodup)
    (hversions : ((L.rowsOf s.state).map (·.version)).Nodup)
    (hordered : IsNewestFirst (L.rowsOf s.state) ordered)
    (hundoable : m.Undoable c.dialect (L.rowsOf s.state)) :
    (m.reset c).Succeeds c s fun versions t =>
      versions = ordered.map (·.version) ∧ L.rows? t = some [] := by
  unfold reset
  refine ((prepares_ensureLedger hs).succeeds ha).bind fun _ l ⟨_, hrows⟩ => ?_
  have hs₁ : L.legal (s.extend c l).state := legal_after hs l
  refine ((prepares_count hs₁ hrows).succeeds (ha.of_rows hrows)).bind fun n k ⟨hn, hrows'⟩ => ?_
  rw [Conversation.state_extend, L.rowsOf_eq hrows] at hrows'
  have hs₂ : L.legal ((s.extend c l).extend c k).state := legal_after hs₁ k
  -- as many rows are undone as were counted, and none has changed in between
  have hall : ordered.take n = ordered := by
    rw [hn, ← hordered.1.length_eq, List.take_length]
  have hundoable' : m.Undoable c.dialect (ordered.take n) := fun row hrow =>
    hundoable row (hordered.1.subset (List.mem_of_mem_take hrow))
  refine (succeeds_down hspares hs₂ (ha.of_rows hrows') hrows' hids hversions hordered
    hundoable').mono ?_
  rintro _ t ⟨rfl, hleft⟩
  rw [hall] at hleft ⊢
  refine ⟨rfl, hleft.trans (congrArg some (List.filter_eq_nil_iff.mpr fun row hrow => ?_))⟩
  simpa using hordered.1.mem_iff.mpr hrow

theorem succeeds_fresh {ordered : List LedgerRow} (hspares : ∀ p ∈ m.migrations, L.Spares p)
    (hs : L.legal s.state) (ha : L.Available m.options s.state)
    (hids : ((L.rowsOf s.state).map (·.id)).Nodup)
    (hversions : ((L.rowsOf s.state).map (·.version)).Nodup)
    (hordered : IsNewestFirst (L.rowsOf s.state) ordered)
    (hundoable : m.Undoable c.dialect (L.rowsOf s.state))
    (hdescribed : ∀ p ∈ m.migrations, ∃ sqls, p.statements .forward c.dialect = .ok sqls) :
    (m.fresh c).Succeeds c s fun versions t => versions = (m.pendingFor []).map (·.version) ∧
      ∃ added, Appended 1 (m.pendingFor []) [] added ∧ L.rows? t = some added := by
  -- an empty ledger has no highest batch, and numbers start again
  have hfirst : IsNextBatch [] 1 := ⟨none, rfl, by decide⟩
  refine (succeeds_reset hspares hs ha hids hversions hordered hundoable).bind
    fun _ l ⟨_, hrows⟩ => ?_
  have hs' : L.legal (s.extend c l).state := legal_after hs l
  have hempty : L.rowsOf (s.extend c l).state = [] := L.rowsOf_eq hrows
  have ha' : L.Available m.options (s.extend c l).state :=
    { found := ha.found.imp_right fun ⟨hname, _⟩ => ⟨hname, [], hrows⟩
      readable := fun row hrow => by
        rw [hempty] at hrow
        cases hrow }
  rw [← hempty] at hfirst ⊢
  have hpending : ∀ p ∈ m.pendingFor (L.rowsOf (s.extend c l).state),
      ∃ sqls, p.statements .forward c.dialect = .ok sqls := fun p hp =>
    hdescribed p (mem_of_mem_pendingFor hp)
  refine (succeeds_up hspares hs' ha' hfirst hpending).mono ?_
  rintro _ t ⟨rfl, added, happended, hadded⟩
  refine ⟨rfl, added, happended, ?_⟩
  rwa [hempty, List.nil_append] at hadded

end Migrator

end SchemaKeeper
