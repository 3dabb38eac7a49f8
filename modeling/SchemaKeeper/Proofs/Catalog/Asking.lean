/-
Reading the catalog only asks.

An action asks (`Action.Asks`) if all its calls are queries.  What it comes to then
depends on the replies alone: a like action on another database that gives the same
replies (`Connection.RepliesAlike`) comes to the same result by the same calls
(`Action.AsksAlike`).

What is put together from actions that ask alike asks alike too, and so the readers of
the catalog do on two databases of one dialect (`asksAlike_tableExists` and
`asksAlike_tableColumns`).  `runs_tableExists` also says what `tableExists` finds out.
-/
import SchemaKeeper.Catalog.Introspection
import SchemaKeeper.Proofs.Connection.Course

namespace SchemaKeeper

variable {σ σ' α β : Type}

namespace Connection

/-! ### Replies -/

/-- Two databases give the same replies to queries that are sent in order. -/
def RepliesAlike (c : Connection σ) (c' : Connection σ') : List Call → σ → σ' → Prop
  | [], _, _ => True
  | call :: r, s, s' =>
    (c.onQuery call.sql call.args s).1 = (c'.onQuery call.sql call.args s').1 ∧
      RepliesAlike c c' r (c.next call s) (c'.next call s')

variable {c : Connection σ} {c' : Connection σ'}

theorem repliesAlike_append {l k : List Call} {s : σ} {s' : σ'} :
    c.RepliesAlike c' (l ++ k) s s' ↔
      c.RepliesAlike c' l s s' ∧ c.RepliesAlike c' k (c.after l s) (c'.after l s') := by
  induction l generalizing s s' with
  | nil => simp [RepliesAlike]
  | cons call r ih => simp [RepliesAlike, ih, and_assoc]

/-- Two databases that answer every query alike give the same replies from the same state. -/
theorem repliesAlike_of_onQuery {c' : Connection σ} (h : c'.onQuery = c.onQuery) {l : List Call}
    (hl : ∀ call ∈ l, call.verb = .query) (s : σ) : c.RepliesAlike c' l s s := by
  induction l generalizing s with
  | nil => trivial
  | cons call r ih =>
    obtain ⟨verb, sql, args⟩ := call
    obtain rfl : verb = .query := hl _ List.mem_cons_self
    have hnext : c'.next ⟨.query, sql, args⟩ s = c.next ⟨.query, sql, args⟩ s :=
      congrArg (fun answer => (answer sql args s).2) h
    refine ⟨by rw [h], ?_⟩
    rw [hnext]
    exact ih (fun call hcall => hl call (List.mem_cons_of_mem _ hcall)) _

end Connection

namespace Action

variable {c : Connection σ} {c' : Connection σ'}

/-! ### Actions that ask -/

/-- All calls of the action are queries, from every state. -/
def Asks (c : Connection σ) (x : Action σ α) : Prop :=
  ∀ s, x.Runs c s fun _ l => ∀ call ∈ l, call.verb = .query

/-- All calls of the action are queries, and the other action, on another database, comes to the
same result by the same calls if it is given the same replies. -/
def AsksAlike (c : Connection σ) (c' : Connection σ') (x : Action σ α) (x' : Action σ' α) : Prop :=
  ∀ s s', x.Runs c s fun r l => (∀ call ∈ l, call.verb = .query) ∧
    (c.RepliesAlike c' l s.state s'.state → x' s' = (r, s'.extend c' l))

theorem AsksAlike.asks {x : Action σ α} (h : AsksAlike c c x x) : Asks c x :=
  fun s => (h s s).mono fun _ _ hl => hl.1

/-- An action that asks has a result, and leads there by queries. -/
theorem Asks.runs_self {x : Action σ α} (h : Asks c x) (s : Conversation σ) :
    x.Runs c s fun r l => (∀ call ∈ l, call.verb = .query) ∧ x s = (r, s.extend c l) :=
  (h s).self.mono fun _ _ hrun => hrun.symm

/-- An action that asks leads on by queries alone. -/
theorem Asks.exists_extend {x : Action σ α} (h : Asks c x) {s s' : Conversation σ}
    {r : Except Failure α} (hx : x s = (r, s')) :
    ∃ l, s' = s.extend c l ∧ ∀ call ∈ l, call.verb = .query := by
  obtain ⟨r', l, hrun, hl⟩ := h s
  exact ⟨l, congrArg Prod.snd (hx.symm.trans hrun), hl⟩

/-- The result is the same on another database that gives the same replies. -/
theorem AsksAlike.eq_of_replies {x : Action σ α} {x' : Action σ' α} (h : AsksAlike c c' x x')
    {s : Conversation σ} {s' : Conversation σ'} {r : Except Failure α} {l : List Call}
    (hx : x s = (r, s.extend c l)) (hreplies : c.RepliesAlike c' l s.state s'.state) :
    x' s' = (r, s'.extend c' l) := by
  obtain ⟨r', l', hx', -, halike⟩ := h s s'
  obtain ⟨rfl, hextend⟩ := Prod.mk.inj (hx.symm.trans hx')
  obtain rfl := Conversation.extend_inj.mp hextend
  exact halike hreplies

/-- An action without calls, on two databases. -/
theorem asksAlike_of_eq {x : Action σ α} {x' : Action σ' α} (r : Except Failure α)
    (hx : ∀ s, x s = (r, s)) (hx' : ∀ s, x' s = (r, s)) : AsksAlike c c' x x' := by
  intro s s'
  refine ⟨r, [], ?_, by simp, fun _ => ?_⟩
  · rw [Conversation.extend_nil, hx]
  · rw [Conversation.extend_nil, hx']

theorem asksAlike_pure (a : α) : AsksAlike c c' (pure a) (pure a) :=
  asksAlike_of_eq (.ok a) (fun _ => rfl) fun _ => rfl

theorem asksAlike_throw (f : Failure) :
    AsksAlike c c' (throw f : Action σ α) (throw f : Action σ' α) :=
  asksAlike_of_eq (.error f) (fun _ => rfl) fun _ => rfl

theorem asksAlike_ofExcept (r : Except Failure α) :
    AsksAlike c c' (ofExcept r) (ofExcept r) :=
  asksAlike_of_eq r (fun _ => rfl) fun _ => rfl

theorem asksAlike_query (sql : String) (args : List Value) :
    AsksAlike c c' (c.query sql args) (c'.query sql args) := by
  intro s s'
  refine (runs_query sql args).mono ?_
  rintro r l ⟨rfl, rfl⟩
  refine ⟨by simp, fun h => ?_⟩
  rw [h.1]
  rfl

theorem AsksAlike.bind {x : Action σ α} {x' : Action σ' α} {g : α → Action σ β}
    {g' : α → Action σ' β} (hx : AsksAlike c c' x x') (hg : ∀ a, AsksAlike c c' (g a) (g' a)) :
    AsksAlike c c' (x >>= g) (x' >>= g') := by
  intro s s'
  refine (hx s s').bind ?_ ?_
  · rintro a l ⟨hl, hx'⟩
    refine (hg a _ (s'.extend c' l)).mono ?_
    rintro r k ⟨hk, hg'⟩
    refine ⟨List.forall_mem_append.mpr ⟨hl, hk⟩, fun h => ?_⟩
    obtain ⟨hreplies, hreplies'⟩ := Connection.repliesAlike_append.mp h
    rw [bind_eq_of_ok (hx' hreplies), ← Conversation.extend_extend]
    exact hg' hreplies'
  · rintro f l ⟨hl, hx'⟩
    refine ⟨hl, fun h => ?_⟩
    rw [bind_eq_of_error (hx' h)]

theorem AsksAlike.mapFailure {x : Action σ α} {x' : Action σ' α} (h : AsksAlike c c' x x')
    (g : Failure → Failure) : AsksAlike c c' (x.mapFailure g) (x'.mapFailure g) := by
  intro s s'
  have hmap : (x'.mapFailure g) s' = ((x' s').1.mapError g, (x' s').2) := rfl
  refine ((h s s').mapFailure g).mono ?_
  rintro r l (⟨a, rfl, hl, hx'⟩ | ⟨f, rfl, hl, hx'⟩) <;>
    exact ⟨hl, fun hreplies => by rw [hmap, hx' hreplies]; rfl⟩

theorem asksAlike_ite {b : Prop} [Decidable b] {x y : Action σ α} {x' y' : Action σ' α}
    (hx : AsksAlike c c' x x') (hy : AsksAlike c c' y y') :
    AsksAlike c c' (if b then x else y) (if b then x' else y') := by
  split
  · exact hx
  · exact hy

end Action

open SchemaKeeper.Action

namespace Catalog

variable (c : Connection σ) (c' : Connection σ') (table : String)

/-! ### The readers of the three catalogs -/

theorem Sqlite.asksAlike_markUnique (indexes : List Row) (columns : List DatabaseColumn) :
    AsksAlike c c' (Sqlite.markUnique c table indexes columns)
      (Sqlite.markUnique c' table indexes columns) := by
  induction indexes generalizing columns with
  | nil => exact asksAlike_pure columns
  | cons index r ih =>
    refine asksAlike_ite ?_ (ih columns)
    refine (asksAlike_ofExcept _).bind fun name => (asksAlike_query _ _).bind fun members => ?_
    split
    · exact ih _
    · exact ih columns

theorem Sqlite.asksAlike_columns :
    AsksAlike c c' (Sqlite.columns c table) (Sqlite.columns c' table) := by
  refine (asksAlike_query _ _).bind fun rows => (asksAlike_ofExcept _).bind fun columns => ?_
  exact asksAlike_ite (asksAlike_pure []) ((asksAlike_query _ _).bind fun indexes =>
    Sqlite.asksAlike_markUnique c c' table indexes columns)

theorem Postgres.asksAlike_columns :
    AsksAlike c c' (Postgres.columns c table) (Postgres.columns c' table) := by
  refine (asksAlike_query _ _).bind fun rows => (asksAlike_ofExcept _).bind fun columns => ?_
  exact asksAlike_ite (asksAlike_pure []) ((asksAlike_query _ _).bind fun constraints =>
    (asksAlike_ofExcept _).bind fun memberships => asksAlike_pure _)

theorem Mysql.asksAlike_columns :
    AsksAlike c c' (Mysql.columns c table) (Mysql.columns c' table) :=
  (asksAlike_query _ _).bind fun _ => asksAlike_ofExcept _

end Catalog

namespace Connection

variable (c : Connection σ) {c' : Connection σ'} (table : String)

theorem asksAlike_tableColumns (h : c'.dialect = c.dialect) :
    AsksAlike c c' (c.tableColumns table) (c'.tableColumns table) := by
  have hcatalog : AsksAlike c c' (c.catalogColumns table) (c'.catalogColumns table) := by
    unfold catalogColumns
    rw [h]
    split
    · exact Catalog.Sqlite.asksAlike_columns c c' table
    · exact Catalog.Postgres.asksAlike_columns c c' table
    · exact Catalog.Mysql.asksAlike_columns c c' table
  exact asksAlike_ite (asksAlike_throw _) (hcatalog.bind fun _ =>
    asksAlike_ite (asksAlike_throw _) (asksAlike_pure _))

theorem asksAlike_tableExists (h : c'.dialect = c.dialect) :
    AsksAlike c c' (c.tableExists table) (c'.tableExists table) := by
  unfold tableExists queryRow
  rw [h, ← bind_pure_comp, ← bind_pure_comp]
  exact asksAlike_ite (asksAlike_pure _) (((asksAlike_query _ _).bind fun _ =>
    asksAlike_pure _).bind fun _ => asksAlike_pure _)

theorem asks_tableExists : Asks c (c.tableExists table) :=
  (c.asksAlike_tableExists table rfl).asks

/-- What `tableExists` finds out, and the call by which it does.  The database is not asked for a
name of blanks. -/
theorem runs_tableExists (s : Conversation σ) :
    (c.tableExists table).Runs c s fun r l =>
      (Catalog.isNoName table = true ∧ r = .ok false ∧ l = []) ∨
      (Catalog.isNoName table = false ∧ l = [⟨.query, c.dialect.tableQuery, [.text table]⟩] ∧
        r = (c.onQuery c.dialect.tableQuery [.text table] s.state).1.map fun rows =>
          rows.head?.isSome) := by
  unfold tableExists
  split
  · next h => exact runs_pure (.inl ⟨h, rfl, rfl⟩)
  · next h =>
    rw [bind_pure_comp]
    refine ((runs_queryRow _ _).map _).mono ?_
    rintro r l ⟨_, ⟨rfl, rfl⟩, rfl⟩
    refine .inr ⟨by simpa using h, rfl, ?_⟩
    cases (c.onQuery c.dialect.tableQuery [.text table] s.state).1 <;> rfl

end Connection

end SchemaKeeper
