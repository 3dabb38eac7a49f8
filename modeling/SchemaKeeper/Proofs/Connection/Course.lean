/-
The course of a conversation.

A connection answers each call from its state, so the calls alone settle where a
conversation ends: `next` and `after` give the state, `refusal?` and `Accepts` say
which calls are refused.  `Conversation.extend` is the conversation continued by
calls, and a specification of an action is a statement `x.Runs c s Q`:

* from `s` the action comes to a result `r` by calls `l` such that `Q r l`, and the
  conversation it leaves behind is `s` extended by `l`.

`Runs.bind` goes from the parts of an action to the whole.  `runs_execAll` is the
specification of a list of statements, which ends with the first that is refused
(`StopsAt`).
-/
import SchemaKeeper.Connection.Basic

namespace SchemaKeeper

/-- The calls that execute statements without bind values. -/
def Call.statements (sqls : List String) : List Call :=
  sqls.map fun sql => ⟨.exec, sql, []⟩

@[simp] theorem Call.statements_nil : Call.statements [] = [] := rfl

@[simp] theorem Call.statements_cons (sql : String) (sqls : List String) :
    Call.statements (sql :: sqls) = ⟨.exec, sql, []⟩ :: Call.statements sqls := rfl

@[simp] theorem Call.statements_append (sqls sqls' : List String) :
    Call.statements (sqls ++ sqls') = Call.statements sqls ++ Call.statements sqls' :=
  List.map_append ..

/-- The failure of an answer, if it is one. -/
def Failure.of? {α : Type} : Except Failure α → Option Failure
  | .ok _ => none
  | .error f => some f

theorem Failure.of?_eq_none {α : Type} {r : Except Failure α} :
    Failure.of? r = none ↔ ∃ a, r = .ok a := by
  cases r <;> simp [Failure.of?]

theorem Failure.of?_eq_some {α : Type} {r : Except Failure α} {f : Failure} :
    Failure.of? r = some f ↔ r = .error f := by
  cases r <;> simp [Failure.of?]

namespace Connection

variable {σ : Type} (c : Connection σ)

/-! ### States and refusals -/

/-- The state after a call. -/
def next (call : Call) (s : σ) : σ :=
  match call.verb with
  | .exec => (c.onExec call.sql call.args s).2
  | .query => (c.onQuery call.sql call.args s).2

/-- The failure with which a call is refused, if it is. -/
def refusal? (call : Call) (s : σ) : Option Failure :=
  match call.verb with
  | .exec => Failure.of? (c.onExec call.sql call.args s).1
  | .query => Failure.of? (c.onQuery call.sql call.args s).1

theorem refusal?_exec_eq_none {sql : String} {args : List Value} {s : σ} :
    c.refusal? ⟨.exec, sql, args⟩ s = none ↔ ∃ n, (c.onExec sql args s).1 = .ok n :=
  Failure.of?_eq_none

theorem refusal?_exec_eq_some {sql : String} {args : List Value} {s : σ} {f : Failure} :
    c.refusal? ⟨.exec, sql, args⟩ s = some f ↔ (c.onExec sql args s).1 = .error f :=
  Failure.of?_eq_some

theorem refusal?_query_eq_none {sql : String} {args : List Value} {s : σ} :
    c.refusal? ⟨.query, sql, args⟩ s = none ↔ ∃ rows, (c.onQuery sql args s).1 = .ok rows :=
  Failure.of?_eq_none

theorem refusal?_query_eq_some {sql : String} {args : List Value} {s : σ} {f : Failure} :
    c.refusal? ⟨.query, sql, args⟩ s = some f ↔ (c.onQuery sql args s).1 = .error f :=
  Failure.of?_eq_some

/-- The state after calls. -/
def after (calls : List Call) (s : σ) : σ :=
  calls.foldl (fun s call => c.next call s) s

@[simp] theorem after_nil (s : σ) : c.after [] s = s := rfl

@[simp] theorem after_cons (call : Call) (calls : List Call) (s : σ) :
    c.after (call :: calls) s = c.after calls (c.next call s) := rfl

@[simp] theorem after_append (calls calls' : List Call) (s : σ) :
    c.after (calls ++ calls') s = c.after calls' (c.after calls s) :=
  List.foldl_append

/-- None of the calls is refused when they are sent in order. -/
def Accepts : List Call → σ → Prop
  | [], _ => True
  | call :: r, s => c.refusal? call s = none ∧ Accepts r (c.next call s)

@[simp] theorem accepts_nil (s : σ) : c.Accepts [] s := trivial

@[simp] theorem accepts_cons (call : Call) (calls : List Call) (s : σ) :
    c.Accepts (call :: calls) s ↔ c.refusal? call s = none ∧ c.Accepts calls (c.next call s) :=
  Iff.rfl

@[simp] theorem accepts_append (calls calls' : List Call) (s : σ) :
    c.Accepts (calls ++ calls') s ↔ c.Accepts calls s ∧ c.Accepts calls' (c.after calls s) := by
  induction calls generalizing s with
  | nil => simp
  | cons call r ih => simp [ih, and_assoc]

/-- The last of the statements, when they are sent in order, affects `k` rows.  If there is none,
`k` is the number given. -/
def Affects (n : Nat) (sqls : List String) (s : σ) (k : Nat) : Prop :=
  (sqls = [] ∧ k = n) ∨ ∃ before sql, sqls = before ++ [sql] ∧
    (c.onExec sql [] (c.after (Call.statements before) s)).1 = .ok k

variable {c} in
theorem Affects.cons {sql : String} {sqls : List String} {s : σ} {n k : Nat}
    (hn : (c.onExec sql [] s).1 = .ok n) (h : c.Affects n sqls (c.next ⟨.exec, sql, []⟩ s) k)
    (m : Nat) : c.Affects m (sql :: sqls) s k := by
  rcases h with ⟨rfl, rfl⟩ | ⟨before, last, rfl, hlast⟩
  · exact .inr ⟨[], sql, rfl, hn⟩
  · exact .inr ⟨sql :: before, last, rfl, hlast⟩

/-- Statements are accepted up to one that is refused. -/
structure StopsAt (s : σ) (sqls before : List String) (sql : String) (f : Failure) : Prop where
  isPrefix : before ++ [sql] <+: sqls
  accepted : c.Accepts (Call.statements before) s
  refused : c.refusal? ⟨.exec, sql, []⟩ (c.after (Call.statements before) s) = some f

theorem StopsAt.not_accepts {s : σ} {sqls before : List String} {sql : String} {f : Failure}
    (h : c.StopsAt s sqls before sql f) : ¬ c.Accepts (Call.statements sqls) s := by
  obtain ⟨rest, rfl⟩ := h.isPrefix
  intro ha
  simp [h.refused] at ha

/-- A statement that is accepted comes before where the others stop. -/
theorem StopsAt.cons {s : σ} {sqls before : List String} {first sql : String} {f : Failure}
    (h : c.refusal? ⟨.exec, first, []⟩ s = none)
    (hs : c.StopsAt (c.next ⟨.exec, first, []⟩ s) sqls before sql f) :
    c.StopsAt s (first :: sqls) (first :: before) sql f where
  isPrefix := List.prefix_cons_inj first |>.mpr hs.isPrefix
  accepted := ⟨h, hs.accepted⟩
  refused := hs.refused

end Connection

/-- The conversation continued by calls. -/
def Conversation.extend {σ : Type} (c : Connection σ) (s : Conversation σ) (calls : List Call) :
    Conversation σ where
  state := c.after calls s.state
  calls := s.calls ++ calls

section Extend

variable {σ : Type} (c : Connection σ) (s : Conversation σ)

@[simp] theorem Conversation.extend_nil : s.extend c [] = s := by
  simp [Conversation.extend]

@[simp] theorem Conversation.extend_extend (l k : List Call) :
    (s.extend c l).extend c k = s.extend c (l ++ k) := by
  simp [Conversation.extend]

@[simp] theorem Conversation.state_extend (l : List Call) :
    (s.extend c l).state = c.after l s.state := rfl

@[simp] theorem Conversation.calls_extend (l : List Call) :
    (s.extend c l).calls = s.calls ++ l := rfl

variable {c s} in
theorem Conversation.extend_inj {l k : List Call} : s.extend c l = s.extend c k ↔ l = k :=
  ⟨fun h => List.append_cancel_left (congrArg Conversation.calls h), fun h => h ▸ rfl⟩

end Extend

namespace Action

variable {σ α β : Type} {c : Connection σ} {s : Conversation σ}

/-! ### Specifications of actions -/

/-- From `s` the action comes to a result by calls that satisfy `Q` together, and the calls alone
lead to the conversation it leaves behind. -/
def Runs (c : Connection σ) (x : Action σ α) (s : Conversation σ)
    (Q : Except Failure α → List Call → Prop) : Prop :=
  ∃ r l, x s = (r, s.extend c l) ∧ Q r l

theorem Runs.mono {x : Action σ α} {P Q : Except Failure α → List Call → Prop}
    (h : x.Runs c s P) (hPQ : ∀ r l, P r l → Q r l) : x.Runs c s Q := by
  obtain ⟨r, l, hx, hP⟩ := h
  exact ⟨r, l, hx, hPQ r l hP⟩

/-- A specification may speak of the run itself. -/
theorem Runs.self {x : Action σ α} {Q : Except Failure α → List Call → Prop} (h : x.Runs c s Q) :
    x.Runs c s fun r l => x s = (r, s.extend c l) ∧ Q r l := by
  obtain ⟨r, l, hx, hQ⟩ := h
  exact ⟨r, l, hx, hx, hQ⟩

theorem runs_pure {a : α} {Q : Except Failure α → List Call → Prop} (h : Q (.ok a) []) :
    Runs c (pure a) s Q :=
  ⟨.ok a, [], by rw [Conversation.extend_nil]; rfl, h⟩

theorem runs_throw {f : Failure} {Q : Except Failure α → List Call → Prop} (h : Q (.error f) []) :
    Runs c (throw f) s Q :=
  ⟨.error f, [], by rw [Conversation.extend_nil]; rfl, h⟩

theorem runs_ofExcept (r : Except Failure α) :
    (ofExcept r).Runs c s fun r' l => r' = r ∧ l = [] :=
  ⟨r, [], by rw [Conversation.extend_nil]; rfl, rfl, rfl⟩

theorem runs_now : c.now.Runs c s fun r l => r = .ok (c.clock s.state) ∧ l = [] :=
  ⟨_, [], by rw [Conversation.extend_nil]; rfl, rfl, rfl⟩

theorem runs_ite {b : Prop} [Decidable b] {x y : Action σ α}
    {Q : Except Failure α → List Call → Prop} (hx : b → x.Runs c s Q) (hy : ¬b → y.Runs c s Q) :
    Runs c (if b then x else y) s Q := by
  split
  · next h => exact hx h
  · next h => exact hy h

/-- One action after another: the second starts where the first ends. -/
theorem bind_eq_of_ok {x : Action σ α} {g : α → Action σ β} {a : α} {s' : Conversation σ}
    (h : x s = (.ok a, s')) : (x >>= g) s = g a s' := by
  show ExceptT.bindCont g (x s).1 (x s).2 = _
  rw [h]
  rfl

/-- One action after another: a failure of the first is one of both. -/
theorem bind_eq_of_error {x : Action σ α} {g : α → Action σ β} {f : Failure} {s' : Conversation σ}
    (h : x s = (.error f, s')) : (x >>= g) s = (.error f, s') := by
  show ExceptT.bindCont g (x s).1 (x s).2 = _
  rw [h]
  rfl

/-- One action after another: the second starts where the first ends, and a failure of the first
is one of both. -/
theorem Runs.bind {x : Action σ α} {g : α → Action σ β} {P : Except Failure α → List Call → Prop}
    {Q : Except Failure β → List Call → Prop} (hx : x.Runs c s P)
    (hok : ∀ a l, P (.ok a) l → (g a).Runs c (s.extend c l) fun r k => Q r (l ++ k))
    (herror : ∀ f l, P (.error f) l → Q (.error f) l) : (x >>= g).Runs c s Q := by
  obtain ⟨r, l, hx, hP⟩ := hx
  cases r with
  | ok a =>
    obtain ⟨r', k, hg, hQ⟩ := hok a l hP
    refine ⟨r', l ++ k, ?_, hQ⟩
    rw [← Conversation.extend_extend, ← hg]
    exact bind_eq_of_ok hx
  | error f => exact ⟨.error f, l, bind_eq_of_error hx, herror f l hP⟩

theorem Runs.map {x : Action σ α} {P : Except Failure α → List Call → Prop} (g : α → β)
    (hx : x.Runs c s P) : (g <$> x).Runs c s fun r l => ∃ r', P r' l ∧ r = r'.map g := by
  rw [← bind_pure_comp]
  refine hx.bind (fun a l h => runs_pure ⟨.ok a, ?_, rfl⟩) fun f l h => ⟨.error f, h, rfl⟩
  rwa [List.append_nil]

theorem Runs.mapFailure {x : Action σ α} {P : Except Failure α → List Call → Prop}
    (g : Failure → Failure) (hx : x.Runs c s P) :
    (x.mapFailure g).Runs c s fun r l =>
      (∃ a, r = .ok a ∧ P (.ok a) l) ∨ ∃ f, r = .error (g f) ∧ P (.error f) l := by
  obtain ⟨r, l, hx, hP⟩ := hx
  refine ⟨r.mapError g, l, ?_, ?_⟩
  · show (((x s).1).mapError g, (x s).2) = _
    rw [hx]
  · cases r with
    | ok a => exact .inl ⟨a, rfl, hP⟩
    | error f => exact .inr ⟨f, rfl, hP⟩

theorem Runs.attempt {x : Action σ α} {P : Except Failure α → List Call → Prop}
    (hx : x.Runs c s P) : x.attempt.Runs c s fun r l => ∃ r', P r' l ∧ r = .ok r' := by
  obtain ⟨r, l, hx, hP⟩ := hx
  refine ⟨.ok r, l, ?_, r, hP, rfl⟩
  show ((.ok (x s).1 : Except Failure (Except Failure α)), (x s).2) = _
  rw [hx]

/-! ### Calls -/

theorem runs_exec (sql : String) (args : List Value) :
    (c.exec sql args).Runs c s fun r l =>
      r = (c.onExec sql args s.state).1 ∧ l = [⟨.exec, sql, args⟩] :=
  ⟨_, _, rfl, rfl, rfl⟩

theorem runs_query (sql : String) (args : List Value) :
    (c.query sql args).Runs c s fun r l =>
      r = (c.onQuery sql args s.state).1 ∧ l = [⟨.query, sql, args⟩] :=
  ⟨_, _, rfl, rfl, rfl⟩

theorem runs_queryRow (sql : String) (args : List Value) :
    (c.queryRow sql args).Runs c s fun r l =>
      r = (c.onQuery sql args s.state).1.map List.head? ∧ l = [⟨.query, sql, args⟩] := by
  refine ((runs_query sql args).map List.head?).mono ?_
  rintro r l ⟨_, ⟨rfl, rfl⟩, rfl⟩
  exact ⟨rfl, rfl⟩

/-- A statement whose refusal is told in another way. -/
theorem runs_exec_mapFailure (sql : String) (args : List Value) (g : Failure → Failure) :
    ((c.exec sql args).mapFailure g).Runs c s fun r l => l = [⟨.exec, sql, args⟩] ∧
      ((∃ f, c.refusal? ⟨.exec, sql, args⟩ s.state = some f ∧ r = .error (g f)) ∨
        (c.refusal? ⟨.exec, sql, args⟩ s.state = none ∧
          ∃ n, (c.onExec sql args s.state).1 = .ok n ∧ r = .ok n)) := by
  refine ((runs_exec sql args).mapFailure g).mono ?_
  rintro r l (⟨n, rfl, hn, rfl⟩ | ⟨f, rfl, hf, rfl⟩)
  · exact ⟨rfl, .inr ⟨c.refusal?_exec_eq_none.mpr ⟨n, hn.symm⟩, n, hn.symm, rfl⟩⟩
  · exact ⟨rfl, .inl ⟨f, c.refusal?_exec_eq_some.mpr hf.symm, rfl⟩⟩

/-- A query whose refusal is told in another way. -/
theorem runs_query_mapFailure (sql : String) (args : List Value) (g : Failure → Failure) :
    ((c.query sql args).mapFailure g).Runs c s fun r l => l = [⟨.query, sql, args⟩] ∧
      ((∃ f, c.refusal? ⟨.query, sql, args⟩ s.state = some f ∧ r = .error (g f)) ∨
        (c.refusal? ⟨.query, sql, args⟩ s.state = none ∧
          ∃ rows, (c.onQuery sql args s.state).1 = .ok rows ∧ r = .ok rows)) := by
  refine ((runs_query sql args).mapFailure g).mono ?_
  rintro r l (⟨rows, rfl, hrows, rfl⟩ | ⟨f, rfl, hf, rfl⟩)
  · exact ⟨rfl, .inr ⟨c.refusal?_query_eq_none.mpr ⟨rows, hrows.symm⟩, rows, hrows.symm, rfl⟩⟩
  · exact ⟨rfl, .inl ⟨f, c.refusal?_query_eq_some.mpr hf.symm, rfl⟩⟩

/-- Statements are sent up to the first that is refused. -/
theorem runs_execAll (sqls : List String) (n : Nat) (s : Conversation σ) :
    (c.execAll n sqls).Runs c s fun r l =>
      (c.Accepts (Call.statements sqls) s.state ∧ l = Call.statements sqls ∧
        ∃ k, c.Affects n sqls s.state k ∧ r = .ok k) ∨
      ∃ before sql f, c.StopsAt s.state sqls before sql f ∧
        l = Call.statements (before ++ [sql]) ∧ r = .error f := by
  induction sqls generalizing n s with
  | nil => exact runs_pure (.inl ⟨trivial, rfl, n, .inl ⟨rfl, rfl⟩, rfl⟩)
  | cons sql r ih =>
    refine (runs_exec sql []).bind ?_ ?_
    · rintro k l ⟨hk, rfl⟩
      have hsql : c.refusal? ⟨.exec, sql, []⟩ s.state = none :=
        c.refusal?_exec_eq_none.mpr ⟨k, hk.symm⟩
      refine (ih k _).mono ?_
      rintro r' l' (⟨ha, rfl, j, hj, hr⟩ | ⟨before, stop, f, hstop, rfl, hr⟩)
      · exact .inl ⟨⟨hsql, ha⟩, rfl, j, hj.cons hk.symm n, hr⟩
      · exact .inr ⟨sql :: before, stop, f, hstop.cons c hsql, rfl, hr⟩
    · rintro f l ⟨hf, rfl⟩
      have hsql : c.refusal? ⟨.exec, sql, []⟩ s.state = some f :=
        c.refusal?_exec_eq_some.mpr hf.symm
      exact .inr ⟨[], sql, f, ⟨by simp, trivial, hsql⟩, rfl, rfl⟩

end Action

end SchemaKeeper
