/-
What an action comes to by given replies.

A `Reply` is a query with the rows that answer it.  `Connection.Gives` says that a
database answers queries, sent one after the other, with the rows of a list of replies;
nothing is said of what it answers to anything else.  `Action.Reads c x replies r` says
that by these replies the action comes to the result `r`, and sends their queries and
no others.

* `Reads.query_bind`, `Reads.ofExcept_bind`, `reads_of_error`: what an action reads is
  put together from what its parts read, and the first failure is its result,
* `Row.Lacks`: a row has no text in a column, because the cell is NULL or not there,
* `exists_mapM_of_forall`, `exists_mapM_of_error`: rows are read one by one, all of
  them or up to one that cannot be read.
-/
import Mathlib.Data.List.Nodup
import SchemaKeeper.Catalog.Introspection
import SchemaKeeper.Proofs.Connection.Course
import SchemaKeeper.Proofs.Lists

namespace SchemaKeeper

/-- A query and the rows that answer it. -/
structure Reply where
  sql : String
  args : List Value
  rows : List Row
deriving Repr, DecidableEq

/-- The call that is answered. -/
def Reply.call (reply : Reply) : Call :=
  ⟨.query, reply.sql, reply.args⟩

variable {σ α β : Type}

/-- Queries that are sent in order are answered with these rows. -/
def Connection.Gives (c : Connection σ) : List Reply → σ → Prop
  | [], _ => True
  | reply :: r, s =>
    (c.onQuery reply.sql reply.args s).1 = .ok reply.rows ∧ Gives c r (c.next reply.call s)

theorem Connection.gives_append {c : Connection σ} {replies replies' : List Reply} {s : σ} :
    c.Gives (replies ++ replies') s ↔
      c.Gives replies s ∧ c.Gives replies' (c.after (replies.map Reply.call) s) := by
  induction replies generalizing s with
  | nil => simp [Gives]
  | cons reply r ih => simp [Gives, ih, and_assoc]

namespace Action

variable {c : Connection σ}

/-- By these replies the action comes to the result, and it sends their queries alone. -/
def Reads (c : Connection σ) (x : Action σ α) (replies : List Reply) (r : Except Failure α) :
    Prop :=
  ∀ s : Conversation σ, c.Gives replies s.state → x s = (r, s.extend c (replies.map Reply.call))

theorem reads_pure (a : α) : Reads c (pure a) [] (.ok a) := by
  intro s _
  rw [List.map_nil, Conversation.extend_nil]
  rfl

theorem reads_ofExcept (r : Except Failure α) : Reads c (ofExcept r) [] r := by
  intro s _
  rw [List.map_nil, Conversation.extend_nil]
  rfl

theorem reads_query (sql : String) (args : List Value) (rows : List Row) :
    Reads c (c.query sql args) [⟨sql, args, rows⟩] (.ok rows) := by
  rintro s ⟨hrows, -⟩
  rw [← hrows]
  rfl

theorem Reads.bind {x : Action σ α} {g : α → Action σ β} {a : α} {replies replies' : List Reply}
    {r : Except Failure β} (hx : Reads c x replies (.ok a)) (hg : Reads c (g a) replies' r) :
    Reads c (x >>= g) (replies ++ replies') r := by
  intro s hs
  obtain ⟨hs, hs'⟩ := Connection.gives_append.mp hs
  rw [bind_eq_of_ok (hx s hs), hg _ hs', Conversation.extend_extend, ← List.map_append]

/-- A failure of the first part is one of the whole. -/
theorem Reads.bind_error {x : Action σ α} {replies : List Reply} {f : Failure}
    (hx : Reads c x replies (.error f)) (g : α → Action σ β) :
    Reads c (x >>= g) replies (.error f) :=
  fun s hs => bind_eq_of_error (hx s hs)

theorem Reads.query_bind {sql : String} {args : List Value} {rows : List Row}
    {g : List Row → Action σ β} {replies : List Reply} {r : Except Failure β}
    (h : Reads c (g rows) replies r) :
    Reads c (c.query sql args >>= g) (⟨sql, args, rows⟩ :: replies) r :=
  (reads_query sql args rows).bind h

theorem Reads.ofExcept_bind {x : Except Failure α} {a : α} {g : α → Action σ β}
    {replies : List Reply} {r : Except Failure β} (hx : x = .ok a) (h : Reads c (g a) replies r) :
    Reads c (ofExcept x >>= g) replies r := by
  subst hx
  exact (reads_ofExcept _).bind h

theorem reads_of_error {x : Except Failure α} {f : Failure} (hx : x = .error f)
    (g : α → Action σ β) : Reads c (ofExcept x >>= g) [] (.error f) := by
  subst hx
  exact (reads_ofExcept _).bind_error g

end Action

open SchemaKeeper.Action

/-! ### Answers one after the other -/

/-- A database that answers each query with the next rows of a list, whatever is asked. -/
def Connection.reciting (d : Dialect) : Connection (List (List Row)) where
  dialect := d
  onExec _ _ s := (.ok 0, s)
  onQuery _ _ s := (.ok (s.headD []), s.tail)
  clock _ := ⟨0, 0, 0⟩

theorem Connection.gives_reciting (d : Dialect) (replies : List Reply) :
    (reciting d).Gives replies (replies.map (·.rows)) := by
  induction replies with
  | nil => trivial
  | cons reply r ih => exact ⟨rfl, ih⟩

theorem Action.Reads.eq_of_reciting {d : Dialect} {x : Action (List (List Row)) α}
    {replies : List Reply} {r : Except Failure α}
    (h : Reads (Connection.reciting d) x replies r) :
    (x { state := replies.map (·.rows) }).1 = r := by
  rw [h { state := replies.map (·.rows) } (Connection.gives_reciting d replies)]

/-! ### Rows -/

/-- A row has no text in a column: there is no such cell, or it is NULL. -/
def Row.Lacks (row : Row) (column : String) : Prop :=
  row.cell? column = none ∨ row.cell? column = some .null

instance (row : Row) (column : String) : Decidable (row.Lacks column) :=
  inferInstanceAs (Decidable (_ ∨ _))

theorem Row.text?_eq_none {row : Row} {column : String} :
    row.text? column = none ↔ row.Lacks column := by
  rw [Row.text?, Row.Lacks]
  rcases row.cell? column with _ | _ | _ <;> simp [Value.toText?]

theorem Row.exists_text?_eq {row : Row} {column : String} (h : ¬ row.Lacks column) :
    ∃ text, row.text? column = some text :=
  Option.ne_none_iff_exists'.mp (mt Row.text?_eq_none.mp h)

namespace Catalog

theorem requiredText_eq_ok {table : String} {row : Row} {column text : String}
    (h : row.text? column = some text) : requiredText table row column = .ok text := by
  rw [requiredText, h]

/-- The failure of a row that lacks a text. -/
def missing (table column : String) : Failure :=
  .introspection table ("catalog row without '" ++ column ++ "'")

theorem requiredText_of_lacks {table : String} {row : Row} {column : String}
    (h : row.Lacks column) : requiredText table row column = .error (missing table column) := by
  rw [requiredText, Row.text?_eq_none.mpr h, missing]

theorem textOrEmpty_of_text? {row : Row} {column text : String}
    (h : row.text? column = some text) : textOrEmpty row column = text := by
  rw [textOrEmpty, h, Option.getD_some]

theorem text?_eq_textOrEmpty {row : Row} {column : String} (h : ¬ row.Lacks column) :
    row.text? column = some (textOrEmpty row column) := by
  obtain ⟨text, htext⟩ := Row.exists_text?_eq h
  rw [htext, textOrEmpty_of_text? htext]

theorem textOrEmpty_eq {row : Row} {column text : String} (h : text ≠ "") :
    textOrEmpty row column = text ↔ row.text? column = some text := by
  rw [textOrEmpty]
  cases row.text? column with
  | none => simpa using h.symm
  | some text' => simp

/-- Rows are read one by one: if each shows something that can be read, then all can be. -/
theorem exists_mapM_eq_ok {α β γ : Type} {f : α → Except Failure β} {R : α → γ → Prop}
    {P : β → γ → Prop} (hread : ∀ a g, R a g → ∃ b, f a = .ok b ∧ P b g) {as : List α}
    {gs : List γ} (h : List.Forall₂ R as gs) :
    ∃ bs, as.mapM f = .ok bs ∧ List.Forall₂ P bs gs := by
  induction h with
  | nil => exact ⟨[], rfl, .nil⟩
  | cons hag _ ih =>
    obtain ⟨b, hb, hP⟩ := hread _ _ hag
    obtain ⟨bs, hbs, hPs⟩ := ih
    refine ⟨b :: bs, ?_, .cons hP hPs⟩
    rw [List.mapM_cons, hb, hbs]
    rfl

section Reading

variable {f : α → Except Failure β}

/-- If each row can be read, then all can be. -/
theorem exists_mapM_of_forall {as : List α} (h : ∀ a ∈ as, ∃ b, f a = .ok b) :
    ∃ bs, as.mapM f = .ok bs ∧ List.Forall₂ (fun a b => f a = .ok b) as bs := by
  obtain ⟨bs, hbs, hread⟩ := exists_mapM_eq_ok (f := f)
    (R := fun a a' => a = a' ∧ ∃ b, f a = .ok b) (P := fun b a => f a = .ok b)
    (by rintro a _ ⟨rfl, b, hb⟩; exact ⟨b, hb, hb⟩)
    (List.forall₂_same.mpr fun a ha => ⟨rfl, h a ha⟩)
  exact ⟨bs, hbs, hread.flip⟩

theorem mapM_eq_ok_map {g : α → β} {as : List α} (h : ∀ a ∈ as, f a = .ok (g a)) :
    as.mapM f = .ok (as.map g) := by
  obtain ⟨bs, hbs, hsame⟩ := exists_mapM_eq_ok (f := f) (R := fun a b => f a = .ok b) (P := Eq)
    (fun a b hab => ⟨b, hab, rfl⟩)
    (forall₂_map_self h)
  rw [List.forall₂_eq_eq_eq] at hsame
  rw [hbs, hsame]

/-- If some row cannot be read, then the reading fails, and with the failure of such a row. -/
theorem exists_mapM_of_error {as : List α} (h : ∃ a ∈ as, ∃ e, f a = .error e) :
    ∃ a ∈ as, ∃ e, f a = .error e ∧ as.mapM f = .error e := by
  induction as with
  | nil => simp at h
  | cons a r ih =>
    rw [List.mapM_cons]
    cases hfirst : f a with
    | error e => exact ⟨a, List.mem_cons_self, e, hfirst, rfl⟩
    | ok b =>
      have hrest : ∃ a ∈ r, ∃ e, f a = .error e := by
        obtain ⟨a', ha', e, he⟩ := h
        rcases List.mem_cons.mp ha' with rfl | ha'
        · rw [hfirst] at he
          cases he
        · exact ⟨a', ha', e, he⟩
      obtain ⟨a', ha', e, he, hmap⟩ := ih hrest
      refine ⟨a', List.mem_cons_of_mem _ ha', e, he, ?_⟩
      rw [hmap]
      rfl

end Reading

/-- Rows with distinct names give columns with distinct names. -/
theorem exists_columns_of_named {read : Row → Except Failure DatabaseColumn} {rows : List Row}
    {name : String} (hread : ∀ row ∈ rows, ∃ col, read row = .ok col)
    (hname : ∀ row col, read row = .ok col → row.text? name = some col.name) (hne : rows ≠ [])
    (hnodup : (rows.map (·.text? name)).Nodup) :
    ∃ base, rows.mapM read = .ok base ∧ base ≠ [] ∧ (base.map (·.name)).Nodup ∧
      List.Forall₂ (fun row col => read row = .ok col) rows base := by
  obtain ⟨base, hbase, hread⟩ := exists_mapM_of_forall hread
  have hnames : rows.map (·.text? name) = (base.map (·.name)).map some := by
    rw [List.map_map]
    exact map_eq_of_forall₂ hread hname
  exact ⟨base, hbase, ne_nil_of_forall₂ hread hne, List.Nodup.of_map some (hnames ▸ hnodup), hread⟩

end Catalog

/-! ### Tables -/

namespace Connection

variable {c : Connection σ} {table : String} {replies : List Reply}

theorem reads_tableColumns (hname : Catalog.isNoName table = false) {columns : List DatabaseColumn}
    (hne : columns ≠ []) (h : Reads c (c.catalogColumns table) replies (.ok columns)) :
    Reads c (c.tableColumns table) replies (.ok columns) := by
  rw [tableColumns, if_neg (by simp [hname]), ← List.append_nil replies]
  refine h.bind ?_
  rw [if_neg (by simpa using hne)]
  exact reads_pure columns

theorem reads_tableColumns_error (hname : Catalog.isNoName table = false) {f : Failure}
    (h : Reads c (c.catalogColumns table) replies (.error f)) :
    Reads c (c.tableColumns table) replies (.error f) := by
  rw [tableColumns, if_neg (by simp [hname])]
  exact h.bind_error _

end Connection

end SchemaKeeper
