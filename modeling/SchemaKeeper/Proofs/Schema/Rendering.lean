/-
Differences in SQL.

What a comparison finds is rendered as clauses of ALTER TABLE and statements of their
own, the pieces of an alteration.  `Carries` lists the pieces of PostgreSQL with the
aspects of a column that they are for.

* `exists_forall₂_carries`: PostgreSQL renders a modification in one piece for each
  aspect that differs; but a comment that the model does not have has no piece,
* `pieces_eq_nil_iff`: so a difference that is found and can be carried out has a piece,
  unless a comment is all that is to be taken away (`Dialect.Loses`),
* `alterations_of_compareColumns`: no statement is written for a table exactly if all of
  its differences are of that kind.
-/
import SchemaKeeper.Proofs.Comparison.Aspects
import SchemaKeeper.Schema.AlterTable

namespace SchemaKeeper

open Comparison Text

/-- All that is written for a difference. -/
def Alteration.pieces (a : Alteration) : List String :=
  a.clauses ++ a.statements

/-- Whether a column says what an aspect of it is to be.  A column without a comment does not say
that there is to be none. -/
def ModelColumn.states (c : ModelColumn) (a : Aspect) : Bool :=
  a != .comment || c.comment?.isSome

theorem ModelColumn.states_of_ne {c : ModelColumn} {a : Aspect} (h : a ≠ .comment) :
    c.states a = true := by
  simp [states, h]

/-! ### Statements of several differences -/

section Statements

variable {d : Dialect} {table : String} {diffs : List Difference}

theorem refusal?_eq_none {diff : Difference} {a : Alteration} :
    refusal? table diff a = none ↔ a.support = .supported := by
  unfold refusal?
  cases a.support <;> simp

/-- Going through the differences gives what the plan for them holds, or the first refusal in it. -/
theorem alterations_eq_plan (d : Dialect) (table : String) (diffs : List Difference) :
    alterations d table diffs =
      match (planAlterations d table diffs).findSome? fun entry => refusal? table entry.1 entry.2 with
      | some f => .error f
      | none => .ok ((planAlterations d table diffs).map (·.2)) := by
  induction diffs with
  | nil => rfl
  | cons diff r ih =>
    have hplan : planAlterations d table (diff :: r) =
        (diff, d.alteration table diff) :: planAlterations d table r := rfl
    rw [alterations, hplan, List.findSome?_cons]
    dsimp only
    cases refusal? table diff (d.alteration table diff) with
    | some f => rfl
    | none =>
      dsimp only
      rw [ih]
      cases (planAlterations d table r).findSome? fun entry => refusal? table entry.1 entry.2 with
      | some f => rfl
      | none => rfl

/-- Nothing is written for no differences, as for no alterations. -/
theorem alterStatements_eq_map (d : Dialect) (table : String) (diffs : List Difference) :
    alterStatements d table diffs = (alterations d table diffs).map (statementsOf d table) := by
  cases diffs with
  | nil => cases d <;> rfl
  | cons diff r => rfl

/-- Statements are written from the plan, unless something in it is refused. -/
theorem alterStatements_eq_plan (d : Dialect) (table : String) (diffs : List Difference) :
    alterStatements d table diffs =
      match (planAlterations d table diffs).findSome? fun entry => refusal? table entry.1 entry.2 with
      | some f => .error f
      | none => .ok (statementsOf d table ((planAlterations d table diffs).map (·.2))) := by
  rw [alterStatements_eq_map, alterations_eq_plan]
  cases (planAlterations d table diffs).findSome? fun entry => refusal? table entry.1 entry.2 with
  | some f => rfl
  | none => rfl

/-- Statements are written exactly if all differences can be carried out. -/
theorem alterStatements_eq_ok {sqls : List String} :
    alterStatements d table diffs = .ok sqls ↔
      (∀ diff ∈ diffs, (d.alteration table diff).support = .supported) ∧
        statementsOf d table (diffs.map (d.alteration table)) = sqls := by
  have hrefused : ((planAlterations d table diffs).findSome? fun p => refusal? table p.1 p.2) =
      none ↔ ∀ diff ∈ diffs, (d.alteration table diff).support = .supported := by
    simp [planAlterations, List.findSome?_eq_none_iff, refusal?_eq_none]
  have hplan : (planAlterations d table diffs).map (·.2) = diffs.map (d.alteration table) := by
    rw [planAlterations, List.map_map]
    rfl
  rw [alterStatements_eq_plan]
  cases hfound : (planAlterations d table diffs).findSome? fun p => refusal? table p.1 p.2 with
  | none => rw [hplan, Except.ok.injEq, and_iff_right (hrefused.mp hfound)]
  | some f =>
    refine iff_of_false (fun h => by cases h) fun h => ?_
    rw [hrefused.mpr h.1] at hfound
    cases hfound

/-- No statement is written exactly if no alteration has a piece. -/
theorem statementsOf_eq_nil {as : List Alteration} :
    statementsOf d table as = [] ↔ ∀ a ∈ as, a.pieces = [] := by
  have hpieces : (∀ a ∈ as, a.pieces = []) ↔
      (∀ a ∈ as, a.clauses = []) ∧ ∀ a ∈ as, a.statements = [] := by
    simp only [Alteration.pieces, List.append_eq_nil_iff, forall_and]
  unfold statementsOf
  split
  · unfold combinedStatements
    dsimp only
    rw [List.append_eq_nil_iff, hpieces, ← List.flatMap_eq_nil_iff, ← List.flatMap_eq_nil_iff]
    refine and_congr_left fun _ => ?_
    cases as.flatMap (·.clauses) <;> simp
  · simp [separateStatements, Alteration.pieces]

end Statements

/-- A modification that is found names the column of the model and all aspects that differ. -/
theorem of_modification?_eq_some {d : Dialect} {old : DatabaseColumn} {c : ModelColumn}
    {diff : Difference} (h : modification? d old c = some diff) :
    diff.kind = .modify ∧ diff.new? = some c ∧ diff.changes ≠ [] ∧
      diff.changes = differing d old c := by
  obtain ⟨hne, hdiff⟩ := modification?_eq_some.mp h
  have hchanges : diff.changes = differing d old c := by
    simp only [hdiff, Difference.modify]
  refine ⟨?_, ?_, ?_, hchanges⟩
  · simp only [hdiff, Difference.modify]
  · simp only [hdiff, Difference.modify]
  · rwa [hchanges]

namespace Dialect

/-! ### The pieces of PostgreSQL -/

/-- A clause or statement of PostgreSQL that brings an aspect of a column into the form that the
model wants. -/
inductive Carries (table : String) (c : ModelColumn) : Aspect → String → Prop
  | retype {a : Aspect} (h : a = .type ∨ a = .length ∨ a = .precision) :
      Carries table c a ("ALTER COLUMN " ++ postgres.quote c.name ++ " TYPE " ++
        postgres.typeText c.type ++ " USING " ++ postgres.quote c.name ++ "::" ++
        postgres.typeText c.type)
  | setNotNull (h : c.notNull = true) :
      Carries table c .notNull ("ALTER COLUMN " ++ postgres.quote c.name ++ " SET NOT NULL")
  | dropNotNull (h : c.notNull = false) :
      Carries table c .notNull ("ALTER COLUMN " ++ postgres.quote c.name ++ " DROP NOT NULL")
  | setDefault {literal : String} (h : c.default? = some literal)
      (hnull : sameName literal "NULL" = false) :
      Carries table c .default ("ALTER COLUMN " ++ postgres.quote c.name ++ " SET DEFAULT " ++
        postgres.writeDefault c.type literal)
  | dropDefault (h : ∀ literal, c.default? = some literal → sameName literal "NULL" = true) :
      Carries table c .default ("ALTER COLUMN " ++ postgres.quote c.name ++ " DROP DEFAULT")
  | addUnique (h : c.unique = true) :
      Carries table c .unique ("ADD CONSTRAINT " ++ postgres.quote (table ++ "_" ++ c.name ++ "_key")
        ++ " UNIQUE (" ++ postgres.quote c.name ++ ")")
  | dropUnique (h : c.unique = false) :
      Carries table c .unique
        ("DROP CONSTRAINT IF EXISTS " ++ postgres.quote (table ++ "_" ++ c.name ++ "_key"))
  | setComment {comment : String} (h : c.comment? = some comment) (hne : comment ≠ "") :
      Carries table c .comment ("COMMENT ON COLUMN " ++ postgres.quote table ++ "." ++
        postgres.quote c.name ++ " IS " ++ literal comment)
  | dropComment (h : c.comment? = some "") :
      Carries table c .comment ("COMMENT ON COLUMN " ++ postgres.quote table ++ "." ++
        postgres.quote c.name ++ " IS NULL")

/-- The aspects in the order in which PostgreSQL has pieces for them. -/
def pieceOrder : List Aspect :=
  [.type, .length, .precision] ++ ([.notNull] ++ ([.default] ++ ([.unique] ++ [.comment])))

/-- At most one of the type, the length and the precision differs. -/
theorem eq_of_differs_size {d : Dialect} {old : DatabaseColumn} {c : ModelColumn} {a b : Aspect}
    (ha : a = .type ∨ a = .length ∨ a = .precision) (hb : b = .type ∨ b = .length ∨ b = .precision)
    (hdiffers : Differs d old c a) (hdiffers' : Differs d old c b) : a = b := by
  -- of another type neither size is compared, and no type has both a length and a precision
  have htype : ∀ {x}, (x = .length ∨ x = .precision) → Differs d old c x →
      ¬ Differs d old c .type := by
    rintro x (rfl | rfl) ⟨hsame, -⟩ htype
    · exact Bool.false_ne_true (htype.symm.trans hsame)
    · exact Bool.false_ne_true (htype.symm.trans hsame)
  have hsizes : Differs d old c .length → ¬ Differs d old c .precision := by
    rintro ⟨-, -, n, hn, -⟩ ⟨-, -, p, s, hp, -⟩
    cases ht : c.type with
    | decimal p s =>
      rw [ht] at hn
      cases hn
    | _ =>
      rw [ht] at hp
      cases hp
  rcases ha with rfl | ha
  · rcases hb with rfl | hb
    · rfl
    · exact absurd hdiffers (htype hb hdiffers')
  · rcases hb with rfl | hb
    · exact absurd hdiffers' (htype ha hdiffers)
    · rcases ha with rfl | rfl <;> rcases hb with rfl | rfl
      · rfl
      · exact absurd hdiffers' (hsizes hdiffers)
      · exact absurd hdiffers (hsizes hdiffers')
      · rfl

section Pieces

variable {table : String} {diff : Difference} {c : ModelColumn}

theorem carries_notNull : Carries table c .notNull ("ALTER COLUMN " ++ postgres.quote c.name ++
    (if c.notNull then " SET NOT NULL" else " DROP NOT NULL")) := by
  cases h : c.notNull with
  | true => exact .setNotNull h
  | false => exact .dropNotNull h

theorem carries_default {literal : String} (h : effectiveDefault? c = some literal) :
    Carries table c .default ("ALTER COLUMN " ++ postgres.quote c.name ++ " SET DEFAULT " ++
      postgres.writeDefault c.type literal) := by
  obtain ⟨hdefault, hnull⟩ := Option.filter_eq_some_iff.mp h
  exact .setDefault hdefault (by simpa using hnull)

theorem carries_no_default (h : effectiveDefault? c = none) :
    Carries table c .default ("ALTER COLUMN " ++ postgres.quote c.name ++ " DROP DEFAULT") := by
  refine .dropDefault fun literal hdefault => ?_
  simpa using Option.filter_eq_none_iff.mp h literal hdefault

theorem carries_unique : Carries table c .unique
    (if c.unique then "ADD CONSTRAINT " ++ postgres.quote (uniqueConstraint table c.name) ++
        " UNIQUE (" ++ postgres.quote c.name ++ ")"
      else "DROP CONSTRAINT IF EXISTS " ++ postgres.quote (uniqueConstraint table c.name)) := by
  cases h : c.unique with
  | true => exact .addUnique h
  | false => exact .dropUnique h

theorem carries_comment {comment : String} (h : c.comment? = some comment) :
    Carries table c .comment ("COMMENT ON COLUMN " ++ postgres.quote table ++ "." ++
      postgres.quote c.name ++ " IS " ++ (if comment.isEmpty then "NULL" else literal comment)) := by
  by_cases hempty : comment = ""
  · subst hempty
    rw [if_pos (by rfl), String.append_assoc]
    exact .dropComment h
  · rw [if_neg (by simpa using hempty)]
    exact .setComment h hempty

/-- One piece for the type and its sizes, if at most one of them is to change. -/
theorem forall₂_carries_retype {p : Aspect → Bool} (hone : ∀ a b,
      (a = .type ∨ a = .length ∨ a = .precision) → (b = .type ∨ b = .length ∨ b = .precision) →
      p a = true → p b = true → a = b) :
    List.Forall₂ (Carries table c) ([.type, .length, .precision].filter p)
      (if p .type || p .length || p .precision then
        ["ALTER COLUMN " ++ postgres.quote c.name ++ " TYPE " ++ postgres.typeText c.type ++
          " USING " ++ postgres.quote c.name ++ "::" ++ postgres.typeText c.type]
      else []) := by
  -- of the eight cases those with two aspects cannot be
  have htl := hone .type .length (by simp) (by simp)
  have htp := hone .type .precision (by simp) (by simp)
  have hlp := hone .length .precision (by simp) (by simp)
  cases ht : p .type <;> cases hl : p .length <;> cases hp : p .precision <;>
    simp_all [Carries.retype]

/-- A modification has one piece for each aspect that it changes and the column states. -/
theorem forall₂_carries_postgresModification (hone : ∀ a b,
      (a = .type ∨ a = .length ∨ a = .precision) → (b = .type ∨ b = .length ∨ b = .precision) →
      diff.touches a = true → diff.touches b = true → a = b) :
    List.Forall₂ (Carries table c) (pieceOrder.filter fun a => diff.touches a && c.states a)
      (postgresModification table diff c).pieces := by
  simp only [pieceOrder, Alteration.pieces, postgresModification, postgresModifyClauses,
    List.filter_append, List.append_assoc]
  -- group by group, as the clauses and the statement for the comment are put together
  refine List.rel_append ?_ (List.rel_append ?_ (List.rel_append ?_ (List.rel_append ?_ ?_)))
  · have hstated : [Aspect.type, .length, .precision].filter (fun a => diff.touches a && c.states a) =
        [.type, .length, .precision].filter diff.touches :=
      List.filter_congr fun a ha => by
        rw [ModelColumn.states_of_ne (by rintro rfl; simp at ha), Bool.and_true]
    rw [hstated]
    exact forall₂_carries_retype hone
  · cases h : diff.touches .notNull with
    | false => simp [h]
    | true => simpa [h, ModelColumn.states] using carries_notNull
  · cases h : diff.touches .default with
    | false => simp [h]
    | true =>
      cases hdefault : effectiveDefault? c with
      | none => simpa [h, ModelColumn.states] using carries_no_default hdefault
      | some literal => simpa [h, ModelColumn.states] using carries_default hdefault
  · cases h : diff.touches .unique with
    | false => simp [h]
    | true => simpa [h, ModelColumn.states] using carries_unique
  · cases h : diff.touches .comment with
    | false => simp [h]
    | true =>
      cases hcomment : c.comment? with
      | none => simp [ModelColumn.states, commentStatement?, hcomment]
      | some comment =>
        simpa [h, ModelColumn.states, commentStatement?, hcomment] using carries_comment hcomment

theorem alteration_postgres_modify (hkind : diff.kind = .modify) (hnew : diff.new? = some c) :
    postgres.alteration table diff = postgresModification table diff c := by
  simp only [alteration, modification, hkind, hnew]

/-- PostgreSQL has one piece for each aspect that differs, but none for a comment that the model
does not have. -/
theorem exists_forall₂_carries {old : DatabaseColumn} (h : modification? postgres old c = some diff) :
    ∃ listed : List Aspect, listed.Perm (diff.changes.filter c.states) ∧
      List.Forall₂ (Carries table c) listed (postgres.alteration table diff).pieces := by
  obtain ⟨hkind, hnew, -, hchanges⟩ := of_modification?_eq_some h
  have htouches : ∀ a, diff.touches a = true ↔ Differs postgres old c a := by
    intro a
    rw [Difference.touches, List.contains_iff_mem, hchanges, mem_differing]
  refine ⟨pieceOrder.filter fun a => diff.touches a && c.states a, ?_, ?_⟩
  · have hnodup : diff.changes.Nodup := by
      rw [hchanges]
      exact nodup_differing
    have horder : pieceOrder.Nodup := by decide
    refine (List.perm_ext_iff_of_nodup (horder.filter _) (hnodup.filter _)).mpr fun a => ?_
    have hmem : a ∈ pieceOrder := by
      cases a <;> decide
    rw [List.mem_filter, List.mem_filter, and_iff_right hmem, Bool.and_eq_true,
      Difference.touches, List.contains_iff_mem]
  · rw [alteration_postgres_modify hkind hnew]
    refine forall₂_carries_postgresModification fun a b ha hb hta htb => ?_
    exact eq_of_differs_size ha hb ((htouches a).mp hta) ((htouches b).mp htb)

end Pieces

/-! ### Differences without a piece -/

/-- All that differs is a comment that the model does not have, and PostgreSQL has no piece for
it. -/
structure Loses (d : Dialect) (diff : Difference) : Prop where
  dialect : d = .postgres
  kind : diff.kind = .modify
  changes : diff.changes = [.comment]
  uncommented : ∃ c, diff.new? = some c ∧ c.comment? = none

section Lost

variable {d : Dialect} {table : String} {diff : Difference}

theorem Loses.supported (h : d.Loses diff) : (d.alteration table diff).support = .supported := by
  obtain ⟨c, hc, -⟩ := h.uncommented
  rw [h.dialect, alteration_postgres_modify h.kind hc]
  rfl

/-- A modification of PostgreSQL has no piece exactly if a comment is all that is to be taken
away. -/
theorem pieces_postgres_eq_nil_iff {old : DatabaseColumn} {c : ModelColumn}
    (h : modification? postgres old c = some diff) :
    (postgres.alteration table diff).pieces = [] ↔ postgres.Loses diff := by
  obtain ⟨listed, hperm, hpieces⟩ := exists_forall₂_carries h
  obtain ⟨hkind, hnew, hne, hchanges⟩ := of_modification?_eq_some h
  have hnil : (postgres.alteration table diff).pieces = [] ↔
      ∀ a ∈ diff.changes, c.states a = false := by
    calc (postgres.alteration table diff).pieces = []
      _ ↔ listed = [] := by
        rw [← List.length_eq_zero_iff, ← hpieces.length_eq, List.length_eq_zero_iff]
      _ ↔ diff.changes.filter c.states = [] := by
        rw [← List.length_eq_zero_iff, hperm.length_eq, List.length_eq_zero_iff]
      _ ↔ ∀ a ∈ diff.changes, c.states a = false := by
        simp only [List.filter_eq_nil_iff, Bool.not_eq_true]
  rw [hnil]
  constructor
  · intro hunstated
    have honly : ∀ a ∈ diff.changes, a = .comment := fun a ha => by
      by_contra hother
      exact Bool.false_ne_true ((hunstated a ha).symm.trans (ModelColumn.states_of_ne hother))
    have hmem : Aspect.comment ∈ diff.changes := by
      obtain ⟨a, ha⟩ := List.exists_mem_of_ne_nil _ hne
      rwa [honly a ha] at ha
    refine ⟨rfl, hkind, ?_, c, hnew, ?_⟩
    · rw [hchanges]
      refine differing_eq_singleton fun a => ?_
      rw [← mem_differing, ← hchanges]
      exact ⟨honly a, fun ha => ha ▸ hmem⟩
    · simpa [ModelColumn.states] using hunstated _ hmem
  · intro hloses a ha
    obtain ⟨c', hc', hnone⟩ := hloses.uncommented
    obtain rfl : c = c' := Option.some.inj (hnew.symm.trans hc')
    rw [hloses.changes, List.mem_singleton] at ha
    rw [ha, ModelColumn.states, hnone]
    rfl

/-- A modification of MySQL always has a clause. -/
theorem pieces_mysql_ne_nil {old : DatabaseColumn} {c : ModelColumn}
    (h : modification? mysql old c = some diff) : (mysql.alteration table diff).pieces ≠ [] := by
  obtain ⟨hkind, hnew, hne, -⟩ := of_modification?_eq_some h
  have halteration : mysql.alteration table diff = mysqlModification diff c := by
    simp only [alteration, modification, hkind, hnew]
  have hclauses : (mysqlModification diff c).clauses ≠ [] := by
    unfold mysqlModification
    -- the definition is written anew for all aspects but the uniqueness, which has its own clause
    by_cases hany : diff.changes.any (· != .unique) = true
    · simp [hany]
    · obtain ⟨a, ha⟩ := List.exists_mem_of_ne_nil _ hne
      have hunique : diff.touches .unique = true := by
        rw [Difference.touches, List.contains_iff_mem]
        have : a = .unique := by
          by_contra hother
          exact hany (List.any_eq_true.mpr ⟨a, ha, bne_iff_ne.mpr hother⟩)
        rwa [this] at ha
      simp [hunique]
  rw [halteration, Alteration.pieces]
  exact List.append_ne_nil_of_left_ne_nil hclauses _

/-- A difference that is found and can be carried out has no piece exactly if it is lost. -/
theorem pieces_eq_nil_iff {db : List DatabaseColumn} {model : List ModelColumn}
    (h : diff ∈ compareColumns d db model)
    (hsupported : (d.alteration table diff).support = .supported) :
    (d.alteration table diff).pieces = [] ↔ d.Loses diff := by
  rcases mem_compareColumns.mp h with
    ⟨m, -, -, rfl⟩ | ⟨m, -, c, -, hmodify⟩ | ⟨c, -, -, rfl⟩
  · refine iff_of_false ?_ fun hloses => by cases hloses.kind
    exact List.cons_ne_nil _ _
  · obtain ⟨hkind, hnew, -, -⟩ := of_modification?_eq_some hmodify
    cases d with
    | sqlite =>
      rw [alteration, hkind] at hsupported
      cases hsupported
    | postgres => exact pieces_postgres_eq_nil_iff hmodify
    | mysql =>
      exact iff_of_false (pieces_mysql_ne_nil hmodify) fun hloses => by cases hloses.dialect
  · refine iff_of_false ?_ fun hloses => by cases hloses.kind
    have hdrop : d.alteration table (.drop c) = d.removal (.drop c) := rfl
    rw [hdrop] at hsupported ⊢
    unfold removal at hsupported ⊢
    split at hsupported
    · cases hsupported
    · next hkey =>
      rw [if_neg hkey]
      cases d with
      | sqlite => cases hsupported
      | postgres => exact List.cons_ne_nil _ _
      | mysql => exact List.cons_ne_nil _ _

end Lost

end Dialect

open Dialect

/-- **What a comparison finds is written, but for comments that are taken away.**  A difference that
can be carried out has a clause or a statement unless it is lost, no statement is written for a table
exactly if all of its differences are lost, and PostgreSQL has one clause or statement for each aspect
of a column that differs and that the model states. -/
theorem alterations_of_compareColumns (d : Dialect) (table : String) (db : List DatabaseColumn)
    (model : List ModelColumn) :
    (∀ diff ∈ compareColumns d db model, (d.alteration table diff).support = .supported →
      ((d.alteration table diff).clauses ++ (d.alteration table diff).statements = [] ↔
        d.Loses diff)) ∧
    (alterStatements d table (compareColumns d db model) = .ok [] ↔
      ∀ diff ∈ compareColumns d db model, d.Loses diff) ∧
    ∀ diff ∈ compareColumns postgres db model, diff.kind = .modify →
      (postgres.alteration table diff).support = .supported ∧
      ∃ c ∈ model, diff.new? = some c ∧ ∃ listed : List Aspect,
        listed.Perm (diff.changes.filter c.states) ∧
        List.Forall₂ (Carries table c) listed ((postgres.alteration table diff).clauses ++
          (postgres.alteration table diff).statements) := by
  refine ⟨fun diff hdiff hsupported => pieces_eq_nil_iff hdiff hsupported, ?_, ?_⟩
  · rw [alterStatements_eq_ok, statementsOf_eq_nil, List.forall_mem_map]
    constructor
    · rintro ⟨hsupported, hnone⟩ diff hdiff
      exact (pieces_eq_nil_iff hdiff (hsupported diff hdiff)).mp (hnone diff hdiff)
    · intro hlost
      refine ⟨fun diff hdiff => (hlost diff hdiff).supported, fun diff hdiff => ?_⟩
      exact (pieces_eq_nil_iff hdiff (hlost diff hdiff).supported).mpr (hlost diff hdiff)
  · intro diff hdiff hkind
    rcases mem_compareColumns.mp hdiff with
      ⟨m, -, -, rfl⟩ | ⟨m, hm, c, -, hmodify⟩ | ⟨c, -, -, rfl⟩
    · cases hkind
    · have hnew := (of_modification?_eq_some hmodify).2.1
      refine ⟨?_, m, hm, hnew, exists_forall₂_carries hmodify⟩
      rw [alteration_postgres_modify hkind hnew]
      rfl
    · cases hkind

/-- A length, a constraint and a comment differ; the comment is to be taken away and has no piece. -/
theorem alterations_of_compareColumns_of_sample :
    let old : DatabaseColumn :=
      { name := "bio", rawType := "character varying", length? := some 50, comment? := some "about" }
    let c : ModelColumn := { name := "bio", type := .varchar 100, notNull := true }
    let diff : Difference := .modify old c [.length, .notNull, .comment]
      ["length changed from 50 to 100", "column became NOT NULL", "comment changed"]
    let a := postgres.alteration "notes" diff
    diff ∈ compareColumns postgres [old] [c] ∧ diff.kind = .modify ∧ a.support = .supported ∧
      (a.clauses ++ a.statements = [] ↔ postgres.Loses diff) ∧
      ∃ listed : List Aspect, listed.Perm [.length, .notNull] ∧
        List.Forall₂ (Carries "notes" c) listed (a.clauses ++ a.statements) := by
  intro old c diff a
  have hdiff : diff ∈ compareColumns postgres [old] [c] := by decide
  obtain ⟨hpieces, -, hmodified⟩ := alterations_of_compareColumns postgres "notes" [old] [c]
  obtain ⟨hsupported, c', hc', -, listed, hperm, hcarries⟩ := hmodified diff hdiff rfl
  obtain rfl : c' = c := List.mem_singleton.mp hc'
  exact ⟨hdiff, rfl, hsupported, hpieces diff hdiff hsupported, listed, hperm, hcarries⟩

/-- A comment that is taken away is found to differ and said to be supported, but no statement is
written for it. -/
theorem alterStatements_uncommented :
    let db : List DatabaseColumn := [{ name := "bio", rawType := "text", comment? := some "about" }]
    let model : List ModelColumn := [{ name := "bio", type := .text }]
    (db.map (·.name)).Nodup ∧ (model.map (·.name)).Nodup ∧
      (compareColumns postgres db model).map (·.changes) = [[.comment]] ∧
      (∀ diff ∈ compareColumns postgres db model,
        (postgres.alteration "notes" diff).support = .supported) ∧
      alterStatements postgres "notes" (compareColumns postgres db model) = .ok [] := by
  decide

end SchemaKeeper
