/-
Differences carried out.

`Dialect.carryOut` says what a difference does to the columns of a table: a column is
added as the model wants it, overwritten in the aspects that are to change, or
dropped.

* `settled_carryOut_required`: carrying out what one column of the model asks for
  settles that column and leaves the others alone; by induction the differences of
  all columns of the model settle all of them (`settled_carryOutAll`),
* `compareColumns_carryOutAll`: after all differences have been carried out, nothing
  is left to be changed.
-/
import SchemaKeeper.Proofs.Comparison.Stored

namespace SchemaKeeper

open Comparison

/-! ### The effect of a difference -/

/-- Whether the type is written anew, with its length, precision and scale. -/
def Difference.retypes (diff : Difference) : Bool :=
  diff.touches .type || diff.touches .length || diff.touches .precision

namespace Dialect

/-- A column of a table, with the aspects that are to change as in the model. -/
def modified (d : Dialect) (diff : Difference) (new : ModelColumn) (old : DatabaseColumn) :
    DatabaseColumn :=
  { old with
    rawType := if diff.retypes then d.typeText new.type else old.rawType
    length? := if diff.retypes then new.type.length? else old.length?
    precision? := if diff.retypes then new.type.precision? else old.precision?
    scale? := if diff.retypes then new.type.scale? else old.scale?
    notNull := if diff.touches .notNull then new.notNull else old.notNull
    unique := if diff.touches .unique then new.unique else old.unique
    default? := if diff.touches .default then d.writtenDefault? new else old.default?
    comment? := if diff.touches .comment then new.comment? else old.comment? }

/-- The columns of a table after one difference.  A difference that lacks the column of the model
it needs has no effect. -/
def carryOut (d : Dialect) (columns : List DatabaseColumn) (diff : Difference) :
    List DatabaseColumn :=
  match diff.kind, diff.new? with
  | .add, some new => columns ++ [d.stored (d.typeText new.type) new]
  | .modify, some new =>
    columns.map fun c => if c.name = diff.column then d.modified diff new c else c
  | .drop, _ => columns.filter fun c => c.name ≠ diff.column
  | .add, none | .modify, none => columns

/-- The columns of a table after several differences. -/
def carryOutAll (d : Dialect) (columns : List DatabaseColumn) (diffs : List Difference) :
    List DatabaseColumn :=
  diffs.foldl d.carryOut columns

variable {d : Dialect}

@[simp] theorem modified_name {diff : Difference} {new : ModelColumn} {old : DatabaseColumn} :
    (d.modified diff new old).name = old.name := rfl

/-! ### One column -/

section Modified

variable {diff : Difference} {old : DatabaseColumn} {new : ModelColumn}

/-- Where the type is written anew, the type and its sizes are as in a column that is stored as the
model wants it; elsewhere they are as they were. -/
theorem differs_modified {a : Aspect} (ha : a = .type ∨ a = .length ∨ a = .precision) :
    Differs d (d.modified diff new old) new a ↔
      Differs d (if diff.retypes then d.stored (d.typeText new.type) new else old) new a := by
  by_cases h : diff.retypes = true
  · rw [if_pos h]
    rcases ha with rfl | rfl | rfl <;> simp only [Differs, modified, stored, if_pos h]
  · rw [if_neg h]
    rcases ha with rfl | rfl | rfl <;> simp only [Differs, modified, if_neg h]

/-- A column that is overwritten in the aspects that differ is as the model wants it. -/
theorem not_differs_modified (hdiff : ∀ a, diff.touches a = true ↔ Differs d old new a)
    (a : Aspect) : ¬ Differs d (d.modified diff new old) new a := by
  have hsizes : ∀ a, a = .type ∨ a = .length ∨ a = .precision →
      ¬ Differs d (d.modified diff new old) new a := by
    intro a ha
    rw [differs_modified ha]
    by_cases h : diff.retypes = true
    · rw [if_pos h]
      exact not_differs_stored (sameType_typeText d new.type) a
    · -- none of the three is to change, so none differed
      rw [if_neg h, ← hdiff]
      simp only [Difference.retypes, Bool.or_eq_true, not_or] at h
      rcases ha with rfl | rfl | rfl
      · exact h.1.1
      · exact h.1.2
      · exact h.2
  cases a with
  | type => exact hsizes _ (.inl rfl)
  | length => exact hsizes _ (.inr (.inl rfl))
  | precision => exact hsizes _ (.inr (.inr rfl))
  | notNull =>
    rintro ⟨hkeys, hne⟩
    by_cases h : diff.touches .notNull = true
    · exact hne (if_pos h).symm
    · exact h ((hdiff _).mpr ⟨hkeys, fun heq => hne (heq.trans (if_neg h).symm)⟩)
  | unique =>
    rintro ⟨hkeys, hne⟩
    by_cases h : diff.touches .unique = true
    · exact hne (if_pos h).symm
    · exact h ((hdiff _).mpr ⟨hkeys, fun heq => hne (heq.trans (if_neg h).symm)⟩)
  | default =>
    rintro ⟨hcap, hcounts, hmatch⟩
    by_cases h : diff.touches .default = true
    · have hdefault : (d.modified diff new old).default? = d.writtenDefault? new := if_pos h
      rw [hdefault, ← wantedDefault?_eq, defaultsMatch_refl] at hmatch
      cases hmatch
    · have hdefault : (d.modified diff new old).default? = old.default? := if_neg h
      rw [hdefault] at hmatch
      exact h ((hdiff _).mpr ⟨hcap, hcounts, hmatch⟩)
  | comment =>
    rintro ⟨hcap, hne⟩
    by_cases h : diff.touches .comment = true
    · have hcomment : (d.modified diff new old).comment? = new.comment? := if_pos h
      rw [hcomment] at hne
      exact hne rfl
    · have hcomment : (d.modified diff new old).comment? = old.comment? := if_neg h
      rw [hcomment] at hne
      exact h ((hdiff _).mpr ⟨hcap, hne⟩)

end Modified

/-! ### All columns -/

variable {db columns : List DatabaseColumn} {model done : List ModelColumn}

/-- Some columns of the model are there as the model wants them, and all others are as in `db`. -/
structure Settled (d : Dialect) (db : List DatabaseColumn) (done : List ModelColumn)
    (columns : List DatabaseColumn) : Prop where
  nodup : (columns.map (·.name)).Nodup
  settled : ∀ m ∈ done, ∃ c ∈ columns, c.name = m.name ∧ ∀ a, ¬ Differs d c m a
  rest : ∀ c, (∀ m ∈ done, m.name ≠ c.name) → (c ∈ columns ↔ c ∈ db)

/-- A column that no column of the model done so far is named after is as it was. -/
theorem Settled.mem_iff (h : Settled d db done columns) {m : ModelColumn}
    (hm : ∀ m' ∈ done, m'.name ≠ m.name) {c : DatabaseColumn} (hc : c.name = m.name) :
    c ∈ columns ↔ c ∈ db :=
  h.rest c fun m' hm' => by rw [hc]; exact hm m' hm'

/-- The column of the model is in the table already. -/
theorem Settled.keep (h : Settled d db done columns) {m : ModelColumn}
    (hm : ∀ m' ∈ done, m'.name ≠ m.name) {c : DatabaseColumn} (hc : c ∈ db)
    (hname : c.name = m.name) (hsame : ∀ a, ¬ Differs d c m a) :
    Settled d db (done ++ [m]) columns where
  nodup := h.nodup
  settled := by
    intro m' hm'
    rcases List.mem_append.mp hm' with hm' | hm'
    · exact h.settled m' hm'
    · rw [List.mem_singleton.mp hm']
      exact ⟨c, (h.mem_iff hm hname).mpr hc, hname, hsame⟩
  rest c hc := h.rest c fun m' hm' => hc m' (List.mem_append_left _ hm')

/-- The column of the model is added to the table. -/
theorem Settled.add (h : Settled d db done columns) {m : ModelColumn}
    (hm : ∀ m' ∈ done, m'.name ≠ m.name) (hnone : ∀ c ∈ db, c.name ≠ m.name) :
    Settled d db (done ++ [m]) (columns ++ [d.stored (d.typeText m.type) m]) where
  nodup := by
    rw [List.map_append, List.nodup_append]
    refine ⟨h.nodup, List.nodup_singleton _, ?_⟩
    intro name hname name' hname' heq
    obtain ⟨c, hc, rfl⟩ := List.mem_map.mp hname
    obtain rfl : name' = m.name := List.mem_singleton.mp hname'
    exact hnone c ((h.mem_iff hm heq).mp hc) heq
  settled := by
    intro m' hm'
    rcases List.mem_append.mp hm' with hm' | hm'
    · obtain ⟨c, hc, hname, hsame⟩ := h.settled m' hm'
      exact ⟨c, List.mem_append_left _ hc, hname, hsame⟩
    · rw [List.mem_singleton.mp hm']
      exact ⟨_, List.mem_append_right _ List.mem_cons_self, rfl,
        not_differs_stored (sameType_typeText d m.type)⟩
  rest := by
    intro c hc
    have hother : m.name ≠ c.name := hc m (List.mem_append_right _ List.mem_cons_self)
    rw [List.mem_append, h.rest c fun m' hm' => hc m' (List.mem_append_left _ hm')]
    refine or_iff_left fun hmem => ?_
    rw [List.mem_singleton.mp hmem] at hother
    exact hother rfl

/-- The column of the model is overwritten in the aspects that differ. -/
theorem Settled.modify (h : Settled d db done columns) {m : ModelColumn}
    (hm : ∀ m' ∈ done, m'.name ≠ m.name) {old : DatabaseColumn} (hold : old ∈ db)
    (hname : old.name = m.name) {diff : Difference}
    (hdiff : ∀ a, diff.touches a = true ↔ Differs d old m a) :
    Settled d db (done ++ [m])
      (columns.map fun c => if c.name = m.name then d.modified diff m c else c) where
  nodup := by
    have hnames : (columns.map fun c => if c.name = m.name then d.modified diff m c else c).map
        (·.name) = columns.map (·.name) := by
      rw [List.map_map]
      refine List.map_congr_left fun c _ => ?_
      show (if c.name = m.name then d.modified diff m c else c).name = c.name
      split <;> rfl
    rw [hnames]
    exact h.nodup
  settled := by
    intro m' hm'
    rcases List.mem_append.mp hm' with hm' | hm'
    · -- a column settled before keeps its place
      obtain ⟨c, hc, hc', hsame⟩ := h.settled m' hm'
      refine ⟨c, List.mem_map.mpr ⟨c, hc, if_neg ?_⟩, hc', hsame⟩
      rw [hc']
      exact hm m' hm'
    · rw [List.mem_singleton.mp hm']
      exact ⟨_, List.mem_map.mpr ⟨old, (h.mem_iff hm hname).mpr hold, if_pos hname⟩, hname,
        not_differs_modified hdiff⟩
  rest := by
    intro c hc
    have hother : m.name ≠ c.name := hc m (List.mem_append_right _ List.mem_cons_self)
    rw [← h.rest c fun m' hm' => hc m' (List.mem_append_left _ hm'), List.mem_map]
    constructor
    · rintro ⟨c', hc', rfl⟩
      by_cases hc'' : c'.name = m.name
      · rw [if_pos hc''] at hother
        exact absurd hc''.symm hother
      · rwa [if_neg hc'']
    · intro hmem
      exact ⟨c, hmem, if_neg hother.symm⟩

/-- Carrying out what a column of the model asks for settles that column. -/
theorem settled_carryOut_required (h : Settled d db done columns) {m : ModelColumn}
    (hm : ∀ m' ∈ done, m'.name ≠ m.name) :
    Settled d db (done ++ [m]) (d.carryOutAll columns (required? d db m).toList) := by
  cases hfound : columnNamed? db m.name with
  | none =>
    rw [required?, hfound]
    exact h.add hm (columnNamed?_eq_none.mp hfound)
  | some old =>
    obtain ⟨hold, hname⟩ := of_columnNamed?_eq_some hfound
    cases hmodify : modification? d old m with
    | none =>
      have hrequired : required? d db m = none := by rwa [required?, hfound]
      rw [hrequired]
      exact h.keep hm hold hname (modification?_eq_none.mp hmodify)
    | some diff =>
      have hrequired : required? d db m = some diff := by rwa [required?, hfound]
      rw [hrequired]
      obtain ⟨-, rfl⟩ := modification?_eq_some.mp hmodify
      refine h.modify hm hold hname fun a => ?_
      rw [← mem_differing]
      exact List.contains_iff_mem

/-- Carrying out what several columns of the model ask for settles all of them. -/
theorem settled_carryOutAll (h : Settled d db done columns) (ms : List ModelColumn)
    (hnodup : ((done ++ ms).map (·.name)).Nodup) :
    Settled d db (done ++ ms) (d.carryOutAll columns (ms.filterMap (required? d db))) := by
  -- along the columns still to be done; those that are done are part of what is preserved
  induction ms generalizing done columns with
  | nil =>
    rw [List.append_nil]
    exact h
  | cons m ms ih =>
    have hsplit : done ++ m :: ms = (done ++ [m]) ++ ms := by simp
    have hm : ∀ m' ∈ done, m'.name ≠ m.name := by
      intro m' hm'
      rw [List.map_append, List.nodup_append] at hnodup
      exact hnodup.2.2 _ (List.mem_map_of_mem hm') _ (by simp)
    have hrequired : (m :: ms).filterMap (required? d db) =
        (required? d db m).toList ++ ms.filterMap (required? d db) := by
      rw [List.filterMap_cons]
      cases required? d db m <;> rfl
    rw [hsplit] at hnodup ⊢
    rw [hrequired, carryOutAll, List.foldl_append]
    exact ih (settled_carryOut_required h hm) hnodup

/-- Dropping columns leaves the columns of other names. -/
theorem carryOutAll_drop (dropped : List DatabaseColumn) :
    d.carryOutAll columns (dropped.map Difference.drop) =
      columns.filter fun c => dropped.all (·.name != c.name) := by
  induction dropped generalizing columns with
  | nil => simp [carryOutAll]
  | cons c r ih =>
    have hcons : d.carryOutAll columns ((c :: r).map Difference.drop) =
        d.carryOutAll (columns.filter fun c' => c'.name ≠ c.name) (r.map Difference.drop) := rfl
    rw [hcons, ih, List.filter_filter]
    refine List.filter_congr fun c' _ => ?_
    rw [List.all_cons, Bool.and_comm]
    congr 1
    rw [Bool.eq_iff_iff, decide_eq_true_iff, bne_iff_ne, ne_comm]

/-- **Carrying out the differences of a table leaves nothing to be changed.** -/
theorem compareColumns_carryOutAll (hdb : (db.map (·.name)).Nodup)
    (hmodel : (model.map (·.name)).Nodup) :
    compareColumns d (d.carryOutAll db (compareColumns d db model)) model = [] := by
  have hstart : Settled d db [] db :=
    ⟨hdb, fun m hm => absurd hm List.not_mem_nil, fun c _ => Iff.rfl⟩
  have h := settled_carryOutAll hstart model hmodel
  rw [List.nil_append] at h
  -- what the columns of the model ask for comes first, and the drops after it
  have hsplit : d.carryOutAll db (compareColumns d db model) =
      d.carryOutAll (d.carryOutAll db (model.filterMap (required? d db)))
        ((db.filter fun c => !model.any (·.name == c.name)).map Difference.drop) :=
    List.foldl_append ..
  rw [hsplit, carryOutAll_drop]
  set columns := d.carryOutAll db (model.filterMap (required? d db))
  set dropped := db.filter fun c => !model.any (·.name == c.name)
  have hdropped : ∀ c, c ∈ dropped ↔ c ∈ db ∧ ∀ m ∈ model, m.name ≠ c.name := by
    intro c
    simp [dropped]
  refine (compareColumns_eq_nil_iff (h.nodup.sublist (List.filter_sublist.map _))).mpr ⟨?_, ?_⟩
  · intro m hm
    obtain ⟨c, hc, hname, hsame⟩ := h.settled m hm
    refine ⟨c, List.mem_filter.mpr ⟨hc, ?_⟩, hname, hsame⟩
    rw [List.all_eq_true]
    intro c' hc'
    rw [bne_iff_ne, hname]
    exact fun heq => ((hdropped c').mp hc').2 m hm heq.symm
  · intro c hc
    obtain ⟨hc, hkept⟩ := List.mem_filter.mp hc
    -- a column that the model lacks was there before, and has been dropped
    by_contra hnone
    have hlacks : ∀ m ∈ model, m.name ≠ c.name := fun m hm heq => hnone ⟨m, hm, heq⟩
    have hmem : c ∈ dropped := (hdropped c).mpr ⟨(h.rest c hlacks).mp hc, hlacks⟩
    have hne := List.all_eq_true.mp hkept c hmem
    exact absurd rfl (bne_iff_ne.mp hne)

/-- A column is added, one is kept, one is dropped, and one is retyped for its length alone. -/
theorem compareColumns_carryOutAll_of_sample :
    let db : List DatabaseColumn :=
      [{ name := "legacy", rawType := "text" },
        { name := "id", rawType := "bigint", notNull := true, primaryKey := true,
          autoIncrement := true },
        { name := "name", rawType := "varchar(50)", length? := some 50 }]
    let model : List ModelColumn :=
      [{ name := "id", type := .bigInt, notNull := true, primaryKey := true,
         autoIncrement := true },
        { name := "price", type := .decimal 10 2, default? := some "0" },
        { name := "name", type := .varchar 100, notNull := true, comment? := some "as signed" }]
    (db.map (·.name)).Nodup ∧ (model.map (·.name)).Nodup ∧
      (compareColumns mysql db model).map (fun diff => (diff.column, diff.kind, diff.changes)) =
        [("price", .add, []), ("name", .modify, [.length, .notNull, .comment]),
          ("legacy", .drop, [])] ∧
      compareColumns mysql (mysql.carryOutAll db (compareColumns mysql db model)) model = [] := by
  intro db model
  have hdb : (db.map (·.name)).Nodup := by decide
  have hmodel : (model.map (·.name)).Nodup := by decide
  exact ⟨hdb, hmodel, by decide +kernel, compareColumns_carryOutAll hdb hmodel⟩

end Dialect

end SchemaKeeper
