/-
The column that a tag describes.

What the settings of a tag say together does not depend on their order, as long as no two
of them are about the same matter.  `Settings.listed` lists one setting for each thing
that a record of settings says, and every such list, in whatever order, is collected to
that record again (`collect_listed`).

* `value?_collect`, `has_collect`: on each matter the last setting counts, and a flag is
  set if any setting sets it,
* `columnsOf_listed`: a field whose tag has the settings of a record, in any order,
  becomes the column that the record asks for.
-/
import Mathlib.Data.List.Induction
import SchemaKeeper.Model.Field
import SchemaKeeper.Proofs.Model.Written

namespace SchemaKeeper

open Text

/-- What a setting is about that is no flag. -/
inductive Matter where
  | type
  | size
  | precision
  | scale
  | column
  | comment
  | default
  | index
deriving Repr, DecidableEq

/-- What the setting is about. -/
def Setting.matter? : Setting → Option Matter
  | .type _ => some .type
  | .size _ => some .size
  | .precision _ => some .precision
  | .scale _ => some .scale
  | .column _ => some .column
  | .comment _ => some .comment
  | .default _ => some .default
  | .index _ => some .index
  | .flag _ | .blank => none

/-- The matter whose value a setting replaces.  Flags replace none, but for the one that asks for
an index, which takes the place of a name. -/
def Setting.slot? : Setting → Option Matter
  | .flag .index => some .index
  | x => x.matter?

/-- A setting as it is kept. -/
def Setting.kept : Setting → Setting
  | .flag .index => .index .auto
  | x => x

theorem Setting.slot?_of_matter? {x : Setting} {m : Matter} (h : x.matter? = some m) :
    x.slot? = some m := by
  cases x <;> first | exact h | cases h

theorem Setting.matter?_of_slot? {x : Setting} {m : Matter} (hx : x ≠ .flag .index)
    (h : x.slot? = some m) : x.matter? = some m ∧ x.kept = x := by
  cases x with
  | flag f => cases f <;> first | exact absurd rfl hx | cases h
  | _ => exact ⟨h, rfl⟩

namespace Settings

variable {s s' : Settings} {x : Setting} {l : List Setting}

/-! ### What settings say -/

/-- What is said on a matter. -/
def value? (s : Settings) : Matter → Option Setting
  | .type => s.type?.map .type
  | .size => s.size?.map .size
  | .precision => s.precision?.map .precision
  | .scale => s.scale?.map .scale
  | .column => s.column?.map .column
  | .comment => s.comment?.map .comment
  | .default => s.default?.map .default
  | .index => s.index?.map .index

/-- Whether a flag is set.  The one that asks for an index is kept as an index. -/
def has (s : Settings) : Flag → Bool
  | .primaryKey => s.primaryKey
  | .autoIncrement => s.autoIncrement
  | .unique => s.unique
  | .notNull => s.notNull
  | .nullable => s.nullable
  | .autoTime => s.autoTime
  | .index => false

/-- One setting for each thing that is said. -/
def listed (s : Settings) : List Setting :=
  [.type, .size, .precision, .scale, .column, .comment, .default, .index].filterMap s.value? ++
    ([.primaryKey, .autoIncrement, .unique, .notNull, .nullable, .autoTime].filter s.has).map .flag

theorem matter?_of_value? {m : Matter} (h : s.value? m = some x) : x.matter? = some m := by
  cases m <;> obtain ⟨a, -, rfl⟩ := Option.map_eq_some_iff.mp h <;> rfl

theorem mem_listed : x ∈ s.listed ↔ (∃ m, s.value? m = some x) ∨ ∃ f, s.has f = true ∧ .flag f = x := by
  have hmatter : ∀ m : Matter, m ∈ [.type, .size, .precision, .scale, .column, .comment, .default,
      .index] := by
    intro m
    cases m <;> decide
  have hflag : ∀ f, s.has f = true →
      f ∈ [.primaryKey, .autoIncrement, .unique, .notNull, .nullable, .autoTime] := by
    intro f hf
    cases f <;> first | decide | cases hf
  simp only [listed, List.mem_append, List.mem_filterMap, List.mem_map, List.mem_filter]
  constructor
  · rintro (⟨m, -, hm⟩ | ⟨f, ⟨-, hf⟩, rfl⟩)
    · exact .inl ⟨m, hm⟩
    · exact .inr ⟨f, hf, rfl⟩
  · rintro (⟨m, hm⟩ | ⟨f, hf, rfl⟩)
    · exact .inl ⟨m, hmatter m, hm⟩
    · exact .inr ⟨f, ⟨hflag f hf, hf⟩, rfl⟩

/-- Records that say the same are the same. -/
theorem eq_of_value? (hvalue : ∀ m, s.value? m = s'.value? m)
    (hhas : ∀ f, f ≠ .index → s.has f = s'.has f)
    (hrecognized : s.recognized = s'.recognized) : s = s' := by
  have htype := Option.map_injective (fun _ _ => Setting.type.inj) (hvalue .type)
  have hsize := Option.map_injective (fun _ _ => Setting.size.inj) (hvalue .size)
  have hprecision := Option.map_injective (fun _ _ => Setting.precision.inj) (hvalue .precision)
  have hscale := Option.map_injective (fun _ _ => Setting.scale.inj) (hvalue .scale)
  have hcolumn := Option.map_injective (fun _ _ => Setting.column.inj) (hvalue .column)
  have hcomment := Option.map_injective (fun _ _ => Setting.comment.inj) (hvalue .comment)
  have hdefault := Option.map_injective (fun _ _ => Setting.default.inj) (hvalue .default)
  have hindex := Option.map_injective (fun _ _ => Setting.index.inj) (hvalue .index)
  have hkey : s.primaryKey = s'.primaryKey := hhas .primaryKey nofun
  have hcounts : s.autoIncrement = s'.autoIncrement := hhas .autoIncrement nofun
  have hunique : s.unique = s'.unique := hhas .unique nofun
  have hnotNull : s.notNull = s'.notNull := hhas .notNull nofun
  have hnullable : s.nullable = s'.nullable := hhas .nullable nofun
  have htime : s.autoTime = s'.autoTime := hhas .autoTime nofun
  cases s
  cases s'
  simp_all

/-! ### Collecting -/

theorem collect_append (l : List Setting) (x : Setting) :
    collect ((l ++ [x]).map some) = (collect (l.map some)).applyKnown (some x) := by
  simp [collect]

/-- A setting changes what is said on its own matter, and on no other. -/
theorem value?_applyKnown (s : Settings) (x : Setting) (m : Matter) :
    (s.applyKnown (some x)).value? m = if x.slot? = some m then some x.kept else s.value? m := by
  cases x with
  | flag f => cases f <;> cases m <;> rfl
  | _ => cases m <;> rfl

/-- On each matter the last setting counts. -/
theorem value?_collect (l : List Setting) (m : Matter) :
    (collect (l.map some)).value? m =
      (l.filter fun x => x.slot? = some m).getLast?.map Setting.kept := by
  -- from the end of the list: the last setting is on the matter, or the others tell
  induction l using List.reverseRecOn with
  | nil => cases m <;> rfl
  | append_singleton l x ih =>
    rw [collect_append, value?_applyKnown, List.filter_append]
    by_cases hx : x.slot? = some m
    · rw [if_pos hx, List.filter_cons_of_pos (by simpa using hx), List.filter_nil,
        List.getLast?_concat]
      rfl
    · rw [if_neg hx, List.filter_cons_of_neg (by simpa using hx), List.filter_nil, List.append_nil,
        ih]

/-- Where at most one setting is about a matter, it is what is collected on it, wherever it
stands. -/
theorem value?_collect_of_unique {m : Matter} (hindex : .flag .index ∉ l) {o : Option Setting}
    (hl : ∀ x, x.matter? = some m → (x ∈ l ↔ o = some x))
    (ho : ∀ x, o = some x → x.matter? = some m) : (collect (l.map some)).value? m = o := by
  rw [value?_collect]
  cases hlast : (l.filter fun x => x.slot? = some m).getLast? with
  | none =>
    have hnone : o = none := Option.eq_none_iff_forall_ne_some.mpr fun x hx => by
      have hempty := List.filter_eq_nil_iff.mp (List.getLast?_eq_none_iff.mp hlast) x
        ((hl x (ho x hx)).mpr hx)
      exact hempty (decide_eq_true (Setting.slot?_of_matter? (ho x hx)))
    exact hnone.symm
  | some x =>
    obtain ⟨hx, hslot⟩ := List.mem_filter.mp (List.mem_of_getLast? hlast)
    have hne : x ≠ .flag .index := by
      rintro rfl
      exact hindex hx
    obtain ⟨hmatter, hkept⟩ := Setting.matter?_of_slot? hne (of_decide_eq_true hslot)
    rw [Option.map_some, hkept, (hl x hmatter).mp hx]

theorem has_applyKnown (s : Settings) (x : Setting) {f : Flag} (hf : f ≠ .index) :
    (s.applyKnown (some x)).has f = (s.has f || decide (x = .flag f)) := by
  cases x with
  | flag g => cases g <;> cases f <;> simp [has, applyKnown, apply, raise] at hf ⊢
  | _ => cases f <;> simp [has, applyKnown, apply]

theorem has_collect (l : List Setting) {f : Flag} (hf : f ≠ .index) :
    (collect (l.map some)).has f = decide (.flag f ∈ l) := by
  induction l using List.reverseRecOn with
  | nil => cases f <;> rfl
  | append_singleton l x ih =>
    rw [collect_append, has_applyKnown _ _ hf, ih]
    simp [eq_comm]

theorem recognized_collect (h : l ≠ []) : (collect (l.map some)).recognized = true := by
  rcases List.eq_nil_or_concat l with rfl | ⟨l, x, rfl⟩
  · exact absurd rfl h
  · rw [List.concat_eq_append, collect_append]
    rfl

/-- The settings of a record, in any order, are collected to the record. -/
theorem collect_listed (hrecognized : s.recognized = true) (hne : s.listed ≠ [])
    (hperm : l.Perm s.listed) : collect (l.map some) = s := by
  have hindex : .flag .index ∉ l := by
    rw [hperm.mem_iff, mem_listed]
    rintro (⟨m, hm⟩ | ⟨f, hf, heq⟩)
    · cases matter?_of_value? hm
    · cases heq
      cases hf
  refine eq_of_value? (fun m => ?_) (fun f hf => ?_) ?_
  · refine value?_collect_of_unique hindex (fun x hx => ?_) fun x hx => matter?_of_value? hx
    rw [hperm.mem_iff, mem_listed]
    constructor
    · rintro (⟨m', hm'⟩ | ⟨f, -, rfl⟩)
      · rwa [← Option.some.inj ((matter?_of_value? hm').symm.trans hx)]
      · cases hx
    · exact fun hm => .inl ⟨m, hm⟩
  · rw [has_collect l hf, Bool.eq_iff_iff, decide_eq_true_iff, hperm.mem_iff, mem_listed]
    constructor
    · rintro (⟨m, hm⟩ | ⟨g, hg, heq⟩)
      · cases matter?_of_value? hm
      · cases heq
        exact hg
    · exact fun h => .inr ⟨f, h, rfl⟩
  · have hnil : l ≠ [] := by
      rintro rfl
      exact hne hperm.nil_eq.symm
    rw [recognized_collect hnil, hrecognized]

/-! ### Columns -/

/-- Settings that a tag can have: the names are such that a tag may give them, and a default is a
text between quotes. -/
structure Written (s : Settings) : Prop where
  recognized : s.recognized = true
  ne_nil : s.listed ≠ []
  column : ∀ name, s.column? = some name → IsTagName name
  index : ∀ name, s.index? = some (.named name) →
    IsTagName name ∧ sameLetters name.toList "true".toList = false
  default : ∀ value, s.default? = some value → ∃ text, value = literal text

theorem Written.writable (h : s.Written) (hx : x ∈ s.listed) : x.Writable := by
  rcases mem_listed.mp hx with ⟨m, hm⟩ | ⟨f, -, rfl⟩
  · cases m with
    | column =>
      obtain ⟨name, hname, rfl⟩ := Option.map_eq_some_iff.mp hm
      exact h.column name hname
    | index =>
      obtain ⟨name, hname, rfl⟩ := Option.map_eq_some_iff.mp hm
      cases name with
      | auto => trivial
      | named name => exact h.index name hname
    | default =>
      obtain ⟨value, hvalue, rfl⟩ := Option.map_eq_some_iff.mp hm
      exact h.default value hvalue
    | _ =>
      obtain ⟨a, -, rfl⟩ := Option.map_eq_some_iff.mp hm
      trivial
  · trivial

/-- The type with the sizes that are given, where it has such sizes. -/
def sized (s : Settings) : ColumnType → ColumnType
  | .varchar n => .varchar (s.size?.getD n)
  | .char n => .char (s.size?.getD n)
  | .decimal p q => .decimal (s.precision?.getD p) (s.scale?.getD q)
  | t => t

theorem columnType_eq_sized (s : Settings) (inferred : ColumnType) :
    s.columnType inferred = s.sized (s.type?.getD inferred) := by
  unfold columnType
  cases s.type?.getD inferred <;> cases hsize : s.size? <;> simp [ColumnType.withLength, sized, hsize]

/-- The settings of a tag are read from it as they were written into it. -/
theorem settings_of_listed (h : s.Written) (hperm : l.Perm s.listed) (name typeText : String) :
    Field.settings
      { name := name, typeText := typeText
        tag? := some (",".intercalate (l.map Setting.text)) } = s := by
  have hwritable : ∀ x ∈ l, x.Writable := fun x hx => h.writable (hperm.mem_iff.mp hx)
  have htag : (",".intercalate (l.map Setting.text)).toList =
      List.intercalate [','] (l.map fun x => x.text.toList) := by
    rw [String.toList_intercalate, List.map_map]
    rfl
  have htokens : Tag.tokens (List.intercalate [','] (l.map fun x => x.text.toList)) =
      l.map fun x => x.text.toList := by
    refine Tag.tokens_intercalate fun t ht => ?_
    obtain ⟨x, hx, rfl⟩ := List.mem_map.mp ht
    exact isToken_text (hwritable x hx)
  have hread : (l.map fun x => x.text.toList).map Setting.ofToken? = l.map some := by
    rw [List.map_map]
    exact List.map_congr_left fun x hx => ofToken?_text (hwritable x hx)
  simp only [Field.settings, htag, htokens, hread, List.map_nil, List.append_nil]
  exact collect_listed h.recognized h.ne_nil hperm

/-- **A field whose tag has settings in any order becomes the column that they ask for**, with the
texts of its comment and its default as they were given. -/
theorem columnsOf_listed (h : s.Written) (hperm : l.Perm s.listed) (name typeText : String) :
    columnsOf [{ name := name, typeText := typeText
                 tag? := some (",".intercalate (l.map Setting.text)) }] =
      [{ name := s.column?.getD (snakeCased name)
         type := s.sized (s.type?.getD (inferType typeText))
         notNull := !s.nullable && (s.notNull || s.primaryKey || s.autoTime)
         primaryKey := s.primaryKey
         autoIncrement := s.autoIncrement
         unique := s.unique
         default? := if s.autoTime then some "CURRENT_TIMESTAMP" else s.default?
         comment? := s.comment?
         index? := s.index? }] := by
  have hsettings := settings_of_listed h hperm name typeText
  have hcolumns : columnsOf [{ name := name, typeText := typeText
                               tag? := some (",".intercalate (l.map Setting.text)) }] =
      [s.column name (inferType typeText)] := by
    simp [columnsOf, Field.ownColumn?, Field.column?, hsettings, h.recognized, firstOfName]
  rw [hcolumns, Settings.column, columnType_eq_sized, Bool.and_comm]

/-- Settings from the last to the first, with separators, quotes and colons in the comment and the
default. -/
theorem columnsOf_listed_of_sample :
    let s : Settings :=
      { recognized := true, type? := some (.decimal 12 4), scale? := some 6
        column? := some "net: price", comment? := some "it's 5:00, (or so); '"
        default? := some (literal "'), nullable;"), unique := true, notNull := true
        index? := some (.named "by price") }
    s.Written ∧ s.listed.reverse.Perm s.listed ∧
      columnsOf [{ name := "Net", typeText := "Option<f64>"
                   tag? := some (",".intercalate (s.listed.reverse.map Setting.text)) }] =
        [{ name := "net: price", type := .decimal 12 6, notNull := true, unique := true
           default? := some (literal "'), nullable;"), comment? := some "it's 5:00, (or so); '"
           index? := some (.named "by price") }] := by
  intro s
  have hname : IsTagName "net: price" := ⟨by decide, by decide, by decide⟩
  have hindex : IsTagName "by price" := ⟨by decide, by decide, by decide⟩
  have hwritten : s.Written :=
    { recognized := rfl
      ne_nil := by simp [s, listed, value?]
      column := fun name h => Option.some.inj h ▸ hname
      index := fun name h => by
        obtain rfl : "by price" = name := by simpa [s] using h
        exact ⟨hindex, by decide⟩
      default := fun value h => ⟨_, (Option.some.inj h).symm⟩ }
  have hperm : s.listed.reverse.Perm s.listed := List.reverse_perm _
  exact ⟨hwritten, hperm, columnsOf_listed hwritten hperm "Net" "Option<f64>"⟩

end Settings

end SchemaKeeper
