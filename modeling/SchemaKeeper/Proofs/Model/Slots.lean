/-
Tags that say the same.

What is collected on a matter is what the last setting on it says, and a flag is set if any
setting sets it (`value?_collect`, `has_collect`).  So a tag may be written in many ways:
its tokens can change places as long as those on one matter keep their order, letters can
change their case where they are no part of a value, and tokens that say nothing can come
and go.  `Restated` is the relation between the lists of tokens of two such tags.

* `collect_of_perm`, `collect_blank`: settings in another order, and one that is malformed,
* `SameButCase.ofToken?_eq`: letters of either case,
* `columnsOf_withTag`: all of this leaves the columns of a model as they are, and a token
  with a malformed value leaves the settings to the other tokens.
-/
import SchemaKeeper.Proofs.Model.Collecting
import SchemaKeeper.Proofs.Text.LetterCase

namespace SchemaKeeper

open Text Tag

/-! ### Settings in another order -/

namespace Settings

variable {l l' : List Setting}

/-- Settings in another order, those on one matter in the order that they had. -/
theorem collect_of_perm (hperm : l.Perm l')
    (hslots : ∀ m, l.filter (fun x => x.slot? = some m) = l'.filter fun x => x.slot? = some m) :
    collect (l.map some) = collect (l'.map some) := by
  refine eq_of_value? (fun m => ?_) (fun f hf => ?_) ?_
  · rw [value?_collect, value?_collect, hslots m]
  · rw [has_collect l hf, has_collect l' hf, Bool.eq_iff_iff, decide_eq_true_iff,
      decide_eq_true_iff, hperm.mem_iff]
  · by_cases hl : l = []
    · subst hl
      rw [← hperm.nil_eq]
    · have hl' : l' ≠ [] := by
        rintro rfl
        exact hl hperm.eq_nil
      rw [recognized_collect hl, recognized_collect hl']

/-- A malformed setting counts as known and says nothing. -/
theorem collect_blank (l l' : List Setting) :
    collect ((l ++ .blank :: l').map some) =
      { collect ((l ++ l').map some) with recognized := true } := by
  have hvalue : ∀ (s : Settings) (m : Matter),
      { s with recognized := true }.value? m = s.value? m := by
    intro s m
    cases m <;> rfl
  have hhas : ∀ (s : Settings) (f : Flag), { s with recognized := true }.has f = s.has f := by
    intro s f
    cases f <;> rfl
  have hrecognized : (collect ((l ++ .blank :: l').map some)).recognized = true :=
    recognized_collect (by simp)
  refine eq_of_value? (fun m => ?_) (fun f hf => ?_) hrecognized
  · rw [hvalue, value?_collect, value?_collect, List.filter_append, List.filter_append,
      List.filter_cons_of_neg (by simp [Setting.slot?, Setting.matter?])]
  · rw [hhas, has_collect _ hf, has_collect _ hf]
    simp

/-- What says nothing known need not be collected. -/
theorem collect_filterMap (l : List (Option Setting)) :
    collect l = collect ((l.filterMap id).map some) := by
  have hfoldl : ∀ s : Settings,
      l.foldl applyKnown s = ((l.filterMap id).map some).foldl applyKnown s := by
    induction l with
    | nil => exact fun s => rfl
    | cons x l ih =>
      intro s
      cases x with
      | none => exact ih s
      | some x => exact ih (s.applyKnown (some x))
  exact hfoldl {}

end Settings

/-! ### Fields -/

namespace Field

/-- What tokens say. -/
def read (tokens : List (List Char)) : List Setting :=
  tokens.filterMap Setting.ofToken?

/-- What the tag of a field says. -/
def tagSettings (f : Field) : List Setting :=
  match f.tag? with
  | some tag => read (tokens tag.toList)
  | none => []

/-- What an attribute says. -/
def readAttribute? (a : String × String) : Option Setting :=
  Setting.ofAttribute? a.1 a.2

/-- What attributes say. -/
def attributeSettings (attributes : List (String × String)) : List Setting :=
  attributes.filterMap readAttribute?

/-- The field with another tag. -/
def withTag (f : Field) (tag : String) : Field :=
  { f with tag? := some tag }

theorem settings_eq (f : Field) : f.settings =
    .collect ((f.tagSettings ++ attributeSettings f.attributes).map some) := by
  have hattributes : (f.attributes.map fun a => Setting.ofAttribute? a.1 a.2).filterMap id =
      attributeSettings f.attributes := by
    rw [List.filterMap_map, Function.id_comp]
    rfl
  have htokens : ∀ ts : List (List Char), (ts.map Setting.ofToken?).filterMap id = read ts := by
    intro ts
    rw [List.filterMap_map, Function.id_comp, read]
  unfold settings tagSettings
  rw [Settings.collect_filterMap, List.filterMap_append, hattributes]
  cases f.tag? with
  | none => rfl
  | some tag => rw [htokens]

theorem settings_withTag (f : Field) (tag : String) : (f.withTag tag).settings =
    .collect ((read (tokens tag.toList) ++ attributeSettings f.attributes).map some) :=
  settings_eq (f.withTag tag)

end Field

/-- Fields that have one name and one type and say the same are interchangeable. -/
theorem columnsOf_congr {f g : Field} (hsettings : f.settings = g.settings)
    (hname : f.name = g.name) (htype : f.typeText = g.typeText)
    (hembedded : f.embedded = g.embedded) (before after : List Field) :
    columnsOf (before ++ f :: after) = columnsOf (before ++ g :: after) := by
  have hcolumn : f.ownColumn? = g.ownColumn? := by
    simp only [Field.ownColumn?, Field.column?, hname, htype, hembedded, hsettings]
  simp only [columnsOf, List.filterMap_append, List.filterMap_cons, hcolumn]

/-! ### Letters of either case -/

/-- Tokens that differ in the case of letters only: in those of a flag, of a key, or of a type that
is named. -/
inductive SameButCase : List Char → List Char → Prop
  | flag {t t' : List Char} : ':' ∉ t → sameLetters t t' = true → SameButCase t t'
  | key (key key' value : List Char) : ':' ∉ key → sameLetters key key' = true →
      SameButCase (key ++ ':' :: value) (key' ++ ':' :: value)
  | type (key key' value value' : List Char) : ':' ∉ key → sameLetters key key' = true →
      sameLetters (trim key) "type".toList = true → sameLetters value value' = true →
      SameButCase (key ++ ':' :: value) (key' ++ ':' :: value')

theorem SameButCase.refl (t : List Char) : SameButCase t t := by
  by_cases hcolon : ':' ∈ t
  · obtain ⟨key, value, rfl, hkey⟩ := List.eq_append_cons_of_mem hcolon
    exact .key key key value hkey (sameLetters_refl key)
  · exact .flag hcolon (sameLetters_refl t)

theorem colon_not_mem_of_sameLetters {t t' : List Char} (h : sameLetters t t' = true)
    (ht : ':' ∉ t) : ':' ∉ t' := by
  intro ht'
  have hlower : ':' ∈ lower t' := List.mem_map.mpr ⟨':', ht', rfl⟩
  rw [← beq_iff_eq.mp h] at hlower
  obtain ⟨c, hc, hcolon⟩ := List.mem_map.mp hlower
  rw [(toLower_eq_iff (.inl (by decide)) c).mp hcolon] at hc
  exact ht hc

theorem lower_trim_of_sameLetters {t t' : List Char} (h : sameLetters t t' = true) :
    lower (trim t) = lower (trim t') := by
  rw [← trim_lower, ← trim_lower, beq_iff_eq.mp h]

theorem ColumnType.read?_of_sameLetters {t t' : List Char} (h : sameLetters t t' = true) :
    read? t = read? t' := by
  rw [read?, read?, lower_trim_of_sameLetters h]

theorem ofToken?_pair {key : List Char} (h : ':' ∉ key) (value : List Char) :
    Setting.ofToken? (key ++ ':' :: value) =
      Setting.ofPair? (String.ofList (lower (trim key))) value := by
  rw [Setting.ofToken?, cutAt?_append h]

theorem SameButCase.ofToken?_eq {t t' : List Char} (h : SameButCase t t') :
    Setting.ofToken? t = Setting.ofToken? t' := by
  cases h with
  | flag ht hsame =>
    rw [Setting.ofToken?, Setting.ofToken?, cutAt?_eq_none ht,
      cutAt?_eq_none (colon_not_mem_of_sameLetters hsame ht), beq_iff_eq.mp hsame]
  | key _ _ _ hkey hsame =>
    rw [ofToken?_pair hkey, ofToken?_pair (colon_not_mem_of_sameLetters hsame hkey),
      lower_trim_of_sameLetters hsame]
  | type key _ _ _ hkey hsame htype hvalue =>
    have hword : String.ofList (lower (trim key)) = "type" :=
      congrArg String.ofList (beq_iff_eq.mp htype)
    rw [ofToken?_pair hkey, ofToken?_pair (colon_not_mem_of_sameLetters hsame hkey),
      ← lower_trim_of_sameLetters hsame, hword]
    simp only [Setting.ofPair?, ColumnType.read?_of_sameLetters hvalue]

/-! ### Malformed values -/

/-- A value that a key in lower case has no use for.  Any value names an index. -/
inductive Malformed : String → List Char → Prop
  | type {value : List Char} : ColumnType.read? value = none → Malformed "type" value
  | number {key : String} {value : List Char} : key ∈ ["size", "length", "precision", "scale"] →
      Number.uint32? (trim value) = none → Malformed key value
  | column {key : String} {value : List Char} : key ∈ ["column", "db"] → trim value = [] →
      Malformed key value
  | flag {key : String} {value : List Char} {f : Flag} : Flag.ofWord? key = some f → f ≠ .index →
      truth? value = none → Malformed key value

/-- Under the word of a flag stands a truth value. -/
theorem ofPair?_flag {key : String} {f : Flag} (hkey : Flag.ofWord? key = some f)
    (hf : f ≠ .index) (value : List Char) :
    Setting.ofPair? key value = some (flagSetting f value) := by
  unfold Flag.ofWord? at hkey
  split at hkey <;> cases hkey <;> first | rfl | exact absurd rfl hf

theorem Malformed.ofPair?_eq {key : String} {value : List Char} (h : Malformed key value) :
    Setting.ofPair? key value = some .blank := by
  cases h with
  | type hread => simp only [Setting.ofPair?, hread]
  | number hkey hnumber =>
    have hblank : ∀ setting, numberSetting setting value = .blank := fun setting => by
      rw [numberSetting, hnumber]
    simp only [List.mem_cons, List.not_mem_nil, or_false] at hkey
    rcases hkey with rfl | rfl | rfl | rfl <;> exact congrArg some (hblank _)
  | column hkey hname =>
    have hblank : (if (trim value).isEmpty then Setting.blank
        else .column (String.ofList (trim value))) = .blank := if_pos (by rw [hname]; rfl)
    simp only [List.mem_cons, List.not_mem_nil, or_false] at hkey
    rcases hkey with rfl | rfl <;> exact congrArg some hblank
  | flag hkey hf htruth =>
    rw [ofPair?_flag hkey hf, flagSetting, htruth]
    rfl

/-! ### Tags -/

/-- The matter whose value a token replaces. -/
def tokenSlot? (t : List Char) : Option Matter :=
  (Setting.ofToken? t).bind Setting.slot?

/-- Lists of tokens that say the same.  A malformed token and a flag are on no matter, so that they
may stand anywhere. -/
inductive Restated : List (List Char) → List (List Char) → Prop
  /-- Tokens change places; those on one matter keep their order. -/
  | moved {ts ts' : List (List Char)} : ts.Perm ts' →
      (∀ m, ts.filter (fun t => tokenSlot? t = some m) =
        ts'.filter fun t => tokenSlot? t = some m) → Restated ts ts'
  /-- Letters change their case. -/
  | recased {ts ts' : List (List Char)} : List.Forall₂ SameButCase ts ts' → Restated ts ts'
  /-- Tokens that are not known come, go and change places. -/
  | among {ts ts' : List (List Char)} :
      ts.filter (fun t => (Setting.ofToken? t).isSome) =
        ts'.filter (fun t => (Setting.ofToken? t).isSome) → Restated ts ts'
  | trans {ts ts' ts'' : List (List Char)} : Restated ts ts' → Restated ts' ts'' → Restated ts ts''

namespace Field

theorem filter_read (ts : List (List Char)) (m : Matter) :
    (read ts).filter (fun x => x.slot? = some m) =
      read (ts.filter fun t => tokenSlot? t = some m) := by
  rw [read, read, List.filter_filterMap, List.filterMap_filter]
  refine List.filterMap_congr fun t _ => ?_
  cases ht : Setting.ofToken? t <;> simp [tokenSlot?, ht, Option.filter]

theorem read_filter_isSome (ts : List (List Char)) :
    read (ts.filter fun t => (Setting.ofToken? t).isSome) = read ts := by
  rw [read, read, List.filterMap_filter]
  refine List.filterMap_congr fun t _ => ?_
  cases Setting.ofToken? t <;> rfl

theorem read_of_sameButCase {ts ts' : List (List Char)} (h : List.Forall₂ SameButCase ts ts') :
    read ts = read ts' := by
  induction h with
  | nil => rfl
  | @cons t t' ts ts' hhead _ ih =>
    rw [read, read, List.filterMap_cons, List.filterMap_cons, hhead.ofToken?_eq]
    cases Setting.ofToken? t' with
    | none => exact ih
    | some x => exact congrArg (x :: ·) ih

/-- Tokens that say the same are collected alike, whatever attributes follow. -/
theorem collect_of_restated {ts ts' : List (List Char)} (h : Restated ts ts') (l : List Setting) :
    Settings.collect ((read ts ++ l).map some) = .collect ((read ts' ++ l).map some) := by
  induction h with
  | moved hperm hslots =>
    refine Settings.collect_of_perm ((hperm.filterMap _).append_right l) fun m => ?_
    rw [List.filter_append, List.filter_append, filter_read, filter_read, hslots m]
  | recased hsame => rw [read_of_sameButCase hsame]
  | @among ts ts' hknown =>
    rw [← read_filter_isSome ts, ← read_filter_isSome ts', hknown]
  | trans _ _ ih ih' => rw [ih, ih']

/-- A token with a malformed value changes nothing, but the field counts as known. -/
theorem settings_withTag_malformed (f : Field) {tag tag' : String} {ts ts' : List (List Char)}
    {key value : List Char} (hkey : ':' ∉ key)
    (hvalue : Malformed (String.ofList (lower (trim key))) value)
    (htag : tokens tag.toList = ts ++ (key ++ ':' :: value) :: ts')
    (htag' : tokens tag'.toList = ts ++ ts') :
    (f.withTag tag).settings = { (f.withTag tag').settings with recognized := true } := by
  have hblank : Setting.ofToken? (key ++ ':' :: value) = some .blank := by
    rw [ofToken?_pair hkey, hvalue.ofPair?_eq]
  have hread : read (ts ++ (key ++ ':' :: value) :: ts') = read ts ++ .blank :: read ts' := by
    rw [read, List.filterMap_append, List.filterMap_cons_some hblank]
    rfl
  have hread' : read (ts ++ ts') = read ts ++ read ts' := List.filterMap_append ..
  rw [settings_withTag, settings_withTag, htag, htag', hread, hread', List.append_assoc,
    List.append_assoc]
  exact Settings.collect_blank (read ts) (read ts' ++ attributeSettings f.attributes)

end Field

/-- **A tag may be written in any way that says the same.**  Its tokens may change places, those
on one matter among themselves apart, the letters of keys, flags and type names may change their
case, and unknown tokens may come and go.  A token with a malformed value counts as known and
leaves every setting to the other tokens. -/
theorem columnsOf_withTag (before after : List Field) (f : Field) (tag tag' : String) :
    (Restated (tokens tag.toList) (tokens tag'.toList) →
      columnsOf (before ++ f.withTag tag :: after) =
        columnsOf (before ++ f.withTag tag' :: after)) ∧
    (∀ (ts ts' : List (List Char)) (key value : List Char), ':' ∉ key →
      Malformed (String.ofList (lower (trim key))) value →
      tokens tag.toList = ts ++ (key ++ ':' :: value) :: ts' → tokens tag'.toList = ts ++ ts' →
        (f.withTag tag).settings = { (f.withTag tag').settings with recognized := true } ∧
        ((f.withTag tag').settings.recognized = true →
          columnsOf (before ++ f.withTag tag :: after) =
            columnsOf (before ++ f.withTag tag' :: after))) := by
  have hcolumns : (f.withTag tag).settings = (f.withTag tag').settings →
      columnsOf (before ++ f.withTag tag :: after) =
        columnsOf (before ++ f.withTag tag' :: after) := by
    intro h
    exact columnsOf_congr h rfl rfl rfl before after
  refine ⟨fun hrestated => hcolumns ?_, fun ts ts' key value hkey hvalue htag htag' => ?_⟩
  · rw [Field.settings_withTag, Field.settings_withTag]
    exact Field.collect_of_restated hrestated _
  · have hsettings := f.settings_withTag_malformed hkey hvalue htag htag'
    refine ⟨hsettings, fun hrecognized => hcolumns ?_⟩
    rw [hsettings, ← hrecognized]

/-- A tag with an unknown token and its type between two sizes, and one with a malformed number. -/
theorem columnsOf_withTag_of_sample :
    let f : Field := { name := "Code", typeText := "String", attributes := [("unique", "true")] }
    Restated (tokens "size:9,bogus,TYPE:Char(3),PK,size:7".toList)
        (tokens "pk;size:9,size:7;type:char(3)".toList) ∧
      columnsOf [f.withTag "size:9,bogus,TYPE:Char(3),PK,size:7"] =
        columnsOf [f.withTag "pk;size:9,size:7;type:char(3)"] ∧
      Malformed (String.ofList (lower (trim "Size".toList))) "12x".toList ∧
      tokens "pk,Size:12x,size:7".toList =
        ["pk".toList] ++ ("Size".toList ++ ':' :: "12x".toList) :: ["size:7".toList] ∧
      tokens "pk,size:7".toList = ["pk".toList] ++ ["size:7".toList] ∧
      (f.withTag "pk,size:7").settings.recognized = true ∧
      columnsOf [f.withTag "pk,Size:12x,size:7"] = columnsOf [f.withTag "pk,size:7"] := by
  intro f
  have htokens : tokens "size:9,bogus,TYPE:Char(3),PK,size:7".toList =
      ["size:9".toList, "bogus".toList, "TYPE:Char(3)".toList, "PK".toList, "size:7".toList] := by
    decide
  have htokens' : tokens "pk;size:9,size:7;type:char(3)".toList =
      ["pk".toList, "size:9".toList, "size:7".toList, "type:char(3)".toList] := by
    decide
  have hrestated : Restated (tokens "size:9,bogus,TYPE:Char(3),PK,size:7".toList)
      (tokens "pk;size:9,size:7;type:char(3)".toList) := by
    rw [htokens, htokens']
    have htype : SameButCase "TYPE:Char(3)".toList "type:char(3)".toList :=
      .type "TYPE".toList "type".toList "Char(3)".toList "char(3)".toList (by decide) (by decide)
        (by decide) (by decide)
    have hkey : SameButCase "PK".toList "pk".toList := .flag (by decide) (by decide)
    have hknown : Restated
        ["size:9".toList, "bogus".toList, "TYPE:Char(3)".toList, "PK".toList, "size:7".toList]
        ["size:9".toList, "TYPE:Char(3)".toList, "PK".toList, "size:7".toList] := .among (by decide)
    have hcase : Restated
        ["size:9".toList, "TYPE:Char(3)".toList, "PK".toList, "size:7".toList]
        ["size:9".toList, "type:char(3)".toList, "pk".toList, "size:7".toList] :=
      .recased (.cons (.refl _) (.cons htype (.cons hkey (.cons (.refl _) .nil))))
    exact (hknown.trans hcase).trans (.moved (by decide) fun m => by cases m <;> decide)
  have hmalformed : Malformed (String.ofList (lower (trim "Size".toList))) "12x".toList :=
    .number (by decide) (by decide)
  have hwith : tokens "pk,Size:12x,size:7".toList =
      ["pk".toList] ++ ("Size".toList ++ ':' :: "12x".toList) :: ["size:7".toList] := by
    decide
  have hwithout : tokens "pk,size:7".toList = ["pk".toList] ++ ["size:7".toList] := by decide
  have hrecognized : (f.withTag "pk,size:7").settings.recognized = true := by decide
  exact ⟨hrestated, (columnsOf_withTag [] [] f _ _).1 hrestated, hmalformed, hwith, hwithout,
    hrecognized,
    ((columnsOf_withTag [] [] f _ _).2 _ _ _ _ (by decide) hmalformed hwith hwithout).2 hrecognized⟩

end SchemaKeeper
