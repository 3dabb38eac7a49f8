/-
Flags in tags and in attributes.

A flag can be a word in a tag or the key of an attribute with a truth value.  Both ask for
the same, except that `index` with a value is a name: only no name and the word true stand
for an automatic one, and the last setting that is about the index counts.

* `columnsOf_flagAttribute`: a true flag among the attributes is as good as its word at the
  end of the tag, a false one changes nothing, and any other value of `index` is the name,
* `columnsOf_flagAttribute_index`: so the words for true and false values are names for an
  index.
-/
import SchemaKeeper.Proofs.Model.FieldLists
import SchemaKeeper.Proofs.Model.Slots

namespace SchemaKeeper

open Text Tag

/-! ### Words -/

section

variable {word : String} {flag : Flag}

/-- The word of a flag is a token, and an attribute may be spelled so. -/
theorem isWord_of_ofWord? (h : Flag.ofWord? word = some flag) :
    word.toList.isEmpty = false ∧ word.toList.all isKeyChar = true ∧
      snakeCase (trim word.toList) = word.toList := by
  unfold Flag.ofWord? at h
  split at h <;> first | exact ⟨rfl, rfl, rfl⟩ | cases h

/-- The word of a flag is a token by itself. -/
theorem read_tokens_word (h : Flag.ofWord? word = some flag) :
    Field.read (tokens word.toList) = [.flag flag] := by
  obtain ⟨hne, hkey, -⟩ := isWord_of_ofWord? h
  have htokens : tokens word.toList = [word.toList] := by
    have hword : ∀ t ∈ [word.toList], IsToken t := by
      intro t ht
      rw [List.mem_singleton.mp ht]
      exact isToken_word word hne hkey
    simpa using tokens_intercalate hword
  have hread : Setting.ofToken? word.toList = some (.flag flag) := by
    rw [ofToken?_word hkey, h]
    rfl
  rw [htokens, Field.read, List.filterMap_cons_some hread]
  rfl

theorem ofAttribute?_word (h : Flag.ofWord? word = some flag) (value : String) :
    Setting.ofAttribute? word value = Setting.ofPair? word value.toList := by
  obtain ⟨-, -, hsnake⟩ := isWord_of_ofWord? h
  rw [Setting.ofAttribute?, hsnake, String.ofList_toList]

theorem eq_index_of_ofWord? (h : Flag.ofWord? word = some .index) : word = "index" := by
  unfold Flag.ofWord? at h
  split at h <;> first | rfl | cases h

end

/-! ### Where a flag stands -/

namespace Settings

/-- An index without a name and the flag for one are the same. -/
theorem collect_index (l l' : List Setting) :
    collect ((l ++ .index .auto :: l').map some) =
      collect ((l ++ .flag .index :: l').map some) := by
  simp only [collect, List.map_append, List.map_cons, List.foldl_append, List.foldl_cons]
  rfl

variable {l l' : List Setting}

theorem filter_slot?_eq_nil {m : Matter} (h : ∀ x ∈ l, x.slot? ≠ some m) :
    l.filter (fun x => x.slot? = some m) = [] := by
  rw [List.filter_eq_nil_iff]
  intro x hx
  simpa using h x hx

/-- A flag may stand anywhere, but for the one that asks for an index: it stands behind what is
said on the index before. -/
theorem collect_flag_front {flag : Flag}
    (h : flag = .index → ∀ x ∈ l, x.slot? ≠ some .index) (said l' : List Setting) :
    collect ((said ++ (l ++ .flag flag :: l')).map some) =
      collect ((said ++ .flag flag :: (l ++ l')).map some) := by
  refine collect_of_perm (List.perm_middle.append_left said) fun m => ?_
  rw [List.filter_append, List.filter_append said, List.filter_append]
  congr 1
  by_cases hm : (Setting.flag flag).slot? = some m
  · have hindex : flag = .index ∧ m = .index := by
      cases flag <;> cases m <;> first | exact ⟨rfl, rfl⟩ | cases hm
    have hnone : l.filter (fun x => x.slot? = some m) = [] := by
      rw [hindex.2]
      exact filter_slot?_eq_nil (h hindex.1)
    rw [hnone, List.nil_append, List.filter_cons_of_pos (by simpa using hm),
      List.filter_cons_of_pos (by simpa using hm), List.filter_append, hnone, List.nil_append]
  · rw [List.filter_cons_of_neg (by simpa using hm), List.filter_cons_of_neg (by simpa using hm),
      List.filter_append]

/-- The last name counts. -/
theorem index?_collect {name : IndexName} (h : ∀ x ∈ l', x.slot? ≠ some .index) :
    (collect ((l ++ .index name :: l').map some)).index? = some name := by
  have hvalue := value?_collect (l ++ .index name :: l') .index
  rw [List.filter_append, List.filter_cons_of_pos rfl, filter_slot?_eq_nil h,
    List.getLast?_concat] at hvalue
  exact Option.map_injective (fun _ _ => Setting.index.inj) hvalue

end Settings

/-! ### Fields -/

/-- The matter whose value an attribute replaces. -/
def attributeSlot? (a : String × String) : Option Matter :=
  (Field.readAttribute? a).bind Setting.slot?

namespace Field

/-- The field with other attributes. -/
def withAttributes (f : Field) (attributes : List (String × String)) : Field :=
  { f with attributes := attributes }

/-- The field with a word at the end of its tag. -/
def tagged (f : Field) (separator : Char) (word : String) : Field :=
  f.withTag (match f.tag? with
    | some tag => tag.push separator ++ word
    | none => word)

/-- The tag of the field, if it has one, ends outside quotes and parentheses. -/
def EndsOpen (f : Field) : Prop :=
  ∀ tag, f.tag? = some tag → (Scan.start.run tag.toList).isOpen = true

variable {f : Field} {word : String} {flag : Flag}

theorem slot?_of_mem_attributeSettings {attributes : List (String × String)} {m : Matter}
    (h : ∀ a ∈ attributes, attributeSlot? a ≠ some m) :
    ∀ x ∈ attributeSettings attributes, x.slot? ≠ some m := by
  intro x hx
  obtain ⟨a, ha, hread⟩ := List.mem_filterMap.mp hx
  have hslot := h a ha
  rwa [attributeSlot?, hread] at hslot

theorem tagSettings_tagged (hword : Flag.ofWord? word = some flag) {separator : Char}
    (hseparator : isSeparator separator = true) (hopen : f.EndsOpen) :
    (f.tagged separator word).tagSettings = f.tagSettings ++ [.flag flag] := by
  cases htag : f.tag? with
  | none =>
    simp only [tagSettings, tagged, withTag, htag]
    exact read_tokens_word hword
  | some tag =>
    simp only [tagSettings, tagged, withTag, htag]
    rw [String.toList_append, String.toList_push, List.append_assoc, List.singleton_append,
      tokens_append hseparator _ (hopen tag htag), read, List.filterMap_append]
    exact congrArg _ (read_tokens_word hword)

/-- A word at the end of the tag stands between what the tag and what the attributes say. -/
theorem settings_tagged (hword : Flag.ofWord? word = some flag) {separator : Char}
    (hseparator : isSeparator separator = true) (hopen : f.EndsOpen) :
    (f.tagged separator word).settings = .collect ((f.tagSettings ++
      .flag flag :: attributeSettings f.attributes).map some) := by
  rw [settings_eq, tagSettings_tagged hword hseparator hopen, List.append_assoc]
  rfl

theorem attributeSettings_append (first rest : List (String × String)) :
    attributeSettings (first ++ rest) = attributeSettings first ++ attributeSettings rest :=
  List.filterMap_append ..

theorem settings_withAttributes (f : Field) (attributes : List (String × String)) :
    (f.withAttributes attributes).settings =
      .collect ((f.tagSettings ++ attributeSettings attributes).map some) :=
  settings_eq (f.withAttributes attributes)

/-- An attribute that is known stands where it is written. -/
theorem settings_withAttribute {key value : String} {x : Setting}
    (hread : Setting.ofAttribute? key value = some x) (f : Field)
    (first rest : List (String × String)) :
    (f.withAttributes (first ++ (key, value) :: rest)).settings =
      .collect ((f.tagSettings ++
        (attributeSettings first ++ x :: attributeSettings rest)).map some) := by
  have hhead : readAttribute? (key, value) = some x := hread
  have hrest : attributeSettings ((key, value) :: rest) = x :: attributeSettings rest :=
    List.filterMap_cons_some hhead
  rw [settings_withAttributes, attributeSettings_append, hrest]

/-- A true flag among the attributes is as good as its word at the end of the tag. -/
theorem settings_of_true (hword : Flag.ofWord? word = some flag) {value : String}
    (hvalue : truth? value.toList = some true) {first : List (String × String)}
    (hindex : flag = .index → indexOf value.toList = .auto ∧
      ∀ a ∈ first, attributeSlot? a ≠ some .index) (rest : List (String × String))
    {separator : Char} (hseparator : isSeparator separator = true) (hopen : f.EndsOpen) :
    (f.withAttributes (first ++ (word, value) :: rest)).settings =
      ((f.withAttributes (first ++ rest)).tagged separator word).settings := by
  have htagged : ((f.withAttributes (first ++ rest)).tagged separator word).settings =
      .collect ((f.tagSettings ++ .flag flag :: attributeSettings (first ++ rest)).map some) :=
    settings_tagged hword hseparator hopen
  rw [htagged, attributeSettings_append, ← Settings.collect_flag_front fun hflag =>
    slot?_of_mem_attributeSettings (hindex hflag).2]
  by_cases hflag : flag = .index
  · -- the attribute is not read as the flag here, but as an index without a name
    subst hflag
    obtain rfl := eq_index_of_ofWord? hword
    have hread : Setting.ofAttribute? "index" value = some (.index .auto) := by
      rw [ofAttribute?_word hword, ← (hindex rfl).1]
      rfl
    rw [settings_withAttribute hread, ← List.append_assoc, ← List.append_assoc,
      Settings.collect_index]
  · have hread : Setting.ofAttribute? word value = some (.flag flag) := by
      rw [ofAttribute?_word hword, ofPair?_flag hword hflag, flagSetting, if_pos hvalue]
    rw [settings_withAttribute hread]

/-- A false flag changes nothing, but the field counts as known. -/
theorem settings_of_false (hword : Flag.ofWord? word = some flag) (hflag : flag ≠ .index)
    {value : String} (hvalue : truth? value.toList = some false) (f : Field)
    (first rest : List (String × String)) :
    (f.withAttributes (first ++ (word, value) :: rest)).settings =
      { (f.withAttributes (first ++ rest)).settings with recognized := true } := by
  have hread : Setting.ofAttribute? word value = some .blank := by
    rw [ofAttribute?_word hword, ofPair?_flag hword hflag, flagSetting, hvalue]
    rfl
  rw [settings_withAttribute hread, settings_withAttributes, attributeSettings_append,
    ← List.append_assoc, ← List.append_assoc, Settings.collect_blank]

/-- The index of a column is given the name that the last attribute for it has. -/
theorem column?_of_name (f : Field) (value : String) (first : List (String × String))
    {rest : List (String × String)} (hrest : ∀ a ∈ rest, attributeSlot? a ≠ some .index) :
    ∃ c, (f.withAttributes (first ++ ("index", value) :: rest)).column? = some c ∧
      c.index? = some (indexOf value.toList) := by
  have hread : Setting.ofAttribute? "index" value = some (.index (indexOf value.toList)) :=
    ofAttribute?_word rfl value
  have hsettings := settings_withAttribute hread f first rest
  rw [← List.append_assoc] at hsettings
  -- the attribute by itself makes the field a column
  have hrecognized := Settings.recognized_collect (l := (f.tagSettings ++
    attributeSettings first) ++ .index (indexOf value.toList) :: attributeSettings rest) (by simp)
  rw [column?, hsettings, if_pos hrecognized]
  exact ⟨_, rfl, Settings.index?_collect (slot?_of_mem_attributeSettings hrest)⟩

/-- The column of a field is one of the model, unless a field before has taken its name. -/
theorem mem_columnsOf {f : Field} {c : ModelColumn} (hc : f.column? = some c)
    (hembedded : f.embedded = false) {before : List Field}
    (hname : c.name ∉ (columnsOf before).map ModelColumn.name) (after : List Field) :
    c ∈ columnsOf (before ++ f :: after) := by
  have hown : columnsOf [f] = [c] := by
    rw [columnsOf_self, ownColumn?, hembedded, hc]
    rfl
  rw [← List.singleton_append, columnsOf_append, columnsOf_append, hown]
  refine List.mem_append_right _ (List.mem_filter.mpr ⟨List.mem_cons_self, ?_⟩)
  simpa using hname

end Field

/-- A value that stands for an index without a name: no text, or the word true. -/
def NamesNone (value : List Char) : Prop :=
  trim value = [] ∨ sameLetters (trim value) "true".toList = true

theorem indexOf_of_namesNone {value : List Char} (h : NamesNone value) : indexOf value = .auto := by
  refine if_pos ?_
  rcases h with hempty | htrue
  · rw [hempty]
    rfl
  · rw [htrue, Bool.or_true]

theorem indexOf_of_name {value : List Char} (h : ¬ NamesNone value) :
    indexOf value = .named (String.ofList (trim value)) := by
  refine if_neg fun hnone => h ?_
  rwa [Bool.or_eq_true, List.isEmpty_iff] at hnone

/-- **A flag says the same in a tag and among the attributes.**  With a true value it is as good as
its word at the end of the tag, wherever it stands among the attributes; with a false one it changes
nothing.  Only `index` takes its value for a name: there the two agree where the value is no name
and no attribute before is about the index, and any other value, also a false one, is the name. -/
theorem columnsOf_flagAttribute (before after : List Field) (f : Field) {word : String}
    {flag : Flag} (hword : Flag.ofWord? word = some flag) (value : String)
    (first rest : List (String × String)) :
    (truth? value.toList = some true →
      (flag = .index → NamesNone value.toList ∧ ∀ a ∈ first, attributeSlot? a ≠ some .index) →
      ∀ separator, isSeparator separator = true → f.EndsOpen →
        columnsOf (before ++ f.withAttributes (first ++ (word, value) :: rest) :: after) =
          columnsOf (before ++ (f.withAttributes (first ++ rest)).tagged separator word :: after)) ∧
    (truth? value.toList = some false → flag ≠ .index →
      (f.withAttributes (first ++ rest)).settings.recognized = true →
        columnsOf (before ++ f.withAttributes (first ++ (word, value) :: rest) :: after) =
          columnsOf (before ++ f.withAttributes (first ++ rest) :: after)) ∧
    (flag = .index → ¬ NamesNone value.toList → (∀ a ∈ rest, attributeSlot? a ≠ some .index) →
      ∃ c, (f.withAttributes (first ++ (word, value) :: rest)).column? = some c ∧
        c.index? = some (.named (trimmed value)) ∧
        (f.embedded = false → c.name ∉ (columnsOf before).map ModelColumn.name →
          c ∈ columnsOf (before ++ f.withAttributes (first ++ (word, value) :: rest) :: after))) := by
  refine ⟨fun htrue hindex separator hseparator hopen => ?_, fun hfalse hflag hrecognized => ?_,
    fun hflag hname hrest => ?_⟩
  · have hauto : flag = .index → indexOf value.toList = .auto ∧
        ∀ a ∈ first, attributeSlot? a ≠ some .index :=
      fun hflag => ⟨indexOf_of_namesNone (hindex hflag).1, (hindex hflag).2⟩
    have hsettings := Field.settings_of_true hword htrue hauto rest hseparator hopen
    exact columnsOf_congr hsettings rfl rfl rfl before after
  · have hsettings := Field.settings_of_false hword hflag hfalse f first rest
    rw [← hrecognized] at hsettings
    exact columnsOf_congr hsettings rfl rfl rfl before after
  · subst hflag
    obtain rfl := eq_index_of_ofWord? hword
    obtain ⟨c, hc, hindex⟩ := Field.column?_of_name f value first hrest
    rw [indexOf_of_name hname] at hindex
    exact ⟨c, hc, hindex, fun hembedded htaken => Field.mem_columnsOf hc hembedded htaken after⟩

/-- An index that the word true asks for, a false flag, and an index with a false word for its
name, each between two attributes. -/
theorem columnsOf_flagAttribute_of_sample :
    let f : Field := { name := "Code", typeText := "String", tag? := some "comment:'a, b'" }
    let first := [("column", "code_text")]
    let rest := [("size", "9")]
    (truth? " True".toList = some true ∧ NamesNone " True".toList ∧
      (∀ a ∈ first, attributeSlot? a ≠ some .index) ∧ f.EndsOpen ∧
      columnsOf [f.withAttributes (first ++ ("index", " True") :: rest)] =
        columnsOf [(f.withAttributes (first ++ rest)).tagged ';' "index"]) ∧
    (truth? "off".toList = some false ∧
      (f.withAttributes (first ++ rest)).settings.recognized = true ∧
      columnsOf [f.withAttributes (first ++ ("notnull", "off") :: rest)] =
        columnsOf [f.withAttributes (first ++ rest)]) ∧
    (¬ NamesNone "no".toList ∧ (∀ a ∈ rest, attributeSlot? a ≠ some .index) ∧
      ∃ c, (f.withAttributes (first ++ ("index", "no") :: rest)).column? = some c ∧
        c.index? = some (.named (trimmed "no")) ∧
        c ∈ columnsOf [f.withAttributes (first ++ ("index", "no") :: rest)]) := by
  intro f first rest
  have hindex : Flag.ofWord? "index" = some .index := rfl
  have hnotNull : Flag.ofWord? "notnull" = some .notNull := rfl
  have hopen : f.EndsOpen := by
    rintro _ ⟨⟩
    decide
  have htrue : truth? " True".toList = some true := by decide
  have hnone : NamesNone " True".toList := .inr (by decide)
  have hfirst : ∀ a ∈ first, attributeSlot? a ≠ some .index := by decide
  have hfalse : truth? "off".toList = some false := by decide
  have hrecognized : (f.withAttributes (first ++ rest)).settings.recognized = true := by decide
  have hname : ¬ NamesNone "no".toList := by
    rintro (h | h)
    · exact absurd h (by decide)
    · exact absurd h (by decide)
  have hrest : ∀ a ∈ rest, attributeSlot? a ≠ some .index := by decide
  have hsame := (columnsOf_flagAttribute [] [] f hindex " True" first rest).1 htrue
    (fun _ => ⟨hnone, hfirst⟩) ';' rfl hopen
  have hunchanged := (columnsOf_flagAttribute [] [] f hnotNull "off" first rest).2.1 hfalse
    (fun h => nomatch h) hrecognized
  obtain ⟨c, hc, hnamed, hmem⟩ :=
    (columnsOf_flagAttribute [] [] f hindex "no" first rest).2.2 rfl hname hrest
  exact ⟨⟨htrue, hnone, hfirst, hopen, hsame⟩, ⟨hfalse, hrecognized, hunchanged⟩,
    hname, hrest, c, hc, hnamed, hmem rfl List.not_mem_nil⟩

/-- A word for a true value and one for a false value name the index, and a name that another
attribute gives outweighs the flag in the tag, but not the attribute that follows. -/
theorem columnsOf_flagAttribute_index :
    let f : Field := { name := "Code", typeText := "String", tag? := some "unique" }
    let g : Field := f.withAttributes [("index", "by_code")]
    Flag.ofWord? "index" = some .index ∧ f.EndsOpen ∧ f.settings.recognized = true ∧
      truth? "yes".toList = some true ∧
      columnsOf [f.withAttributes [("index", "yes")]] ≠ columnsOf [f.tagged ',' "index"] ∧
      truth? "true".toList = some true ∧
      columnsOf [f.withAttributes [("index", "by_code"), ("index", "true")]] ≠
        columnsOf [g.tagged ',' "index"] ∧
      truth? "no".toList = some false ∧
      columnsOf [f.withAttributes [("index", "no")]] ≠ columnsOf [f] := by
  intro f g
  have hopen : f.EndsOpen := by
    rintro _ ⟨⟩
    decide
  have hdiffer : ∀ cs cs' : List ModelColumn,
      cs.map ModelColumn.index? ≠ cs'.map ModelColumn.index? → cs ≠ cs' :=
    fun _ _ hne h => hne (congrArg _ h)
  exact ⟨rfl, hopen, by decide, by decide, hdiffer _ _ (by decide), by decide,
    hdiffer _ _ (by decide), by decide, hdiffer _ _ (by decide)⟩

end SchemaKeeper
