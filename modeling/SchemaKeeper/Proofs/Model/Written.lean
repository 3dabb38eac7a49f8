/-
Settings written as tokens.

`Setting.text` writes a setting as a tag does: a key and a value with a colon between
them, or the word of a flag.  A comment and a default stand between quotes and may be any
texts; the name of a column or an index stands there as it is, so it has to be one that
the reader leaves alone (`IsTagName`).

* `ofToken?_text`: what is written for a setting is read as that setting,
* `isToken_text`: it is one token of every tag in which it stands between commas.
-/
import SchemaKeeper.Model.Settings
import SchemaKeeper.Proofs.Column.Type
import SchemaKeeper.Proofs.Model.Literals
import SchemaKeeper.Proofs.Model.Tokens

namespace SchemaKeeper

open Text Tag

/-! ### Quoted values -/

theorem Text.undouble_encode (q : Char) (s : List Char) : undouble q (encode q s) = s := by
  induction s with
  | nil => rfl
  | cons c r ih =>
    by_cases hc : c = q
    · simp [encode, hc, undouble, ih]
    · cases hr : encode q r with
      | nil =>
        have hnil : r = [] := by
          rw [hr] at ih
          exact ih.symm
        simp [encode, hc, hnil, undouble]
      | cons d t =>
        rw [hr] at ih
        simp [encode, hc, hr, undouble, ih]

theorem Text.trim_enclose (s : List Char) : trim (enclose '\'' s) = enclose '\'' s :=
  trim_cons_append rfl rfl rfl

theorem unquote_enclose (s : List Char) : unquote (enclose '\'' s) = s := by
  rw [unquote, trim_enclose, inner?_enclose]
  exact undouble_encode '\'' s

/-! ### Keys and values -/

/-- A character that stands for itself in a key. -/
def isKeyChar (c : Char) : Bool :=
  isQuiet c && !isBlank c && c != ':' && c.toLower == c

/-- A key and its value. -/
def pairText (key value : String) : String :=
  key ++ ":" ++ value

theorem toList_pairText (key value : String) :
    (pairText key value).toList = key.toList ++ ':' :: value.toList := by
  simp [pairText]

section

variable {key : String}

theorem isKeyChar_iff {c : Char} : isKeyChar c = true ↔
    isQuiet c = true ∧ isBlank c = false ∧ c ≠ ':' ∧ c.toLower = c := by
  simp only [isKeyChar, Bool.and_eq_true, Bool.not_eq_true', bne_iff_ne, beq_iff_eq, and_assoc]

theorem lower_key (h : key.toList.all isKeyChar = true) : lower key.toList = key.toList := by
  refine (List.map_congr_left fun c hc => ?_).trans (List.map_id _)
  exact (isKeyChar_iff.mp (List.all_eq_true.mp h c hc)).2.2.2

theorem isBlank_of_mem_key (h : key.toList.all isKeyChar = true) :
    ∀ c ∈ key.toList, isBlank c = false :=
  fun c hc => (isKeyChar_iff.mp (List.all_eq_true.mp h c hc)).2.1

theorem all_isQuiet_key (h : key.toList.all isKeyChar = true) : key.toList.all isQuiet = true :=
  List.all_eq_true.mpr fun c hc => (isKeyChar_iff.mp (List.all_eq_true.mp h c hc)).1

theorem colon_not_mem_key (h : key.toList.all isKeyChar = true) : ':' ∉ key.toList :=
  fun hc => (isKeyChar_iff.mp (List.all_eq_true.mp h _ hc)).2.2.1 rfl

theorem ofToken?_pairText (h : key.toList.all isKeyChar = true) (value : String) :
    Setting.ofToken? (pairText key value).toList = Setting.ofPair? key value.toList := by
  rw [toList_pairText, Setting.ofToken?, cutAt?_append (colon_not_mem_key h)]
  simp only [trim_eq_self (isBlank_of_mem_key h), lower_key h, String.ofList_toList]

theorem ofToken?_word (h : key.toList.all isKeyChar = true) :
    Setting.ofToken? key.toList = (Flag.ofWord? key).map .flag := by
  rw [Setting.ofToken?, cutAt?_eq_none (colon_not_mem_key h), lower_key h, String.ofList_toList]

/-- A text that makes a token together with any key before it. -/
structure IsValue (value : List Char) : Prop where
  trimEnd_eq : trimEnd value = value
  leads : ∃ s, Leads (.plain 0 true) value s ∧ s.isOpen = true

theorem isValue_of_quiet {value : List Char} (h : value.all isQuiet = true)
    (htrim : trimEnd value = value) : IsValue value := by
  obtain ⟨_, hvalue⟩ := leads_quiet h
  exact ⟨htrim, _, hvalue, rfl⟩

theorem isValue_empty : IsValue "".toList :=
  isValue_of_quiet rfl rfl

theorem isValue_enclose (s : List Char) : IsValue (enclose '\'' s) where
  trimEnd_eq := trimEnd_of_trim (trim_enclose s)
  leads := ⟨_, leads_enclose s, rfl⟩

theorem isToken_pairText (key : String) (hne : key.toList.isEmpty = false)
    (h : key.toList.all isKeyChar = true) {value : String}
    (hvalue : IsValue value.toList) : IsToken (pairText key value).toList := by
  rw [toList_pairText]
  obtain ⟨s, hleads, hopen⟩ := hvalue.leads
  refine ⟨by simp, ?_, s, ?_, hopen⟩
  · obtain ⟨c, r, hkey⟩ := List.exists_cons_of_ne_nil (l := key.toList) (by simpa using hne)
    have hc := isBlank_of_mem_key h c (by rw [hkey]; exact List.mem_cons_self)
    rw [hkey]
    exact trim_cons_append hc rfl hvalue.trimEnd_eq
  · have hboth := (leads_key (all_isQuiet_key h) (b := false)).append hleads
    rwa [List.append_assoc] at hboth

theorem isToken_word (key : String) (hne : key.toList.isEmpty = false)
    (h : key.toList.all isKeyChar = true) : IsToken key.toList := by
  obtain ⟨_, hword⟩ := leads_quiet (all_isQuiet_key h)
  exact ⟨by simpa using hne, trim_eq_self (isBlank_of_mem_key h), _, hword, rfl⟩

/-! ### Values -/

/-- A name that a tag may give: it has no blanks at its ends and nothing in it that the reader of
tags heeds. -/
structure IsTagName (name : String) : Prop where
  ne_empty : name ≠ ""
  trim_eq : trim name.toList = name.toList
  quiet : name.toList.all isQuiet = true

theorem IsTagName.isValue {name : String} (h : IsTagName name) : IsValue name.toList :=
  isValue_of_quiet h.quiet (trimEnd_of_trim h.trim_eq)

theorem isQuiet_of_isDigit {c : Char} (h : c.isDigit = true) : isQuiet c = true := by
  have hne : ∀ d : Char, d.isDigit = false → c ≠ d := fun d => Number.ne_of_isDigit h
  simp [isQuiet, isSeparator, hne '\'' rfl, hne '(' rfl, hne ')' rfl, hne ',' rfl, hne ';' rfl]

theorem isValue_digits (n : UInt32) : IsValue (Number.uint32Digits n).toList := by
  rw [Number.uint32Digits, String.toList_ofList]
  refine isValue_of_quiet ?_ (trimEnd_eq_self fun c hc => ?_)
  · exact List.all_eq_true.mpr fun c hc => isQuiet_of_isDigit (Number.isDigit_of_mem_digits hc)
  · exact Number.isBlank_of_isDigit (Number.isDigit_of_mem_digits hc)

open ColumnType in
theorem isValue_parameterText {name : List Char} (h : name.all isQuiet = true) (ns : List UInt32) :
    IsValue (name ++ '(' :: (parameterText ns ++ [')'])) := by
  constructor
  · have hend : name ++ '(' :: (parameterText ns ++ [')']) =
        (name ++ '(' :: parameterText ns) ++ [')'] := by simp
    rw [hend, trimEnd_append_cons rfl]
    rfl
  · obtain ⟨b, hname⟩ := leads_quiet h (d := 0) (b := true)
    have hsizes : ∀ c ∈ parameterText ns, c ≠ '\'' ∧ c ≠ '(' ∧ c ≠ ')' := by
      intro c hc
      rcases mem_parameterText hc with hdigit | rfl
      · exact ⟨Number.ne_of_isDigit hdigit rfl, Number.ne_of_isDigit hdigit rfl,
          Number.ne_of_isDigit hdigit rfl⟩
      · decide
    exact ⟨_, hname.append (leads_parentheses hsizes), rfl⟩

theorem isValue_toText (t : ColumnType) : IsValue t.toText.toList := by
  cases t with
  | decimal p s =>
    rw [ColumnType.toText_decimal]
    exact isValue_parameterText rfl _
  | varchar n =>
    rw [ColumnType.toText_varchar]
    exact isValue_parameterText rfl _
  | char n =>
    rw [ColumnType.toText_char]
    exact isValue_parameterText rfl _
  | _ => exact isValue_of_quiet rfl rfl

theorem isValue_literal (s : String) : IsValue (literal s).toList := by
  rw [literal, toList_quoted]
  exact isValue_enclose s.toList

end

/-! ### Settings -/

/-- The word of a flag. -/
def Flag.word : Flag → String
  | .primaryKey => "pk"
  | .autoIncrement => "auto_increment"
  | .unique => "unique"
  | .notNull => "not_null"
  | .nullable => "nullable"
  | .autoTime => "auto_create_time"
  | .index => "index"

/-- A setting as a token. -/
def Setting.text : Setting → String
  | .type t => pairText "type" t.toText
  | .size n => pairText "size" (Number.uint32Digits n)
  | .precision n => pairText "precision" (Number.uint32Digits n)
  | .scale n => pairText "scale" (Number.uint32Digits n)
  | .column name => pairText "column" name
  | .comment text => pairText "comment" (literal text)
  | .default value => pairText "default" value
  | .index .auto => pairText "index" ""
  | .index (.named name) => pairText "index" name
  | .flag f => f.word
  | .blank => pairText "size" ""

/-- The names in a setting are names that a tag may give, and a default is a text between quotes. -/
def Setting.Writable : Setting → Prop
  | .column name => IsTagName name
  | .index (.named name) => IsTagName name ∧ sameLetters name.toList "true".toList = false
  | .default value => ∃ text, value = literal text
  | _ => True

theorem isToken_text {s : Setting} (h : s.Writable) : IsToken s.text.toList := by
  cases s with
  | type t => exact isToken_pairText "type" rfl rfl (isValue_toText t)
  | size n => exact isToken_pairText "size" rfl rfl (isValue_digits n)
  | precision n => exact isToken_pairText "precision" rfl rfl (isValue_digits n)
  | scale n => exact isToken_pairText "scale" rfl rfl (isValue_digits n)
  | column name => exact isToken_pairText "column" rfl rfl h.isValue
  | comment text => exact isToken_pairText "comment" rfl rfl (isValue_literal text)
  | default value =>
    obtain ⟨text, rfl⟩ := h
    exact isToken_pairText "default" rfl rfl (isValue_literal text)
  | index name =>
    cases name with
    | auto => exact isToken_pairText "index" rfl rfl isValue_empty
    | named name => exact isToken_pairText "index" rfl rfl h.1.isValue
  | flag f => cases f <;> exact isToken_word _ rfl rfl
  | blank => exact isToken_pairText "size" rfl rfl isValue_empty

theorem numberSetting_digits (setting : UInt32 → Setting) (n : UInt32) :
    numberSetting setting (Number.uint32Digits n).toList = setting n := by
  rw [numberSetting, Number.uint32Digits, String.toList_ofList,
    trim_eq_self fun c hc => Number.isBlank_of_isDigit (Number.isDigit_of_mem_digits hc),
    Number.uint32?_digits]

/-- What is written for a setting is read as the setting. -/
theorem ofToken?_text {s : Setting} (h : s.Writable) : Setting.ofToken? s.text.toList = some s := by
  cases s with
  | type t =>
    rw [Setting.text, ofToken?_pairText rfl]
    simp only [Setting.ofPair?, ColumnType.read?_toText]
  | size n =>
    rw [Setting.text, ofToken?_pairText rfl]
    exact congrArg some (numberSetting_digits .size n)
  | precision n =>
    rw [Setting.text, ofToken?_pairText rfl]
    exact congrArg some (numberSetting_digits .precision n)
  | scale n =>
    rw [Setting.text, ofToken?_pairText rfl]
    exact congrArg some (numberSetting_digits .scale n)
  | column name =>
    rw [Setting.text, ofToken?_pairText rfl]
    show some (if (trim name.toList).isEmpty then Setting.blank
      else .column (String.ofList (trim name.toList))) = _
    rw [h.trim_eq, if_neg (by simpa using h.ne_empty), String.ofList_toList]
  | comment text =>
    rw [Setting.text, ofToken?_pairText rfl]
    show some (Setting.comment (String.ofList (unquote (literal text).toList))) = _
    rw [literal, toList_quoted, unquote_enclose, String.ofList_toList]
  | default value =>
    obtain ⟨text, rfl⟩ := h
    rw [Setting.text, ofToken?_pairText rfl]
    show some (Setting.default (String.ofList (defaultLiteral (trim (literal text).toList)))) = _
    rw [literal, toList_quoted, trim_enclose, defaultLiteral_enclose]
    rfl
  | index name =>
    cases name with
    | auto => rfl
    | named name =>
      obtain ⟨hname, htrue⟩ := h
      rw [Setting.text, ofToken?_pairText rfl]
      show some (Setting.index (indexOf name.toList)) = _
      have hempty : name.toList.isEmpty = false := by simpa using hname.ne_empty
      rw [indexOf, hname.trim_eq, hempty, htrue, String.ofList_toList]
      rfl
  | flag f => cases f <;> exact ofToken?_word rfl
  | blank => rfl

end SchemaKeeper
