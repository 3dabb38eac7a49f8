/-
Types read back.

A tag names a type by the text that `ColumnType.toText` writes, and `ColumnType.read?`
reads that text as the type again (`read?_toText`).

* `uint32?_digits`: the digits of a number of 32 bits are read as the number, and so are
  those of an integer of 64 bits (`int64?_integerText`),
* `parameters?_pieces`: so are the digits of several numbers with commas between them,
  whatever blanks there are around them,
* `cutAt?_append` and `cutLast?_append`: a text is cut where the cut is looked for,
* `outside_append`, `outside_group`: what stands outside the parentheses of a text.
-/
import Mathlib.Data.List.DropRight
import SchemaKeeper.Column.Type

namespace SchemaKeeper

open Text

namespace Number

variable {c : Char} {n : UInt32}

/-! ### Digits -/

theorem isDigit_of_mem_digits {n : Nat} (h : c ∈ digits n) : c.isDigit = true :=
  Nat.isDigit_of_mem_toDigits (by decide) (by decide) h

/-- A digit is a character between 0 and 9, and no other. -/
theorem ne_of_isDigit (h : c.isDigit = true) {d : Char} (hd : d.isDigit = false) : c ≠ d := by
  rintro rfl
  rw [h] at hd
  cases hd

theorem isBlank_of_isDigit (h : c.isDigit = true) : isBlank c = false := by
  have hbounds : 48 ≤ c.toNat ∧ c.toNat ≤ 57 := Char.isDigit_iff_toNat.mp h
  simp only [isBlank, Bool.or_eq_false_iff, Bool.and_eq_false_iff, decide_eq_false_iff_not,
    beq_eq_false_iff_ne]
  omega

theorem toLower_of_isDigit (h : c.isDigit = true) : c.toLower = c := by
  have hbounds : 48 ≤ c.val.toNat ∧ c.val.toNat ≤ 57 := Char.isDigit_iff_toNat.mp h
  have hcapital : ¬ (c.val ≥ 'A'.val ∧ c.val ≤ 'Z'.val) := by
    intro hcapital
    have hle : 65 ≤ c.val.toNat := UInt32.le_iff_toNat_le.mp hcapital.1
    omega
  exact dif_neg hcapital

theorem digits_ne_cons (n : Nat) (hc : c.isDigit = false) (r : List Char) : digits n ≠ c :: r := by
  intro h
  have hdigit : c.isDigit = true := isDigit_of_mem_digits (by rw [h]; exact List.mem_cons_self)
  exact ne_of_isDigit hdigit hc rfl

/-- The digits of a number of 32 bits are read as the number. -/
theorem uint32?_digits (n : UInt32) : uint32? (digits n.toNat) = some n := by
  have hunsigned : unsigned? (digits n.toNat) = some n.toNat := by
    unfold unsigned?
    split
    · next r h => exact absurd h (digits_ne_cons n.toNat rfl r)
    · exact natural?_digits n.toNat
  rw [uint32?, hunsigned, Option.bind_some, if_pos n.toNat_lt_size, UInt32.ofNat_toNat]

/-- The digits of an integer are read as the integer. -/
theorem signed?_integerText (n : Int) : signed? (integerText n).toList = some n := by
  rw [integerText, String.toList_ofList]
  by_cases hneg : n < 0
  · have hsign : splitSign ('-' :: digits n.natAbs) = (true, digits n.natAbs) := rfl
    rw [if_pos hneg, signed?, hsign, natural?_digits]
    have hvalue : -(n.natAbs : Int) = n := by omega
    exact congrArg some hvalue
  · have hsign : splitSign (digits n.natAbs) = (false, digits n.natAbs) := by
      unfold splitSign
      split
      · next r h => exact absurd h (digits_ne_cons n.natAbs rfl r)
      · next r h => exact absurd h (digits_ne_cons n.natAbs rfl r)
      · rfl
    rw [if_neg hneg, signed?, hsign, natural?_digits]
    have hvalue : (n.natAbs : Int) = n := by omega
    exact congrArg some hvalue

theorem int64?_integerText (n : Int64) : int64? (integerText n.toInt).toList = some n := by
  have hbounds : Int64.minValue.toInt ≤ n.toInt ∧ n.toInt ≤ Int64.maxValue.toInt :=
    ⟨n.minValue_le_toInt, n.toInt_le⟩
  rw [int64?, signed?_integerText, Option.bind_some, if_pos hbounds, Int64.ofInt_toInt]

end Number

namespace Text

variable {s t : List Char} {c : Char}

/-! ### Cuts -/

theorem dropWhile_isBlank_eq_self (h : ∀ c ∈ s, isBlank c = false) : s.dropWhile isBlank = s := by
  cases s with
  | nil => rfl
  | cons c r => simp [h c List.mem_cons_self]

theorem trimEnd_eq_self (h : ∀ c ∈ s, isBlank c = false) : trimEnd s = s := by
  rw [trimEnd, dropWhile_isBlank_eq_self (by simpa using h), List.reverse_reverse]

theorem trim_eq_self (h : ∀ c ∈ s, isBlank c = false) : trim s = s := by
  rw [trim, trimStart, dropWhile_isBlank_eq_self h, trimEnd_eq_self h]

theorem cutAt?_append (h : c ∉ s) (t : List Char) : cutAt? c (s ++ c :: t) = some (s, t) := by
  induction s with
  | nil => simp [cutAt?]
  | cons x r ih =>
    obtain ⟨hx, hr⟩ : c ≠ x ∧ c ∉ r := by simpa using h
    simp [cutAt?, hx.symm, ih hr]

theorem cutAt?_eq_none (h : c ∉ s) : cutAt? c s = none := by
  induction s with
  | nil => rfl
  | cons x r ih =>
    obtain ⟨hx, hr⟩ : c ≠ x ∧ c ∉ r := by simpa using h
    simp [cutAt?, hx.symm, ih hr]

theorem cutLast?_eq_none (h : c ∉ s) : cutLast? c s = none := by
  induction s with
  | nil => rfl
  | cons x r ih =>
    obtain ⟨hx, hr⟩ : c ≠ x ∧ c ∉ r := by simpa using h
    simp [cutLast?, hx.symm, ih hr]

theorem cutLast?_append (s : List Char) (h : c ∉ t) : cutLast? c (s ++ c :: t) = some (s, t) := by
  induction s with
  | nil => simp [cutLast?, cutLast?_eq_none h]
  | cons x r ih => simp [cutLast?, ih]

/-- Between separators there is nothing but the pieces. -/
theorem mem_intercalate {us : List (List Char)} {x : Char} (h : c ∈ List.intercalate [x] us) :
    (∃ u ∈ us, c ∈ u) ∨ c = x := by
  induction us with
  | nil => cases h
  | cons u r ih =>
    cases r with
    | nil => exact .inl ⟨u, List.mem_cons_self, by simpa using h⟩
    | cons v r =>
      simp only [List.intercalate_cons_cons, List.mem_append, List.mem_singleton] at h
      rcases h with (h | h) | h
      · exact .inl ⟨u, List.mem_cons_self, h⟩
      · exact .inr h
      · exact (ih h).imp_left fun ⟨w, hw, hc⟩ => ⟨w, List.mem_cons_of_mem _ hw, hc⟩

end Text

namespace ColumnType

open Number

/-! ### Types -/

/-- The digits of numbers with commas between them. -/
def parameterText (ns : List UInt32) : List Char :=
  List.intercalate [','] (ns.map fun n => digits n.toNat)

theorem mem_parameterText {ns : List UInt32} {c : Char} (h : c ∈ parameterText ns) :
    c.isDigit = true ∨ c = ',' := by
  refine (mem_intercalate h).imp_left ?_
  rintro ⟨u, hu, hc⟩
  obtain ⟨n, -, rfl⟩ := List.mem_map.mp hu
  exact isDigit_of_mem_digits hc

/-- The pieces between commas, which hold numbers with blanks around them. -/
theorem splitOn_pieces {us : List (List Char)} {ns : List UInt32} (hcomma : ∀ u ∈ us, ',' ∉ u)
    (htrim : us.map trim = ns.map fun n => digits n.toNat) (hne : ns ≠ []) :
    (List.intercalate [','] us).splitOn ',' = us := by
  refine List.splitOn_intercalate ',' hcomma ?_
  rintro rfl
  exact hne (List.map_eq_nil_iff.mp htrim.symm)

/-- Numbers between commas are read, whatever blanks there are around them. -/
theorem parameters?_pieces {us : List (List Char)} {ns : List UInt32} (hcomma : ∀ u ∈ us, ',' ∉ u)
    (htrim : us.map trim = ns.map fun n => digits n.toNat) (hne : ns ≠ []) :
    parameters? (List.intercalate [','] us) = some ns := by
  have hread : us.mapM (fun u => uint32? (trim u)) = (us.map trim).mapM uint32? :=
    (List.mapM_map (f := trim) (g := uint32?)).symm
  have hall : (uint32? ∘ fun n : UInt32 => digits n.toNat) = some := funext uint32?_digits
  have hpure := List.mapM_pure (m := Option) (l := ns) (f := id)
  rw [List.map_id] at hpure
  rw [parameters?, splitOn_pieces hcomma htrim hne, hread, htrim, List.mapM_map, hall]
  exact hpure

theorem comma_not_mem_digits (n : UInt32) : ',' ∉ digits n.toNat :=
  fun h => ne_of_isDigit (isDigit_of_mem_digits h) rfl rfl

theorem trim_digits (n : UInt32) : trim (digits n.toNat) = digits n.toNat :=
  trim_eq_self fun _ hc => isBlank_of_isDigit (isDigit_of_mem_digits hc)

/-- A type text with numbers is cut into its name and its numbers. -/
theorem split?_pieces {name : List Char} (hname : '(' ∉ name) {us : List (List Char)}
    {ns : List UInt32} (hcomma : ∀ u ∈ us, ',' ∉ u)
    (htrim : us.map trim = ns.map fun n => digits n.toNat) (hne : ns ≠ []) :
    split? (name ++ '(' :: (List.intercalate [','] us ++ [')'])) = some (trim name, ns) := by
  have hclose : cutLast? ')' (List.intercalate [','] us ++ ')' :: []) =
      some (List.intercalate [','] us, []) := cutLast?_append _ (by simp)
  rw [split?, cutAt?_append hname]
  simp [hclose, parameters?_pieces hcomma htrim hne]

theorem map_trim_digits (ns : List UInt32) :
    (ns.map fun n => digits n.toNat).map trim = ns.map fun n => digits n.toNat := by
  rw [List.map_map]
  exact List.map_congr_left fun n _ => trim_digits n

/-- A type text that has parameters is cut into its name and its parameters. -/
theorem split?_parameterText {name : List Char} (hname : '(' ∉ name) {ns : List UInt32}
    (hne : ns ≠ []) : split? (name ++ '(' :: (parameterText ns ++ [')'])) = some (trim name, ns) :=
  split?_pieces hname (List.forall_mem_map.mpr fun n _ => comma_not_mem_digits n)
    (map_trim_digits ns) hne

theorem toText_decimal (p s : UInt32) :
    (decimal p s).toText.toList = "DECIMAL".toList ++ '(' :: (parameterText [p, s] ++ [')']) := by
  simp [toText, parameterText, uint32Digits]

theorem toText_varchar (n : UInt32) :
    (varchar n).toText.toList = "VARCHAR".toList ++ '(' :: (parameterText [n] ++ [')']) := by
  simp [toText, parameterText, uint32Digits]

theorem toText_char (n : UInt32) :
    (char n).toText.toList = "CHAR".toList ++ '(' :: (parameterText [n] ++ [')']) := by
  simp [toText, parameterText, uint32Digits]

theorem lower_parameterText (ns : List UInt32) : lower (parameterText ns) = parameterText ns := by
  refine (List.map_congr_left fun c hc => ?_).trans (List.map_id _)
  rcases mem_parameterText hc with h | rfl
  · exact toLower_of_isDigit h
  · rfl

theorem isBlank_of_mem_parameterText {ns : List UInt32} {c : Char} (h : c ∈ parameterText ns) :
    isBlank c = false := by
  rcases mem_parameterText h with h | rfl
  · exact isBlank_of_isDigit h
  · rfl

/-- A type text that has parameters is read as its name in lower case with these parameters. -/
theorem read?_parameterText {name : List Char} (hblank : name.all (fun c => !isBlank c) = true)
    (hopen : '(' ∉ lower name) (htrim : trim (lower name) = lower name) {ns : List UInt32}
    (hne : ns ≠ []) :
    read? (name ++ '(' :: (parameterText ns ++ [')'])) = ofName? (String.ofList (lower name)) ns := by
  have hself : trim (name ++ '(' :: (parameterText ns ++ [')'])) =
      name ++ '(' :: (parameterText ns ++ [')']) := by
    refine trim_eq_self fun c hc => ?_
    simp only [List.mem_append, List.mem_cons, List.not_mem_nil, or_false] at hc
    rcases hc with hc | rfl | hc | rfl
    · simpa using List.all_eq_true.mp hblank c hc
    · rfl
    · exact isBlank_of_mem_parameterText hc
    · rfl
  have hlower : lower (name ++ '(' :: (parameterText ns ++ [')'])) =
      lower name ++ '(' :: (parameterText ns ++ [')']) := by
    rw [lower_append]
    show lower name ++ '(' :: lower (parameterText ns ++ [')']) = _
    rw [lower_append, lower_parameterText]
    rfl
  rw [read?, hself, hlower, split?_parameterText hopen hne, htrim]
  rfl

/-- A type is read back, with its parameters. -/
theorem read?_toText (t : ColumnType) : read? t.toText.toList = some t := by
  cases t with
  | decimal p s =>
    rw [toText_decimal, read?_parameterText rfl (by decide) rfl (by simp)]
    rfl
  | varchar n =>
    rw [toText_varchar, read?_parameterText rfl (by decide) rfl (by simp)]
    rfl
  | char n =>
    rw [toText_char, read?_parameterText rfl (by decide) rfl (by simp)]
    rfl
  | _ => rfl

end ColumnType

namespace TypeText

/-! ### Names of types -/

variable {s t : List Char}

/-- A text without parentheses stands outside or inside as a whole. -/
theorem outside_append {depth : Nat} (hopen : '(' ∉ s) (hclose : ')' ∉ s) :
    outside depth (s ++ t) = (if depth = 0 then s else []) ++ outside depth t := by
  induction s with
  | nil => simp
  | cons c r ih =>
    obtain ⟨hc, hr⟩ : '(' ≠ c ∧ '(' ∉ r := by simpa using hopen
    obtain ⟨hc', hr'⟩ : ')' ≠ c ∧ ')' ∉ r := by simpa using hclose
    rw [List.cons_append, outside, if_neg hc.symm, if_neg hc'.symm, ih hr hr']
    by_cases hdepth : depth = 0 <;> simp [hdepth]

theorem outside_eq_self (hopen : '(' ∉ s) (hclose : ')' ∉ s) : outside 0 s = s := by
  have h : outside 0 (s ++ []) = s ++ [] := outside_append hopen hclose
  rwa [List.append_nil] at h

/-- A pair of parentheses without others in it stands inside. -/
theorem outside_group {inside b : List Char} (hs : '(' ∉ s ∧ ')' ∉ s)
    (hinside : '(' ∉ inside ∧ ')' ∉ inside) (hb : '(' ∉ b ∧ ')' ∉ b) :
    outside 0 (s ++ '(' :: (inside ++ ')' :: b)) = s ++ b := by
  have hclose : outside 1 (')' :: b) = outside 0 b := by simp [outside]
  rw [outside_append hs.1 hs.2, if_pos rfl, outside, if_pos rfl, outside_append hinside.1 hinside.2,
    if_neg Nat.one_ne_zero, List.nil_append, hclose, outside_eq_self hb.1 hb.2]

/-- Of a name with parameters the name alone stands outside. -/
theorem outside_parameterText (hopen : '(' ∉ s) (hclose : ')' ∉ s) (ns : List UInt32) :
    outside 0 (s ++ '(' :: (ColumnType.parameterText ns ++ [')'])) = s := by
  have hplain : ∀ c, c.isDigit = false → c ≠ ',' → c ∉ ColumnType.parameterText ns := by
    intro c hdigit hcomma hc
    rcases ColumnType.mem_parameterText hc with h | h
    · exact Bool.false_ne_true (hdigit.symm.trans h)
    · exact hcomma h
  rw [outside_group ⟨hopen, hclose⟩ ⟨hplain _ rfl (by decide), hplain _ rfl (by decide)⟩
    ⟨List.not_mem_nil, List.not_mem_nil⟩, List.append_nil]

end TypeText

end SchemaKeeper
