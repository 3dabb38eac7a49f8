/-
Column types by slices of the type text.

`inferType` is defined on lists of characters, where every cut is there and each type that is
taken off leaves a shorter text.  This file chooses the column type once more, by slices between
byte positions, any of which may be out of range, and with a bound on the number of types taken
off (`Sliced.type?`).

* `Sliced.lastSegment?_eq`, `Sliced.argument?_eq`: the slices are there and are what the cuts give,
* `Sliced.type?_eq`: for every text whatever, the number of opening angle brackets bounds the
  number of types taken off, and the column type is that of `inferType`.
-/
import SchemaKeeper.Proofs.Model.Wrapping

namespace SchemaKeeper.Inference

open Text

variable {p t argument : List Char}

/-! ### Column types by slices -/

namespace Sliced

/-- A type text without its path. -/
def lastSegment? (t : List Char) : Option (List Char) := do
  let head ← slice? 0 ((firstByte? '<' t).getD (byteLength t)) t
  match lastByte? "::".toList head with
  | some n => slice? (n + 2) (byteLength t) t
  | none => some t

/-- The argument of a type with one of the given names.  The outer result is missing if a slice
is out of range, the inner one if the text is no such type. -/
def argument? (names : List String) (t : List Char) : Option (Option (List Char)) :=
  match firstByte? '<' t with
  | none => some none
  | some n =>
    if t.getLast? = some '>' then do
      let head ← slice? 0 n t
      let name ← lastSegment? head
      if String.ofList name ∈ names then (slice? (n + 1) (byteLength t - 1) t).map some
      else some none
    else some none

/-- The column type for a type that holds no other. -/
def plainType? (t : List Char) : Option ColumnType := do
  match ← argument? ["Vec"] t with
  | some item =>
    (lastSegment? item).map fun name => if String.ofList name = "u8" then .blob else .json
  | none =>
    if "[u8;".toList.isPrefixOf t || t == "[u8]".toList then some .blob
    else (lastSegment? t).map fun name => ofName (String.ofList name)

/-- The column type for a type text, if all slices are in range and fewer than the given number
of types are taken off. -/
def type? : Nat → List Char → Option ColumnType
  | 0, _ => none
  | n + 1, t => do
    let t := bare (squeeze t)
    match ← argument? wrappers t with
    | some argument => type? n argument
    | none => plainType? t

end Sliced

/-! ### The slices are in range -/

/-- The cut of `lastSegment` behind the path, with what it leaves out. -/
theorem lastByte?_lastSegment (h : '<' ∉ p) :
    (lastByte? "::".toList p = none ∧ lastSegment p = p) ∨
    ∃ a, p = a ++ "::".toList ++ lastSegment p ∧ lastByte? "::".toList p = some (byteLength a) := by
  rw [lastSegment_eq h]
  rcases lastByte?_spec "::".toList p with ⟨hbyte, hafter⟩ | ⟨a, r, hp, hbyte, hafter⟩
  · exact .inl ⟨hbyte, by rw [hafter]; rfl⟩
  · exact .inr ⟨a, by rw [hafter]; exact hp, hbyte⟩

theorem Sliced.lastSegment?_eq (t : List Char) : lastSegment? t = some (lastSegment t) := by
  -- Whatever follows the first angle bracket, the slice is what follows the path.
  have hslice : ∀ p e : List Char, '<' ∉ p → t = p ++ e → lastSegment t = lastSegment p ++ e →
      (firstByte? '<' t).getD (byteLength t) = byteLength p →
      lastSegment? t = some (lastSegment t) := by
    intro p e hp ht hlast hbyte
    have hhead : slice? 0 (byteLength p) t = some p := ht ▸ slice?_zero p e
    rw [lastSegment?, hbyte, hhead, Option.bind_eq_bind, Option.bind_some, hlast]
    rcases lastByte?_lastSegment hp with ⟨hnone, hself⟩ | ⟨a, hpath, hsome⟩
    · rw [hnone, hself, ht]
    · have hmark : byteLength "::".toList = 2 := rfl
      rw [hsome]
      refine slice?_eq (a := a ++ "::".toList) (e := []) ?_ ?_ ?_
      · rw [List.append_nil, ← List.append_assoc, ← hpath, ht]
      · rw [byteLength_append, hmark]
      · rw [ht, ← byteLength_append, ← List.append_assoc, ← hpath]
  rcases eq_or_eq_append t with h | ⟨p, r, ht, h⟩
  · refine hslice t [] h (List.append_nil t).symm (List.append_nil _).symm ?_
    rw [firstByte?_eq_none h]
    rfl
  · refine hslice p ('<' :: r) h ht (ht ▸ lastSegment_append_cons h r) ?_
    rw [ht, firstByte?_append h]
    rfl

theorem Sliced.argument?_eq (names : List String) (t : List Char) :
    argument? names t = some (argumentOf? names t) := by
  rw [argument?, argumentOf?]
  rcases eq_or_eq_append t with h | ⟨p, r, rfl, h⟩
  · rw [firstByte?_eq_none h, generic?_eq_none h]
    rfl
  · have hend : (p ++ '<' :: r).getLast? = some '>' ↔ r.getLast? = some '>' := by
      cases r with
      | nil => simp
      | cons x r => rw [List.getLast?_append_of_ne_nil _ (by simp), List.getLast?_cons_cons]
    rw [firstByte?_append h, generic?_append h]
    by_cases hclosed : r.getLast? = some '>'
    · obtain ⟨argument, rfl⟩ := List.getLast?_eq_some_iff.mp hclosed
      have hargument : slice? (byteLength p + 1) (byteLength (p ++ '<' :: (argument ++ ['>'])) - 1)
          (p ++ '<' :: (argument ++ ['>'])) = some argument := by
        refine slice?_eq (a := p ++ ['<']) (e := ['>']) (by simp) (byteLength_append p ['<']).symm ?_
        simp only [byteLength_append, byteLength_cons, byteLength_nil, show '>'.utf8Size = 1 from rfl]
        omega
      dsimp only
      rw [if_pos hclosed, if_pos (hend.mpr hclosed), slice?_zero, Option.bind_eq_bind, Option.bind_some,
        lastSegment?_eq, hargument, Option.bind_some, List.dropLast_concat]
      by_cases hname : String.ofList (lastSegment p) ∈ names
      · rw [if_pos hname, Option.bind_some, if_pos hname]
        rfl
      · rw [if_neg hname, Option.bind_some, if_neg hname]
    · dsimp only
      rw [if_neg hclosed, if_neg fun h => hclosed (hend.mp h)]
      rfl

theorem Sliced.plainType?_eq (t : List Char) : plainType? t = some (ofPlain t) := by
  rw [plainType?, argument?_eq, Option.bind_eq_bind, Option.bind_some, ofPlain_eq]
  cases argumentOf? ["Vec"] t with
  | some item =>
    dsimp only
    rw [lastSegment?_eq]
    rfl
  | none =>
    dsimp only
    split
    · rfl
    · rw [lastSegment?_eq]
      rfl

/-! ### The number of types taken off -/

/-- An argument is part of the text and leaves an opening angle bracket out. -/
theorem eq_of_unwrap? (h : unwrap? t = some argument) :
    ∃ p, t = p ++ '<' :: (argument ++ ['>']) := by
  rcases eq_or_eq_append t with ht | ⟨p, r, rfl, hp⟩
  · rw [unwrap?, generic?_eq_none ht] at h
    cases h
  · rw [unwrap?_eq, argumentOf?, generic?_append hp] at h
    by_cases hclosed : r.getLast? = some '>'
    · obtain ⟨s, rfl⟩ := List.getLast?_eq_some_iff.mp hclosed
      rw [if_pos hclosed, Option.bind_some, List.dropLast_concat] at h
      split at h
      · obtain rfl := Option.some.inj h
        exact ⟨p, rfl⟩
      · cases h
    · rw [if_neg hclosed] at h
      cases h

theorem count_unwrap? (h : unwrap? (bare t) = some argument) : argument.count '<' < t.count '<' := by
  obtain ⟨p, hp⟩ := eq_of_unwrap? h
  calc argument.count '<' < (bare t).count '<' := by
        rw [hp]
        simp only [List.count_append, List.count_cons_self]
        omega
    _ ≤ t.count '<' := (bare_suffix t).sublist.count_le '<'

theorem squeeze_unwrap? (ht : squeeze t = t) (h : unwrap? (bare t) = some argument) :
    squeeze argument = argument := by
  obtain ⟨p, hp⟩ := eq_of_unwrap? h
  refine squeeze_eq_self fun c hc => ?_
  have hmem : c ∈ t := (bare_suffix t).mem (hp ▸ by simp [hc])
  exact Bool.not_eq_true' .. ▸ List.filter_eq_self.mp ht c hmem

/-- More than the number of opening angle brackets is enough. -/
theorem Sliced.type?_eq {n : Nat} (h : t.count '<' < n) : type? n t = some (ofDense (squeeze t)) := by
  induction n generalizing t with
  | zero => exact absurd h (Nat.not_lt_zero _)
  | succ n ih =>
    have hle : (squeeze t).count '<' ≤ t.count '<' := List.filter_sublist.count_le '<'
    rw [type?, argument?_eq, ← unwrap?_eq, Option.bind_eq_bind, Option.bind_some]
    cases harg : unwrap? (bare (squeeze t)) with
    | some argument =>
      have hcount := count_unwrap? harg
      dsimp only
      rw [ih (by omega), squeeze_unwrap? (squeeze_squeeze t) harg, ofDense_of_some harg]
    | none => rw [ofDense_of_none harg, plainType?_eq]

/-- A type text in any number of types that stand for what they hold has the column type of the
text, and for every text the slices that the search for its column type takes are in range and
it ends. -/
theorem inferType_nest_sliced :
    (∀ (ws : List Wrapper) (t u : String), squeeze u.toList = squeeze (nest ws t.toList) →
      inferType u = inferType t) ∧
    ∀ (t : String) (n : Nat), t.toList.count '<' < n → Sliced.type? n t.toList = some (inferType t) :=
  ⟨fun _ _ _ h => inferType_of_nest h, fun _ _ h => Sliced.type?_eq h⟩

/-- A reference to a boxed type. -/
def sampleBox : Wrapper :=
  ⟨⟨["std".toList, "boxed".toList], "Box".toList, by decide, by decide⟩, 1, by decide⟩

theorem inferType_nest_sliced_of_sample :
    inferType "& std::boxed :: Box< Option <Vec<u8>> >" = inferType "Vec<u8>" ∧
    Sliced.type? 4 "Rc<Vec<é>::<".toList = some (inferType "Rc<Vec<é>::<") :=
  ⟨inferType_nest_sliced.1 [sampleBox, sampleOption] "Vec<u8>"
      "& std::boxed :: Box< Option <Vec<u8>> >" (by decide),
    inferType_nest_sliced.2 "Rc<Vec<é>::<" 4 (by decide)⟩

end SchemaKeeper.Inference
