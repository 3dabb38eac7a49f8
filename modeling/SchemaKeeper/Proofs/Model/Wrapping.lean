/-
Types within types.

A type text may stand in any number of types that stand for what they hold, each with a
path before its name and ampersands before that, and with blanks anywhere between.  Such a
text has the column type of what it holds.

* `lastSegment_append_cons`, `generic?_append`: the name of a type and its argument, in terms
  of the text up to the first angle bracket,
* `PathName`, `PathName.lastSegment_text`: a name is found after its path,
* `Wrapper`, `nest`: the types around a type,
* `ofDense_around`, `inferType_of_nest`: one of them, and all of them with blanks, are taken off.
-/
import SchemaKeeper.Model.Inference
import SchemaKeeper.Proofs.Text.Slices

namespace SchemaKeeper

open Text

namespace Text

variable {c : Char} {s : List Char}

/-- A character of a name: no blank, and none of the marks that part a type text. -/
def isNameChar (c : Char) : Bool :=
  !isBlank c && !(['&', '\'', ':', ';', '<', '>', '[', ']'].contains c)

/-- A text that may be a name. -/
def IsName (s : List Char) : Prop :=
  ∀ c ∈ s, isNameChar c = true

instance (s : List Char) : Decidable (IsName s) :=
  List.decidableBAll _ s

theorem IsName.not_mem (h : IsName s) (hc : isNameChar c = false) : c ∉ s :=
  fun hmem => Bool.false_ne_true (hc.symm.trans (h c hmem))

theorem not_isBlank_of_isNameChar (h : isNameChar c = true) : isBlank c = false := by
  rw [isNameChar, Bool.and_eq_true, Bool.not_eq_true'] at h
  exact h.1

theorem squeeze_eq_self (h : ∀ c ∈ s, isBlank c = false) : squeeze s = s :=
  List.filter_eq_self.mpr fun c hc => by rw [h c hc]; rfl

theorem IsName.squeeze (h : IsName s) : squeeze s = s :=
  squeeze_eq_self fun c hc => not_isBlank_of_isNameChar (h c hc)

theorem squeeze_squeeze (t : List Char) : squeeze (squeeze t) = squeeze t := by
  simp [Text.squeeze, List.filter_filter]

end Text

namespace Inference

variable {p q r t argument : List Char}

/-! ### The text up to the first angle bracket -/

/-- The text up to the first angle bracket, and what follows that. -/
theorem eq_or_eq_append (t : List Char) :
    '<' ∉ t ∨ ∃ p r, t = p ++ '<' :: r ∧ '<' ∉ p := by
  by_cases h : '<' ∈ t
  · exact .inr (List.eq_append_cons_of_mem h)
  · exact .inl h

theorem takeWhile_append_cons (h : '<' ∉ p) (r : List Char) :
    (p ++ '<' :: r).takeWhile (· != '<') = p := by
  have hall : ∀ c ∈ p, (c != '<') = true := fun c hc => bne_iff_ne.mpr fun heq => h (heq ▸ hc)
  rw [List.takeWhile_append_of_pos hall, List.takeWhile_cons_of_neg (by simp), List.append_nil]

theorem dropWhile_append_cons (h : '<' ∉ p) (r : List Char) :
    (p ++ '<' :: r).dropWhile (· != '<') = '<' :: r := by
  have hall : ∀ c ∈ p, (c != '<') = true := fun c hc => bne_iff_ne.mpr fun heq => h (heq ▸ hc)
  rw [List.dropWhile_append_of_pos hall, List.dropWhile_cons_of_neg (by simp)]

theorem takeWhile_eq_self (h : '<' ∉ p) : p.takeWhile (· != '<') = p :=
  List.takeWhile_eq_self_iff.mpr fun _ hc => bne_iff_ne.mpr fun heq => h (heq ▸ hc)

theorem dropWhile_eq_nil (h : '<' ∉ p) : p.dropWhile (· != '<') = [] :=
  List.dropWhile_eq_nil_iff.mpr fun _ hc => bne_iff_ne.mpr fun heq => h (heq ▸ hc)

theorem lastSegment_eq (h : '<' ∉ p) : lastSegment p = (afterLast? "::".toList p).getD p := by
  rw [lastSegment, takeWhile_eq_self h, dropWhile_eq_nil h]
  cases afterLast? "::".toList p with
  | none => rfl
  | some name => exact List.append_nil name

theorem lastSegment_append_cons (h : '<' ∉ p) (r : List Char) :
    lastSegment (p ++ '<' :: r) = lastSegment p ++ '<' :: r := by
  rw [lastSegment_eq h, lastSegment, takeWhile_append_cons h, dropWhile_append_cons h]
  cases afterLast? "::".toList p <;> rfl

theorem generic?_eq_none (h : '<' ∉ t) : generic? t = none := by
  rw [generic?, cutAt?_eq_none h]

theorem generic?_append (h : '<' ∉ p) (r : List Char) :
    generic? (p ++ '<' :: r) =
      if r.getLast? = some '>' then some (String.ofList (lastSegment p), r.dropLast) else none := by
  rw [generic?, cutAt?_append h]

/-! ### The argument of a type -/

/-- The argument of a type with one of the given names. -/
def argumentOf? (names : List String) (t : List Char) : Option (List Char) :=
  (generic? t).bind fun parts => if parts.1 ∈ names then some parts.2 else none

theorem unwrap?_eq (t : List Char) : unwrap? t = argumentOf? wrappers t := by
  rw [unwrap?, argumentOf?]
  cases generic? t <;> rfl

theorem ofPlain_eq (t : List Char) :
    ofPlain t = match argumentOf? ["Vec"] t with
      | some item => listType item
      | none =>
        if "[u8;".toList.isPrefixOf t || t == "[u8]".toList then .blob
        else ofName (String.ofList (lastSegment t)) := by
  rw [ofPlain, argumentOf?]
  cases generic? t with
  | none => rfl
  | some parts =>
    obtain ⟨name, item⟩ := parts
    by_cases hname : name = "Vec"
    · subst hname
      rfl
    · have hnone : (if name ∈ ["Vec"] then some item else none) = none :=
        if_neg fun h => hname (List.mem_singleton.mp h)
      rw [Option.bind_some, hnone]
      split
      · next heq =>
        cases heq
        exact absurd rfl hname
      · rfl

theorem ofDense_of_some (h : unwrap? (bare t) = some argument) : ofDense t = ofDense argument := by
  rw [ofDense]
  split
  · next heq => rw [Option.some.inj (heq.symm.trans h)]
  · next heq => cases heq.symm.trans h

theorem ofDense_of_none (h : unwrap? (bare t) = none) : ofDense t = ofPlain (bare t) := by
  rw [ofDense]
  split
  · next heq => cases heq.symm.trans h
  · rfl

/-! ### Names after their paths -/

theorem afterLast?_mark_eq_none (h : ':' ∉ r) : afterLast? "::".toList r = none :=
  afterLast?_eq_none h [':']

/-- What follows a path mark, if no path mark starts later. -/
theorem afterLast?_mark (h : ':' ∉ r) : afterLast? "::".toList ("::".toList ++ r) = some r := by
  refine afterLast?_self (by decide) ?_
  have hstart : "::".toList.isPrefixOf (':' :: r) = false := by
    cases r with
    | nil => rfl
    | cons x r =>
      have hx : ':' ≠ x := fun heq => h (heq ▸ List.mem_cons_self)
      simp [List.isPrefixOf, hx]
  change afterLast? "::".toList (':' :: r) = none
  rw [afterLast?_cons, afterLast?_mark_eq_none h, hstart]
  rfl

/-- A name with the names of its path. -/
structure PathName where
  path : List (List Char)
  name : List Char
  path_names : ∀ p ∈ path, IsName p
  name_isName : IsName name

namespace PathName

variable (n : PathName)

/-- The path and the name, parted by path marks. -/
def text : List Char :=
  n.path.flatMap (· ++ "::".toList) ++ n.name

/-- The type with this name that holds the type text `t`. -/
def holding (t : List Char) : List Char :=
  n.text ++ '<' :: (t ++ ['>'])

theorem mem_text {c : Char} (h : c ∈ n.text) : isNameChar c = true ∨ c = ':' := by
  rw [text, List.mem_append, List.mem_flatMap] at h
  rcases h with ⟨p, hp, hc⟩ | hc
  · rcases List.mem_append.mp hc with hc | hc
    · exact .inl (n.path_names p hp c hc)
    · exact .inr (by simpa using hc)
  · exact .inl (n.name_isName c hc)

theorem not_mem_text {c : Char} (hname : isNameChar c = false) (hc : c ≠ ':') : c ∉ n.text := by
  intro hmem
  rcases n.mem_text hmem with h | h
  · exact Bool.false_ne_true (hname.symm.trans h)
  · exact hc h

theorem squeeze_text : squeeze n.text = n.text := by
  refine squeeze_eq_self fun c hc => ?_
  rcases n.mem_text hc with hname | rfl
  · exact not_isBlank_of_isNameChar hname
  · rfl

/-- A name is found after its path. -/
theorem lastSegment_text : lastSegment n.text = n.name := by
  have hmark : ':' ∉ n.name := n.name_isName.not_mem rfl
  rw [lastSegment_eq (n.not_mem_text rfl (by decide)), text]
  rcases List.eq_nil_or_concat n.path with hpath | ⟨path, p, hpath⟩
  · rw [hpath, List.flatMap_nil, List.nil_append, afterLast?_mark_eq_none hmark]
    rfl
  · rw [hpath, List.concat_eq_append, List.flatMap_append, List.flatMap_singleton,
      ← List.append_assoc, List.append_assoc, afterLast?_append_of_some (afterLast?_mark hmark)]
    rfl

theorem argumentOf?_holding (names : List String) (t : List Char) :
    argumentOf? names (n.holding t) = if String.ofList n.name ∈ names then some t else none := by
  rw [argumentOf?, holding, generic?_append (n.not_mem_text rfl (by decide)), if_pos (by simp),
    n.lastSegment_text, List.dropLast_concat]
  rfl

theorem squeeze_holding (t : List Char) : squeeze (n.holding t) = n.holding (squeeze t) := by
  have hbracket : squeeze ('<' :: (t ++ ['>'])) = '<' :: (squeeze t ++ ['>']) :=
    congrArg ('<' :: ·) (squeeze_append t ['>'])
  rw [holding, squeeze_append, n.squeeze_text, hbracket, holding]

/-- A type that holds another starts with no mark but that of a path or an argument. -/
theorem head?_holding_ne {c : Char} (hname : isNameChar c = false) (hpath : c ≠ ':') (hc : c ≠ '<')
    (t : List Char) : (n.holding t).head? ≠ some c := by
  intro heq
  rw [holding] at heq
  cases htext : n.text with
  | nil =>
    rw [htext, List.nil_append, List.head?_cons, Option.some_inj] at heq
    exact hc heq.symm
  | cons x s =>
    rw [htext, List.cons_append, List.head?_cons, Option.some_inj] at heq
    exact n.not_mem_text hname hpath (htext ▸ heq ▸ List.mem_cons_self)

end PathName

/-! ### What is in front of a type -/

/-- A text without path marks and angle brackets. -/
def IsPlain (q : List Char) : Prop :=
  ∀ c ∈ q, c ≠ ':' ∧ c ≠ '<'

instance (q : List Char) : Decidable (IsPlain q) :=
  List.decidableBAll _ q

theorem IsPlain.append (hp : IsPlain p) (hq : IsPlain q) : IsPlain (p ++ q) :=
  fun c hc => (List.mem_append.mp hc).elim (hp c) (hq c)

theorem dropStatic_eq_self (h : t.head? ≠ some '\'') : dropStatic t = t := by
  rw [dropStatic]
  rintro r rfl
  exact h rfl

theorem exists_dropStatic (t : List Char) : ∃ q, IsPlain q ∧ q ++ dropStatic t = t := by
  fun_induction dropStatic t with
  | case1 r ih =>
    obtain ⟨q, hq, hr⟩ := ih
    refine ⟨"'static".toList ++ q, IsPlain.append (by decide) hq, ?_⟩
    rw [List.append_assoc, hr]
    rfl
  | case2 t => exact ⟨[], fun _ hc => absurd hc List.not_mem_nil, rfl⟩

/-- What is in front of a type has no path marks and no angle brackets. -/
theorem exists_bare (t : List Char) : ∃ q, IsPlain q ∧ q ++ bare t = t := by
  obtain ⟨q, hq, hstatic⟩ := exists_dropStatic (dropReferences t)
  refine ⟨t.takeWhile (· == '&') ++ q, IsPlain.append (fun c hc => ?_) hq, ?_⟩
  · have hreference : c = '&' := by simpa using List.all_eq_true.mp List.all_takeWhile c hc
    subst hreference
    decide
  · rw [bare, List.append_assoc, hstatic, dropReferences, List.takeWhile_append_dropWhile]

theorem bare_suffix (t : List Char) : bare t <:+ t :=
  (exists_bare t).imp fun _ h => h.2

theorem dropReferences_replicate (n : Nat) (h : t.head? ≠ some '&') :
    dropReferences (List.replicate n '&' ++ t) = t := by
  rw [dropReferences, List.dropWhile_append_of_pos (by simp)]
  cases t with
  | nil => rfl
  | cons c t => exact List.dropWhile_cons_of_neg (by simpa using h)

theorem PathName.bare_holding (n : PathName) (references : Nat) (t : List Char) :
    bare (List.replicate references '&' ++ n.holding t) = n.holding t := by
  rw [bare, dropReferences_replicate references (n.head?_holding_ne rfl (by decide) (by decide) t),
    dropStatic_eq_self (n.head?_holding_ne rfl (by decide) (by decide) t)]

/-! ### The types around a type -/

/-- A type that stands for what it holds, as it is written. -/
structure Wrapper extends PathName where
  /-- The number of ampersands in front. -/
  references : Nat
  wraps : String.ofList name ∈ wrappers

/-- An optional type. -/
def sampleOption : Wrapper :=
  ⟨⟨[], "Option".toList, by decide, by decide⟩, 0, by decide⟩

/-- The type around the type text `t`. -/
def Wrapper.around (w : Wrapper) (t : List Char) : List Char :=
  List.replicate w.references '&' ++ w.holding t

/-- The type text `t` in the given types, the first of them outermost. -/
def nest (ws : List Wrapper) (t : List Char) : List Char :=
  ws.foldr Wrapper.around t

/-- A type that stands for what it holds is taken off. -/
theorem ofDense_around (w : Wrapper) (t : List Char) : ofDense (w.around t) = ofDense t := by
  refine ofDense_of_some ?_
  rw [Wrapper.around, w.bare_holding, unwrap?_eq, w.argumentOf?_holding, if_pos w.wraps]

theorem ofDense_nest (ws : List Wrapper) (t : List Char) : ofDense (nest ws t) = ofDense t := by
  induction ws with
  | nil => rfl
  | cons w ws ih => exact (ofDense_around w _).trans ih

theorem squeeze_around (w : Wrapper) (t : List Char) :
    squeeze (w.around t) = w.around (squeeze t) := by
  have hreferences : squeeze (List.replicate w.references '&') = List.replicate w.references '&' :=
    squeeze_eq_self fun c hc => by rw [List.eq_of_mem_replicate hc]; rfl
  rw [Wrapper.around, squeeze_append, hreferences, w.squeeze_holding, Wrapper.around]

theorem squeeze_nest (ws : List Wrapper) (t : List Char) :
    squeeze (nest ws t) = nest ws (squeeze t) := by
  induction ws with
  | nil => rfl
  | cons w ws ih => exact (squeeze_around w _).trans (congrArg w.around ih)

/-- Types that stand for what they hold are of no account, with blanks anywhere in the text. -/
theorem inferType_of_nest {ws : List Wrapper} {t u : String}
    (h : squeeze u.toList = squeeze (nest ws t.toList)) : inferType u = inferType t := by
  rw [inferType, h, squeeze_nest, ofDense_nest, inferType]

end Inference
end SchemaKeeper
