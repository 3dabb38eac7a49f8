/-
Lifetimes in type texts.

The blanks of a type text are dropped before its references, so the name of a lifetime runs into
the type it stands before.  Only the unlimited lifetime is taken off.

* `IsPlain.lastSegment_append`, `IsPlain.generic?_append`: what stands before a path is of no
  account,
* `ofDense_of_mark`, `ofDense_of_hasPath`: the column type where a mark is left in front of a
  type, without a path and with one,
* `inferType_borrowed`: the column type of a reference with a lifetime, for every lifetime and
  every type.
-/
import SchemaKeeper.Proofs.Model.Wrapping

namespace SchemaKeeper.Inference

open Text

variable {l p q r s t x : List Char} {name : String} {names : List String} {m : Char}

/-! ### Unknown names -/

/-- The names with a column type of their own. -/
def typeNames : List String :=
  ["String", "str", "Cow<str>", "char", "i8", "u8", "i16", "u16", "i32", "u32", "i64", "u64",
    "isize", "usize", "i128", "u128", "f32", "f64", "bool", "NaiveDateTime", "SystemTime",
    "OffsetDateTime", "PrimitiveDateTime", "NaiveDate", "Date", "NaiveTime", "Time", "Bytes",
    "ByteBuf", "Decimal", "BigDecimal"]

theorem ofName_eq_json (h : name ∉ typeNames) (hstart : ¬ "DateTime".toList <+: name.toList) :
    ofName name = .json := by
  rw [ofName, if_neg (by rwa [List.isPrefixOf_iff_prefix])]
  all_goals
    rintro rfl
    exact h (by decide)

/-! ### Texts with a path -/

/-- Whether there is a path before the first angle bracket. -/
def HasPath (t : List Char) : Prop :=
  (afterLast? "::".toList (t.takeWhile (· != '<'))).isSome = true

instance (t : List Char) : Decidable (HasPath t) :=
  inferInstanceAs (Decidable (_ = true))

theorem hasPath_append_cons (h : '<' ∉ p) (r : List Char) :
    HasPath (p ++ '<' :: r) ↔ HasPath p := by
  rw [HasPath, HasPath, takeWhile_append_cons h, takeWhile_eq_self h]

theorem lastSegment_of_not_hasPath (h : ¬ HasPath t) : lastSegment t = t := by
  rw [HasPath, Bool.not_eq_true, Option.isSome_eq_false_iff, Option.isNone_iff_eq_none] at h
  rw [lastSegment, h]

theorem isPlain_of_isName (hx : IsName x) : IsPlain x := by
  refine fun c hc => ⟨?_, ?_⟩
  · rintro rfl
    exact hx.not_mem rfl hc
  · rintro rfl
    exact hx.not_mem rfl hc

namespace IsPlain

theorem takeWhile_append (hq : IsPlain q) (t : List Char) :
    (q ++ t).takeWhile (· != '<') = q ++ t.takeWhile (· != '<') :=
  List.takeWhile_append_of_pos fun c hc => bne_iff_ne.mpr (hq c hc).2

theorem dropWhile_append (hq : IsPlain q) (t : List Char) :
    (q ++ t).dropWhile (· != '<') = t.dropWhile (· != '<') :=
  List.dropWhile_append_of_pos fun c hc => bne_iff_ne.mpr (hq c hc).2

theorem hasPath_append (hq : IsPlain q) (t : List Char) : HasPath (q ++ t) ↔ HasPath t := by
  have hmark : ':' ∉ q := fun h => (hq _ h).1 rfl
  rw [HasPath, HasPath, hq.takeWhile_append]
  exact iff_of_eq (congrArg (·.isSome = true) (afterLast?_append hmark [':'] _))

/-- What stands before a path is of no account for the name. -/
theorem lastSegment_append (hq : IsPlain q) (h : HasPath t) :
    lastSegment (q ++ t) = lastSegment t := by
  obtain ⟨name, hname⟩ := Option.isSome_iff_exists.mp h
  rw [lastSegment, lastSegment, hq.takeWhile_append, hq.dropWhile_append, hname,
    afterLast?_append_of_some hname]

/-- What stands before a path is of no account for the name and the argument. -/
theorem generic?_append (hq : IsPlain q) (h : HasPath t) : generic? (q ++ t) = generic? t := by
  have hangle : '<' ∉ q := fun hmem => (hq _ hmem).2 rfl
  rcases eq_or_eq_append t with ht | ⟨p, r, rfl, hp⟩
  · rw [generic?_eq_none ht, generic?_eq_none (by simp [hangle, ht])]
  · rw [← List.append_assoc, Inference.generic?_append (by simp [hangle, hp]),
      Inference.generic?_append hp, hq.lastSegment_append ((hasPath_append_cons hp r).mp h)]

end IsPlain

/-! ### A mark in front of a type -/

/-- Without a path, the mark is part of the name. -/
theorem argumentOf?_of_mark (hpath : ¬ HasPath (m :: l)) (hm : m ≠ '<')
    (hnames : ∀ name ∈ names, name.toList.head? ≠ some m) : argumentOf? names (m :: l) = none := by
  rcases eq_or_eq_append (m :: l) with h | ⟨p, r, hl, hp⟩
  · rw [argumentOf?, generic?_eq_none h]
    rfl
  · have hhead : p.head? = some m := by
      cases p with
      | nil => exact absurd (List.cons.inj hl).1 hm
      | cons c p => rw [(List.cons.inj hl).1]; rfl
    have hname : lastSegment p = p :=
      lastSegment_of_not_hasPath fun h => hpath (hl ▸ (hasPath_append_cons hp r).mpr h)
    rw [argumentOf?, hl, generic?_append hp, hname]
    split
    · refine if_neg fun hmem => hnames _ hmem ?_
      rw [String.toList_ofList, hhead]
    · rfl

theorem not_bytes (h : t.head? ≠ some '[') :
    ("[u8;".toList.isPrefixOf t || t == "[u8]".toList) = false := by
  cases t with
  | nil => rfl
  | cons c t =>
    have hc : c ≠ '[' := by simpa using h
    simp [List.isPrefixOf, hc, Ne.symm hc]

/-- A mark in front of a type without a path makes it unknown. -/
theorem ofDense_of_mark (hm : m = '\'' ∨ m = '&') (hbare : bare s = m :: l)
    (hpath : ¬ HasPath (m :: l)) : ofDense s = .json := by
  obtain ⟨hangle, hbracket, hletter⟩ : m ≠ '<' ∧ m ≠ '[' ∧ m ≠ 'D' := by
    rcases hm with rfl | rfl <;> decide
  obtain ⟨hwrappers, hlist, hnames⟩ :
      (∀ name ∈ wrappers, name.toList.head? ≠ some m) ∧
      (∀ name ∈ ["Vec"], name.toList.head? ≠ some m) ∧
      ∀ name ∈ typeNames, name.toList.head? ≠ some m := by
    rcases hm with rfl | rfl <;> decide
  have hunwrap : unwrap? (bare s) = none := by
    rw [unwrap?_eq, hbare, argumentOf?_of_mark hpath hangle hwrappers]
  have hname : ofName (String.ofList (m :: l)) = .json := by
    refine ofName_eq_json (fun h => hnames _ h ?_) fun h => ?_
    · rw [String.toList_ofList]
      rfl
    · rw [@String.toList_ofList (m :: l)] at h
      exact hletter (List.cons_prefix_cons.mp h).1.symm
  rw [ofDense_of_none hunwrap, hbare, ofPlain_eq, argumentOf?_of_mark hpath hangle hlist]
  dsimp only
  rw [not_bytes (by simpa using hbracket), lastSegment_of_not_hasPath hpath, hname]
  rfl

/-- A text that is read as a list of bytes of fixed length. -/
def IsByteArray (t : List Char) : Prop :=
  "[u8;".toList <+: bare t ∧ argumentOf? ("Vec" :: wrappers) (bare t) = none

theorem not_isByteArray {argument : List Char} (hnames : ∀ name ∈ names, name ∈ "Vec" :: wrappers)
    (h : argumentOf? names (bare t) = some argument) : ¬ IsByteArray t := by
  rintro ⟨-, hnone⟩
  rw [argumentOf?] at h hnone
  obtain ⟨parts, hparts, h⟩ := Option.bind_eq_some_iff.mp h
  rw [hparts, Option.bind_some] at hnone
  split at h
  · next hmem =>
    rw [if_pos (hnames _ hmem)] at hnone
    cases hnone
  · cases h

theorem isByteArray_iff (hwrapper : argumentOf? wrappers (bare t) = none)
    (hlist : argumentOf? ["Vec"] (bare t) = none) :
    IsByteArray t ↔ "[u8;".toList <+: bare t := by
  refine and_iff_left ?_
  rw [argumentOf?] at hwrapper hlist ⊢
  cases hparts : generic? (bare t) with
  | none => rfl
  | some parts =>
    rw [hparts, Option.bind_some] at hwrapper hlist
    refine if_neg fun hmem => ?_
    rcases List.mem_cons.mp hmem with hmem | hmem
    · rw [if_pos (List.mem_singleton.mpr hmem)] at hlist
      cases hlist
    · rw [if_pos hmem] at hwrapper
      cases hwrapper

/-- A mark in front of a type with a path is of no account, but for a list of bytes of fixed
length. -/
theorem ofDense_of_hasPath (hm : m ≠ '[') (hbare : bare s = m :: l)
    (hlast : lastSegment (m :: l) = lastSegment (bare t))
    (hgeneric : generic? (m :: l) = generic? (bare t)) (hpath : HasPath (bare t)) :
    (¬ IsByteArray t → ofDense s = ofDense t) ∧
    (IsByteArray t → ofDense s = ofName (String.ofList (lastSegment (bare t)))) := by
  have hargument : ∀ names, argumentOf? names (bare s) = argumentOf? names (bare t) := by
    intro names
    rw [hbare, argumentOf?, hgeneric, argumentOf?]
  cases hwrapper : argumentOf? wrappers (bare t) with
  | some argument =>
    have hs : ofDense s = ofDense argument :=
      ofDense_of_some (by rw [unwrap?_eq, hargument, hwrapper])
    have ht : ofDense t = ofDense argument := ofDense_of_some (by rw [unwrap?_eq, hwrapper])
    exact ⟨fun _ => hs.trans ht.symm,
      fun h => absurd h (not_isByteArray (fun _ hmem => List.mem_cons_of_mem _ hmem) hwrapper)⟩
  | none =>
    have hs : ofDense s = ofPlain (bare s) :=
      ofDense_of_none (by rw [unwrap?_eq, hargument, hwrapper])
    have ht : ofDense t = ofPlain (bare t) := ofDense_of_none (by rw [unwrap?_eq, hwrapper])
    rw [hs, ht, ofPlain_eq, ofPlain_eq, hargument]
    cases hlist : argumentOf? ["Vec"] (bare t) with
    | some item =>
      exact ⟨fun _ => rfl, fun h => absurd h (not_isByteArray (by simp) hlist)⟩
    | none =>
      have hslice : bare t ≠ "[u8]".toList := by
        intro h
        rw [h] at hpath
        exact absurd hpath (by decide)
      dsimp only
      rw [isByteArray_iff hwrapper hlist, hbare, not_bytes (by simpa using hm), hlast]
      refine ⟨fun h => ?_, fun _ => rfl⟩
      rw [if_neg (by simp), if_neg]
      rw [Bool.or_eq_true, List.isPrefixOf_iff_prefix, beq_iff_eq]
      exact not_or.mpr ⟨h, hslice⟩

/-! ### References with a lifetime -/

theorem ofDense_congr (h : bare s = bare t) : ofDense s = ofDense t := by
  cases hargument : unwrap? (bare t) with
  | some argument => rw [ofDense_of_some hargument, ofDense_of_some (h ▸ hargument)]
  | none => rw [ofDense_of_none hargument, ofDense_of_none (h ▸ hargument), h]

theorem inferType_reference (t : String) : inferType ("&" ++ t) = ofDense (squeeze t.toList) := by
  rw [inferType, String.toList_append, squeeze_append]
  exact ofDense_congr rfl

/-- A reference with the lifetime `x` to the type text `t`. -/
def borrowed (x t : List Char) : List Char :=
  "&'".toList ++ x ++ ' ' :: t

theorem squeeze_borrowed (hx : IsName x) (t : List Char) :
    squeeze (borrowed x t) = '&' :: '\'' :: (x ++ squeeze t) := by
  have hblank : squeeze (' ' :: t) = squeeze t := rfl
  rw [borrowed, squeeze_append, squeeze_append, hx.squeeze, hblank]
  rfl

/-- With the lifetime `x` run into it, the type text `t` reads as the unlimited lifetime before
`rest`, which is no reference. -/
def ReadsStatic (x t rest : List Char) : Prop :=
  x ++ t = "static".toList ++ rest ∧ rest.head? ≠ some '&'

/-- What reads as the unlimited lifetime is taken off. -/
theorem ofDense_of_readsStatic (h : ReadsStatic x t r) :
    ofDense ('&' :: '\'' :: (x ++ t)) = ofDense r := by
  obtain ⟨happend, hhead⟩ := h
  refine ofDense_congr ?_
  have hrest : dropReferences r = r := dropReferences_replicate 0 hhead
  rw [happend, bare, bare, hrest]
  rfl

theorem not_readsStatic (h : ¬ "static".toList <+: x ++ t) (rest : List Char) :
    ¬ ReadsStatic x t rest :=
  fun hrest => h ⟨rest, hrest.1.symm⟩

theorem squeeze_of_readsStatic (hdense : squeeze (x ++ t) = x ++ t) (h : ReadsStatic x t r) :
    squeeze r = r := by
  rw [h.1, squeeze_append, show squeeze "static".toList = "static".toList by decide] at hdense
  exact List.append_cancel_left hdense

/-- A mark is left of any other lifetime. -/
theorem exists_bare_borrowed (h : ∀ rest, ¬ ReadsStatic x t rest) :
    ∃ m l, (m = '\'' ∨ m = '&') ∧ bare ('&' :: '\'' :: (x ++ t)) = m :: l := by
  by_cases hstatic : "static".toList <+: x ++ t
  · obtain ⟨rest, hrest⟩ := hstatic
    have hhead : rest.head? = some '&' := by
      by_contra hne
      exact h rest ⟨hrest.symm, hne⟩
    obtain ⟨l, rfl⟩ := List.head?_eq_some_iff.mp hhead
    exact ⟨'&', l, .inr rfl, by rw [← hrest]; rfl⟩
  · refine ⟨'\'', x ++ t, .inl rfl, ?_⟩
    change dropStatic ('\'' :: (x ++ t)) = '\'' :: (x ++ t)
    rw [dropStatic]
    rintro r hr
    exact hstatic ⟨r, (List.cons.inj hr).2.symm⟩

/-- The column type of a reference with a lifetime to a type text without blanks. -/
theorem ofDense_borrowed (hx : IsName x) (h : ∀ rest, ¬ ReadsStatic x t rest) :
    (¬ HasPath t → ofDense ('&' :: '\'' :: (x ++ t)) = .json) ∧
    (HasPath t →
      (¬ IsByteArray t → ofDense ('&' :: '\'' :: (x ++ t)) = ofDense t) ∧
      (IsByteArray t →
        ofDense ('&' :: '\'' :: (x ++ t)) = ofName (String.ofList (lastSegment t)))) := by
  obtain ⟨m, l, hm, hbare⟩ := exists_bare_borrowed h
  -- What the mark that is left has before it, and what `t` has before its type, is plain.
  have hlead : IsPlain ("&'".toList ++ x) :=
    IsPlain.append (by decide) (isPlain_of_isName hx)
  obtain ⟨q, hq, hleft⟩ := exists_bare ('&' :: '\'' :: (x ++ t))
  rw [hbare, show '&' :: '\'' :: (x ++ t) = "&'".toList ++ x ++ t from rfl] at hleft
  obtain ⟨p, hp, ht⟩ := exists_bare t
  have hpath : HasPath (m :: l) ↔ HasPath t := by
    rw [← hq.hasPath_append, hleft, hlead.hasPath_append]
  refine ⟨fun hnone => ofDense_of_mark hm hbare (mt hpath.mp hnone), fun hsome => ?_⟩
  have hsome' : HasPath (bare t) := by rwa [← hp.hasPath_append, ht]
  have hlast : lastSegment (bare t) = lastSegment t := by
    rw [← hp.lastSegment_append hsome', ht]
  have hlast' : lastSegment (m :: l) = lastSegment t := by
    rw [← hq.lastSegment_append (hpath.mpr hsome), hleft, hlead.lastSegment_append hsome]
  have hgeneric : generic? (m :: l) = generic? (bare t) := by
    rw [← hq.generic?_append (hpath.mpr hsome), hleft, hlead.generic?_append hsome,
      ← hp.generic?_append hsome', ht]
  rw [← hlast]
  exact ofDense_of_hasPath (by rcases hm with rfl | rfl <;> decide) hbare (hlast'.trans hlast.symm)
    hgeneric hsome'

/-! ### Lifetimes as arguments -/

/-- A type of no known name that holds another is known by the name with the argument, if at
all. -/
theorem ofDense_holding {n : PathName} (hn : String.ofList n.name ∉ "Vec" :: wrappers)
    (t : List Char) : ofDense (n.holding t) = ofName (String.ofList (n.name ++ '<' :: (t ++ ['>']))) := by
  obtain ⟨hlist, hwrappers⟩ := not_or.mp (mt List.mem_cons.mpr hn)
  have hbare : bare (n.holding t) = n.holding t := n.bare_holding 0 t
  have hunwrap : unwrap? (bare (n.holding t)) = none := by
    rw [hbare, unwrap?_eq, n.argumentOf?_holding, if_neg hwrappers]
  have hitem : argumentOf? ["Vec"] (n.holding t) = none := by
    rw [n.argumentOf?_holding, if_neg (by simpa using hlist)]
  have hlast : lastSegment (n.holding t) = n.name ++ '<' :: (t ++ ['>']) := by
    rw [PathName.holding, lastSegment_append_cons (n.not_mem_text rfl (by decide)),
      n.lastSegment_text]
  rw [ofDense_of_none hunwrap, hbare, ofPlain_eq, hitem]
  dsimp only
  rw [not_bytes (n.head?_holding_ne rfl (by decide) (by decide) t), hlast]
  rfl

/-- A copied-on-write text with a lifetime is unknown. -/
theorem ofDense_cow_lifetime {n : PathName} (hn : n.name = "Cow".toList) (x : List Char) :
    ofDense (n.holding ('\'' :: (x ++ ",str".toList))) = .json := by
  rw [ofDense_holding (by rw [hn]; decide), hn]
  refine ofName_eq_json (fun h => ?_) fun h => ?_
  · have hmark : ∀ name ∈ typeNames, '\'' ∉ name.toList := by decide
    exact hmark _ h (by simp)
  · rw [@String.toList_ofList ("Cow".toList ++ _)] at h
    exact absurd (List.cons_prefix_cons.mp h).1 (by decide)

theorem ofDense_cow {n : PathName} (hn : n.name = "Cow".toList) :
    ofDense (n.holding "str".toList) = .varchar 255 := by
  rw [ofDense_holding (by rw [hn]; decide), hn]
  rfl

/-! ### Lifetimes inside other types -/

theorem inferType_eq_ofPlain {u : String} (h : unwrap? (bare (squeeze u.toList)) = none) :
    inferType u = ofPlain (bare (squeeze u.toList)) :=
  ofDense_of_none h

/-- Lifetimes inside any number of types that stand for what they hold, for every lifetime and
every type.

A reference with a lifetime is taken as what is left of it where it reads as the unlimited one.
Otherwise the mark of the lifetime is left: it is of no account if the type has a path and is no
list of bytes of fixed length, and makes the type unknown if it has none.  A copied-on-write text
is unknown with any lifetime. -/
theorem inferType_lifetimes (ws : List Wrapper) {x : List Char} (hx : IsName x) :
    (∀ t u : String, squeeze u.toList = squeeze (nest ws (borrowed x t.toList)) →
      (∀ rest, ReadsStatic x (squeeze t.toList) rest → inferType u = inferType (String.ofList rest)) ∧
      ((∀ rest, ¬ ReadsStatic x (squeeze t.toList) rest) →
        (¬ HasPath (squeeze t.toList) → inferType u = .json) ∧
        (HasPath (squeeze t.toList) →
          (¬ IsByteArray (squeeze t.toList) → inferType u = inferType ("&" ++ t)) ∧
          (IsByteArray (squeeze t.toList) →
            inferType u = ofName (String.ofList (lastSegment (squeeze t.toList))))))) ∧
    ∀ (n : PathName) (u : String), n.name = "Cow".toList →
      (squeeze u.toList = squeeze (nest ws (n.holding ("'".toList ++ x ++ ", str".toList))) →
        inferType u = .json) ∧
      (squeeze u.toList = squeeze (nest ws (n.holding "str".toList)) →
        inferType u = .varchar 255) := by
  refine ⟨fun t u hu => ?_, fun n u hn => ⟨fun hu => ?_, fun hu => ?_⟩⟩
  · have hdense : inferType u = ofDense ('&' :: '\'' :: (x ++ squeeze t.toList)) := by
      rw [inferType, hu, squeeze_nest, ofDense_nest, squeeze_borrowed hx]
    rw [hdense, inferType_reference]
    refine ⟨fun rest hrest => ?_, ofDense_borrowed hx⟩
    rw [ofDense_of_readsStatic hrest, inferType, String.toList_ofList,
      squeeze_of_readsStatic (by rw [squeeze_append, hx.squeeze, squeeze_squeeze]) hrest]
  · rw [inferType, hu, squeeze_nest, ofDense_nest, n.squeeze_holding, squeeze_append, squeeze_append,
      hx.squeeze]
    exact ofDense_cow_lifetime hn x
  · rw [inferType, hu, squeeze_nest, ofDense_nest, n.squeeze_holding]
    exact ofDense_cow hn

/-- The copied-on-write type with its path. -/
def sampleCow : PathName :=
  ⟨["std".toList, "borrow".toList], "Cow".toList, by decide, by decide⟩

theorem inferType_lifetimes_of_sample :
    inferType "Option<&'static str>" = inferType "str" ∧
    inferType "Option<&'a str>" = .json ∧
    inferType "Option<&'a std::string::String>" = inferType "&std::string::String" ∧
    inferType "Option<&'a [u8; size::OF]>" = ofName "OF]" ∧
    inferType "Option<std::borrow::Cow<'a, str>>" = .json ∧
    inferType "Option<std::borrow::Cow<str>>" = .varchar 255 := by
  have hunlimited := inferType_lifetimes [sampleOption] (x := "static".toList) (by decide)
  have hlimited := inferType_lifetimes [sampleOption] (x := "a".toList) (by decide)
  have hstr := (hlimited.1 "str" "Option<&'a str>" (by decide)).2 (not_readsStatic (by decide))
  have hstring := (hlimited.1 "std::string::String" "Option<&'a std::string::String>" (by decide)).2
    (not_readsStatic (by decide))
  have hbytes := (hlimited.1 "[u8; size::OF]" "Option<&'a [u8; size::OF]>" (by decide)).2
    (not_readsStatic (by decide))
  refine ⟨?_, ?_, ?_, ?_, ?_, ?_⟩
  · exact (hunlimited.1 "str" "Option<&'static str>" (by decide)).1 "str".toList
      ⟨by decide, by decide⟩
  · exact hstr.1 (by decide)
  · exact (hstring.2 (by decide)).1 fun h => absurd h.1 (by decide)
  · exact (hbytes.2 (by decide)).2 ⟨by decide, by decide⟩
  · exact (hlimited.2 sampleCow _ rfl).1 (by decide)
  · exact (hlimited.2 sampleCow _ rfl).2 (by decide)

/-- A lifetime makes a known type unknown. -/
theorem inferType_lifetimes_ne :
    inferType "str" ≠ .json ∧ inferType "&'a str" ≠ inferType "& str" ∧
    inferType "Cow<'a, str>" ≠ inferType "Cow<str>" := by
  rw [inferType_eq_ofPlain (u := "str") (by decide), inferType_eq_ofPlain (u := "&'a str") (by decide),
    inferType_eq_ofPlain (u := "& str") (by decide),
    inferType_eq_ofPlain (u := "Cow<'a, str>") (by decide),
    inferType_eq_ofPlain (u := "Cow<str>") (by decide)]
  decide

end SchemaKeeper.Inference
