/-
Names of declared types.

The name of a declared type is what stands outside parentheses, in capitals and with single
spaces.  So a type may be declared in many ways: `Restyled` is the relation between two texts
that differ in the case of letters, in blanks, or in groups in parentheses.

* `outside_append_depth`, `outside_group_append`: what stands outside parentheses is told piece by
  piece, and a group in parentheses adds nothing to it,
* `base_of_restyled`: texts that differ in their style alone have one name,
* `isBaseName_base`, `base_base`: a name is a text of a simple form, and has itself for a name,
* `sameType_of_restyled`: so a reported type is the wanted one whatever its style.
-/
import SchemaKeeper.Dialect.TypeName
import SchemaKeeper.Proofs.Column.Spelling
import SchemaKeeper.Proofs.Text.Words

namespace SchemaKeeper

open Text

namespace TypeText

variable {s t g b : List Char} {c : Char}

/-! ### Parentheses -/

/-- A text in which every parenthesis has its partner. -/
inductive Balanced : List Char → Prop
  | nil : Balanced []
  | char {c : Char} {s : List Char} : c ≠ '(' → c ≠ ')' → Balanced s → Balanced (c :: s)
  | group {g s : List Char} : Balanced g → Balanced s → Balanced ('(' :: (g ++ ')' :: s))

/-- The number of open parentheses after a text, `depth` being open before it. -/
def depthAfter (depth : Nat) (s : List Char) : Nat :=
  s.foldl Text.depthAfter depth

theorem outside_append_depth (d : Nat) (s t : List Char) :
    outside d (s ++ t) = outside d s ++ outside (depthAfter d s) t := by
  induction s generalizing d with
  | nil => rfl
  | cons c r ih =>
    show outside d (c :: (r ++ t)) =
      outside d (c :: r) ++ outside (depthAfter (Text.depthAfter d c) r) t
    rw [outside, outside, Text.depthAfter]
    split
    · exact ih (d + 1)
    · split
      · exact ih (d - 1)
      · split
        · rw [ih, List.cons_append]
        · exact ih d

theorem depthAfter_of_balanced (h : Balanced s) (d : Nat) : depthAfter d s = d := by
  induction h generalizing d with
  | nil => rfl
  | @char c s hopen hclose _ ih =>
    have hsame : Text.depthAfter d c = d := by rw [Text.depthAfter, if_neg hopen, if_neg hclose]
    rw [depthAfter, List.foldl_cons, hsame, ← depthAfter, ih]
  | @group g s _ _ ihg ihs =>
    have hgroup : depthAfter d ('(' :: (g ++ ')' :: s)) =
        depthAfter (Text.depthAfter (depthAfter (d + 1) g) ')') s := List.foldl_append ..
    rw [hgroup, ihg]
    exact ihs d

/-- Within parentheses nothing is outside. -/
theorem outside_of_balanced (h : Balanced s) (d : Nat) : outside (d + 1) s = [] := by
  induction h generalizing d with
  | nil => rfl
  | char hopen hclose _ ih =>
    rw [outside, if_neg hopen, if_neg hclose, if_neg (Nat.succ_ne_zero d), ih]
  | @group g s hg _ ihg ihs =>
    -- one level further in for `g`, and back at the closing parenthesis
    have hclose : outside (d + 2) (')' :: s) = outside (d + 1) s := by simp [outside]
    rw [outside, if_pos rfl, outside_append_depth, ihg, depthAfter_of_balanced hg, hclose, ihs]
    rfl

theorem outside_group_append (hg : Balanced g) (d : Nat) (t : List Char) :
    outside d ('(' :: (g ++ ')' :: t)) = outside d t := by
  have hclose : outside (d + 1) (')' :: t) = outside d t := by simp [outside]
  rw [outside, if_pos rfl, outside_append_depth, outside_of_balanced hg, depthAfter_of_balanced hg,
    hclose]
  rfl

/-- What stands outside parentheses has none of its own, closed or not. -/
theorem ne_of_mem_outside {d : Nat} (h : c ∈ outside d s) : c ≠ '(' ∧ c ≠ ')' := by
  induction s generalizing d with
  | nil => cases h
  | cons x r ih =>
    rw [outside] at h
    split at h
    · exact ih h
    · next hopen =>
      split at h
      · exact ih h
      · next hclose =>
        split at h
        · rcases List.mem_cons.mp h with rfl | h
          · exact ⟨hopen, hclose⟩
          · exact ih h
        · exact ih h

/-! ### The style of a type -/

/-- The same type in another style. -/
inductive Restyled : List Char → List Char → Prop
  /-- Letters change their case. -/
  | recased {s t : List Char} : sameLetters s t = true → Restyled s t
  /-- Blanks outside parentheses are replaced by others. -/
  | respaced {s b b' t : List Char} : depthAfter 0 s = 0 → IsBlanks b → b ≠ [] → IsBlanks b' →
      b' ≠ [] → Restyled (s ++ (b ++ t)) (s ++ (b' ++ t))
  /-- Blanks are put around the text. -/
  | padded {b s b' : List Char} : IsBlanks b → IsBlanks b' → Restyled s (b ++ (s ++ b'))
  /-- A group in parentheses is put anywhere. -/
  | grouped {s g t : List Char} : Balanced g → Restyled (s ++ t) (s ++ '(' :: (g ++ ')' :: t))
  | trans {s t u : List Char} : Restyled s t → Restyled t u → Restyled s u

theorem outside_lower (d : Nat) (s : List Char) : outside d (lower s) = lower (outside d s) := by
  induction s generalizing d with
  | nil => rfl
  | cons c r ih =>
    show outside d (c.toLower :: lower r) = _
    rw [outside, outside]
    simp only [toLower_eq_iff (d := '(') (.inl (by decide)),
      toLower_eq_iff (d := ')') (.inl (by decide))]
    split
    · exact ih (d + 1)
    · split
      · exact ih (d - 1)
      · split
        · rw [ih]
          rfl
        · exact ih d

theorem base_of_sameLetters (h : sameLetters s t = true) : base s = base t := by
  have houtside : sameLetters (outside 0 s) (outside 0 t) = true := by
    rw [sameLetters, beq_iff_eq, ← outside_lower, ← outside_lower, beq_iff_eq.mp h]
  rw [base, base, upper_of_sameLetters houtside]

/-- Blanks stand outside or inside as a whole. -/
theorem outside_blanks_append (hb : IsBlanks b) (d : Nat) (t : List Char) :
    outside d (b ++ t) = (if d = 0 then b else []) ++ outside d t :=
  have hnone := (isUnmarked_of_isBlanks hb).parentheses
  outside_append hnone.1 hnone.2

theorem upper_append (s t : List Char) : upper (s ++ t) = upper s ++ upper t :=
  List.map_append ..

/-- The words of a name are parted by any blanks alike. -/
theorem base_append_blanks_append (hs : depthAfter 0 s = 0) (hb : IsBlanks b) (hne : b ≠ [])
    (t : List Char) : base (s ++ (b ++ t)) =
      List.intercalate [' '] (words (upper (outside 0 s)) ++ words (upper (outside 0 t))) := by
  rw [base, outside_append_depth, hs, outside_blanks_append hb, if_pos rfl, upper_append,
    upper_append, spaced, words_append_blanks_append hb.upper (mt List.map_eq_nil_iff.mp hne)]

theorem isBlanks_outside (hb : IsBlanks b) (d : Nat) : IsBlanks (outside d b) := by
  have houtside := outside_blanks_append hb d []
  rw [List.append_nil, outside, List.append_nil] at houtside
  rw [houtside]
  split
  · exact hb
  · exact List.forall_mem_nil _

theorem base_pad {b' : List Char} (hb : IsBlanks b) (hb' : IsBlanks b') (s : List Char) :
    base (b ++ (s ++ b')) = base s := by
  -- parentheses of `s` may be open at its end, then the blanks behind it do not count at all
  have hend : IsBlanks (upper (outside (depthAfter 0 s) b')) := (isBlanks_outside hb' _).upper
  rw [base, outside_blanks_append hb, if_pos rfl, outside_append_depth, upper_append, upper_append,
    spaced, words_blanks_append hb.upper, words_append_blanks hend]
  rfl

theorem base_of_restyled (h : Restyled s t) : base t = base s := by
  induction h with
  | recased hsame => exact (base_of_sameLetters hsame).symm
  | respaced hs hb hne hb' hne' =>
    rw [base_append_blanks_append hs hb hne, base_append_blanks_append hs hb' hne']
  | padded hb hb' => exact base_pad hb hb' _
  | grouped hg =>
    rw [base, base, outside_append_depth, outside_append_depth, outside_group_append hg]
  | trans _ _ ih ih' => rw [ih', ih]

/-! ### The form of a name -/

/-- A name in capitals and with single spaces. -/
structure IsBaseName (name : List Char) : Prop extends IsSingleSpaced name where
  parentheses : '(' ∉ name ∧ ')' ∉ name
  capitals : ∀ c ∈ name, c.isLower = false

theorem isBaseName_base (s : List Char) : IsBaseName (base s) where
  toIsSingleSpaced := isSingleSpaced_spaced _
  parentheses := by
    -- a parenthesis is no letter, so it is in capitals only if it was there before
    have hnone : ∀ d, d ≠ ' ' → d.toNat < 65 → d ∉ outside 0 s → d ∉ base s := by
      intro d hspace hd houtside hmem
      rcases mem_of_mem_spaced hmem with hmem | hmem
      · obtain ⟨x, hx, hupper⟩ := List.mem_map.mp hmem
        rw [(toUpper_eq_iff (.inl hd) x).mp hupper] at hx
        exact houtside hx
      · exact hspace hmem
    exact ⟨hnone _ (by decide) (by decide) fun h => (ne_of_mem_outside h).1 rfl,
      hnone _ (by decide) (by decide) fun h => (ne_of_mem_outside h).2 rfl⟩
  capitals := by
    intro c hc
    rcases mem_of_mem_spaced hc with hc | rfl
    · obtain ⟨x, -, rfl⟩ := List.mem_map.mp hc
      exact isLower_toUpper x
    · rfl

/-- A name is its own name. -/
theorem base_base (s : List Char) : base (base s) = base s := by
  have hbase := isBaseName_base s
  have hupper : upper (base s) = base s :=
    (List.map_congr_left fun c hc => toUpper_of_isLower_eq_false (hbase.capitals c hc)).trans
      (List.map_id _)
  rw [base, outside_eq_self hbase.parentheses.1 hbase.parentheses.2, hupper, base, spaced_spaced]

end TypeText

open TypeText

namespace Dialect

/-- **A reported type is the wanted one whatever its style.**  Letters may change their case, blanks
outside parentheses and at the ends may be others, and groups in parentheses may be put anywhere.
What counts is the name, in capitals and with single spaces, which is its own name. -/
theorem sameType_of_restyled (d : Dialect) (wanted : ColumnType) (raw : String) :
    (∀ raw' : String, Restyled raw.toList raw'.toList →
      d.sameType wanted raw' = d.sameType wanted raw) ∧
    IsBaseName (baseName raw).toList ∧ baseName (baseName raw) = baseName raw := by
  refine ⟨fun raw' h => ?_, ?_, ?_⟩
  · have hname : baseName raw' = baseName raw := congrArg String.ofList (base_of_restyled h)
    unfold sameType
    rw [hname]
  · rw [baseName, String.toList_ofList]
    exact isBaseName_base raw.toList
  · rw [baseName, baseName, String.toList_ofList, base_base]

theorem sameType_of_restyled_of_sample :
    Restyled "int(4) unsigned".toList " INT(4)\t\t(x)Unsigned".toList ∧
    mysql.sameType .int " INT(4)\t\t(x)Unsigned" = mysql.sameType .int "int(4) unsigned" := by
  have hrecased : Restyled "int(4) unsigned".toList "INT(4) Unsigned".toList := .recased (by decide)
  have hrespaced : Restyled "INT(4) Unsigned".toList "INT(4)\t\tUnsigned".toList :=
    @Restyled.respaced "INT(4)".toList " ".toList "\t\t".toList "Unsigned".toList rfl (by decide)
      (by decide) (by decide) (by decide)
  have hgrouped : Restyled "INT(4)\t\tUnsigned".toList "INT(4)\t\t(x)Unsigned".toList :=
    @Restyled.grouped "INT(4)\t\t".toList _ "Unsigned".toList
      (.char (by decide) (by decide) .nil)
  have hpadded : Restyled "INT(4)\t\t(x)Unsigned".toList " INT(4)\t\t(x)Unsigned".toList :=
    @Restyled.padded " ".toList "INT(4)\t\t(x)Unsigned".toList [] (by decide) (by decide)
  have hstyle := hrecased.trans (hrespaced.trans (hgrouped.trans hpadded))
  exact ⟨hstyle, (sameType_of_restyled mysql .int "int(4) unsigned").1 _ hstyle⟩

end Dialect

end SchemaKeeper
