/-
Defaults that are read again.

What has been read of a reported default may be read once more.  Of a PostgreSQL default
the cast is taken off first and the parentheses after it, once each, so that a cast between
parentheses that had a cast after them comes to light too late.

* `trim_readDefault`: no dialect leaves blanks at the ends,
* `isBare_readPostgresDefault`: nothing but a cast can be left to take off,
* `beforeCast?_eq_none_of_isPrefix`: no cast is left before the first one, so that one comes
  to light only between parentheses,
* `readDefault_again`: so what has been read stays as it is unless there is a cast in it,
* `readDefault_again_ne`: and a cast may be left.
-/
import SchemaKeeper.Proofs.Comparison.BareDefaults
import SchemaKeeper.Proofs.Comparison.OwnDefaults
import SchemaKeeper.Proofs.Text.Trimming

namespace SchemaKeeper

open Text Number

namespace Dialect

variable {s t v : List Char} {inQuote : Bool} {depth : Nat}

/-! ### Casts -/

/-- The scan for a cast stops at a character or goes on behind it, in a state that does not depend
on what follows. -/
theorem beforeCast?_cons (inQuote : Bool) (depth : Nat) (c : Char) :
    ∃ inQuote' depth', ∀ r, beforeCast? inQuote depth (c :: r) =
      if c = ':' ∧ inQuote = false ∧ depth = 0 ∧ r.head? = some ':' then some []
      else (beforeCast? inQuote' depth' r).map (c :: ·) := by
  by_cases hquote : c = '\''
  · exact ⟨!inQuote, depth, fun r => by simp [beforeCast?, hquote]⟩
  · cases inQuote with
    | true => exact ⟨true, depth, fun r => by simp [beforeCast?, hquote]⟩
    | false =>
      by_cases hopen : c = '('
      · exact ⟨false, depth + 1, fun r => by simp [beforeCast?, hopen]⟩
      · by_cases hclose : c = ')'
        · exact ⟨false, depth - 1, fun r => by simp [beforeCast?, hclose]⟩
        · exact ⟨false, depth, fun r => by simp [beforeCast?, hquote, hopen, hclose]⟩

/-- What stands before a cast is followed by it. -/
theorem eq_of_beforeCast? (h : beforeCast? inQuote depth s = some v) :
    ∃ type, s = v ++ ':' :: ':' :: type := by
  induction s generalizing inQuote depth v with
  | nil => cases h
  | cons c r ih =>
    obtain ⟨inQuote', depth', hstep⟩ := beforeCast?_cons inQuote depth c
    rw [hstep] at h
    split at h
    · next hcolons =>
      obtain ⟨rfl, -, -, hnext⟩ := hcolons
      obtain ⟨type, rfl⟩ := List.head?_eq_some_iff.mp hnext
      cases h
      exact ⟨type, rfl⟩
    · obtain ⟨v, hv, rfl⟩ := Option.map_eq_some_iff.mp h
      obtain ⟨type, rfl⟩ := ih hv
      exact ⟨type, rfl⟩

/-- A cast is found whatever follows it. -/
theorem beforeCast?_append (h : beforeCast? inQuote depth s = some v) (t : List Char) :
    beforeCast? inQuote depth (s ++ t) = some v := by
  induction s generalizing inQuote depth v with
  | nil => cases h
  | cons c r ih =>
    obtain ⟨inQuote', depth', hstep⟩ := beforeCast?_cons inQuote depth c
    rw [hstep] at h
    rw [List.cons_append, hstep]
    split at h
    · next hcolons =>
      have hnext : (r ++ t).head? = some ':' := by
        rw [List.head?_append, hcolons.2.2.2, Option.some_or]
      rw [if_pos ⟨hcolons.1, hcolons.2.1, hcolons.2.2.1, hnext⟩, h]
    · next hcolons =>
      obtain ⟨v, hv, rfl⟩ := Option.map_eq_some_iff.mp h
      have hne : r ≠ [] := by
        rintro rfl
        cases hv
      rw [List.head?_append_of_ne_nil r hne, if_neg hcolons, ih hv, Option.map_some]

/-- Before the first cast there is none. -/
theorem beforeCast?_eq_none_of_isPrefix (h : beforeCast? inQuote depth s = some v) (ht : t <+: v) :
    beforeCast? inQuote depth t = none := by
  obtain ⟨type, hs⟩ := eq_of_beforeCast? h
  obtain ⟨more, rfl⟩ := ht
  cases hcast : beforeCast? inQuote depth t with
  | none => rfl
  | some w =>
    -- the cast would be found in the whole text, and before the first one
    have hfirst := beforeCast?_append hcast (more ++ ':' :: ':' :: type)
    rw [← List.append_assoc, ← hs, h] at hfirst
    obtain ⟨_, hw⟩ := eq_of_beforeCast? hcast
    have hlength := congrArg List.length (Option.some.inj hfirst)
    rw [hw] at hlength
    simp only [List.length_append, List.length_cons] at hlength
    omega

theorem trim_stripCast (h : trim s = s) : trim (stripCast s) = stripCast s := by
  unfold stripCast
  split
  · next v hv =>
    obtain ⟨type, rfl⟩ := eq_of_beforeCast? hv
    exact trim_trimEnd_of_isPrefix (List.prefix_append v _) (trimStart_of_trim h)
  · exact h

/-- Without its first cast a text has none. -/
theorem beforeCast?_stripCast (s : List Char) : beforeCast? false 0 (stripCast s) = none := by
  unfold stripCast
  split
  · next v hv => exact beforeCast?_eq_none_of_isPrefix hv (trimEnd_isPrefix v)
  · next hnone => exact hnone

/-- Only a text without a cast is left as it is. -/
theorem length_stripCast_lt (h : beforeCast? false 0 s ≠ none) :
    (stripCast s).length < s.length := by
  obtain ⟨v, hv⟩ := Option.ne_none_iff_exists'.mp h
  obtain ⟨type, rfl⟩ := eq_of_beforeCast? hv
  have hprefix := (trimEnd_isPrefix v).length_le
  rw [stripCast, hv]
  simp only [List.length_append, List.length_cons]
  omega

/-! ### Parentheses and quotes -/

theorem stripParens_eq_self (h : parenInner? s = none) : stripParens s = s := by
  rw [stripParens]
  split
  · next inside hinside =>
    rw [h] at hinside
    cases hinside
  · rfl

theorem trim_stripParens (h : trim s = s) : trim (stripParens s) = stripParens s := by
  fun_induction stripParens s with
  | case1 _ inside _ ih => exact ih (trim_trim inside)
  | case2 => exact h

theorem parenInner?_stripParens (s : List Char) : parenInner? (stripParens s) = none := by
  fun_induction stripParens s with
  | case1 _ inside _ ih => exact ih
  | case2 _ hnone => exact hnone

theorem length_stripParens_le (s : List Char) : (stripParens s).length ≤ s.length := by
  fun_induction stripParens s with
  | case1 _ inside hinside ih =>
    have hinner := length_of_parenInner? hinside
    have htrim := length_trim_le inside
    omega
  | case2 => exact Nat.le_refl _

/-- A word is in no parentheses. -/
theorem parenInner?_of_isWord (h : IsWord s) : parenInner? s = none := by
  obtain ⟨hne, hplain⟩ := h
  obtain ⟨c, r, rfl⟩ := List.exists_cons_of_ne_nil hne
  refine if_neg ?_
  rintro ⟨rfl, -⟩
  cases hplain '(' List.mem_cons_self

theorem beforeCast?_of_isWord (h : IsWord s) : beforeCast? false 0 s = none := by
  have hpasses := passes_of_isWord h.2 0 []
  rwa [List.append_nil] at hpasses

/-- A text loses its quotes only if a number is left. -/
theorem unquoteNumber_cases (s : List Char) :
    unquoteNumber s = s ∨ (unquoteNumber s).length < s.length ∧
      Decimal.isLiteral (unquoteNumber s) = true := by
  cases hinner : inner? '\'' s with
  | none => exact .inl (by rw [unquoteNumber, hinner])
  | some inside =>
    by_cases hliteral : Decimal.isLiteral inside = true
    · have heq : unquoteNumber s = inside := by
        rw [unquoteNumber, hinner]
        exact if_pos hliteral
      refine .inr ⟨?_, by rwa [heq]⟩
      rw [heq, inner?_eq_some.mp hinner]
      simp only [List.length_cons, List.length_append]
      omega
    · exact .inl (by rw [unquoteNumber, hinner]; exact if_neg hliteral)

/-! ### What is left to take off -/

theorem postgresKeyword?_cases {word keyword : String} (h : postgresKeyword? word = some keyword) :
    keyword ∈ ["CURRENT_TIMESTAMP", "TRUE", "FALSE", "NULL"] := by
  unfold postgresKeyword? at h
  split at h <;> cases h <;> decide

/-- A text with nothing to take off but a cast, and with its keyword as it is written. -/
structure IsBare (s : List Char) : Prop where
  trimmed : trim s = s
  parens : parenInner? s = none
  quotes : unquoteNumber s = s
  keyword : ∀ keyword, postgresKeyword? (String.ofList (lower s)) = some keyword →
    keyword.toList = s

theorem isBare_of_keyword {keyword : String}
    (h : keyword ∈ ["CURRENT_TIMESTAMP", "TRUE", "FALSE", "NULL"]) :
    IsBare keyword.toList ∧ beforeCast? false 0 keyword.toList = none := by
  simp only [List.mem_cons, List.not_mem_nil, or_false] at h
  rcases h with rfl | rfl | rfl | rfl <;>
    exact ⟨⟨by decide, by decide, by decide, fun _ hsome => by cases hsome; rfl⟩, by decide⟩

/-- An expression without a cast, parentheses and the quotes of a number. -/
def unwrap (s : List Char) : List Char :=
  unquoteNumber (stripParens (stripCast s))

theorem readPostgresDefault_eq (raw : List Char) :
    readPostgresDefault raw =
      match postgresKeyword? (String.ofList (lower (unwrap (trim raw)))) with
      | some keyword => keyword.toList
      | none => unwrap (trim raw) := rfl

/-- What is read of a default is a keyword or what is left of the expression. -/
theorem readPostgresDefault_cases (raw : List Char) :
    (∃ keyword ∈ ["CURRENT_TIMESTAMP", "TRUE", "FALSE", "NULL"],
        readPostgresDefault raw = keyword.toList) ∨
      readPostgresDefault raw = unwrap (trim raw) ∧
        postgresKeyword? (String.ofList (lower (unwrap (trim raw)))) = none := by
  rw [readPostgresDefault_eq]
  split
  · next keyword hkeyword => exact .inl ⟨keyword, postgresKeyword?_cases hkeyword, rfl⟩
  · next hnone => exact .inr ⟨rfl, hnone⟩

/-- Nothing but a cast is left to take off. -/
theorem isBare_readPostgresDefault (raw : List Char) : IsBare (readPostgresDefault raw) := by
  rcases readPostgresDefault_cases raw with ⟨keyword, hkeyword, heq⟩ | ⟨heq, hnone⟩
  · rw [heq]
    exact (isBare_of_keyword hkeyword).1
  · rw [heq]
    have hword : ∀ keyword, postgresKeyword? (String.ofList (lower (unwrap (trim raw)))) =
        some keyword → keyword.toList = unwrap (trim raw) := by
      intro keyword hsome
      rw [hnone] at hsome
      cases hsome
    unfold unwrap at hword ⊢
    rcases unquoteNumber_cases (stripParens (stripCast (trim raw))) with hquotes | ⟨-, hliteral⟩
    · rw [hquotes] at hword ⊢
      exact ⟨trim_stripParens (trim_stripCast (trim_trim raw)), parenInner?_stripParens _, hquotes,
        hword⟩
    · exact ⟨trim_of_isAtom (.inl (isWord_of_isLiteral hliteral)),
        parenInner?_of_isWord (isWord_of_isLiteral hliteral), unquoteNumber_of_isLiteral hliteral,
        hword⟩

/-- Such a text is read as it is exactly if there is no cast in it. -/
theorem IsBare.readPostgresDefault_eq_self_iff (h : IsBare s) :
    readPostgresDefault s = s ↔ beforeCast? false 0 s = none := by
  constructor
  · intro heq
    by_contra hcast
    rcases readPostgresDefault_cases s with ⟨keyword, hkeyword, hread⟩ | ⟨hread, -⟩
    · -- no keyword has a cast in it
      have hs : s = keyword.toList := heq.symm.trans hread
      rw [hs] at hcast
      exact hcast (isBare_of_keyword hkeyword).2
    · -- without the cast it is shorter
      have hcut := length_stripCast_lt hcast
      have hparens := length_stripParens_le (stripCast s)
      have hlength := congrArg List.length (heq.symm.trans hread)
      rw [h.trimmed, unwrap] at hlength
      rcases unquoteNumber_cases (stripParens (stripCast s)) with hquotes | ⟨hquotes, -⟩
      · rw [hquotes] at hlength
        omega
      · omega
  · intro hnone
    have hvalue : unwrap (trim s) = s := by
      have hcast : stripCast s = s := by rw [stripCast, hnone]
      rw [h.trimmed, unwrap, hcast, stripParens_eq_self h.parens, h.quotes]
    rw [readPostgresDefault_eq, hvalue]
    split
    · next keyword hkeyword => exact h.keyword keyword hkeyword
    · rfl

/-- A cast is left only if there were parentheses around it. -/
theorem beforeCast?_readPostgresDefault {raw : List Char}
    (h : parenInner? (stripCast (trim raw)) = none) :
    beforeCast? false 0 (readPostgresDefault raw) = none := by
  rcases readPostgresDefault_cases raw with ⟨keyword, hkeyword, heq⟩ | ⟨heq, -⟩
  · rw [heq]
    exact (isBare_of_keyword hkeyword).2
  · rw [heq, unwrap, stripParens_eq_self h]
    rcases unquoteNumber_cases (stripCast (trim raw)) with hquotes | ⟨-, hliteral⟩
    · rw [hquotes]
      exact beforeCast?_stripCast _
    · exact beforeCast?_of_isWord (isWord_of_isLiteral hliteral)

/-! ### MySQL -/

/-- What is read of a default is a keyword, the text without blanks around it or its literal. -/
theorem readMysqlDefault_cases (raw : List Char) :
    readMysqlDefault raw ∈ ["CURRENT_TIMESTAMP".toList, "NULL".toList] ∨
      (readMysqlDefault raw = trim raw ∧ readMysqlDefault (trim raw) = trim raw) ∨
      readMysqlDefault raw = enclose '\'' (trim raw) := by
  have hagain : readMysqlDefault (trim raw) = readMysqlDefault raw := by
    rw [readMysqlDefault, readMysqlDefault, trim_trim]
  rw [hagain]
  unfold readMysqlDefault
  dsimp only
  split
  · next keyword hkeyword =>
    rcases mysqlKeyword?_cases hkeyword with rfl | rfl <;> exact .inl (by decide)
  · split
    · exact .inr (.inl ⟨rfl, rfl⟩)
    · exact .inr (.inr rfl)

theorem readMysqlDefault_enclose (s : List Char) :
    readMysqlDefault (enclose '\'' s) = enclose '\'' s := by
  have hliteral := readDefault_mysql_literal (String.ofList s)
  rw [literal, quoted, String.toList_ofList] at hliteral
  have hlists := String.ofList_inj.mp hliteral
  rwa [String.toList_ofList] at hlists

/-- What has been read stays as it is, and it has no blanks at its ends. -/
theorem readMysqlDefault_again (raw : List Char) :
    readMysqlDefault (readMysqlDefault raw) = readMysqlDefault raw ∧
      trim (readMysqlDefault raw) = readMysqlDefault raw := by
  rcases readMysqlDefault_cases raw with hkeyword | ⟨heq, hagain⟩ | heq
  · have hkeywords : ∀ s ∈ ["CURRENT_TIMESTAMP".toList, "NULL".toList],
        readMysqlDefault s = s ∧ trim s = s := by
      decide +kernel
    exact hkeywords _ hkeyword
  · rw [heq]
    exact ⟨hagain, trim_trim raw⟩
  · rw [heq]
    exact ⟨readMysqlDefault_enclose _, trim_of_isAtom (.inr ⟨_, rfl⟩)⟩

/-! ### All dialects -/

variable {raw : String}

theorem toList_readDefault_sqlite : (sqlite.readDefault raw).toList = trim raw.toList :=
  String.toList_ofList

theorem toList_readDefault_postgres :
    (postgres.readDefault raw).toList = readPostgresDefault raw.toList :=
  String.toList_ofList

theorem toList_readDefault_mysql : (mysql.readDefault raw).toList = readMysqlDefault raw.toList :=
  String.toList_ofList

/-- No blanks are left at the ends. -/
theorem trim_readDefault (d : Dialect) (raw : String) :
    trim (d.readDefault raw).toList = (d.readDefault raw).toList := by
  cases d with
  | sqlite =>
    rw [toList_readDefault_sqlite]
    exact trim_trim raw.toList
  | postgres =>
    rw [toList_readDefault_postgres]
    exact (isBare_readPostgresDefault raw.toList).trimmed
  | mysql =>
    rw [toList_readDefault_mysql]
    exact (readMysqlDefault_again raw.toList).2

theorem readDefault_again_iff (d : Dialect) (raw : String) :
    d.readDefault (d.readDefault raw) = d.readDefault raw ↔
      (d = .postgres → beforeCast? false 0 (d.readDefault raw).toList = none) := by
  rw [← String.toList_inj]
  cases d with
  | sqlite =>
    rw [toList_readDefault_sqlite, toList_readDefault_sqlite]
    exact iff_of_true (trim_trim raw.toList) fun h => by cases h
  | postgres =>
    rw [toList_readDefault_postgres, toList_readDefault_postgres,
      (isBare_readPostgresDefault raw.toList).readPostgresDefault_eq_self_iff]
    exact ⟨fun hnone _ => hnone, fun hnone => hnone rfl⟩
  | mysql =>
    rw [toList_readDefault_mysql, toList_readDefault_mysql]
    exact iff_of_true (readMysqlDefault_again raw.toList).1 fun h => by cases h

/-- **What has been read of a default stays as it is when it is read again, unless a cast was left
in it.**  This happens in PostgreSQL alone, and only where there were parentheses to be taken off
after the cast.  Blanks at the ends and parentheses around the whole are never left. -/
theorem readDefault_again (d : Dialect) (raw : String) :
    trim (d.readDefault raw).toList = (d.readDefault raw).toList ∧
    (d = .postgres → parenInner? (d.readDefault raw).toList = none) ∧
    (d.readDefault (d.readDefault raw) = d.readDefault raw ↔
      (d = .postgres → beforeCast? false 0 (d.readDefault raw).toList = none)) ∧
    (parenInner? (stripCast (trim raw.toList)) = none →
      d.readDefault (d.readDefault raw) = d.readDefault raw) := by
  refine ⟨trim_readDefault d raw, ?_, readDefault_again_iff d raw, fun h => ?_⟩
  · rintro rfl
    rw [toList_readDefault_postgres]
    exact (isBare_readPostgresDefault raw.toList).parens
  · rw [readDefault_again_iff]
    rintro rfl
    rw [toList_readDefault_postgres]
    exact beforeCast?_readPostgresDefault h

/-- The colons between the quotes are no cast, so what is left of the default stays. -/
theorem readDefault_again_of_sample :
    parenInner? (stripCast (trim " 'a::b' ::text ".toList)) = none ∧
      postgres.readDefault " 'a::b' ::text " = "'a::b'" ∧
      postgres.readDefault "'a::b'" = "'a::b'" := by
  have hparens : parenInner? (stripCast (trim " 'a::b' ::text ".toList)) = none := by decide
  have hread : postgres.readDefault " 'a::b' ::text " = "'a::b'" := by decide +kernel
  have hagain := (readDefault_again .postgres " 'a::b' ::text ").2.2.2 hparens
  rw [hread] at hagain
  exact ⟨hparens, hread, hagain⟩

/-- A cast in parentheses that have a cast after them is left, and gone when the default is read
again. -/
theorem readDefault_again_ne :
    postgres.readDefault "('active'::character varying)::text" = "'active'::character varying" ∧
      postgres.readDefault (postgres.readDefault "('active'::character varying)::text") =
        "'active'" := by
  decide +kernel

end Dialect

end SchemaKeeper
