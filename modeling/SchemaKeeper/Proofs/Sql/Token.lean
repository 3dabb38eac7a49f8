/-
Tokens of SQL.

SQL is read here as far as its quotes go: a text between quotes is one token, an
identifier or a literal, and every other character is a token of its own.

* `write` writes tokens and `read?` reads a text, unless a quote in it is never closed,
* `read?_write`: tokens that can be told apart (`Legible`) are read back as they were
  written,
* `Spells` says by which tokens a text is written.  It goes from the parts of a text to
  the whole (`Spells.append`), because every part starts outside quotes.
-/
import Mathlib.Data.List.Chain
import SchemaKeeper.Text.Quoted

namespace SchemaKeeper

namespace Text

/-- The text before the quote that closes it, with its doubled quotes made single, and what follows
that quote; nothing is read if no quote closes the text. -/
def close? (q : Char) : List Char → Option (List Char × List Char)
  | [] => none
  | [c] => if c = q then some ([], []) else none
  | c :: d :: r =>
    if c = q then
      if d = q then (close? q r).map fun p => (q :: p.1, p.2) else some ([], d :: r)
    else (close? q (d :: r)).map fun p => (c :: p.1, p.2)

theorem length_of_close? {q : Char} {s inside rest : List Char}
    (h : close? q s = some (inside, rest)) : rest.length < s.length := by
  fun_induction close? q s generalizing inside with
  | case1 => cases h
  | case2 =>
    cases h
    simp
  | case3 => cases h
  | case4 r ih =>
    obtain ⟨⟨_, _⟩, hr, heq⟩ := Option.map_eq_some_iff.mp h
    cases heq
    have := ih hr
    simp only [List.length_cons] at *
    omega
  | case5 =>
    cases h
    simp
  | case6 c d r _ ih =>
    obtain ⟨⟨_, _⟩, hr, heq⟩ := Option.map_eq_some_iff.mp h
    cases heq
    have := ih hr
    simp only [List.length_cons] at *
    omega

/-- A text whose quotes are doubled is closed by the quote after it. -/
theorem close?_encode (q : Char) (s : List Char) {rest : List Char} (hrest : rest.head? ≠ some q) :
    close? q (encode q s ++ q :: rest) = some (s, rest) := by
  induction s with
  | nil =>
    cases rest with
    | nil => simp [encode, close?]
    | cons d r =>
      have hd : d ≠ q := by simpa using hrest
      simp [encode, close?, hd]
  | cons c r ih =>
    by_cases hc : c = q
    · simp [encode, hc, close?, ih]
    · obtain ⟨d, u, hu⟩ : ∃ d u, encode q r ++ q :: rest = d :: u :=
        List.exists_cons_of_ne_nil (by simp)
      rw [hu] at ih
      simp [encode, hc, hu, close?, ih]

end Text

namespace Sql

open Text

/-! ### Reading and writing -/

inductive Token where
  /-- A name between the quotes of the dialect. -/
  | identifier (name : String)
  /-- A text between single quotes. -/
  | literal (text : String)
  /-- A character outside quotes. -/
  | plain (c : Char)
deriving Repr, DecidableEq

/-- Whether the token is a text between quotes. -/
def Token.isQuoted : Token → Bool
  | identifier _ | literal _ => true
  | plain _ => false

/-- A token as it is written, where `q` is the quote around identifiers. -/
def Token.chars (q : Char) : Token → List Char
  | identifier name => enclose q name.toList
  | literal text => enclose '\'' text.toList
  | plain c => [c]

/-- Tokens as they are written. -/
def write (q : Char) (ts : List Token) : List Char :=
  ts.flatMap (Token.chars q)

/-- The kind of token that a quote opens, if the character is a quote. -/
def opened? (q c : Char) : Option (String → Token) :=
  if c = q then some .identifier else if c = '\'' then some .literal else none

/-- The tokens of a text.  None are read if a quote is never closed. -/
def read? (q : Char) : List Char → Option (List Token)
  | [] => some []
  | c :: r =>
    match opened? q c with
    | none => (read? q r).map (.plain c :: ·)
    | some kind =>
      match _h : close? c r with
      | some (inside, rest) => (read? q rest).map (kind (String.ofList inside) :: ·)
      | none => none
termination_by s => s.length
decreasing_by
  · simp
  · have := length_of_close? _h
    simp only [List.length_cons]
    omega

/-- Characters outside quotes. -/
def plainText (s : List Char) : List Token :=
  s.map .plain

section

variable {q : Char} {s s' : List Char} {ts ts' : List Token}

@[simp] theorem write_nil : write q [] = [] := rfl

@[simp] theorem write_cons (t : Token) : write q (t :: ts) = t.chars q ++ write q ts :=
  List.flatMap_cons

@[simp] theorem write_append : write q (ts ++ ts') = write q ts ++ write q ts' :=
  List.flatMap_append

@[simp] theorem write_plainText : write q (plainText s) = s := by
  induction s with
  | nil => rfl
  | cons c r ih => exact congrArg (c :: ·) ih

theorem plainText_append : plainText (s ++ s') = plainText s ++ plainText s' :=
  List.map_append

theorem mem_plainText {t : Token} : t ∈ plainText s ↔ ∃ c ∈ s, .plain c = t :=
  List.mem_map

theorem read?_plain {c : Char} (h : opened? q c = none) (r : List Char) :
    read? q (c :: r) = (read? q r).map (.plain c :: ·) := by
  rw [read?, h]

theorem read?_enclose {c : Char} {kind : String → Token} (h : opened? q c = some kind)
    (inside : String) {r : List Char} (hr : r.head? ≠ some c) :
    read? q (enclose c inside.toList ++ r) = (read? q r).map (kind inside :: ·) := by
  have hclose := close?_encode c inside.toList hr
  rw [enclose, List.cons_append, List.append_assoc, List.singleton_append, read?, h]
  simp only
  split
  · next inside' rest h' =>
    rw [hclose] at h'
    cases h'
    rw [String.ofList_toList]
  · next h' => rw [hclose] at h'; cases h'

/-! ### Tokens that can be told apart -/

/-- No two texts between quotes touch, and no other token is a quote. -/
structure Legible (q : Char) (ts : List Token) : Prop where
  apart : ts.IsChain fun a b => a.isQuoted = false ∨ b.isQuoted = false
  unquoted : ∀ c, .plain c ∈ ts → c ≠ q ∧ c ≠ '\''

theorem Legible.of_cons {t : Token} (h : Legible q (t :: ts)) : Legible q ts where
  apart := h.apart.tail
  unquoted c hc := h.unquoted c (List.mem_cons_of_mem _ hc)

/-- After a text between quotes comes no quote. -/
theorem Legible.head?_write {t : Token} (h : Legible q (t :: ts)) (ht : t.isQuoted = true) {c : Char}
    (hc : c = q ∨ c = '\'') : (write q ts).head? ≠ some c := by
  cases ts with
  | nil => simp
  | cons next r =>
    have hnext : next.isQuoted = false := by
      have := (List.isChain_cons.mp h.apart).1 next rfl
      simpa [ht] using this
    cases next with
    | plain d =>
      have hd := h.unquoted d (by simp)
      rintro ⟨⟩
      exact hc.elim hd.1 hd.2
    | _ => cases hnext

/-- What is written is read back. -/
theorem read?_write (hq : q ≠ '\'') (h : Legible q ts) : read? q (write q ts) = some ts := by
  induction ts with
  | nil => rw [write_nil, read?]
  | cons t r ih =>
    have ih := ih h.of_cons
    rw [write_cons]
    cases t with
    | identifier name =>
      have hopens : opened? q q = some .identifier := by simp [opened?]
      rw [Token.chars, read?_enclose hopens name (h.head?_write rfl (.inl rfl)), ih]
      rfl
    | literal text =>
      have hopens : opened? q '\'' = some .literal := by simp [opened?, hq.symm]
      rw [Token.chars, read?_enclose hopens text (h.head?_write rfl (.inr rfl)), ih]
      rfl
    | plain c =>
      have hc : opened? q c = none := by simp [opened?, h.unquoted c]
      rw [Token.chars, List.singleton_append, read?_plain hc, ih]
      rfl

/-! ### Texts written by tokens -/

/-- The text is written by tokens that can be told apart.  The first of them is no text between
quotes, so that they may follow any other tokens. -/
structure Spells (q : Char) (s : List Char) (ts : List Token) : Prop where
  eq_write : s = write q ts
  legible : Legible q ts
  starts : ∀ t ∈ ts.head?, t.isQuoted = false

theorem Spells.append (h : Spells q s ts) (h' : Spells q s' ts') :
    Spells q (s ++ s') (ts ++ ts') where
  eq_write := by rw [write_append, ← h.eq_write, ← h'.eq_write]
  legible :=
    { apart := List.isChain_append.mpr ⟨h.legible.apart, h'.legible.apart, fun _ _ b hb =>
        .inr (h'.starts b hb)⟩
      unquoted := fun c hc =>
        (List.mem_append.mp hc).elim (h.legible.unquoted c) (h'.legible.unquoted c) }
  starts := by
    cases ts with
    | nil => exact h'.starts
    | cons t r => exact h.starts

theorem spells_plainText (h : ∀ c ∈ s, c ≠ q ∧ c ≠ '\'') : Spells q s (plainText s) where
  eq_write := write_plainText.symm
  legible :=
    { apart := (List.pairwise_map.mpr (List.pairwise_of_forall fun _ _ => .inl rfl)).isChain
      unquoted := fun c hc => by
        obtain ⟨d, hd, heq⟩ := mem_plainText.mp hc
        cases heq
        exact h c hd }
  starts t ht := by
    obtain ⟨c, -, rfl⟩ := mem_plainText.mp (List.mem_of_mem_head? ht)
    rfl

/-- A token may follow characters outside quotes. -/
theorem Spells.concat (h : Spells q s (plainText s)) (hne : s ≠ []) (t : Token) (ht : t.isQuoted) :
    Spells q (s ++ t.chars q) (plainText s ++ [t]) where
  eq_write := by simp
  legible :=
    { apart := List.isChain_append.mpr ⟨h.legible.apart, .singleton t, fun a ha _ _ => by
        obtain ⟨c, -, rfl⟩ := mem_plainText.mp (List.mem_of_getLast? ha)
        exact .inl rfl⟩
      unquoted := fun c hc => by
        rcases List.mem_append.mp hc with hc | hc
        · exact h.legible.unquoted c hc
        · rw [← List.mem_singleton.mp hc] at ht
          cases ht }
  starts := by
    obtain ⟨c, r, rfl⟩ := List.exists_cons_of_ne_nil hne
    rintro _ ⟨⟩
    rfl

end

end Sql

end SchemaKeeper
