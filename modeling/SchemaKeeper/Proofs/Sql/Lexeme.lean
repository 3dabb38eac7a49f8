/-
Words of SQL.

The characters outside quotes are put together here: letters, digits and underscores
that touch make up a word, blanks part words, and any other character is a mark of its
own.

* `lexemes_append`: two runs of tokens may be read one after the other, unless a word
  goes on from the one into the other,
* `names_listed`: of a list of names the names are read,
* `plain_mem_of_word`: the characters of a word stand outside quotes,
* `entries?` reads what stands between the commas of a statement (`items?`) as lexemes,
  without the blanks around it.
-/
import SchemaKeeper.Proofs.Sql.Body

namespace SchemaKeeper.Sql

open Text

inductive Lexeme where
  | word (s : String)
  | mark (c : Char)
  /-- A name between the quotes of the dialect. -/
  | identifier (name : String)
  /-- A text between single quotes. -/
  | literal (text : String)
deriving Repr, DecidableEq

/-- The name of an identifier. -/
def Lexeme.name? : Lexeme → Option String
  | identifier name => some name
  | _ => none

/-- The names among lexemes, in their order. -/
def names (ls : List Lexeme) : List String :=
  ls.filterMap Lexeme.name?

/-- Names with commas between them. -/
def listed (cs : List String) : List Lexeme :=
  (cs.map .identifier).intersperse (.mark ',')

/-- A character that words are made of. -/
def isOfWords (c : Char) : Bool :=
  c.isAlphanum || c == '_'

/-- Whether a word may go on with the token. -/
def Token.isOfWords : Token → Bool
  | plain c => Sql.isOfWords c
  | _ => false

/-- The word of the given characters, if there are any. -/
def wordOf (w : List Char) : List Lexeme :=
  if w.isEmpty then [] else [.word (String.ofList w)]

/-- The lexemes of tokens, where a word has begun with the characters `w`. -/
def lexemesAfter (w : List Char) : List Token → List Lexeme
  | [] => wordOf w
  | .identifier name :: r => wordOf w ++ .identifier name :: lexemesAfter [] r
  | .literal text :: r => wordOf w ++ .literal text :: lexemesAfter [] r
  | .plain c :: r =>
    if isOfWords c then lexemesAfter (w ++ [c]) r
    else if isBlank c then wordOf w ++ lexemesAfter [] r
    else wordOf w ++ .mark c :: lexemesAfter [] r

/-- The words, marks and quoted texts of tokens. -/
def lexemes (ts : List Token) : List Lexeme :=
  lexemesAfter [] ts

/-- The words, marks and quoted texts of a text.  There are none if a quote is never closed. -/
def lex? (q : Char) (s : List Char) : Option (List Lexeme) :=
  (read? q s).map lexemes

variable {ts ts' : List Token} {w : List Char}

/-! ### Names -/

@[simp] theorem names_nil : names [] = [] := rfl

@[simp] theorem names_cons (l : Lexeme) (ls : List Lexeme) :
    names (l :: ls) = l.name?.toList ++ names ls := by
  cases l <;> rfl

@[simp] theorem names_append (ls ls' : List Lexeme) : names (ls ++ ls') = names ls ++ names ls' :=
  List.filterMap_append

theorem listed_cons_cons (name next : String) (r : List String) :
    listed (name :: next :: r) = .identifier name :: .mark ',' :: listed (next :: r) := rfl

@[simp] theorem names_listed (cs : List String) : names (listed cs) = cs := by
  induction cs with
  | nil => rfl
  | cons name r ih =>
    cases r with
    | nil => rfl
    | cons next r =>
      rw [listed_cons_cons, names_cons, names_cons, ih]
      rfl

/-! ### Runs of tokens -/

@[simp] theorem lexemes_nil : lexemes [] = [] := rfl

/-- A word ends before a token that it cannot go on with. -/
theorem lexemesAfter_of_head (h : ∀ t ∈ ts.head?, t.isOfWords = false) :
    lexemesAfter w ts = wordOf w ++ lexemes ts := by
  cases ts with
  | nil => simp [lexemesAfter]
  | cons t r =>
    have ht := h t rfl
    cases t with
    | plain c =>
      have hc : ¬ isOfWords c = true := by simpa [Token.isOfWords] using ht
      rw [lexemes, lexemesAfter, lexemesAfter, if_neg hc, if_neg hc]
      split <;> rfl
    | _ => rfl

theorem lexemesAfter_append (h : ∀ t ∈ ts'.head?, t.isOfWords = false) :
    lexemesAfter w (ts ++ ts') = lexemesAfter w ts ++ lexemes ts' := by
  -- the induction is on the first run, before which any word may have begun
  induction ts generalizing w with
  | nil => exact lexemesAfter_of_head h
  | cons t r ih =>
    cases t with
    | plain c =>
      rw [List.cons_append, lexemesAfter, lexemesAfter]
      split
      · exact ih
      · split
        · rw [ih, List.append_assoc]
        · rw [ih, List.append_assoc]
          rfl
    | _ =>
      rw [List.cons_append, lexemesAfter, lexemesAfter, ih, List.append_assoc]
      rfl

/-- Tokens that no word goes on with are read by themselves. -/
theorem lexemes_append (h : ∀ t ∈ ts'.head?, t.isOfWords = false) :
    lexemes (ts ++ ts') = lexemes ts ++ lexemes ts' :=
  lexemesAfter_append h

/-! ### Words -/

theorem mem_of_mem_wordOf {s : String} (h : .word s ∈ wordOf w) {c : Char} (hc : c ∈ s.toList) :
    c ∈ w := by
  unfold wordOf at h
  split at h
  · cases h
  · obtain rfl : s = String.ofList w := by simpa using h
    rwa [String.toList_ofList] at hc

/-- A character of a word has begun it or stands among the tokens. -/
theorem mem_of_mem_lexemesAfter {s : String} (h : .word s ∈ lexemesAfter w ts) {c : Char}
    (hc : c ∈ s.toList) : c ∈ w ∨ .plain c ∈ ts := by
  induction ts generalizing w with
  | nil => exact .inl (mem_of_mem_wordOf h hc)
  | cons t r ih =>
    -- after a word has ended, the next one begins with nothing
    have hnext : .word s ∈ lexemesAfter [] r → .plain c ∈ t :: r := fun hr =>
      (ih hr).elim (fun hnil => by cases hnil) (List.mem_cons_of_mem _)
    have hends : .word s ∈ wordOf w → c ∈ w := fun hw => mem_of_mem_wordOf hw hc
    cases t with
    | plain d =>
      rw [lexemesAfter] at h
      split at h
      · rcases ih h with hwd | hr
        · rcases List.mem_append.mp hwd with hw | hd
          · exact .inl hw
          · rw [List.mem_singleton.mp hd]
            exact .inr List.mem_cons_self
        · exact .inr (List.mem_cons_of_mem _ hr)
      · split at h
        · exact (List.mem_append.mp h).imp hends hnext
        · exact (List.mem_append.mp h).imp hends fun hr => hnext (by simpa using hr)
    | _ =>
      rw [lexemesAfter] at h
      exact (List.mem_append.mp h).imp hends fun hr => hnext (by simpa using hr)

/-- The characters of a word stand outside quotes. -/
theorem plain_mem_of_word {s : String} (h : .word s ∈ lexemes ts) {c : Char} (hc : c ∈ s.toList) :
    .plain c ∈ ts :=
  (mem_of_mem_lexemesAfter h hc).resolve_left List.not_mem_nil

/-! ### Blanks -/

theorem isOfWords_of_isBlank {c : Char} (h : Text.isBlank c = true) : isOfWords c = false := by
  have hle : ∀ a b : UInt32, (a ≤ b) = (a.toNat ≤ b.toNat) := fun _ _ =>
    propext UInt32.le_iff_toNat_le
  rw [Bool.eq_false_iff]
  intro hword
  delta isOfWords Char.isAlphanum Char.isAlpha Char.isUpper Char.isLower Char.isDigit at hword
  simp only [Bool.or_eq_true, Bool.and_eq_true, decide_eq_true_eq, beq_iff_eq, ge_iff_le, hle]
    at hword
  simp only [Text.isBlank, Bool.or_eq_true, Bool.and_eq_true, decide_eq_true_eq, beq_iff_eq] at h
  rcases hword with hword | rfl
  · simp only [Char.reduceVal, UInt32.reduceToNat, Char.toNat_val] at hword
    omega
  · simp at h

theorem Token.isOfWords_of_isBlank {t : Token} (h : t.isBlank = true) : t.isOfWords = false := by
  cases t with
  | plain c => exact Sql.isOfWords_of_isBlank h
  | _ => rfl

theorem lexemes_append_of_isBlank (h : ∀ t ∈ ts, t.isBlank = true) :
    lexemes (ts ++ ts') = lexemes ts' := by
  induction ts with
  | nil => rfl
  | cons t r ih =>
    have ht := h t List.mem_cons_self
    cases t with
    | plain c =>
      have hword : ¬ isOfWords c = true := by simp [Sql.isOfWords_of_isBlank ht]
      rw [List.cons_append, lexemes, lexemesAfter, if_neg hword]
      exact (if_pos ht).trans (ih fun t ht => h t (List.mem_cons_of_mem _ ht))
    | _ => cases ht

/-- What stands around an item does not count. -/
theorem lexemes_of_surrounds {item piece : List Token} (h : Surrounds item piece) :
    lexemes piece = lexemes item := by
  obtain ⟨lead, trail, rfl, hblank⟩ := h
  have htrail : ∀ t ∈ trail, t.isBlank = true := fun t ht => hblank t (List.mem_append_right _ ht)
  have hlexemes : lexemes trail = [] := by
    rw [← List.append_nil trail, lexemes_append_of_isBlank htrail, lexemes_nil]
  rw [lexemes_append fun t ht => Token.isOfWords_of_isBlank (htrail t (List.mem_of_mem_head? ht)),
    hlexemes, List.append_nil,
    lexemes_append_of_isBlank fun t ht => hblank t (List.mem_append_left _ ht)]

/-! ### Entries -/

/-- What stands between the commas in the outer parentheses of a text, where that is more than
blanks. -/
def entries? (q : Char) (s : List Char) : Option (List (List Lexeme)) :=
  (items? q s).map fun pieces => (pieces.map lexemes).filter (!·.isEmpty)

end SchemaKeeper.Sql
