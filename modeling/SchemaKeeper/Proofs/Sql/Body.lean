/-
What stands in parentheses.

A statement such as CREATE TABLE has one pair of outer parentheses, and commas part what
stands in them.  Quotes and further parentheses protect the commas that they enclose.

* `items?` reads a text and parts what stands between its outer parentheses (`body?`,
  `pieces?`); there are no items if a quote or a parenthesis is not closed,
* `IsPiece` says of tokens that no comma parts them, whatever follows them,
* `pieces?_lineTokens`: items on lines of their own, with commas at the ends of the lines,
  are the pieces that are found, up to the blanks around them (`Surrounds`).
-/
import Mathlib.Data.List.Forall2
import SchemaKeeper.Proofs.Sql.Token
import SchemaKeeper.Text.Blank

namespace SchemaKeeper.Sql

open Text

/-! ### Parentheses and commas -/

/-- The number of open parentheses after a token; none if one is closed that was not opened. -/
def Token.nest? (depth : Nat) (t : Token) : Option Nat :=
  if t = .plain '(' then some (depth + 1)
  else if t = .plain ')' then if depth = 0 then none else some (depth - 1)
  else some depth

/-- The pieces between the commas outside parentheses, where `depth` parentheses are open at the
start.  There are none if the parentheses do not match. -/
def pieces? : Nat → List Token → Option (List (List Token))
  | depth, [] => if depth = 0 then some [[]] else none
  | depth, t :: r =>
    if depth = 0 ∧ t = .plain ',' then (pieces? 0 r).map ([] :: ·)
    else (t.nest? depth).bind fun depth' => (pieces? depth' r).map (·.modifyHead (t :: ·))

/-- What stands between the first parenthesis, which has to be an opening one, and a closing one at
the end. -/
def body? : List Token → Option (List Token)
  | [] => none
  | t :: r =>
    if t = .plain '(' then if r.getLast? = some (.plain ')') then some r.dropLast else none
    else if t = .plain ')' then none
    else body? r

/-- What stands between the commas in the outer parentheses of a text. -/
def items? (q : Char) (s : List Char) : Option (List (List Token)) :=
  (read? q s).bind fun ts => (body? ts).bind (pieces? 0)

/-- Whether the token is a parenthesis. -/
def Token.isParenthesis (t : Token) : Bool :=
  t == .plain '(' || t == .plain ')'

/-- Whether the token is a blank. -/
def Token.isBlank : Token → Bool
  | plain c => Text.isBlank c
  | _ => false

/-- A piece is an item with blanks around it. -/
def Surrounds (item piece : List Token) : Prop :=
  ∃ lead trail, piece = lead ++ item ++ trail ∧ ∀ t ∈ lead ++ trail, t.isBlank = true

variable {ts ts' : List Token} {depth : Nat}

theorem nest?_of_not_isParenthesis {t : Token} (h : t.isParenthesis = false) :
    t.nest? depth = some depth := by
  simp only [Token.isParenthesis, Bool.or_eq_false_iff, beq_eq_false_iff_ne] at h
  simp [Token.nest?, h]

theorem body?_append (h : ∀ t ∈ ts, t.isParenthesis = false) (inside : List Token) :
    body? (ts ++ .plain '(' :: (inside ++ [.plain ')'])) = some inside := by
  induction ts with
  | nil => simp [body?]
  | cons t r ih =>
    have ht := h t List.mem_cons_self
    simp only [Token.isParenthesis, Bool.or_eq_false_iff, beq_eq_false_iff_ne] at ht
    have ih := ih fun t ht => h t (List.mem_cons_of_mem _ ht)
    simp [body?, ht, ih]

/-! ### Pieces -/

theorem map_modifyHead {α : Type} (f g : α → α) (o : Option (List α)) :
    (o.map (·.modifyHead f)).map (·.modifyHead g) = o.map (·.modifyHead fun x => g (f x)) := by
  simp [Function.comp_def]

/-- Whatever follows the tokens, no comma parts them, and their parentheses match. -/
def IsPiece (ts : List Token) : Prop :=
  ∀ r, pieces? 0 (ts ++ r) = (pieces? 0 r).map (·.modifyHead (ts ++ ·))

theorem IsPiece.append (h : IsPiece ts) (h' : IsPiece ts') : IsPiece (ts ++ ts') := by
  intro r
  rw [List.append_assoc, h, h', map_modifyHead]
  simp only [List.append_assoc]

/-- A token that is no parenthesis joins the piece that follows, unless it is a comma outside
parentheses. -/
theorem pieces?_cons {t : Token} (ht : t.isParenthesis = false) (hcomma : depth = 0 → t ≠ .plain ',')
    (r : List Token) : pieces? depth (t :: r) = (pieces? depth r).map (·.modifyHead (t :: ·)) := by
  rw [pieces?, if_neg (by simpa using hcomma), nest?_of_not_isParenthesis ht, Option.bind_some]

theorem isPiece_of_flat (h : ∀ t ∈ ts, t.isParenthesis = false ∧ t ≠ .plain ',') : IsPiece ts := by
  intro r
  induction ts with
  | nil =>
    show pieces? 0 r = (pieces? 0 r).map (·.modifyHead id)
    simp
  | cons t u ih =>
    obtain ⟨ht, hcomma⟩ := h t List.mem_cons_self
    have ih := ih fun t ht => h t (List.mem_cons_of_mem _ ht)
    rw [List.cons_append, pieces?_cons ht fun _ => hcomma, ih, map_modifyHead]
    rfl

/-- Within parentheses commas do not part. -/
theorem pieces?_inside (h : ∀ t ∈ ts, t.isParenthesis = false) (r : List Token) :
    pieces? 1 (ts ++ .plain ')' :: r) =
      (pieces? 0 r).map (·.modifyHead (ts ++ .plain ')' :: ·)) := by
  induction ts with
  | nil => simp [pieces?, Token.nest?]
  | cons t u ih =>
    have ht := h t List.mem_cons_self
    have ih := ih fun t ht => h t (List.mem_cons_of_mem _ ht)
    rw [List.cons_append, pieces?_cons ht (by simp), ih, map_modifyHead]
    rfl

theorem isPiece_parentheses (h : ∀ t ∈ ts, t.isParenthesis = false) :
    IsPiece (.plain '(' :: (ts ++ [.plain ')'])) := by
  intro r
  have hopen : pieces? 0 (.plain '(' :: (ts ++ .plain ')' :: r)) =
      (pieces? 1 (ts ++ .plain ')' :: r)).map (·.modifyHead (.plain '(' :: ·)) := by
    simp [pieces?, Token.nest?]
  rw [List.cons_append, List.append_assoc, List.singleton_append, hopen, pieces?_inside h,
    map_modifyHead]
  simp only [List.cons_append, List.append_assoc, List.nil_append]

theorem IsPiece.pieces?_eq (h : IsPiece ts) : pieces? 0 ts = some [ts] := by
  have hnil := h []
  rw [List.append_nil] at hnil
  simpa [pieces?] using hnil

theorem IsPiece.pieces?_comma (h : IsPiece ts) (r : List Token) :
    pieces? 0 (ts ++ .plain ',' :: r) = (pieces? 0 r).map (ts :: ·) := by
  rw [h, pieces?, if_pos ⟨rfl, rfl⟩]
  simp [Function.comp_def]

/-! ### Items on lines -/

theorem Surrounds.of_append {blanks item piece : List Token}
    (h : Surrounds (blanks ++ item) piece) (hblanks : ∀ t ∈ blanks, t.isBlank = true) :
    Surrounds item piece := by
  obtain ⟨lead, trail, rfl, hblank⟩ := h
  refine ⟨lead ++ blanks, trail, by simp, ?_⟩
  intro t ht
  simp only [List.mem_append] at ht hblank
  rcases ht with (ht | ht) | ht
  · exact hblank t (.inl ht)
  · exact hblanks t ht
  · exact hblank t (.inr ht)

/-- Items on lines of their own, with commas at the ends of the lines. -/
def lineTokens (items : List (List Token)) : List Token :=
  .plain '\n' :: (List.intercalate (plainText ",\n".toList) items ++ [.plain '\n'])

theorem lineTokens_cons_cons (item next : List Token) (r : List (List Token)) :
    lineTokens (item :: next :: r) =
      ([.plain '\n'] ++ item) ++ .plain ',' :: lineTokens (next :: r) := by
  have hsep : ∀ ts, plainText ",\n".toList ++ ts = .plain ',' :: .plain '\n' :: ts := fun _ => rfl
  rw [lineTokens, List.intercalate_cons_cons, List.append_assoc, List.append_assoc, hsep]
  rfl

/-- Items on lines are what stands between the commas. -/
theorem pieces?_lineTokens {items : List (List Token)} (hne : items ≠ [])
    (hitems : ∀ item ∈ items, IsPiece item) :
    ∃ pieces, pieces? 0 (lineTokens items) = some pieces ∧ List.Forall₂ Surrounds items pieces := by
  have hline : IsPiece [.plain '\n'] := isPiece_of_flat (by simp [Token.isParenthesis])
  have hblank : ∀ t ∈ [Token.plain '\n'], t.isBlank = true := by
    intro t ht
    rw [List.mem_singleton.mp ht]
    rfl
  induction items with
  | nil => exact absurd rfl hne
  | cons item r ih =>
    have hitem := hline.append (hitems item List.mem_cons_self)
    cases r with
    | nil =>
      have hpieces := (hitem.append hline).pieces?_eq
      refine ⟨[[.plain '\n'] ++ item ++ [.plain '\n']], ?_, .cons ⟨_, _, rfl, ?_⟩ .nil⟩
      · simpa [lineTokens] using hpieces
      · intro t ht
        exact (List.mem_append.mp ht).elim (hblank t) (hblank t)
    | cons next r =>
      obtain ⟨pieces, hpieces, hsurrounds⟩ :=
        ih (by simp) fun item h => hitems item (List.mem_cons_of_mem _ h)
      refine ⟨([.plain '\n'] ++ item) :: pieces, ?_, .cons ⟨[.plain '\n'], [], by simp, ?_⟩
        hsurrounds⟩
      · rw [lineTokens_cons_cons, hitem.pieces?_comma, hpieces]
        rfl
      · simpa using hblank

end SchemaKeeper.Sql
