/-
Lists that are related member by member, and lists that are cut.

Rows of an answer and rows of a table, records and rows, columns of a catalog and those
of a model are compared member by member; texts are cut into words and tags into tokens.

* `exists_of_forall₂`: each member has a partner,
* `forall₂_trans`: what members of three lists have to do with each other,
* `forall₂_map_self`, `forall₂_map_map`: lists that are made of one list, member by member,
* `map_eq_of_forall₂`: what partners have in common is the same list on both sides,
* `rel_getLast?`: the last members are partners,
* `cut_induction`: what holds of the pieces that a list is cut into holds of the list.
-/
import Mathlib.Data.List.Forall2

namespace SchemaKeeper

variable {α β γ : Type} {R : α → β → Prop} {as : List α} {bs : List β}

/-- Of two lists that are related member by member, each member of the one has a partner. -/
theorem exists_of_forall₂ (h : List.Forall₂ R as bs) {b : β} (hb : b ∈ bs) : ∃ a ∈ as, R a b := by
  induction h with
  | nil => cases hb
  | @cons a b' as bs hab _ ih =>
    rcases List.mem_cons.mp hb with rfl | hb
    · exact ⟨a, List.mem_cons_self, hab⟩
    · obtain ⟨a', ha', hab'⟩ := ih hb
      exact ⟨a', List.mem_cons_of_mem _ ha', hab'⟩

/-- The partners of members are partners of members. -/
theorem forall₂_and_mem (h : List.Forall₂ R as bs) :
    List.Forall₂ (fun a b => a ∈ as ∧ R a b) as bs := by
  rw [List.forall₂_iff_zip] at h ⊢
  exact ⟨h.1, fun hzip => ⟨(List.of_mem_zip hzip).1, h.2 hzip⟩⟩

/-- Members and what is made of them. -/
theorem forall₂_map_self {f : α → β} (h : ∀ a ∈ as, R a (f a)) : List.Forall₂ R as (as.map f) :=
  List.forall₂_map_right_iff.mpr (List.forall₂_same.mpr h)

/-- What is made of the same members in two ways. -/
theorem forall₂_map_map {f : γ → α} {g : γ → β} {cs : List γ} (h : ∀ c ∈ cs, R (f c) (g c)) :
    List.Forall₂ R (cs.map f) (cs.map g) :=
  List.forall₂_map_left_iff.mpr (forall₂_map_self h)

theorem ne_nil_of_forall₂ (h : List.Forall₂ R as bs) (hne : as ≠ []) : bs ≠ [] := by
  rintro rfl
  cases h
  exact hne rfl

/-- Of three lists the first two and the last two are related member by member, so the outer two
are. -/
theorem forall₂_trans {S : β → γ → Prop} {T : α → γ → Prop} {cs : List γ}
    (h : List.Forall₂ R as bs) (h' : List.Forall₂ S bs cs) (hT : ∀ a b c, R a b → S b c → T a c) :
    List.Forall₂ T as cs := by
  induction h generalizing cs with
  | nil =>
    cases h'
    exact .nil
  | cons hab _ ih =>
    cases h' with
    | cons hbc hrest => exact .cons (hT _ _ _ hab hbc) (ih hrest)

theorem map_eq_of_forall₂ {f : α → γ} {g : β → γ} (h : List.Forall₂ R as bs)
    (hR : ∀ a b, R a b → f a = g b) : as.map f = bs.map g := by
  induction h with
  | nil => rfl
  | cons hab _ ih => rw [List.map_cons, List.map_cons, hR _ _ hab, ih]

theorem rel_getLast? (h : List.Forall₂ R as bs) : Option.Rel R as.getLast? bs.getLast? := by
  have hreverse : List.Forall₂ R as.reverse bs.reverse := List.forall₂_reverse_iff.mpr h
  rw [List.getLast?_eq_head?_reverse, List.getLast?_eq_head?_reverse]
  generalize as.reverse = as' at hreverse ⊢
  generalize bs.reverse = bs' at hreverse ⊢
  cases hreverse with
  | nil => exact .none
  | cons hab _ => exact .some hab

/-- A list is a piece, or a piece, a member at which it is cut, and a list. -/
theorem cut_induction {piece : List α → Prop} {cuts : List α → α → Prop} {motive : List α → Prop}
    (nil : piece []) (snoc : ∀ p a, piece p → ¬ cuts p a → piece (p ++ [a]))
    (whole : ∀ p, piece p → motive p)
    (cut : ∀ p a as, piece p → cuts p a → motive as → motive (p ++ a :: as)) (as : List α) :
    motive as := by
  -- what has been read since the last cut goes with the list
  have hread : ∀ p, piece p → motive (p ++ as) := by
    induction as with
    | nil =>
      intro p hp
      rw [List.append_nil]
      exact whole p hp
    | cons a r ih =>
      intro p hp
      by_cases ha : cuts p a
      · exact cut p a r hp ha (ih [] nil)
      · have hmotive := ih _ (snoc p a hp ha)
        rwa [List.append_assoc] at hmotive
  exact hread [] nil

end SchemaKeeper
