/-
The order of texts.

Texts are compared by their characters.  UTF-8 is made so that comparing bytes
comes to the same: `bytes_le_iff`.  The step is `encoding_lt`, which says that
the encodings of two characters differ at some byte, and there as the characters
do.
-/
import Mathlib.Data.List.Lex
import Mathlib.Data.String.Basic

namespace SchemaKeeper.Text

/-- The bytes of a text in UTF-8. -/
def bytes (s : String) : List UInt8 :=
  s.toByteArray.data.toList

theorem bytes_eq_flatMap (s : String) : bytes s = s.toList.flatMap String.utf8EncodeChar := by
  rw [bytes, ← String.utf8Encode_toList, List.utf8Encode, List.data_toByteArray]

/-! ### Characters -/

theorem byte_lt_iff {m n : Nat} (hm : m < 256) (hn : n < 256) :
    UInt8.ofNat m < UInt8.ofNat n ↔ m < n :=
  UInt8.ofNat_lt_iff_lt hm hn

theorem byte_eq_iff {m n : Nat} (hm : m < 256) (hn : n < 256) :
    UInt8.ofNat m = UInt8.ofNat n ↔ m = n := by
  rw [← UInt8.toNat_inj, UInt8.toNat_ofNat', UInt8.toNat_ofNat', Nat.mod_eq_of_lt hm,
    Nat.mod_eq_of_lt hn]

/-- Of two numbers the last digits decide if the others are the same. -/
theorem div_lt_or_mod_lt {m n : Nat} (h : m < n) (k : Nat) :
    m / k < n / k ∨ m / k = n / k ∧ m % k < n % k := by
  rcases (Nat.div_le_div_right h.le).lt_or_eq with hlt | heq
  · exact .inl hlt
  · refine .inr ⟨heq, ?_⟩
    have hm := Nat.div_add_mod m k
    have hn := Nat.div_add_mod n k
    rw [heq] at hm
    omega

/-- The lower of two characters has the lower encoding, whatever follows. -/
theorem encoding_lt {a b : Char} (h : a < b) (u v : List UInt8) :
    String.utf8EncodeChar a ++ u < String.utf8EncodeChar b ++ v := by
  have hlt : a.val.toNat < b.val.toNat := h
  have hb : b.val.toNat < 0x110000 := by
    rcases b.valid with h | ⟨-, h⟩ <;> omega
  unfold String.utf8EncodeChar
  generalize a.val.toNat = m at *
  generalize b.val.toNat = n at *
  by_cases hm : m ≤ 0xffff
  · -- the lower one has three bytes at most
    dsimp only
    split_ifs <;>
      simp (disch := omega) only [List.cons_append, List.nil_append, List.cons_lt_cons_iff,
        byte_lt_iff, byte_eq_iff] <;> omega
  · -- four bytes each, which are digits to the base 64
    have h₂ : ∀ k : Nat, k / 4096 = k / 64 / 64 := by omega
    have h₃ : ∀ k : Nat, k / 262144 = k / 64 / 64 / 64 := by omega
    simp (disch := omega) only [if_neg, h₂, h₃, List.cons_append, List.nil_append,
      List.cons_lt_cons_iff, byte_lt_iff, byte_eq_iff]
    rcases div_lt_or_mod_lt hlt 64 with hlt | ⟨heq, hlt⟩
    · rcases div_lt_or_mod_lt hlt 64 with hlt | ⟨heq, hlt⟩
      · rcases div_lt_or_mod_lt hlt 64 with hlt | ⟨heq, hlt⟩ <;> omega
      · omega
    · omega

/-! ### Texts -/

theorem flatMap_encode_lt {s t : List Char} (h : s < t) :
    s.flatMap String.utf8EncodeChar < t.flatMap String.utf8EncodeChar := by
  induction h with
  | @nil b r =>
    rw [List.flatMap_nil, List.flatMap_cons]
    cases hb : String.utf8EncodeChar b with
    | nil => exact absurd hb String.utf8EncodeChar_ne_nil
    | cons x u => exact List.nil_lt_cons ..
  | cons _ ih =>
    rw [List.flatMap_cons, List.flatMap_cons]
    exact List.append_left_lt ih
  | rel hab =>
    rw [List.flatMap_cons, List.flatMap_cons]
    exact encoding_lt hab ..

theorem bytes_lt {s t : String} (h : s < t) : bytes s < bytes t := by
  rw [bytes_eq_flatMap, bytes_eq_flatMap]
  exact flatMap_encode_lt (String.lt_iff.mp h)

/-- One text is below another if and only if its bytes are. -/
theorem bytes_le_iff {s t : String} : bytes s ≤ bytes t ↔ s ≤ t := by
  constructor
  · intro h
    exact not_lt.mp fun hlt => h (bytes_lt hlt)
  · intro h
    rcases h.lt_or_eq with hlt | rfl
    · exact List.le_of_lt (bytes_lt hlt)
    · exact List.le_refl _

end SchemaKeeper.Text
