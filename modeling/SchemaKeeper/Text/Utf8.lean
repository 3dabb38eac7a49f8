/-
Bytes read as text.

`decodeLossy` reads bytes as UTF-8.  Where the bytes are no encoding of a
character, each longest run that begins an encoding without completing one, and
each byte that begins none, is read as one replacement character.

The reader is an automaton (`Pending`, `begin?`): it is at the start of a
character or awaits a number of further bytes, the next of them in a given range.
-/

namespace SchemaKeeper.Text

/-- What stands for bytes that encode no character. -/
def replacement : Char := '\uFFFD'

/-- Where a reader of UTF-8 is. -/
inductive Pending where
  /-- At the start of a character. -/
  | start
  /-- `left` bytes are missing, the next between `low` and `high`; the bits read so far make up
  `value`. -/
  | within (left : Nat) (low high : UInt8) (value : Nat)

/-- What the first byte of a character yields at once, and what it leaves pending. -/
def begin? (b : UInt8) : List Char × Pending :=
  let n := b.toNat
  if n < 0x80 then ([Char.ofNat n], .start)
  else if n < 0xC2 then ([replacement], .start)
  else if n < 0xE0 then ([], .within 1 0x80 0xBF (n - 0xC0))
  else if n = 0xE0 then ([], .within 2 0xA0 0xBF 0)
  else if n = 0xED then ([], .within 2 0x80 0x9F 0xD)
  else if n < 0xF0 then ([], .within 2 0x80 0xBF (n - 0xE0))
  else if n = 0xF0 then ([], .within 3 0x90 0xBF 0)
  else if n < 0xF4 then ([], .within 3 0x80 0xBF (n - 0xF0))
  else if n = 0xF4 then ([], .within 3 0x80 0x8F 4)
  else ([replacement], .start)

/-- The rest of the text when the reader is at `p`. -/
def decodeFrom : Pending → List UInt8 → List Char
  | .start, [] => []
  | .within .., [] => [replacement]
  | .start, b :: r => (begin? b).1 ++ decodeFrom (begin? b).2 r
  | .within left low high value, b :: r =>
    if low ≤ b ∧ b ≤ high then
      let value := value * 64 + (b.toNat - 0x80)
      if left ≤ 1 then Char.ofNat value :: decodeFrom .start r
      else decodeFrom (.within (left - 1) 0x80 0xBF value) r
    else replacement :: ((begin? b).1 ++ decodeFrom (begin? b).2 r)

/-- Bytes read as UTF-8, with replacement characters for what is none. -/
def decodeLossy (bytes : List UInt8) : String :=
  String.ofList (decodeFrom .start bytes)

end SchemaKeeper.Text
