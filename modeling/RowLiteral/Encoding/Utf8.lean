/-!
# Encoding — UTF-8

Decoding bytes as UTF-8.  Where the bytes are no UTF-8, each longest beginning of a sequence that
could still have become a character gives one replacement character.  A byte order mark at the start
is dropped.
-/

namespace RowLiteral.Utf8

/-- A sequence of bytes on the way: how many are missing, the bounds of the next one, and the bits
read so far. -/
structure Pending where
  missing : Nat
  low : Nat
  high : Nat
  bits : Nat
deriving DecidableEq, Repr

/-- The character that stands for bytes that are none. -/
def replacement : Char := '\ufffd'

/-- What the first byte of a sequence gives: a character, or a sequence on the way, or neither. -/
def start (b : Nat) : Option (Char ⊕ Pending) :=
  if b < 0x80 then some (.inl (Char.ofNat b))
  else if b < 0xc2 then none
  else if b < 0xe0 then some (.inr ⟨1, 0x80, 0xbf, b - 0xc0⟩)
  else if b < 0xf0 then
    some (.inr ⟨2, if b = 0xe0 then 0xa0 else 0x80, if b = 0xed then 0x9f else 0xbf, b - 0xe0⟩)
  else if b < 0xf5 then
    some (.inr ⟨3, if b = 0xf0 then 0x90 else 0x80, if b = 0xf4 then 0x8f else 0xbf, b - 0xf0⟩)
  else none

/-- The characters of bytes, read after a sequence on the way, if there is one. -/
def decodeFrom : Option Pending → List Nat → List Char
  | none, [] => []
  | some _, [] => [replacement]
  | some p, b :: bs =>
    if p.low ≤ b ∧ b ≤ p.high then
      let bits := p.bits * 64 + (b - 0x80)
      if p.missing = 1 then Char.ofNat bits :: decodeFrom none bs
      else decodeFrom (some ⟨p.missing - 1, 0x80, 0xbf, bits⟩) bs
    else replacement :: match start b with
      | some (.inl c) => c :: decodeFrom none bs
      | some (.inr q) => decodeFrom (some q) bs
      | none => replacement :: decodeFrom none bs
  | none, b :: bs => match start b with
    | some (.inl c) => c :: decodeFrom none bs
    | some (.inr q) => decodeFrom (some q) bs
    | none => replacement :: decodeFrom none bs

/-- Characters without a byte order mark at the start. -/
def dropMark : List Char → List Char
  | '\ufeff' :: cs => cs
  | cs => cs

/-- The text of bytes. -/
def decode (bs : List UInt8) : String :=
  String.ofList (dropMark (decodeFrom none (bs.map UInt8.toNat)))

end RowLiteral.Utf8
