/-! UTF-8 read as a byte machine that knows how many bytes of a sequence it has seen and which
values the next one may take. A fault is reported at the byte where its sequence began. -/

namespace LinkageCheck.Text.Utf8

inductive Fault where
  | invalid (length index : Nat)
  | incomplete (index : Nat)
  deriving DecidableEq, Repr

def Fault.message : Fault → String
  | .invalid length index => s!"invalid utf-8 sequence of {length} bytes from index {index}"
  | .incomplete index => s!"incomplete utf-8 byte sequence from index {index}"

/-- Between characters, or inside a sequence with `seen` bytes read, `missing` bytes to come,
the next one in `low .. high`, and the bits read so far. -/
inductive Progress where
  | boundary
  | inside (seen missing low high value : Nat)
  deriving DecidableEq, Repr

def lead (b : Nat) : Option Progress :=
  if 0xc2 ≤ b ∧ b ≤ 0xdf then some (.inside 1 1 0x80 0xbf (b - 0xc0))
  else if b = 0xe0 then some (.inside 1 2 0xa0 0xbf 0)
  else if b = 0xed then some (.inside 1 2 0x80 0x9f 0xd)
  else if 0xe1 ≤ b ∧ b ≤ 0xef then some (.inside 1 2 0x80 0xbf (b - 0xe0))
  else if b = 0xf0 then some (.inside 1 3 0x90 0xbf 0)
  else if b = 0xf4 then some (.inside 1 3 0x80 0x8f 4)
  else if 0xf1 ≤ b ∧ b ≤ 0xf3 then some (.inside 1 3 0x80 0xbf (b - 0xf0))
  else none

/-- Decodes from `index` on; inside a sequence, `index` is still the index of its first byte. -/
def decodeFrom : Progress → Nat → List UInt8 → Except Fault (List Char)
  | .boundary, _, [] => .ok []
  | .inside .., index, [] => .error (.incomplete index)
  | .boundary, index, b :: bs =>
    if b.toNat < 0x80 then
      (decodeFrom .boundary (index + 1) bs).map (Char.ofNat b.toNat :: ·)
    else
      match lead b.toNat with
      | some progress => decodeFrom progress index bs
      | none => .error (.invalid 1 index)
  | .inside seen missing low high value, index, b :: bs =>
    if low ≤ b.toNat ∧ b.toNat ≤ high then
      let value := value * 64 + (b.toNat - 0x80)
      if missing = 1 then
        (decodeFrom .boundary (index + seen + 1) bs).map (Char.ofNat value :: ·)
      else
        decodeFrom (.inside (seen + 1) (missing - 1) 0x80 0xbf value) index bs
    else .error (.invalid seen index)

def decode (bytes : List UInt8) : Except Fault (List Char) :=
  decodeFrom .boundary 0 bytes

def encode (cs : List Char) : List UInt8 :=
  cs.flatMap String.utf8EncodeChar

end LinkageCheck.Text.Utf8
