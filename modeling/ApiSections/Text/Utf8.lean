namespace ApiSections.Text

/-- How many bytes a leading byte announces after itself, and the bounds of the first of them. -/
def announced? (b : UInt8) : Option (Nat × UInt8 × UInt8) :=
  if 0xC2 ≤ b && b ≤ 0xDF then some (1, 0x80, 0xBF)
  else if b == 0xE0 then some (2, 0xA0, 0xBF)
  else if b == 0xED then some (2, 0x80, 0x9F)
  else if 0xE1 ≤ b && b ≤ 0xEF then some (2, 0x80, 0xBF)
  else if b == 0xF0 then some (3, 0x90, 0xBF)
  else if 0xF1 ≤ b && b ≤ 0xF3 then some (3, 0x80, 0xBF)
  else if b == 0xF4 then some (3, 0x80, 0x8F)
  else none

/-- The payload bits of a leading byte that announces `count` more. -/
def leadBits (count : Nat) (b : UInt8) : Nat :=
  b.toNat % Nat.pow 2 (6 - count)

/-- What the decoder still waits for: the number of bytes, the bounds of the next one and the bits
read so far. -/
structure Awaited where
  count : Nat
  low : UInt8
  high : UInt8
  bits : Nat

/-- Decodes UTF-8; every maximal invalid sequence gives one `none`. -/
def decodeFrom : Option Awaited → List UInt8 → List (Option Char)
  | none, [] => []
  | some _, [] => [none]
  | state, b :: rest =>
    let fresh (state : Option Awaited) : List (Option Char) :=
      match state with
      | some awaited => decodeFrom (some awaited) rest
      | none => decodeFrom none rest
    let lead : List (Option Char) :=
      if b < 0x80 then some (Char.ofNat b.toNat) :: fresh none
      else match announced? b with
        | some (count, low, high) => fresh (some ⟨count, low, high, leadBits count b⟩)
        | none => none :: fresh none
    match state with
    | none => lead
    | some awaited =>
      if awaited.low ≤ b && b ≤ awaited.high then
        let bits := awaited.bits * 64 + b.toNat % 64
        match awaited.count with
        | count + 2 => fresh (some ⟨count + 1, 0x80, 0xBF, bits⟩)
        | _ => some (Char.ofNat bits) :: fresh none
      else none :: lead

def decode (bytes : List UInt8) : List (Option Char) := decodeFrom none bytes

/-- The text with one replacement character for each invalid sequence. -/
def decodeLossy (bytes : List UInt8) : List Char :=
  (decode bytes).map (·.getD (Char.ofNat 0xFFFD))

/-- The text, provided that every byte is valid. -/
def decodeStrict? (bytes : List UInt8) : Option (List Char) := (decode bytes).mapM id

def encode (text : String) : List UInt8 := text.toUTF8.data.toList

end ApiSections.Text
