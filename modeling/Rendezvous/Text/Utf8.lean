/-!
# Decoding UTF-8

Bytes are decoded into characters.  A byte that belongs to no well-formed sequence is kept as a gap,
so that a reader can accept it where any bytes will do and refuse it where text is needed.
-/

namespace Rendezvous.Text

/-- Characters, with gaps for bytes that encode none. -/
abbrev Decoded := List (Option Char)

/-- The bits that a continuation byte carries. -/
def continuation? (b : UInt8) : Option Nat :=
  if 0x80 ≤ b.toNat ∧ b.toNat < 0xC0 then some (b.toNat - 0x80) else none

/-- The number that `n` becomes after `count` continuation bytes, if they are there. -/
def continued? (n : Nat) : Nat → List UInt8 → Option Nat
  | 0, _ => some n
  | _ + 1, [] => none
  | count + 1, b :: rest => (continuation? b).bind fun bits => continued? (64 * n + bits) count rest

/-- A code point that is no smaller than `least`, as a character. -/
def scalar? (least n : Nat) : Option Char :=
  if h : n.isValidChar then
    if least ≤ n then some (Char.ofNatAux n h) else none
  else none

/-- The character that starts with byte `b`, and the number of continuation bytes it takes. -/
def leading? (b : UInt8) (rest : List UInt8) : Option (Char × Nat) :=
  let n := b.toNat
  let sequence (bits count least : Nat) : Option (Char × Nat) :=
    ((continued? bits count rest).bind (scalar? least)).map fun c => (c, count)
  if n < 0x80 then sequence n 0 0
  else if n < 0xC0 then none
  else if n < 0xE0 then sequence (n - 0xC0) 1 0x80
  else if n < 0xF0 then sequence (n - 0xE0) 2 0x800
  else if n < 0xF8 then sequence (n - 0xF0) 3 0x10000
  else none

/-- The characters and gaps of some bytes. -/
def decodeUtf8 : List UInt8 → Decoded
  | [] => []
  | b :: rest =>
    match leading? b rest with
    | some (c, count) => some c :: decodeUtf8 (rest.drop count)
    | none => none :: decodeUtf8 rest
  termination_by bytes => bytes.length
  decreasing_by
    · simp only [List.length_drop, List.length_cons]
      omega
    · simp

/-- A text as decoded characters. -/
def decoded (text : String) : Decoded :=
  text.toList.map some

/-- The text of decoded characters, if there is no gap. -/
def plainText? : Decoded → Option (List Char)
  | [] => some []
  | none :: _ => none
  | some c :: rest => (plainText? rest).map (c :: ·)

end Rendezvous.Text
