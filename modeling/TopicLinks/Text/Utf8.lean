/-!
# Decoding UTF-8

A byte sequence is read by a machine that stands either between two characters or
inside one. Every character, and every maximal beginning of a character that is not
continued, yields one item: `some c` for the character, `none` for the fault.
-/

namespace TopicLinks.Text.Utf8

/-- A character whose first bytes have been read. -/
structure Pending where
  /-- The bits read so far. -/
  value : Nat
  /-- How many continuation bytes are still owed. -/
  owed : Nat
  /-- The least byte that may come next. -/
  low : UInt8
  /-- The greatest byte that may come next. -/
  high : UInt8
  deriving DecidableEq

/-- Read a byte between two characters. The bounds on the second byte exclude
overlong forms, surrogates, and values past the last code point. -/
def start (b : UInt8) : List (Option Char) × Option Pending :=
  if b < 0x80 then ([some (Char.ofNat b.toNat)], none)
  else if b < 0xC2 then ([none], none)
  else if b < 0xE0 then ([], some ⟨b.toNat - 0xC0, 1, 0x80, 0xBF⟩)
  else if b = 0xE0 then ([], some ⟨0, 2, 0xA0, 0xBF⟩)
  else if b = 0xED then ([], some ⟨0x0D, 2, 0x80, 0x9F⟩)
  else if b < 0xF0 then ([], some ⟨b.toNat - 0xE0, 2, 0x80, 0xBF⟩)
  else if b = 0xF0 then ([], some ⟨0, 3, 0x90, 0xBF⟩)
  else if b < 0xF4 then ([], some ⟨b.toNat - 0xF0, 3, 0x80, 0xBF⟩)
  else if b = 0xF4 then ([], some ⟨4, 3, 0x80, 0x8F⟩)
  else ([none], none)

/-- Read one byte. A byte that cannot continue the pending character ends it as a
fault and is then read between characters. -/
def step : Option Pending → UInt8 → List (Option Char) × Option Pending
  | none, b => start b
  | some p, b =>
    if p.low ≤ b ∧ b ≤ p.high then
      if p.owed = 1 then ([some (Char.ofNat (p.value * 64 + (b.toNat - 0x80)))], none)
      else ([], some ⟨p.value * 64 + (b.toNat - 0x80), p.owed - 1, 0x80, 0xBF⟩)
    else (none :: (start b).1, (start b).2)

/-- The items that end with the input: a pending character is one fault. -/
def finish : Option Pending → List (Option Char)
  | none => []
  | some _ => [none]

/-- All items of a byte sequence, from a given standing. -/
def scan (state : Option Pending) : List UInt8 → List (Option Char)
  | [] => finish state
  | b :: rest => (step state b).1 ++ scan (step state b).2 rest

/-- Decode with U+FFFD in the place of each fault. -/
def decodeLossy (bytes : List UInt8) : List Char :=
  (scan none bytes).map (·.getD (Char.ofNat 0xFFFD))

/-- Decode only sequences without a fault. -/
def decode? (bytes : List UInt8) : Option (List Char) :=
  if (scan none bytes).all (·.isSome) then some ((scan none bytes).filterMap id) else none

/-- The bytes of a text. -/
def encode (text : List Char) : List UInt8 :=
  text.flatMap String.utf8EncodeChar

end TopicLinks.Text.Utf8
