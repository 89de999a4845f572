/-!
Bytes as text. `decode?` reads bytes that are UTF-8 and refuses all others. `display` shows any bytes:
valid ones as they are, and otherwise with U+FFFD for each longest piece that begins a character and
does not finish it, and for each byte that begins none.
-/

namespace DocCoverage.Text

/-- The bytes of a text. -/
def encode (s : String) : List UInt8 := s.toUTF8.data.toList

/-- The text that the bytes spell, if they are UTF-8. -/
def decode? (bytes : List UInt8) : Option String := String.fromUTF8? ⟨bytes.toArray⟩

/-- Stands for bytes that are no text. -/
def replacement : Char := '\uFFFD'

/-- A character begun: the bits read, how many bytes are owed, and the least and greatest value of the
next one. -/
structure Begun where
  bits : Nat
  owed : Nat
  least : Nat
  greatest : Nat

/-- A byte between characters: what it shows at once, and the character it begins. -/
def firstByte (b : Nat) : List Char × Option Begun :=
  if b < 0x80 then ([Char.ofNat b], none)
  else if b < 0xC2 then ([replacement], none)
  else if b < 0xE0 then ([], some ⟨b - 0xC0, 1, 0x80, 0xBF⟩)
  else if b = 0xE0 then ([], some ⟨0, 2, 0xA0, 0xBF⟩)
  else if b = 0xED then ([], some ⟨0xD, 2, 0x80, 0x9F⟩)
  else if b < 0xF0 then ([], some ⟨b - 0xE0, 2, 0x80, 0xBF⟩)
  else if b = 0xF0 then ([], some ⟨0, 3, 0x90, 0xBF⟩)
  else if b < 0xF4 then ([], some ⟨b - 0xF0, 3, 0x80, 0xBF⟩)
  else if b = 0xF4 then ([], some ⟨4, 3, 0x80, 0x8F⟩)
  else ([replacement], none)

/-- A byte after a character begun: it continues it, or it breaks it off and is read anew. -/
def nextByte (c : Begun) (b : Nat) : List Char × Option Begun :=
  if c.least ≤ b ∧ b ≤ c.greatest then
    let bits := c.bits * 64 + (b - 0x80)
    if c.owed = 1 then ([Char.ofNat bits], none) else ([], some ⟨bits, c.owed - 1, 0x80, 0xBF⟩)
  else
    let (shown, begun) := firstByte b
    (replacement :: shown, begun)

/-- Shows bytes after what has been begun. -/
def showFrom : Option Begun → List UInt8 → List Char
  | none, [] => []
  | some _, [] => [replacement]
  | none, b :: rest =>
    let (shown, begun) := firstByte b.toNat
    shown ++ showFrom begun rest
  | some c, b :: rest =>
    let (shown, begun) := nextByte c b.toNat
    shown ++ showFrom begun rest

/-- Bytes as a reader sees them. -/
def display (bytes : List UInt8) : String :=
  (decode? bytes).getD (String.ofList (showFrom none bytes))

/-- Decoding undoes encoding. -/
@[simp]
theorem decode?_encode (s : String) : decode? (encode s) = some s := by
  simp only [decode?, encode, Array.toArray_toList, String.toUTF8_eq_toByteArray,
    String.fromUTF8?, dif_pos s.isValidUTF8]
  rfl

/-- Only the encoding of a text is decoded to it. -/
theorem eq_encode_of_decode? {bytes : List UInt8} {s : String} (h : decode? bytes = some s) :
    bytes = encode s := by
  unfold decode? String.fromUTF8? at h
  split at h
  · cases h
    rfl
  · cases h

/-- A text is shown as it is. -/
@[simp]
theorem display_encode (s : String) : display (encode s) = s := by
  simp [display]

end DocCoverage.Text
