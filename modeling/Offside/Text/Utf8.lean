/-!
# Bytes as text

Files hold bytes. They are read as UTF-8 from left to right: each character is one lead byte and up
to three more, whose ranges the lead byte fixes, so that no character has two spellings and none is
a surrogate. Bytes that belong to no character fall into parts, each as long as it could still have
become a character.
-/

namespace Offside.Text

/-- A character of which the lead byte, and perhaps more, has been read. -/
structure PartialCharacter where
  /-- The bits of the code point so far. -/
  bits : Nat
  /-- How many bytes have to follow after the next one. -/
  further : Nat
  /-- The least value of the next byte. -/
  low : Nat := 0x80
  /-- The greatest value of the next byte. -/
  high : Nat := 0xBF

/-- What a byte is at the start of a character. -/
inductive LeadByte where
  | whole (character : Char)
  | starts (character : PartialCharacter)
  | invalid

/-- A byte at the start of a character. -/
def leadByte (byte : Nat) : LeadByte :=
  if byte < 0x80 then .whole (Char.ofNat byte)
  else if byte < 0xC2 then .invalid
  else if byte < 0xE0 then .starts { bits := byte - 0xC0, further := 0 }
  else if byte = 0xE0 then .starts { bits := 0, further := 1, low := 0xA0 }
  else if byte = 0xED then .starts { bits := 0xD, further := 1, high := 0x9F }
  else if byte < 0xF0 then .starts { bits := byte - 0xE0, further := 1 }
  else if byte = 0xF0 then .starts { bits := 0, further := 2, low := 0x90 }
  else if byte < 0xF4 then .starts { bits := byte - 0xF0, further := 2 }
  else if byte = 0xF4 then .starts { bits := 4, further := 2, high := 0x8F }
  else .invalid

/-- What one byte at the start of a character completes, and what it leaves open. An invalid part
is completed as `none`. -/
def readLead (byte : Nat) : List (Option Char) × Option PartialCharacter :=
  match leadByte byte with
  | .whole character => ([some character], none)
  | .starts character => ([], some character)
  | .invalid => ([none], none)

/-- What one byte completes, and what it leaves open. -/
def readByte (open? : Option PartialCharacter) (byte : Nat) :
    List (Option Char) × Option PartialCharacter :=
  match open? with
  | none => readLead byte
  | some started =>
      if started.low ≤ byte ∧ byte ≤ started.high then
        let bits := started.bits * 64 + byte % 64
        match started.further with
        | 0 => ([some (Char.ofNat bits)], none)
        | further + 1 => ([], some { bits, further })
      else
        let (pieces, next) := readLead byte
        (none :: pieces, next)

/-- The characters and invalid parts of some bytes, when a character may be open. -/
def readBytes : (open? : Option PartialCharacter) → List UInt8 → List (Option Char)
  | none, [] => []
  | some _, [] => [none]
  | open?, byte :: rest =>
      let (pieces, next) := readByte open? byte.toNat
      pieces ++ readBytes next rest

/-- What stands for an invalid part. -/
def replacement : Char := '\uFFFD'

/-- The text of some bytes; each invalid part is replaced by one character. -/
def decodeLossy (bytes : List UInt8) : String :=
  String.ofList ((readBytes none bytes).map (·.getD replacement))

/-- The text of some bytes, unless a part is invalid. -/
def decode? (bytes : List UInt8) : Option String :=
  ((readBytes none bytes).mapM id).map String.ofList

/-- The bytes of a text. -/
def encode (text : String) : List UInt8 :=
  text.toUTF8.data.toList

end Offside.Text
