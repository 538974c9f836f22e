/-!
# Switchboard.Text.Utf8

Texts as bytes.

* `encode` — the bytes of a text;
* `pieces` — bytes cut into characters and into the stretches that are none;
* `decode` — the text, or where and how the bytes stop being one;
* `decodeLossy` — the text with a replacement character for every such stretch.

A stretch that is no character is as long as it still could have become one, so
a reader that goes on after it never swallows the start of the next character.
-/

namespace Switchboard

abbrev Bytes := List UInt8

namespace Text

/-- The bytes of a text. -/
def encode (s : String) : Bytes := s.toList.flatMap String.utf8EncodeChar

/-- What stands at the front of some bytes: a character, a stretch of `width`
bytes that cannot be part of one, or a character that the end cuts off after
`width` bytes. -/
inductive Piece
  | char (c : Char)
  | invalid (width : Nat)
  | cut (width : Nat)
  deriving DecidableEq, Repr

/-- How many bytes follow a first byte, and the range that the next one must lie
in; the range is narrower where a shorter form exists or the character would not. -/
def following (b : UInt8) : Option (Nat × UInt8 × UInt8) :=
  if b < 0xC2 then none
  else if b < 0xE0 then some (1, 0x80, 0xBF)
  else if b = 0xE0 then some (2, 0xA0, 0xBF)
  else if b = 0xED then some (2, 0x80, 0x9F)
  else if b < 0xF0 then some (2, 0x80, 0xBF)
  else if b = 0xF0 then some (3, 0x90, 0xBF)
  else if b < 0xF4 then some (3, 0x80, 0xBF)
  else if b = 0xF4 then some (3, 0x80, 0x8F)
  else none

/-- Whether a byte continues a character. -/
def isTail (b : UInt8) : Bool := 0x80 ≤ b && b ≤ 0xBF

private def low6 (b : UInt8) : Nat := b.toNat % 0x40

/-- Bytes cut into characters and stretches that are none, in order. -/
def pieces : Bytes → List Piece
  | [] => []
  | a :: r =>
    if a < 0x80 then .char (Char.ofNat a.toNat) :: pieces r
    else match following a with
      | none => .invalid 1 :: pieces r
      | some (n, lo, hi) => match r with
        | [] => [.cut 1]
        | b :: r₁ =>
          if ¬ (lo ≤ b ∧ b ≤ hi) then .invalid 1 :: pieces (b :: r₁)
          else if n = 1 then .char (Char.ofNat (a.toNat % 0x20 * 0x40 + low6 b)) :: pieces r₁
          else match r₁ with
            | [] => [.cut 2]
            | c :: r₂ =>
              if ¬ isTail c then .invalid 2 :: pieces (c :: r₂)
              else if n = 2 then
                .char (Char.ofNat ((a.toNat % 0x10 * 0x40 + low6 b) * 0x40 + low6 c)) :: pieces r₂
              else match r₂ with
                | [] => [.cut 3]
                | d :: r₃ =>
                  if ¬ isTail d then .invalid 3 :: pieces (d :: r₃)
                  else
                    .char (Char.ofNat
                      (((a.toNat % 0x08 * 0x40 + low6 b) * 0x40 + low6 c) * 0x40 + low6 d))
                    :: pieces r₃

/-- Why bytes are no text: the place of the first stretch that is no character,
and its width unless the end cut it off. -/
structure InvalidUtf8 where
  index : Nat
  width : Option Nat
  deriving DecidableEq, Repr

def InvalidUtf8.message (e : InvalidUtf8) : String :=
  match e.width with
  | some n => s!"invalid utf-8 sequence of {n} bytes from index {e.index}"
  | none => s!"incomplete utf-8 byte sequence from index {e.index}"

/-- Reads pieces as characters, with the index of the first one in bytes. -/
def ofPieces : Nat → List Piece → Except InvalidUtf8 (List Char)
  | _, [] => .ok []
  | i, .char c :: ps => (ofPieces (i + c.utf8Size) ps).map (c :: ·)
  | i, .invalid n :: _ => .error ⟨i, some n⟩
  | i, .cut _ :: _ => .error ⟨i, none⟩

/-- The text that some bytes spell. -/
def decode (bs : Bytes) : Except InvalidUtf8 String := (ofPieces 0 (pieces bs)).map String.ofList

/-- The text that some bytes spell, with U+FFFD for every stretch that spells none. -/
def decodeLossy (bs : Bytes) : String :=
  String.ofList ((pieces bs).map fun
    | .char c => c
    | _ => Char.ofNat 0xFFFD)

end Text
end Switchboard
