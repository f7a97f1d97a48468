import IntraDoc.Text.Numeral

/-!
# UTF-8

Files are read and written in UTF-8. Reading stops at the first bytes that encode no character and
says where they are: the longest beginning of a character that they could have been.
-/

namespace IntraDoc

namespace Utf8

/-- A sequence of bytes. -/
abbrev Bytes := List UInt8

/-- What is wrong with some bytes. -/
inductive Fault where
  /-- No character begins with this byte. -/
  | startByte
  /-- The byte that follows does not continue the character. -/
  | continuationByte
  /-- The character is cut off by the end. -/
  | endOfData
deriving DecidableEq, Repr

/-- Bytes that encode no character. -/
structure DecodeError where
  /-- The number of bytes before them. -/
  position : Nat
  /-- The bytes, at least one. -/
  bytes : Bytes
  /-- What is wrong with them. -/
  fault : Fault
deriving DecidableEq, Repr

/-- Whether a byte continues a character. -/
def isContinuation (byte : UInt8) : Bool :=
  0x80 ≤ byte && byte ≤ 0xBF

/--
Whether a byte may stand second in a character of three or four bytes: shorter encodings,
surrogates and code points past the last one are excluded here.
-/
def isSecond (first byte : UInt8) : Bool :=
  if first = 0xE0 then 0xA0 ≤ byte && byte ≤ 0xBF
  else if first = 0xED then 0x80 ≤ byte && byte ≤ 0x9F
  else if first = 0xF0 then 0x90 ≤ byte && byte ≤ 0xBF
  else if first = 0xF4 then 0x80 ≤ byte && byte ≤ 0x8F
  else isContinuation byte

/-- The character with these bits in its bytes after the first. -/
def assemble (first : Nat) (others : Bytes) : Char :=
  Char.ofNat (others.foldl (fun code byte => code * 64 + (byte.toNat - 0x80)) first)

/-- The text that the bytes encode, behind `position` other bytes. -/
def decodeFrom (position : Nat) : Bytes → Except DecodeError Text
  | [] => .ok []
  | first :: rest =>
    let cutOff (bytes : Bytes) : Except DecodeError Text := .error ⟨position, bytes, .endOfData⟩
    let broken (bytes : Bytes) : Except DecodeError Text :=
      .error ⟨position, bytes, .continuationByte⟩
    if first < 0x80 then
      (decodeFrom (position + 1) rest).map (Char.ofNat first.toNat :: ·)
    else if first < 0xC2 || 0xF4 < first then .error ⟨position, [first], .startByte⟩
    else if first < 0xE0 then
      match rest with
      | [] => cutOff [first]
      | second :: rest =>
        if !isContinuation second then broken [first]
        else
          (decodeFrom (position + 2) rest).map (assemble (first.toNat - 0xC0) [second] :: ·)
    else
      match rest with
      | [] => cutOff [first]
      | second :: rest =>
        if !isSecond first second then broken [first]
        else
          match rest with
          | [] => cutOff [first, second]
          | third :: rest =>
            if !isContinuation third then broken [first, second]
            else if first < 0xF0 then
              (decodeFrom (position + 3) rest).map
                (assemble (first.toNat - 0xE0) [second, third] :: ·)
            else
              match rest with
              | [] => cutOff [first, second, third]
              | fourth :: rest =>
                if !isContinuation fourth then broken [first, second, third]
                else
                  (decodeFrom (position + 4) rest).map
                    (assemble (first.toNat - 0xF0) [second, third, fourth] :: ·)

/-- The text that the bytes encode. -/
def decode (bytes : Bytes) : Except DecodeError Text :=
  decodeFrom 0 bytes

/-- The bytes that encode the text. -/
def encode (text : Text) : Bytes :=
  text.flatMap String.utf8EncodeChar

/-- A byte as two hexadecimal digits. -/
def hexByte (byte : UInt8) : Text :=
  Text.padLeft '0' 2 (Nat.toDigits 16 byte.toNat)

/-- The fault in words. -/
def Fault.message : Fault → Text
  | startByte => "invalid start byte".toList
  | continuationByte => "invalid continuation byte".toList
  | endOfData => "unexpected end of data".toList

/-- What is said about bytes that encode no character. -/
def DecodeError.message (error : DecodeError) : Text :=
  let place :=
    match error.bytes with
    | [byte] => "byte 0x".toList ++ hexByte byte ++ " in position ".toList ++
        Text.ofNat error.position
    | bytes => "bytes in position ".toList ++ Text.ofNat error.position ++ ['-'] ++
        Text.ofNat (error.position + bytes.length - 1)
  "'utf-8' codec can't decode ".toList ++ place ++ ": ".toList ++ error.fault.message

end Utf8

end IntraDoc
