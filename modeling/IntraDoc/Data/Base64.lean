import IntraDoc.Text.Digit
import IntraDoc.Text.Basic

/-!
# Base 64

Bytes as documents spell them: every four characters stand for three bytes, six bits each. Other
characters between them mean nothing, and `=` fills up the last four.
-/

namespace IntraDoc

namespace Base64

/-- The six bits that a character stands for. -/
def bits? (char : Char) : Option Nat :=
  if 'A' ≤ char && char ≤ 'Z' then some (char.toNat - 'A'.toNat)
  else if 'a' ≤ char && char ≤ 'z' then some (char.toNat - 'a'.toNat + 26)
  else if Text.isAsciiDigit char then some (char.toNat - '0'.toNat + 52)
  else if char = '+' then some 62
  else if char = '/' then some 63
  else none

/-- How far the reading of four characters has come. -/
structure Group where
  /-- The number of characters that stand for bits. -/
  count : Nat := 0
  /-- The number of `=` since the last of them. -/
  fillers : Nat := 0
  /-- The bits that make up no byte yet. -/
  pending : Nat := 0

/-- The bytes that a text spells from within a group; nothing if the last group is incomplete. -/
def decodeFrom? (group : Group) : Text → Option (List UInt8)
  | [] => if group.count = 0 then some [] else none
  | char :: rest =>
    if char = '=' then
      if group.count < 2 then decodeFrom? group rest
      else if 4 ≤ group.count + group.fillers + 1 then some []
      else decodeFrom? { group with fillers := group.fillers + 1 } rest
    else
      match bits? char with
      | none => decodeFrom? group rest
      | some bits =>
        let all := group.pending * 64 + bits
        match group.count with
        | 0 => decodeFrom? ⟨1, 0, all⟩ rest
        | 1 => (decodeFrom? ⟨2, 0, all % 16⟩ rest).map (UInt8.ofNat (all / 16) :: ·)
        | 2 => (decodeFrom? ⟨3, 0, all % 4⟩ rest).map (UInt8.ofNat (all / 4) :: ·)
        | _ => (decodeFrom? {} rest).map (UInt8.ofNat all :: ·)

/-- The bytes that a text spells. -/
def decode? (text : Text) : Option (List UInt8) :=
  decodeFrom? {} text

end Base64

end IntraDoc
