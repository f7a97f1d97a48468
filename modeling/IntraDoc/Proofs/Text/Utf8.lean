import IntraDoc.Text.Utf8
import Mathlib.Tactic.SplitIfs

/-!
# Reading and writing UTF-8

Reading accepts exactly the bytes that writing produces, and gives back the text that they were
written from.
-/

namespace IntraDoc

namespace Utf8

/-- The well-formed byte sequences of a character, with the bits of its code point in them. -/
inductive Encodes (char : Char) : Bytes → Prop where
  | one {first : UInt8} (ascii : first.toNat < 0x80) (code : char.val.toNat = first.toNat) :
      Encodes char [first]
  | two {first second : UInt8} (atLeast : 0xC2 ≤ first.toNat) (below : first.toNat < 0xE0)
      (isNext : isContinuation second = true)
      (code : char.val.toNat = (first.toNat - 0xC0) * 64 + (second.toNat - 0x80)) :
      Encodes char [first, second]
  | three {first second third : UInt8} (atLeast : 0xE0 ≤ first.toNat) (below : first.toNat < 0xF0)
      (isNext : isSecond first second = true) (isThird : isContinuation third = true)
      (code : char.val.toNat =
        ((first.toNat - 0xE0) * 64 + (second.toNat - 0x80)) * 64 + (third.toNat - 0x80)) :
      Encodes char [first, second, third]
  | four {first second third fourth : UInt8} (atLeast : 0xF0 ≤ first.toNat)
      (atMost : first.toNat ≤ 0xF4) (isNext : isSecond first second = true)
      (isThird : isContinuation third = true) (isFourth : isContinuation fourth = true)
      (code : char.val.toNat =
        (((first.toNat - 0xF0) * 64 + (second.toNat - 0x80)) * 64 + (third.toNat - 0x80)) * 64 +
          (fourth.toNat - 0x80)) :
      Encodes char [first, second, third, fourth]

theorem isContinuation_iff {byte : UInt8} :
    isContinuation byte = true ↔ 0x80 ≤ byte.toNat ∧ byte.toNat ≤ 0xBF := by
  simp [isContinuation, UInt8.le_iff_toNat_le]

theorem isSecond_iff {first byte : UInt8} :
    isSecond first byte = true ↔
      0x80 ≤ byte.toNat ∧ byte.toNat ≤ 0xBF ∧
        (first.toNat = 0xE0 → 0xA0 ≤ byte.toNat) ∧ (first.toNat = 0xED → byte.toNat ≤ 0x9F) ∧
        (first.toNat = 0xF0 → 0x90 ≤ byte.toNat) ∧ (first.toNat = 0xF4 → byte.toNat ≤ 0x8F) := by
  simp only [isSecond, ← UInt8.toNat_inj (a := first), UInt8.reduceToNat]
  split_ifs <;>
    simp only [isContinuation_iff, Bool.and_eq_true, decide_eq_true_eq, UInt8.le_iff_toNat_le,
      UInt8.reduceToNat] <;>
    omega

section Character

variable {char : Char} {bytes : Bytes}

theorem toNat_ofNat {value : Nat} (small : value < 256) : (UInt8.ofNat value).toNat = value :=
  UInt8.toNat_ofNat_of_lt' small

theorem ofNat_eq_iff {value : Nat} {byte : UInt8} (small : value < 256) :
    UInt8.ofNat value = byte ↔ value = byte.toNat := by
  rw [← UInt8.toNat_inj, toNat_ofNat small]

theorem Encodes.utf8EncodeChar_eq (encodes : Encodes char bytes) :
    String.utf8EncodeChar char = bytes := by
  cases encodes with
  | one ascii code => rw [String.utf8EncodeChar, code, if_pos (by omega), UInt8.ofNat_toNat]
  | two atLeast below isNext code =>
      rw [isContinuation_iff] at isNext
      rw [String.utf8EncodeChar, code, if_neg (by omega), if_pos (by omega)]
      simp (disch := omega) only [List.cons.injEq, ofNat_eq_iff, and_true]
      omega
  | three atLeast below isNext isThird code =>
      rw [isSecond_iff] at isNext
      rw [isContinuation_iff] at isThird
      rw [String.utf8EncodeChar, code, if_neg (by omega), if_neg (by omega), if_pos (by omega)]
      simp (disch := omega) only [List.cons.injEq, ofNat_eq_iff, and_true]
      omega
  | four atLeast atMost isNext isThird isFourth code =>
      rw [isSecond_iff] at isNext
      rw [isContinuation_iff] at isThird isFourth
      rw [String.utf8EncodeChar, code, if_neg (by omega), if_neg (by omega), if_neg (by omega)]
      simp (disch := omega) only [List.cons.injEq, ofNat_eq_iff, and_true]
      omega

theorem encodes_utf8EncodeChar (char : Char) : Encodes char (String.utf8EncodeChar char) := by
  have valid : char.val.toNat.isValidChar := char.valid
  unfold Nat.isValidChar at valid
  fun_cases String.utf8EncodeChar char with
  | case1 code small =>
      constructor <;> simp (disch := omega) only [toNat_ofNat] <;> omega
  | case2 code _ small =>
      constructor <;>
        simp (disch := omega) only [toNat_ofNat, isContinuation_iff] <;> omega
  | case3 code _ _ small =>
      constructor <;>
        simp (disch := omega) only [toNat_ofNat, isContinuation_iff, isSecond_iff] <;> omega
  | case4 code _ _ large =>
      constructor <;>
        simp (disch := omega) only [toNat_ofNat, isContinuation_iff, isSecond_iff] <;> omega

theorem ofNat_val (char : Char) : Char.ofNat char.val.toNat = char :=
  Char.ofNat_toNat char

theorem val_ofNat {code : Nat} (valid : code.isValidChar) :
    (Char.ofNat code).val.toNat = code := by
  rw [Char.ofNat, dif_pos valid]
  exact UInt32.toNat_ofNatLT

/-- Reading takes a character from the front of its byte sequence. -/
theorem Encodes.decodeFrom_append (encodes : Encodes char bytes) (position : Nat) (rest : Bytes) :
    decodeFrom position (bytes ++ rest) =
      (decodeFrom (position + bytes.length) rest).map (char :: ·) := by
  rw [decodeFrom.eq_def]
  cases encodes with
  | @one first ascii code =>
      have assembled : Char.ofNat first.toNat = char := by rw [← code, ofNat_val]
      simp only [List.cons_append, List.nil_append, UInt8.lt_iff_toNat_lt, UInt8.reduceToNat]
      rw [if_pos ascii, assembled]
      rfl
  | @two first second atLeast below isNext code =>
      have assembled : assemble (first.toNat - 0xC0) [second] = char := by
        simp only [assemble, List.foldl_cons, List.foldl_nil, ← code, ofNat_val]
      simp only [List.cons_append, List.nil_append, UInt8.lt_iff_toNat_lt, UInt8.reduceToNat,
        isNext, assembled, Bool.not_true, Bool.false_eq_true, if_false, Bool.or_eq_true,
        decide_eq_true_eq]
      rw [if_neg (by omega), if_neg (by omega), if_pos below]
      rfl
  | @three first second third atLeast below isNext isThird code =>
      have assembled : assemble (first.toNat - 0xE0) [second, third] = char := by
        simp only [assemble, List.foldl_cons, List.foldl_nil, ← code, ofNat_val]
      simp only [List.cons_append, List.nil_append, UInt8.lt_iff_toNat_lt, UInt8.reduceToNat,
        isNext, isThird, assembled, Bool.not_true, Bool.false_eq_true, if_false, Bool.or_eq_true,
        decide_eq_true_eq]
      rw [if_neg (by omega), if_neg (by omega), if_neg (by omega), if_pos below]
      rfl
  | @four first second third fourth atLeast atMost isNext isThird isFourth code =>
      have assembled : assemble (first.toNat - 0xF0) [second, third, fourth] = char := by
        simp only [assemble, List.foldl_cons, List.foldl_nil, ← code, ofNat_val]
      simp only [List.cons_append, List.nil_append, UInt8.lt_iff_toNat_lt, UInt8.reduceToNat,
        isNext, isThird, isFourth, assembled, Bool.not_true, Bool.false_eq_true, if_false,
        Bool.or_eq_true, decide_eq_true_eq]
      rw [if_neg (by omega), if_neg (by omega), if_neg (by omega), if_neg (by omega)]
      rfl

end Character

theorem encode_cons (char : Char) (text : Text) :
    encode (char :: text) = String.utf8EncodeChar char ++ encode text :=
  List.flatMap_cons

theorem decodeFrom_encode (position : Nat) (text : Text) :
    decodeFrom position (encode text) = .ok text := by
  induction text generalizing position with
  | nil => rfl
  | cons char text ih =>
      rw [encode_cons, (encodes_utf8EncodeChar char).decodeFrom_append, ih]
      rfl

theorem encode_of_map_decodeFrom {char : Char} {bytes rest : Bytes} {position : Nat} {text : Text}
    (encodes : Encodes char bytes)
    (read : (decodeFrom position rest).map (char :: ·) = .ok text)
    (ih : ∀ {text : Text}, decodeFrom position rest = .ok text → encode text = rest) :
    encode text = bytes ++ rest := by
  cases decoded : decodeFrom position rest with
  | error error => simp [decoded, Except.map] at read
  | ok others =>
      simp only [decoded, Except.map, Except.ok.injEq] at read
      rw [← read, encode_cons, encodes.utf8EncodeChar_eq, ih decoded]

/-- What is read is the text that the bytes are written for. -/
theorem encode_of_decodeFrom {bytes : Bytes} {position : Nat} {text : Text}
    (read : decodeFrom position bytes = .ok text) : encode text = bytes := by
  fun_induction decodeFrom position bytes generalizing text with
  | case1 =>
      cases read
      rfl
  | case2 _ first rest ascii ih =>
      simp only [UInt8.lt_iff_toNat_lt, UInt8.reduceToNat] at ascii
      refine encode_of_map_decodeFrom (.one ascii ?_) read ih
      exact val_ofNat (.inl (by omega))
  | case6 _ first _ inRange below second rest isNext ih =>
      simp only [Bool.or_eq_true, decide_eq_true_eq, UInt8.lt_iff_toNat_lt, UInt8.reduceToNat,
        Bool.not_eq_true', Bool.not_eq_false] at inRange below isNext
      have secondRange := isContinuation_iff.mp isNext
      refine encode_of_map_decodeFrom (.two (by omega) below isNext ?_) read ih
      simp only [assemble, List.foldl_cons, List.foldl_nil]
      exact val_ofNat (.inl (by omega))
  | case11 _ first _ inRange above second isNext third rest isThird below ih =>
      simp only [Bool.or_eq_true, decide_eq_true_eq, UInt8.lt_iff_toNat_lt, UInt8.reduceToNat,
        Bool.not_eq_true', Bool.not_eq_false] at inRange above below isNext isThird
      have secondRange := isSecond_iff.mp isNext
      have thirdRange := isContinuation_iff.mp isThird
      refine encode_of_map_decodeFrom (.three (by omega) below isNext isThird ?_) read ih
      simp only [assemble, List.foldl_cons, List.foldl_nil]
      exact val_ofNat (by unfold Nat.isValidChar; omega)
  | case14 _ first _ inRange _ second isNext third isThird above fourth rest isFourth ih =>
      simp only [Bool.or_eq_true, decide_eq_true_eq, UInt8.lt_iff_toNat_lt, UInt8.reduceToNat,
        Bool.not_eq_true', Bool.not_eq_false] at inRange above isNext isThird isFourth
      have secondRange := isSecond_iff.mp isNext
      have thirdRange := isContinuation_iff.mp isThird
      have fourthRange := isContinuation_iff.mp isFourth
      refine encode_of_map_decodeFrom
        (.four (by omega) (by omega) isNext isThird isFourth ?_) read ih
      simp only [assemble, List.foldl_cons, List.foldl_nil]
      exact val_ofNat (.inr ⟨by omega, by omega⟩)
  | case3 | case4 | case5 | case7 | case8 | case9 | case10 | case12 | case13 => cases read

/-- Reading accepts exactly what writing produces. -/
theorem decode_eq_ok_iff {bytes : Bytes} {text : Text} :
    decode bytes = .ok text ↔ encode text = bytes := by
  constructor
  · exact encode_of_decodeFrom
  · rintro rfl
    exact decodeFrom_encode 0 text

theorem encode_injective : Function.Injective encode := by
  intro left right same
  have decoded := decode_eq_ok_iff.mpr same
  rw [decode_eq_ok_iff.mpr rfl, Except.ok.injEq] at decoded
  exact decoded.symm

end Utf8

end IntraDoc
