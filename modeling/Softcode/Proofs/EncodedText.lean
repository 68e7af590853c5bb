/-
**Texts as bytes, and in addresses.**

A text is stored as the bytes of its UTF-8 form, and in an address those bytes that have a meaning
there are written with a percent sign and two digits.  Both are read back to what was written.  For
UTF-8 the proof goes character by character: a first byte says how many follow, and the ranges of
the bytes that the reader accepts leave out exactly what no character is written as.  For the
percent sign it suffices that the sign itself is always encoded.

Main results:

* `Softcode.Utf8.decode_toBytes` — **the bytes of a text are read as the text**;
* `Softcode.Percent.decode_encode` — **an encoded text stands for the bytes of the text**;
* `Softcode.Percent.mem_encode` — the characters of an encoded text.
-/

import Mathlib.Tactic.IntervalCases
import Softcode.Url.Percent

set_option autoImplicit false

namespace Softcode

/-! ### The bytes of a text -/

namespace Text

theorem toBytes_cons (c : Char) (s : Text) :
    toBytes (c :: s) = String.utf8EncodeChar c ++ toBytes s := rfl

theorem toBytes_append (s t : Text) : toBytes (s ++ t) = toBytes s ++ toBytes t :=
  List.flatMap_append

@[simp] theorem length_toBytes (s : Text) : (toBytes s).length = byteLength s := by
  induction s with
  | nil => rfl
  | cons c s ih => rw [toBytes_cons, List.length_append, ih, String.length_utf8EncodeChar]; rfl

theorem length_toBytes_pos {s : Text} (h : s ≠ []) : 0 < (toBytes s).length := by
  obtain ⟨c, s, rfl⟩ := List.exists_cons_of_ne_nil h
  rw [toBytes_cons, List.length_append, String.length_utf8EncodeChar]
  exact Nat.add_pos_left c.utf8Size_pos _

end Text

/-- An ASCII character is one byte. -/
theorem utf8EncodeChar_of_lt {c : Char} (h : c.toNat < 0x80) :
    String.utf8EncodeChar c = [UInt8.ofNat c.toNat] := by
  have hle : c.val.toNat ≤ 0x7f := Nat.le_of_lt_succ h
  unfold String.utf8EncodeChar
  exact if_pos hle

theorem Utf8.toNat_byte {n : Nat} (h : n < 256) : (UInt8.ofNat n).toNat = n :=
  UInt8.toNat_ofNat_of_lt h

/-- The first byte of any other character is none of an ASCII character. -/
theorem exists_lead_of_le {c : Char} (h : 0x80 ≤ c.toNat) :
    ∃ b bs, String.utf8EncodeChar c = b :: bs ∧ 0x80 ≤ b.toNat := by
  have hle : 0x80 ≤ c.val.toNat := h
  unfold String.utf8EncodeChar
  dsimp only
  split
  · omega
  split
  · exact ⟨_, _, rfl, by rw [Utf8.toNat_byte (by omega)]; omega⟩
  split
  · exact ⟨_, _, rfl, by rw [Utf8.toNat_byte (by omega)]; omega⟩
  · exact ⟨_, _, rfl, by rw [Utf8.toNat_byte (by omega)]; omega⟩

namespace Utf8

/-! ### Reading one character -/

section Steps

variable {index : Nat} {acc : Text} {bs : Bytes}

theorem decodeFrom_lead {b : UInt8} {p : Pending} (h : lead? b.toNat = some p) :
    decodeFrom index none acc (b :: bs) = decodeFrom index (some p) acc bs := by
  have hge : ¬ b.toNat < 0x80 := by
    intro hlt
    have hnone : lead? b.toNat = none := by
      unfold lead?
      repeat rw [if_neg (by omega)]
    rw [h] at hnone
    cases hnone
  rw [decodeFrom, if_neg hge, h]

variable {read missing least most bits m : Nat}
  (h : least ≤ m % 64 + 0x80 ∧ m % 64 + 0x80 ≤ most)

include h

/-- A byte in the middle of a character: it holds the next six bits. -/
theorem decodeFrom_more (hmore : missing ≠ 1) :
    decodeFrom index (some ⟨read, missing, least, most, bits⟩) acc
        (UInt8.ofNat (m % 0x40 + 0x80) :: bs) =
      decodeFrom index (some ⟨read + 1, missing - 1, 0x80, 0xBF, 64 * bits + m % 64⟩) acc bs := by
  rw [decodeFrom, toNat_byte (by omega), if_pos h, if_neg hmore, Nat.add_sub_cancel]

/-- The last byte of a character. -/
theorem decodeFrom_last :
    decodeFrom index (some ⟨read, 1, least, most, bits⟩) acc
        (UInt8.ofNat (m % 0x40 + 0x80) :: bs) =
      decodeFrom (index + read + 1) none (Char.ofNat (64 * bits + m % 64) :: acc) bs := by
  rw [decodeFrom, toNat_byte (by omega), if_pos h, if_pos rfl, Nat.add_sub_cancel]

end Steps

/-- The first byte of two. -/
theorem lead?_two {q : Nat} (h₂ : 2 ≤ q) (h : q < 32) :
    lead? (q + 0xC0) = some ⟨1, 1, 0x80, 0xBF, q⟩ := by
  unfold lead?
  rw [if_pos (by omega), Nat.add_sub_cancel]

/-- The first byte of three: the range of the next one leaves out overlong forms and surrogates. -/
theorem lead?_three {q : Nat} (h : q < 16) :
    lead? (q + 0xE0) =
      some ⟨1, 2, if q = 0 then 0xA0 else 0x80, if q = 13 then 0x9F else 0xBF, q⟩ := by
  interval_cases q <;> rfl

/-- The first byte of four: the range of the next one leaves out overlong forms and numbers beyond
the last character. -/
theorem lead?_four {q : Nat} (h : q < 5) :
    lead? (q + 0xF0) =
      some ⟨1, 3, if q = 0 then 0x90 else 0x80, if q = 4 then 0x8F else 0xBF, q⟩ := by
  interval_cases q <;> rfl

/-- **A character is read from its bytes.** -/
theorem decodeFrom_encodeChar (index : Nat) (acc : Text) (c : Char) (bs : Bytes) :
    ∃ index', decodeFrom index none acc (String.utf8EncodeChar c ++ bs) =
      decodeFrom index' none (c :: acc) bs := by
  have hchar : ∀ {v : Nat}, v = c.val.toNat → Char.ofNat v = c := by
    rintro _ rfl
    exact Char.ofNat_toNat c
  have hvalid : c.val.toNat < 0xD800 ∨ 0xDFFF < c.val.toNat ∧ c.val.toNat < 0x110000 := c.valid
  generalize hv : c.val.toNat = v at hchar hvalid
  unfold String.utf8EncodeChar
  simp only [hv]
  split
  · refine ⟨index + 1, ?_⟩
    rw [List.cons_append, List.nil_append, decodeFrom, toNat_byte (by omega), if_pos (by omega),
      hchar rfl]
  split
  · have hlead : lead? (UInt8.ofNat (v / 64 % 0x20 + 0xC0)).toNat =
        some ⟨1, 1, 0x80, 0xBF, v / 64⟩ := by
      rw [toNat_byte (by omega), Nat.mod_eq_of_lt (by omega), lead?_two (by omega) (by omega)]
    refine ⟨index + 1 + 1, ?_⟩
    rw [List.cons_append, List.cons_append, List.nil_append, decodeFrom_lead hlead,
      decodeFrom_last (by omega), hchar (by omega)]
  split
  · have hlead : lead? (UInt8.ofNat (v / 4096 % 0x10 + 0xE0)).toNat =
        some ⟨1, 2, if v / 4096 = 0 then 0xA0 else 0x80,
          if v / 4096 = 13 then 0x9F else 0xBF, v / 4096⟩ := by
      rw [toNat_byte (by omega), Nat.mod_eq_of_lt (by omega), lead?_three (by omega)]
    refine ⟨index + (1 + 1) + 1, ?_⟩
    rw [List.cons_append, List.cons_append, List.cons_append, List.nil_append,
      decodeFrom_lead hlead, decodeFrom_more (by split <;> split <;> omega) (by omega),
      decodeFrom_last (by omega), hchar (by omega)]
  · have hlead : lead? (UInt8.ofNat (v / 262144 % 0x08 + 0xF0)).toNat =
        some ⟨1, 3, if v / 262144 = 0 then 0x90 else 0x80,
          if v / 262144 = 4 then 0x8F else 0xBF, v / 262144⟩ := by
      rw [toNat_byte (by omega), Nat.mod_eq_of_lt (by omega), lead?_four (by omega)]
    refine ⟨index + (1 + 1 + 1) + 1, ?_⟩
    rw [List.cons_append, List.cons_append, List.cons_append, List.cons_append, List.nil_append,
      decodeFrom_lead hlead, decodeFrom_more (by split <;> split <;> omega) (by omega),
      decodeFrom_more (by omega) (by omega), decodeFrom_last (by omega), hchar (by omega)]

/-- **The bytes of a text are read as the text.** -/
theorem decode_toBytes (s : Text) : decode (Text.toBytes s) = .ok s := by
  have hread : ∀ (index : Nat) (acc : Text), decodeFrom index none acc (Text.toBytes s) =
      .ok (acc.reverse ++ s) := by
    induction s with
    | nil => intro index acc; rw [List.append_nil]; rfl
    | cons c s ih =>
        intro index acc
        obtain ⟨index', hc⟩ := decodeFrom_encodeChar index acc c (Text.toBytes s)
        rw [Text.toBytes_cons, hc, ih, List.reverse_cons, List.append_assoc]
        rfl
  exact hread 0 []

end Utf8

theorem Text.toBytes_injective {s t : Text} (h : toBytes s = toBytes t) : s = t := by
  have hs := Utf8.decode_toBytes s
  rw [h, Utf8.decode_toBytes t] at hs
  exact (Except.ok.inj hs).symm

namespace Percent

/-! ### Percent signs -/

theorem hexValue?_hexDigit {n : Nat} (h : n < 16) : hexValue? (hexDigit n) = some n := by
  interval_cases n <;> rfl

/-- The digits of encoded bytes. -/
def hexDigits : Text := "0123456789ABCDEF".toList

theorem hexDigit_mem {n : Nat} (h : n < 16) : hexDigit n ∈ hexDigits := by
  interval_cases n <;> decide

/-- An encoded byte stands for the byte. -/
theorem decode_encodeByte (b : UInt8) (t : Text) : decode (encodeByte b ++ t) = b :: decode t := by
  have hb : b.toNat < 256 := b.toNat_lt
  have hbyte : UInt8.ofNat (16 * (b.toNat / 16) + b.toNat % 16) = b := by
    rw [Nat.div_add_mod, UInt8.ofNat_toNat]
  rw [encodeByte, List.cons_append, List.cons_append, List.cons_append, List.nil_append, decode,
    hexValue?_hexDigit (by omega), hexValue?_hexDigit (by omega)]
  dsimp only
  rw [hbyte]

theorem decode_encodeBytes (bs : Bytes) (t : Text) :
    decode (bs.flatMap encodeByte ++ t) = bs ++ decode t := by
  induction bs with
  | nil => rfl
  | cons b bs ih =>
      rw [List.flatMap_cons, List.append_assoc, decode_encodeByte, ih, List.cons_append]

/-- A character that is no percent sign stands for itself. -/
theorem decode_cons {c : Char} (hc : c ≠ '%') (t : Text) :
    decode (c :: t) = String.utf8EncodeChar c ++ decode t := by
  rw [decode]
  rintro a b s h
  exact absurd h hc

variable {inClass : Char → Bool}

/-- **An encoded text stands for the bytes of the text**, if percent signs are encoded. -/
theorem decode_encode (hsign : inClass '%' = true) (s : Text) :
    decode (encode inClass s) = Text.toBytes s := by
  induction s with
  | nil => rfl
  | cons c s ih =>
      rw [encode, List.flatMap_cons, ← encode, Text.toBytes_cons, ← ih, encodeChar]
      split
      · next h =>
          refine decode_cons ?_ _
          rintro rfl
          simp [hsign] at h
      · exact decode_encodeBytes _ _

/-- The characters of an encoded text: those of the text that are ASCII and not of the class, the
percent sign and the digits. -/
theorem mem_encode {s : Text} {d : Char} (h : d ∈ encode inClass s) :
    (d.toNat < 0x80 ∧ inClass d = false) ∨ d ∈ '%' :: hexDigits := by
  obtain ⟨c, -, hd⟩ := List.mem_flatMap.1 h
  unfold encodeChar at hd
  split at hd
  · next hc =>
      obtain rfl := List.mem_singleton.1 hd
      exact .inl (by simpa using hc)
  · right
    obtain ⟨b, -, hd⟩ := List.mem_flatMap.1 hd
    have hb : b.toNat < 256 := b.toNat_lt
    simp only [encodeByte, List.mem_cons, List.not_mem_nil, or_false] at hd
    rcases hd with rfl | rfl | rfl
    · exact List.mem_cons_self
    · exact List.mem_cons_of_mem _ (hexDigit_mem (by omega))
    · exact List.mem_cons_of_mem _ (hexDigit_mem (by omega))

/-- Different texts are encoded differently. -/
theorem encode_injective (hsign : inClass '%' = true) {s t : Text}
    (h : encode inClass s = encode inClass t) : s = t := by
  have hbytes := decode_encode hsign s
  rw [h, decode_encode hsign t] at hbytes
  exact (Text.toBytes_injective hbytes).symm

end Percent

end Softcode
