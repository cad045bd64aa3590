/-!
# Texts in byte order

A text is kept in memory as the bytes of its characters in UTF-8, and two texts are compared byte by
byte. This file shows that this is the order by code points (`bytes_lt_iff`). Of two characters the
lower one has the lower bytes, and it has them before either encoding ends, so whatever follows the
first different characters does not matter.
-/

namespace TypeProjection.Text

/-- The bytes of a text in UTF-8. -/
def bytes (text : String) : List UInt8 := text.toUTF8.data.toList

/-! ## Characters -/

theorem ofNat_lt_ofNat_iff {m n : Nat} (hm : m < 256) (hn : n < 256) :
    UInt8.ofNat m < UInt8.ofNat n ↔ m < n := by
  simp [UInt8.lt_iff_toNat_lt, Nat.mod_eq_of_lt hm, Nat.mod_eq_of_lt hn]

theorem ofNat_eq_ofNat_iff {m n : Nat} (hm : m < 256) (hn : n < 256) :
    UInt8.ofNat m = UInt8.ofNat n ↔ m = n := by
  simp [← UInt8.toNat_inj, Nat.mod_eq_of_lt hm, Nat.mod_eq_of_lt hn]

/-- The bytes of a code point: its digits to the base 64 from the highest on, the first of them behind
a number that tells how many there are. -/
inductive Encodes (code : Nat) : List UInt8 → Prop where
  | one (upper : code < 0x80) : Encodes code [.ofNat code]
  | two (lower : 0x80 ≤ code) (upper : code < 0x800) :
      Encodes code [.ofNat (code / 64 + 0xc0), .ofNat (code % 64 + 0x80)]
  | three (lower : 0x800 ≤ code) (upper : code < 0x10000) :
      Encodes code [.ofNat (code / 4096 + 0xe0), .ofNat (code / 64 % 64 + 0x80),
        .ofNat (code % 64 + 0x80)]
  | four (lower : 0x10000 ≤ code) (upper : code < 0x110000) :
      Encodes code [.ofNat (code / 262144 + 0xf0), .ofNat (code / 4096 % 64 + 0x80),
        .ofNat (code / 64 % 64 + 0x80), .ofNat (code % 64 + 0x80)]

theorem encodes_utf8EncodeChar (c : Char) : Encodes c.toNat (String.utf8EncodeChar c) := by
  have hval : c.val.toNat = c.toNat := rfl
  have hbound : c.toNat < 0x110000 := by
    have hvalid := c.valid
    simp only [UInt32.isValidChar, Nat.isValidChar] at hvalid
    omega
  rw [String.utf8EncodeChar, hval]
  by_cases hone : c.toNat ≤ 0x7f
  · rw [if_pos hone]
    exact .one (by omega)
  by_cases htwo : c.toNat ≤ 0x7ff
  · rw [if_neg hone, if_pos htwo, Nat.mod_eq_of_lt (by omega : c.toNat / 64 < 0x20)]
    exact .two (by omega) (by omega)
  by_cases hthree : c.toNat ≤ 0xffff
  · rw [if_neg hone, if_neg htwo, if_pos hthree,
      Nat.mod_eq_of_lt (by omega : c.toNat / 4096 < 0x10)]
    exact .three (by omega) (by omega)
  · rw [if_neg hone, if_neg htwo, if_neg hthree,
      Nat.mod_eq_of_lt (by omega : c.toNat / 262144 < 0x08)]
    exact .four (by omega) hbound

/-- The bytes of the lower code point are lower, with whatever behind them. -/
theorem Encodes.lt {m n : Nat} {a b : List UInt8} (ha : Encodes m a) (hb : Encodes n b) (h : m < n)
    (s t : List UInt8) : a ++ s < b ++ t := by
  have hdigits : ∀ k, k / 64 / 64 = k / 4096 ∧ k / 4096 / 64 = k / 262144 := fun k =>
    ⟨Nat.div_div_eq_div_mul k 64 64, Nat.div_div_eq_div_mul k 4096 64⟩
  have hm := hdigits m
  have hn := hdigits n
  -- If the numbers of bytes differ, the first byte decides, and else the first different digit.
  cases ha <;> cases hb <;>
  · simp (disch := omega) only [List.cons_append, List.cons_lt_cons_iff, ofNat_lt_ofNat_iff,
      ofNat_eq_ofNat_iff]
    omega

/-! ## Texts -/

theorem bytes_eq (text : String) : bytes text = text.toList.flatMap String.utf8EncodeChar := by
  rw [bytes, String.toUTF8_eq_toByteArray, ← String.utf8Encode_toList]
  exact List.toList_data_toByteArray

theorem flatMap_lt_of_lt {a b : List Char} (h : a < b) :
    a.flatMap String.utf8EncodeChar < b.flatMap String.utf8EncodeChar := by
  induction h with
  | nil =>
    rename_i c rest
    obtain ⟨first, more, hbytes⟩ := List.exists_cons_of_ne_nil
      (String.utf8EncodeChar_ne_nil : String.utf8EncodeChar c ≠ [])
    rw [List.flatMap_nil, List.flatMap_cons, hbytes]
    exact List.nil_lt_cons first _
  | cons _ ih =>
    rw [List.flatMap_cons, List.flatMap_cons]
    exact List.append_left_lt ih
  | rel hlt =>
    rw [List.flatMap_cons, List.flatMap_cons]
    exact (encodes_utf8EncodeChar _).lt (encodes_utf8EncodeChar _) hlt _ _

/-- The order by bytes is the order by code points. -/
theorem bytes_lt_iff {a b : String} : bytes a < bytes b ↔ a < b := by
  have hmono : ∀ {a b : String}, a < b → bytes a < bytes b := by
    intro a b h
    rw [bytes_eq, bytes_eq]
    exact flatMap_lt_of_lt h
  refine ⟨fun h => ?_, hmono⟩
  by_cases hlt : a < b
  · exact hlt
  · -- Otherwise the texts are the same, or they and so their bytes are the other way round.
    rcases Classical.em (b < a) with hgt | hge
    · exact absurd (hmono hgt) (List.lt_asymm h)
    · rw [String.le_antisymm hge hlt] at h
      exact absurd h (List.lt_irrefl _)

end TypeProjection.Text
