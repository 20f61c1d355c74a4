import Mathlib.Tactic.Common

/-!
# UTF-8

The bytes of a text in UTF-8, by the encoding of its characters and by the ranges of the bytes.

* `CharBytes l`: the bytes are in the ranges of one character.
* `charBytes_iff`: these are the encodings of the characters.
* `Utf8 l`: the bytes encode a text.
-/

namespace Lib

/-- A byte behind the first one of a character. -/
def Continues (b : UInt8) : Prop := 0x80 ≤ b ∧ b ≤ 0xBF

/-- The bytes of one character. The ranges of the second byte leave out encodings that are too
long, surrogates and numbers that are too large. -/
inductive CharBytes : List UInt8 → Prop
  | one {a : UInt8} (ha : a < 0x80) : CharBytes [a]
  | two {a b : UInt8} (ha : 0xC2 ≤ a ∧ a < 0xE0) (hb : Continues b) : CharBytes [a, b]
  | three {a b c : UInt8} (ha : 0xE0 ≤ a ∧ a < 0xF0) (hb : Continues b) (hc : Continues c) (hlong : a = 0xE0 → 0xA0 ≤ b)
      (hsurrogate : a = 0xED → b < 0xA0) : CharBytes [a, b, c]
  | four {a b c d : UInt8} (ha : 0xF0 ≤ a ∧ a < 0xF5) (hb : Continues b) (hc : Continues c) (hd : Continues d)
      (hlong : a = 0xF0 → 0x90 ≤ b) (hlarge : a = 0xF4 → b < 0x90) : CharBytes [a, b, c, d]

/-- The bytes encode a text. -/
def Utf8 (l : List UInt8) : Prop := ∃ cs : List Char, cs.flatMap String.utf8EncodeChar = l

variable {l l' : List UInt8}

/-- The bytes of a character are in these ranges. -/
theorem charBytes_encode (c : Char) : CharBytes (String.utf8EncodeChar c) := by
  have hvalid : c.val.toNat < 0xD800 ∨ 0xDFFF < c.val.toNat ∧ c.val.toNat < 0x110000 := c.valid
  unfold String.utf8EncodeChar
  dsimp only
  split_ifs
  · apply CharBytes.one
    simp only [UInt8.lt_iff_toNat_lt, UInt8.toNat_ofNat', UInt8.reduceToNat]
    omega
  · apply CharBytes.two <;>
      simp only [Continues, UInt8.lt_iff_toNat_lt, UInt8.le_iff_toNat_le, UInt8.toNat_ofNat', UInt8.reduceToNat] <;>
      omega
  · apply CharBytes.three <;>
      simp only [Continues, ← UInt8.toNat_inj, UInt8.lt_iff_toNat_lt, UInt8.le_iff_toNat_le, UInt8.toNat_ofNat',
        UInt8.reduceToNat] <;>
      omega
  · apply CharBytes.four <;>
      simp only [Continues, ← UInt8.toNat_inj, UInt8.lt_iff_toNat_lt, UInt8.le_iff_toNat_le, UInt8.toNat_ofNat',
        UInt8.reduceToNat] <;>
      omega

/-- The character with a number. -/
theorem exists_char {v : ℕ} (h : v < 0xD800 ∨ 0xDFFF < v ∧ v < 0x110000) : ∃ c : Char, c.val.toNat = v := by
  have hv : (UInt32.ofNat v).toNat = v := UInt32.toNat_ofNat_of_lt' (by show v < 4294967296; omega)
  refine ⟨⟨UInt32.ofNat v, ?_⟩, hv⟩
  show (UInt32.ofNat v).toNat.isValidChar
  rw [hv]
  exact h

/-- **The ranges are those of the characters.** -/
theorem charBytes_iff : CharBytes l ↔ ∃ c : Char, String.utf8EncodeChar c = l := by
  constructor
  · intro h
    cases h with
    | @one a ha =>
      simp only [UInt8.lt_iff_toNat_lt, UInt8.reduceToNat] at ha
      obtain ⟨c, hc⟩ := exists_char (v := a.toNat) (by omega)
      refine ⟨c, ?_⟩
      unfold String.utf8EncodeChar
      dsimp only
      rw [hc, if_pos (by omega), UInt8.ofNat_toNat]
    | @two a b ha hb =>
      simp only [Continues, UInt8.lt_iff_toNat_lt, UInt8.le_iff_toNat_le, UInt8.reduceToNat] at ha hb
      obtain ⟨c, hc⟩ := exists_char (v := (a.toNat - 0xC0) * 64 + (b.toNat - 0x80)) (by omega)
      refine ⟨c, ?_⟩
      unfold String.utf8EncodeChar
      dsimp only
      rw [hc, if_neg (by omega), if_pos (by omega)]
      simp only [List.cons.injEq, ← UInt8.toNat_inj, UInt8.toNat_ofNat', and_true]
      omega
    | @three a b c ha hb hc hlong hsurrogate =>
      simp only [Continues, ← UInt8.toNat_inj, UInt8.lt_iff_toNat_lt, UInt8.le_iff_toNat_le,
        UInt8.reduceToNat] at ha hb hc hlong hsurrogate
      obtain ⟨x, hx⟩ := exists_char (v := (a.toNat - 0xE0) * 4096 + (b.toNat - 0x80) * 64 + (c.toNat - 0x80)) (by omega)
      refine ⟨x, ?_⟩
      unfold String.utf8EncodeChar
      dsimp only
      rw [hx, if_neg (by omega), if_neg (by omega), if_pos (by omega)]
      simp only [List.cons.injEq, ← UInt8.toNat_inj, UInt8.toNat_ofNat', and_true]
      omega
    | @four a b c d ha hb hc hd hlong hlarge =>
      simp only [Continues, ← UInt8.toNat_inj, UInt8.lt_iff_toNat_lt, UInt8.le_iff_toNat_le,
        UInt8.reduceToNat] at ha hb hc hd hlong hlarge
      obtain ⟨x, hx⟩ := exists_char
        (v := (a.toNat - 0xF0) * 262144 + (b.toNat - 0x80) * 4096 + (c.toNat - 0x80) * 64 + (d.toNat - 0x80)) (by omega)
      refine ⟨x, ?_⟩
      unfold String.utf8EncodeChar
      dsimp only
      rw [hx, if_neg (by omega), if_neg (by omega), if_neg (by omega)]
      simp only [List.cons.injEq, ← UInt8.toNat_inj, UInt8.toNat_ofNat', and_true]
      omega
  · rintro ⟨c, rfl⟩
    exact charBytes_encode c

/-! ## Texts -/

theorem CharBytes.ne_nil (h : CharBytes l) : l ≠ [] := by
  cases h <;> simp

theorem utf8_nil : Utf8 [] := ⟨[], rfl⟩

/-- A character, and the rest of the text. -/
theorem CharBytes.append (h : CharBytes l) (h' : Utf8 l') : Utf8 (l ++ l') := by
  obtain ⟨c, rfl⟩ := charBytes_iff.1 h
  obtain ⟨cs, rfl⟩ := h'
  exact ⟨c :: cs, List.flatMap_cons⟩

theorem Utf8.append (h : Utf8 l) (h' : Utf8 l') : Utf8 (l ++ l') := by
  obtain ⟨cs, rfl⟩ := h
  obtain ⟨cs', rfl⟩ := h'
  exact ⟨cs ++ cs', List.flatMap_append⟩

/-- ASCII is UTF-8. -/
theorem ascii_utf8 (h : ∀ b ∈ l, b < 0x80) : Utf8 l := by
  induction l with
  | nil => exact utf8_nil
  | cons b l ih => exact (CharBytes.one (h b List.mem_cons_self)).append (ih fun b' hb' => h b' (List.mem_cons_of_mem _ hb'))

/-- The rule of induction, over the characters of a text. -/
theorem Utf8.induct {P : List UInt8 → Prop} (h : Utf8 l) (hnil : P [])
    (hcons : ∀ l l', CharBytes l → Utf8 l' → P l' → P (l ++ l')) : P l := by
  obtain ⟨cs, rfl⟩ := h
  induction cs with
  | nil => exact hnil
  | cons c cs ih =>
    rw [List.flatMap_cons]
    exact hcons _ _ (charBytes_encode c) ⟨cs, rfl⟩ ih

end Lib
