import Mathlib.Data.List.Basic
import Mathlib.Tactic.SplitIfs

/-!
# The order of texts

Texts are compared character by character, and their UTF-8 bytes would compare
the same way (`lt_iff_utf8_lt`): a longer encoding starts with a larger byte, and
encodings of one length are numbers to the base 64, with the highest digit first.
-/

namespace Chronicle

/-- Of two characters the lower one has the lower encoding, whatever follows. -/
theorem utf8EncodeChar_append_lt {c d : Char} (lower : c < d) (as bs : List UInt8) :
    String.utf8EncodeChar c ++ as < String.utf8EncodeChar d ++ bs := by
  have below : c.val.toNat < d.val.toNat := lower
  have bounded : d.val.toNat < 1114112 := by
    have valid : d.val.toNat.isValidChar := d.valid
    unfold Nat.isValidChar at valid
    omega
  -- The bytes are numbers of 8 bits, whichever place they have in an encoding.
  have first₂ (n : Nat) : (n % 32 + 192) % 2 ^ 8 = n % 32 + 192 := by omega
  have first₃ (n : Nat) : (n % 16 + 224) % 2 ^ 8 = n % 16 + 224 := by omega
  have first₄ (n : Nat) : (n % 8 + 240) % 2 ^ 8 = n % 8 + 240 := by omega
  have later (n : Nat) : (n % 64 + 128) % 2 ^ 8 = n % 64 + 128 := by omega
  have digits (n : Nat) (small : n < 1114112) :
      n / 4096 = n / 64 / 64 ∧ n / 262144 = n / 4096 / 64 ∧ n / 262144 / 8 = 0 := by omega
  unfold String.utf8EncodeChar
  generalize d.val.toNat = n at below bounded ⊢
  generalize c.val.toNat = m at below ⊢
  obtain ⟨n₁, n₂, n₃⟩ := digits n bounded
  obtain ⟨m₁, m₂, m₃⟩ := digits m (Nat.lt_trans below bounded)
  dsimp only
  -- One case for each pair of lengths.
  split_ifs <;>
    simp only [List.cons_append, List.nil_append, List.cons_lt_cons_iff, UInt8.lt_iff_toNat_lt,
      ← UInt8.toNat_inj, UInt8.toNat_ofNat', first₂, first₃, first₄, later] <;>
    omega

theorem flatMap_utf8EncodeChar_lt {cs ds : List Char} (lower : cs < ds) :
    cs.flatMap String.utf8EncodeChar < ds.flatMap String.utf8EncodeChar := by
  induction cs generalizing ds with
  | nil =>
    cases ds with
    | nil => exact absurd lower (List.lt_irrefl _)
    | cons d ds =>
      rw [List.flatMap_cons]
      cases encoded : String.utf8EncodeChar d with
      | nil => exact absurd encoded String.utf8EncodeChar_ne_nil
      | cons b bs => exact List.nil_lt_cons _ _
  | cons c cs ih =>
    cases ds with
    | nil => exact absurd lower (List.not_lt_nil _)
    | cons d ds =>
      rw [List.flatMap_cons, List.flatMap_cons]
      rcases List.cons_lt_cons_iff.1 lower with first | ⟨rfl, rest⟩
      · exact utf8EncodeChar_append_lt first _ _
      · exact List.append_left_lt (ih rest)

/-- The bytes of a text. -/
def utf8 (text : String) : List UInt8 := text.toUTF8.data.toList

theorem utf8_eq (text : String) : utf8 text = text.toList.flatMap String.utf8EncodeChar := by
  rw [utf8, String.toUTF8, ← String.utf8Encode_toList, List.utf8Encode, List.data_toByteArray]

theorem utf8_lt_of_lt {a b : String} (lower : a < b) : utf8 a < utf8 b := by
  rw [utf8_eq, utf8_eq]
  exact flatMap_utf8EncodeChar_lt lower

/-- The order of texts is that of their bytes. -/
theorem lt_iff_utf8_lt {a b : String} : a < b ↔ utf8 a < utf8 b := by
  refine ⟨utf8_lt_of_lt, fun lower => ?_⟩
  by_contra notBefore
  rcases eq_or_ne b a with rfl | differs
  · exact List.lt_irrefl _ lower
  · have before : b < a := Std.lt_of_le_of_ne (String.not_lt.1 notBefore) differs
    exact List.lt_asymm lower (utf8_lt_of_lt before)

end Chronicle
