import Mathlib.Data.List.Basic

/-!
# The byte order of texts

Texts are compared by their characters everywhere. This is the order of their UTF-8 bytes, since a
character with a greater code point has an encoding that is greater at the first byte where the two
differ.
-/
namespace RestWiring.Text

/-- The UTF-8 encoding of a text. -/
def bytes (text : String) : List UInt8 := text.toUTF8.data.toList

theorem bytes_eq (text : String) : bytes text = text.toList.flatMap String.utf8EncodeChar := by
  have encoded : text.toList.utf8Encode = text.toByteArray := by
    rw [← String.toByteArray_ofList, String.ofList_toList]
  rw [bytes, String.toUTF8_eq_toByteArray, ← encoded, List.utf8Encode, List.data_toByteArray]

theorem encodeChar_lt {c d : Char} (before : c < d) (rest rest' : List UInt8) :
    String.utf8EncodeChar c ++ rest < String.utf8EncodeChar d ++ rest' := by
  have smaller : c.val.toNat < d.val.toNat := before
  have bound : d.val.toNat ≤ 0x10ffff := by
    rcases d.valid with low | ⟨-, high⟩ <;> omega
  unfold String.utf8EncodeChar
  dsimp only
  generalize c.val.toNat = m at smaller
  generalize d.val.toNat = n at smaller bound
  split_ifs <;>
    simp (disch := omega) only [List.cons_append, List.cons_lt_cons_iff, UInt8.lt_iff_toNat_lt,
      ← UInt8.toNat_inj, UInt8.toNat_ofNat', Nat.mod_eq_of_lt] <;>
    omega

theorem encode_lt {cs ds : List Char} (before : cs < ds) :
    cs.flatMap String.utf8EncodeChar < ds.flatMap String.utf8EncodeChar := by
  induction ds generalizing cs with
  | nil => cases before
  | cons d ds ih =>
    cases cs with
    | nil =>
      cases encoded : (d :: ds).flatMap String.utf8EncodeChar with
      | nil => simp [String.utf8EncodeChar_ne_nil] at encoded
      | cons b rest => exact List.nil_lt_cons b rest
    | cons c cs =>
      rw [List.flatMap_cons, List.flatMap_cons]
      rcases List.cons_lt_cons_iff.mp before with smaller | ⟨rfl, later⟩
      · exact encodeChar_lt smaller _ _
      · exact List.append_left_lt (ih later)

/-- One text comes before another exactly when its bytes do. -/
theorem bytes_lt_iff {s t : String} : bytes s < bytes t ↔ s < t := by
  rw [bytes_eq, bytes_eq, String.lt_iff]
  refine ⟨fun before => ?_, encode_lt⟩
  by_contra notBefore
  rcases List.le_iff_lt_or_eq.mp (List.not_lt.mp notBefore) with after | equal
  · exact List.lt_asymm before (encode_lt after)
  · rw [equal] at before
    exact List.lt_irrefl _ before

end RestWiring.Text
