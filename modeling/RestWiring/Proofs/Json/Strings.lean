import Mathlib.Data.List.Basic
import RestWiring.Json.Document
import RestWiring.Json.Text

/-!
# Strings between quotes

A way to escape characters is faithful if a reader takes what it writes for a character for that
character. Text that is escaped by it reads back as it was, whatever it is made of.
-/
namespace RestWiring.Json

/-- Whether the body of a string that holds an escaped character reads as the body that holds the
character. -/
def Decodes (escape : Char → List Char) : Prop :=
  ∀ c text valid rest, stringBody text valid (escape c ++ rest) = stringBody (c :: text) valid rest

/-- Text that is escaped reads back as it was. -/
theorem Decodes.stringBody {escape : Char → List Char} (decodes : Decodes escape)
    (text read rest : List Char) :
    stringBody read true (text.flatMap escape ++ '"' :: rest) =
      some (some (String.ofList (read.reverse ++ text)), rest) := by
  induction text generalizing read with
  | nil => rw [List.flatMap_nil, List.nil_append, Json.stringBody, if_pos rfl, List.append_nil]
  | cons c text ih =>
    rw [List.flatMap_cons, List.append_assoc, decodes, ih, List.reverse_cons, List.append_assoc]
    rfl

/-- A code unit below the surrogates stands for its character. -/
theorem stringBody_codeUnit {a b c d : Char} {n : Nat} (unit : codeUnit? a b c d = some n)
    (small : n < 0xD800) (text : List Char) (valid : Bool) (rest : List Char) :
    stringBody text valid ('\\' :: 'u' :: a :: b :: c :: d :: rest) =
      stringBody (Char.ofNat n :: text) valid rest := by
  have high : isHighSurrogate n = false := by
    simp only [isHighSurrogate, Bool.and_eq_false_iff, decide_eq_false_iff_not]
    omega
  have low : isLowSurrogate n = false := by
    simp only [isLowSurrogate, Bool.and_eq_false_iff, decide_eq_false_iff_not]
    omega
  rw [stringBody, unit]
  simp only [high, low, Bool.false_eq_true, if_false]

theorem stringBody_simpleEscape {c e : Char} (escape : simpleEscape? c = some e)
    (text : List Char) (valid : Bool) (rest : List Char) :
    stringBody text valid ('\\' :: c :: rest) = stringBody (e :: text) valid rest := by
  have other : c ≠ 'u' := by
    rintro rfl
    cases escape
  rw [stringBody]
  · simp only [escape]
  · intro a b c d rest equal
    exact absurd equal other

theorem stringBody_plain {c : Char} (quote : c ≠ '"') (backslash : c ≠ '\\')
    (visible : ¬ c.toNat < 32) (text : List Char) (valid : Bool) (rest : List Char) :
    stringBody text valid (c :: rest) = stringBody (c :: text) valid rest := by
  rw [stringBody, if_neg visible]
  all_goals simp_all

/-- The two digits in which a character below the blank is written. -/
theorem codeUnit?_control (n : Nat) (control : n < 32) :
    codeUnit? '0' '0' (hexDigit (n / 16)) (hexDigit (n % 16)) = some n := by
  revert n
  decide

theorem escapeChar_decodes : Decodes escapeChar := by
  intro c text valid rest
  have named {n : Nat} (same : c.toNat = n) : c = Char.ofNat n := by
    rw [← same, Char.ofNat_toNat]
  unfold escapeChar
  split_ifs with quote backslash newline return_ tab backspace formFeed control
  all_goals try subst c
  · exact stringBody_simpleEscape rfl text valid rest
  · exact stringBody_simpleEscape rfl text valid rest
  · exact stringBody_simpleEscape rfl text valid rest
  · exact stringBody_simpleEscape rfl text valid rest
  · exact stringBody_simpleEscape rfl text valid rest
  · rw [named backspace]
    exact stringBody_simpleEscape rfl text valid rest
  · rw [named formFeed]
    exact stringBody_simpleEscape rfl text valid rest
  · refine (stringBody_codeUnit (codeUnit?_control _ control) (by omega) text valid rest).trans ?_
    rw [Char.ofNat_toNat]
  · exact stringBody_plain quote backslash control text valid rest

/-- A quoted text reads back as it was. -/
theorem stringBody_quote (text rest : List Char) :
    stringBody [] true (text.flatMap escapeChar ++ '"' :: rest) =
      some (some (String.ofList text), rest) :=
  escapeChar_decodes.stringBody text [] rest

end RestWiring.Json
