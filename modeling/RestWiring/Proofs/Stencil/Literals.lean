import Mathlib.Data.Bool.AllAny
import RestWiring.Proofs.Json.Documents
import RestWiring.Stencil.Value

/-!
# Literals

The filter `tojson` writes a text as a literal: a JSON string in which the characters that matter to
markup are written by number. A literal cannot be left from within, whatever text it stands for, and
a reader of JSON takes it for that text.
-/
namespace RestWiring.Stencil

open Json (Decodes Document escapeChar hexDigit)

/-- A text as a literal. -/
def literal (s : String) : List Char := (Value.text s).jsonChars

/-- How a literal writes a character. -/
def literalChar (c : Char) : List Char := (escapeChar c).flatMap Value.guardChar

theorem literal_eq (s : String) :
    literal s = '"' :: (s.toList.flatMap literalChar ++ ['"']) := by
  change (Json.quote s.toList).flatMap Value.guardChar = _
  rw [Json.quote, List.flatMap_append, List.flatMap_cons, List.flatMap_assoc]
  rfl

/-- Characters that matter to markup. -/
def IsMarkup (c : Char) : Prop := c = '<' ∨ c = '>' ∨ c = '&' ∨ c = '\''

instance : DecidablePred IsMarkup := fun _ => inferInstanceAs (Decidable (_ ∨ _))

/-- Characters that may stand for themselves in a literal. -/
def IsPlain (c : Char) : Prop := 0x20 ≤ c.toNat ∧ c ≠ '"' ∧ c ≠ '\\' ∧ ¬ IsMarkup c

instance : DecidablePred IsPlain := fun _ => inferInstanceAs (Decidable (_ ∧ _))

/-- What a literal holds for a character: the character, or a backslash and what goes with it. -/
inductive Written (c : Char) : List Char → Prop
  | plain (plain : IsPlain c) : Written c [c]
  | escaped {d : Char} {more : List Char} (visible : 0x20 ≤ d.toNat) (other : ¬ IsMarkup d)
      (plain : ∀ e ∈ more, IsPlain e) : Written c ('\\' :: d :: more)

theorem Written.harmless {c : Char} {cs : List Char} (written : Written c cs) :
    ∀ d ∈ cs, 0x20 ≤ d.toNat ∧ ¬ IsMarkup d := by
  cases written with
  | plain plain => exact List.forall_mem_singleton.mpr ⟨plain.1, plain.2.2.2⟩
  | escaped visible other plain =>
    simp only [List.forall_mem_cons]
    refine ⟨by decide, ⟨visible, other⟩, fun e member => ?_⟩
    exact ⟨(plain e member).1, (plain e member).2.2.2⟩

theorem hexDigit_plain : ∀ n < 16, IsPlain (hexDigit n) := by
  decide

theorem escapeChar_written {c : Char} (other : ¬ IsMarkup c) : Written c (escapeChar c) := by
  unfold escapeChar
  split_ifs with quote backslash newline return_ tab backspace formFeed control
  iterate 7 exact .escaped (by decide) (by decide) nofun
  · refine .escaped (by decide) (by decide) ?_
    simp only [List.forall_mem_cons]
    exact ⟨by decide, by decide, hexDigit_plain _ (by omega), hexDigit_plain _ (by omega), nofun⟩
  · exact .plain ⟨Nat.le_of_not_lt control, quote, backslash, other⟩

theorem guardChar_of_not_markup {c : Char} (other : ¬ IsMarkup c) : Value.guardChar c = [c] := by
  simp only [IsMarkup, not_or] at other
  obtain ⟨less, greater, ampersand, apostrophe⟩ := other
  rw [Value.guardChar, if_neg less, if_neg greater, if_neg ampersand, if_neg apostrophe]

/-- Only characters that matter to markup are written otherwise than JSON writes them. -/
theorem literalChar_of_not_markup {c : Char} (other : ¬ IsMarkup c) :
    literalChar c = escapeChar c := by
  have kept : ∀ d ∈ escapeChar c, Value.guardChar d = [d] := fun d member =>
    guardChar_of_not_markup ((escapeChar_written other).harmless d member).2
  rw [literalChar, List.flatMap_congr kept, List.flatMap_singleton']

theorem literalChar_written (c : Char) : Written c (literalChar c) := by
  by_cases markup : IsMarkup c
  · rcases markup with rfl | rfl | rfl | rfl <;>
      exact .escaped (by decide) (by decide) (List.all_iff_forall_prop.mp (by decide))
  · rw [literalChar_of_not_markup markup]
    exact escapeChar_written markup

/-- A reader takes what a literal holds for a character for that character. -/
theorem literalChar_decodes : Decodes literalChar := by
  intro c text valid rest
  by_cases markup : IsMarkup c
  · rcases markup with rfl | rfl | rfl | rfl <;>
      exact Json.stringBody_codeUnit rfl (by decide) text valid rest
  · rw [literalChar_of_not_markup markup]
    exact Json.escapeChar_decodes c text valid rest

/-- Whether no quote stands in a text but behind a backslash, and no backslash at its end. -/
def isSealed : List Char → Bool
  | [] => true
  | ['\\'] => false
  | '\\' :: _ :: rest => isSealed rest
  | c :: rest => c ≠ '"' && isSealed rest

theorem isSealed_plain {c : Char} (plain : IsPlain c) (rest : List Char) :
    isSealed (c :: rest) = isSealed rest := by
  obtain ⟨-, quote, backslash, -⟩ := plain
  rw [isSealed]
  · simp [quote]
  · rintro rfl
    simp_all
  · rintro _ _ rfl
    simp_all

theorem isSealed_plains {cs : List Char} (plain : ∀ c ∈ cs, IsPlain c) (rest : List Char) :
    isSealed (cs ++ rest) = isSealed rest := by
  induction cs with
  | nil => rfl
  | cons c cs ih =>
    obtain ⟨first, others⟩ := List.forall_mem_cons.mp plain
    rw [List.cons_append, isSealed_plain first, ih others]

theorem Written.isSealed {c : Char} {cs : List Char} (written : Written c cs) (rest : List Char) :
    isSealed (cs ++ rest) = Stencil.isSealed rest := by
  cases written with
  | plain plain => exact isSealed_plain plain rest
  | escaped _ _ plain =>
    rw [List.cons_append, List.cons_append, Stencil.isSealed, isSealed_plains plain]

/-- Whether characters are a literal that stands for a text and for nothing more. -/
structure IsLiteral (s : String) (cs : List Char) : Prop where
  one_line : '\n' ∉ cs ∧ '\r' ∉ cs
  visible : ∀ c ∈ cs, 0x20 ≤ c.toNat
  not_markup : ∀ c ∈ cs, c ≠ '<' ∧ c ≠ '>' ∧ c ≠ '&' ∧ c ≠ '\''
  quoted : ∃ inner, cs = '"' :: (inner ++ ['"']) ∧ isSealed inner = true
  /-- It reads as the text. -/
  decoded : Document.ofText (String.ofList cs) = (.string (some s), true)
  /-- It ends where it ends, whatever stands behind it. -/
  delimited : ∀ fuel rest, Document.value (fuel + 1) (cs ++ rest) = (.string (some s), some rest)

theorem literal_harmless (s : String) : ∀ c ∈ literal s, 0x20 ≤ c.toNat ∧ ¬ IsMarkup c := by
  rw [literal_eq]
  simp only [List.forall_mem_cons, List.forall_mem_append, List.mem_flatMap]
  refine ⟨by decide, ?_, by decide, nofun⟩
  rintro c ⟨d, -, member⟩
  exact (literalChar_written d).harmless c member

theorem isSealed_flatMap (cs : List Char) : isSealed (cs.flatMap literalChar) = true := by
  induction cs with
  | nil => rfl
  | cons c cs ih => rw [List.flatMap_cons, (literalChar_written c).isSealed, ih]

theorem value_literal (s : String) (fuel : Nat) (rest : List Char) :
    Document.value (fuel + 1) (literal s ++ rest) = (.string (some s), some rest) := by
  rw [literal_eq, List.cons_append, List.append_assoc]
  refine Document.value_quoted ?_ fuel
  have read := literalChar_decodes.stringBody s.toList [] rest
  rwa [List.reverse_nil, List.nil_append, String.ofList_toList] at read

theorem literal_isLiteral (s : String) : IsLiteral s (literal s) := by
  have harmless := literal_harmless s
  refine ⟨⟨fun member => ?_, fun member => ?_⟩, fun c member => (harmless c member).1,
    fun c member => ?_, ⟨_, literal_eq s, isSealed_flatMap _⟩, ?_, value_literal s⟩
  · exact absurd (harmless _ member).1 (by decide)
  · exact absurd (harmless _ member).1 (by decide)
  · simpa only [IsMarkup, not_or] using (harmless c member).2
  · have read := value_literal s (2 * (literal s).length + 1) []
    rw [List.append_nil] at read
    exact Document.ofText_of_value read

end RestWiring.Stencil
