import Mathlib.Data.List.Basic
import RestWiring.Text

/-!
# Splitting texts

A text is split at every separator and nowhere else.
-/
namespace RestWiring.Text

variable {separator : Char} {xs : List Char}

theorem splitOn_ne_nil (separator : Char) (xs : List Char) : splitOn separator xs ≠ [] := by
  cases xs with
  | nil => exact nofun
  | cons x xs =>
    rw [splitOn]
    split
    · split <;> exact nofun
    · exact nofun

theorem splitOn_cons (separator x : Char) (xs : List Char) :
    splitOn separator (x :: xs) =
      if x = separator then [] :: splitOn separator xs
      else (splitOn separator xs).modifyHead (x :: ·) := by
  rw [splitOn]
  cases parts : splitOn separator xs with
  | nil => exact absurd parts (splitOn_ne_nil separator xs)
  | cons part parts => rfl

theorem splitOn_of_not_mem (absent : separator ∉ xs) : splitOn separator xs = [xs] := by
  induction xs with
  | nil => rfl
  | cons x xs ih =>
    rw [List.mem_cons, not_or] at absent
    rw [splitOn_cons, ih absent.2, if_neg (Ne.symm absent.1)]
    rfl

/-- A separator ends one part and begins another one. -/
theorem splitOn_append (xs ys : List Char) :
    splitOn separator (xs ++ separator :: ys) = splitOn separator xs ++ splitOn separator ys := by
  induction xs with
  | nil =>
    rw [List.nil_append, splitOn_cons, if_pos rfl]
    rfl
  | cons x xs ih =>
    rw [List.cons_append, splitOn_cons, splitOn_cons, ih]
    split
    · rfl
    · cases parts : splitOn separator xs with
      | nil => exact absurd parts (splitOn_ne_nil separator xs)
      | cons part parts => rfl

/-- What holds no separator goes to the first part of what it stands before. -/
theorem splitOn_append_of_not_mem (absent : separator ∉ xs) (ys : List Char) :
    splitOn separator (xs ++ ys) = (splitOn separator ys).modifyHead (xs ++ ·) := by
  induction xs with
  | nil =>
    rw [List.nil_append]
    cases splitOn separator ys <;> rfl
  | cons x xs ih =>
    rw [List.mem_cons, not_or] at absent
    rw [List.cons_append, splitOn_cons, ih absent.2, if_neg (Ne.symm absent.1),
      List.modifyHead_modifyHead]
    rfl

end RestWiring.Text
