import Mathlib.Data.List.DropRight
import RestWiring.Proofs.Stencil.Literals
import RestWiring.Proofs.Text.Splitting
import RestWiring.Stencil.Filter

/-!
# Outlines

An outline is a text with holes in it, each of which is filled by the literal of a text. Literals
are neither empty nor broken over lines, and no blank stands at their ends, so what is done to a
text line by line or at its end can be done to its outline, before the holes are filled. Nothing of
this takes a hole away, adds one or puts it before another.
-/
namespace RestWiring.Stencil

inductive Glyph (ι : Type) where
  | char (c : Char)
  | hole (i : ι)

abbrev Outline (ι : Type) := List (Glyph ι)

variable {ι : Type} (texts : ι → String)

namespace Glyph

def chars : Glyph ι → List Char
  | .char c => [c]
  | .hole i => literal (texts i)

/-- Whether a glyph is a character of a kind. -/
def isChar (p : Char → Bool) : Glyph ι → Bool
  | .char c => p c
  | .hole _ => false

/-- A glyph ends in a quote if it is not a character. -/
theorem chars_last {p : Char → Bool} (quote : p '"' = false) {g : Glyph ι}
    (other : g.isChar p = false) : ∃ before last, g.chars texts = before ++ [last] ∧ p last = false := by
  cases g with
  | char c => exact ⟨[], c, rfl, other⟩
  | hole i => exact ⟨'"' :: _, '"', literal_eq _, quote⟩

theorem chars_ne_nil (g : Glyph ι) : g.chars texts ≠ [] := by
  cases g with
  | char c => exact nofun
  | hole i =>
    rw [chars, literal_eq]
    exact nofun

theorem not_mem_chars {g : Glyph ι} (other : g.isChar (· = '\n') = false) :
    '\n' ∉ g.chars texts := by
  cases g with
  | char c => simpa [isChar, chars, eq_comm] using other
  | hole i => exact (literal_isLiteral (texts i)).one_line.1

end Glyph

namespace Outline

def ofChars (cs : List Char) : Outline ι := cs.map .char

def ofText (s : String) : Outline ι := ofChars s.toList

/-- The text that comes of an outline once its holes are filled. -/
def filled (o : Outline ι) : List Char := o.flatMap (Glyph.chars texts)

theorem filled_cons (g : Glyph ι) (o : Outline ι) :
    filled texts (g :: o) = g.chars texts ++ filled texts o :=
  List.flatMap_cons

theorem filled_append (o o' : Outline ι) :
    filled texts (o ++ o') = filled texts o ++ filled texts o' :=
  List.flatMap_append

theorem filled_concat (o : Outline ι) (g : Glyph ι) :
    filled texts (o ++ [g]) = filled texts o ++ g.chars texts := by
  rw [filled_append, filled_cons]
  exact congrArg _ (List.append_nil _)

theorem filled_ofChars (cs : List Char) : filled texts (ofChars cs) = cs := by
  rw [filled, ofChars, List.flatMap_map]
  exact List.flatMap_singleton' cs

theorem filled_ofText (s : String) : filled texts (ofText s) = s.toList :=
  filled_ofChars ..

theorem filled_flatten (os : List (Outline ι)) :
    filled texts os.flatten = (os.map (filled texts)).flatten := by
  rw [filled, ← List.flatMap_id, List.flatMap_assoc, List.flatMap_def]
  rfl

theorem filled_intercalate (joint : List Char) (os : List (Outline ι)) :
    filled texts (List.intercalate (ofChars joint) os) =
      List.intercalate joint (os.map (filled texts)) := by
  match os with
  | [] => rfl
  | [o] => simp
  | o :: o' :: os =>
    rw [List.intercalate_cons_cons, filled_append, filled_append, filled_ofChars,
      filled_intercalate joint (o' :: os), List.map_cons, List.map_cons, List.map_cons,
      List.intercalate_cons_cons]

theorem isEmpty_filled (o : Outline ι) : (filled texts o).isEmpty = o.isEmpty := by
  cases o with
  | nil => rfl
  | cons g o => simp [filled_cons, g.chars_ne_nil]

/-! ## Lines -/

def lines (o : Outline ι) : List (Outline ι) := o.splitOnP (Glyph.isChar (· = '\n'))

theorem splitOn_filled (o : Outline ι) :
    Text.splitOn '\n' (filled texts o) = o.lines.map (filled texts) := by
  unfold lines
  induction o with
  | nil => rfl
  | cons g o ih =>
    rw [filled_cons, List.splitOnP_cons_eq_if_modifyHead]
    split_ifs with newline
    · cases g with
      | hole i => cases newline
      | char c =>
        obtain rfl : c = '\n' := by simpa [Glyph.isChar] using newline
        rw [Glyph.chars, List.singleton_append, Text.splitOn_cons, if_pos rfl, ih]
        rfl
    · rw [Text.splitOn_append_of_not_mem (g.not_mem_chars texts (by simpa using newline)), ih]
      cases o.splitOnP (Glyph.isChar (· = '\n')) with
      | nil => rfl
      | cons line lines =>
        rw [List.map_cons, List.modifyHead_cons, List.modifyHead_cons, List.map_cons, filled_cons]

/-! ## Ends -/

/-- Drops a character at the end. -/
def dropEnd (c : Char) (o : Outline ι) : Outline ι :=
  if o.getLast?.any (Glyph.isChar (· = c)) then o.dropLast else o

theorem dropEnd_filled {c : Char} (other : c ≠ '"') (o : Outline ι) :
    (if (filled texts o).getLast? = some c then (filled texts o).dropLast else filled texts o) =
      filled texts (o.dropEnd c) := by
  rcases List.eq_nil_or_concat o with rfl | ⟨o, g, rfl⟩
  · rfl
  · rw [List.concat_eq_append, dropEnd, List.getLast?_concat, List.dropLast_concat, filled_concat,
      Option.any_some]
    cases same : g.isChar (· = c) with
    | true =>
      cases g with
      | hole i => cases same
      | char d =>
        obtain rfl : d = c := by simpa [Glyph.isChar] using same
        simp [Glyph.chars]
    | false =>
      obtain ⟨before, last, chars, different⟩ := g.chars_last texts (by simpa using other.symm) same
      rw [chars, ← List.append_assoc, List.getLast?_concat, if_neg (by simpa using different),
        if_neg Bool.false_ne_true, filled_concat, chars, List.append_assoc]

def dropLineBreak (o : Outline ι) : Outline ι := dropEnd '\r' (dropEnd '\n' o)

theorem dropLineBreak_filled (o : Outline ι) :
    Value.dropLineBreak (filled texts o) = filled texts o.dropLineBreak := by
  rw [Value.dropLineBreak, dropEnd_filled texts (by decide), dropEnd_filled texts (by decide)]
  rfl

def trimEnd (o : Outline ι) : Outline ι := o.rdropWhile (Glyph.isChar Text.isSpace)

theorem trimEnd_filled (o : Outline ι) : Text.trimEnd (filled texts o) = filled texts o.trimEnd := by
  change (filled texts o).rdropWhile Text.isSpace = filled texts (o.rdropWhile _)
  induction o using List.reverseRecOn with
  | nil => rfl
  | append_singleton o g ih =>
    rw [filled_concat]
    cases blank : g.isChar Text.isSpace with
    | true =>
      cases g with
      | hole i => cases blank
      | char c =>
        have space : Text.isSpace c = true := blank
        rw [Glyph.chars, List.rdropWhile_concat_pos _ _ _ space,
          List.rdropWhile_concat_pos _ _ _ blank, ih]
    | false =>
      obtain ⟨before, last, chars, visible⟩ := g.chars_last texts (p := Text.isSpace) (by decide) blank
      rw [List.rdropWhile_concat_neg _ _ _ (by simp [blank]), filled_concat, chars, ← List.append_assoc,
        List.rdropWhile_concat_neg _ _ _ (by simp [visible])]

/-! ## Indentation -/

def indented (width : Nat) (first blankLines : Bool) (o : Outline ι) : Outline ι :=
  let pad (line : Outline ι) :=
    if line.isEmpty && !blankLines then line else ofChars (List.replicate width ' ') ++ line
  match o.dropLineBreak.lines with
  | [] => []
  | head :: rest =>
    let lines := (if first then pad head else head) :: rest.map pad
    dropLineBreak (List.intercalate (ofChars ['\n']) lines ++ ofChars ['\n'])

theorem indented_filled (width : Nat) (first blankLines : Bool) (o : Outline ι) :
    Value.indented width first blankLines (filled texts o) =
      filled texts (o.indented width first blankLines) := by
  have padded (line : Outline ι) :
      (if (filled texts line).isEmpty && !blankLines then filled texts line
        else List.replicate width ' ' ++ filled texts line) =
      filled texts (if line.isEmpty && !blankLines then line
        else ofChars (List.replicate width ' ') ++ line) := by
    rw [isEmpty_filled]
    split
    · rfl
    · rw [filled_append, filled_ofChars]
  unfold Value.indented indented
  rw [dropLineBreak_filled, splitOn_filled]
  cases o.dropLineBreak.lines with
  | nil => rfl
  | cons head rest =>
    rw [← dropLineBreak_filled, filled_append, filled_intercalate, filled_ofChars]
    refine congrArg (fun lines => Value.dropLineBreak (List.intercalate ['\n'] lines ++ ['\n'])) ?_
    rw [List.map_cons, List.map_map]
    refine congrArg₂ List.cons ?_ ?_
    · cases first
      · rfl
      · exact padded head
    · rw [List.map_map]
      exact List.map_congr_left fun line _ => padded line

/-! ## Holes -/

end Outline

/-- The hole that a glyph is, if it is one. -/
def Glyph.hole? : Glyph ι → Option ι
  | .char _ => none
  | .hole i => some i

namespace Outline

/-- The holes of an outline in the order in which they stand in it. -/
def holes (o : Outline ι) : List ι := o.filterMap Glyph.hole?

@[simp]
theorem holes_nil : holes ([] : Outline ι) = [] :=
  rfl

@[simp]
theorem holes_hole_cons (i : ι) (o : Outline ι) : holes (.hole i :: o) = i :: o.holes :=
  rfl

/-- A character is no hole. -/
theorem holes_cons_of_isChar {p : Char → Bool} {g : Glyph ι} (char : g.isChar p = true)
    (o : Outline ι) : holes (g :: o) = o.holes := by
  cases g with
  | char c => rfl
  | hole i => cases char

@[simp]
theorem holes_append (o o' : Outline ι) : holes (o ++ o') = o.holes ++ o'.holes :=
  List.filterMap_append

theorem holes_cons (g : Glyph ι) (o : Outline ι) : holes (g :: o) = holes [g] ++ o.holes :=
  holes_append [g] o

@[simp]
theorem holes_ofChars (cs : List Char) : holes (ofChars cs : Outline ι) = [] :=
  List.filterMap_eq_nil_iff.mpr fun _ member => by
    obtain ⟨c, -, rfl⟩ := List.mem_map.mp member
    rfl

@[simp]
theorem holes_ofText (s : String) : holes (ofText s : Outline ι) = [] :=
  holes_ofChars _

theorem holes_flatten (os : List (Outline ι)) : holes os.flatten = os.flatMap holes := by
  rw [holes, List.filterMap_flatten]
  rfl

/-- The literal that fills a hole stands in the text. -/
theorem literal_infix {o : Outline ι} {i : ι} (listed : i ∈ o.holes) :
    literal (texts i) <:+: filled texts o := by
  obtain ⟨g, member, hole⟩ := List.mem_filterMap.mp listed
  obtain ⟨before, after, rfl⟩ := List.append_of_mem member
  cases g with
  | char c => cases hole
  | hole j =>
    cases hole
    refine ⟨filled texts before, filled texts after, ?_⟩
    rw [filled_append, filled_cons, List.append_assoc]
    rfl

theorem holes_intercalate (joint : List Char) (os : List (Outline ι)) :
    holes (List.intercalate (ofChars joint) os) = os.flatMap holes := by
  match os with
  | [] => rfl
  | [o] => simp
  | o :: o' :: os =>
    rw [List.intercalate_cons_cons, holes_append, holes_append, holes_ofChars, List.append_nil,
      holes_intercalate joint (o' :: os)]
    rfl

theorem holes_lines (o : Outline ι) : o.lines.flatMap holes = o.holes := by
  unfold lines
  induction o with
  | nil => rfl
  | cons g o ih =>
    rw [List.splitOnP_cons_eq_if_modifyHead]
    split_ifs with newline
    · rw [List.flatMap_cons, holes_nil, List.nil_append, ih, holes_cons_of_isChar newline]
    · rw [holes_cons, ← ih]
      cases split : o.splitOnP (Glyph.isChar (· = '\n')) with
      | nil => exact (List.splitOnP_ne_nil _ _ split).elim
      | cons line lines =>
        rw [List.modifyHead_cons, List.flatMap_cons, List.flatMap_cons, holes_cons, List.append_assoc]

theorem holes_dropEnd (c : Char) (o : Outline ι) : (o.dropEnd c).holes = o.holes := by
  unfold dropEnd
  rcases List.eq_nil_or_concat o with rfl | ⟨o, g, rfl⟩
  · rfl
  · rw [List.concat_eq_append, List.getLast?_concat, List.dropLast_concat, Option.any_some]
    split
    · rename_i same
      rw [holes_append, holes_cons_of_isChar same, holes_nil, List.append_nil]
    · rfl

theorem holes_dropLineBreak (o : Outline ι) : o.dropLineBreak.holes = o.holes := by
  rw [dropLineBreak, holes_dropEnd, holes_dropEnd]

theorem holes_trimEnd (o : Outline ι) : o.trimEnd.holes = o.holes := by
  unfold trimEnd
  induction o using List.reverseRecOn with
  | nil => rfl
  | append_singleton o g ih =>
    cases blank : g.isChar Text.isSpace with
    | true =>
      rw [List.rdropWhile_concat_pos _ _ _ blank, ih, holes_append, holes_cons_of_isChar blank,
        holes_nil, List.append_nil]
    | false => rw [List.rdropWhile_concat_neg _ _ _ (by simp [blank])]

theorem holes_indented (width : Nat) (first blankLines : Bool) (o : Outline ι) :
    (o.indented width first blankLines).holes = o.holes := by
  have padded (line : Outline ι) : holes (if line.isEmpty && !blankLines then line
      else ofChars (List.replicate width ' ') ++ line) = line.holes := by
    split
    · rfl
    · rw [holes_append, holes_ofChars, List.nil_append]
  have kept := holes_lines o.dropLineBreak
  rw [holes_dropLineBreak] at kept
  unfold indented
  cases lines : o.dropLineBreak.lines with
  | nil =>
    rw [lines] at kept
    exact kept
  | cons head rest =>
    rw [lines, List.flatMap_cons] at kept
    rw [holes_dropLineBreak, holes_append, holes_intercalate, holes_ofChars, List.append_nil,
      List.flatMap_cons, List.flatMap_map, ← kept]
    refine congrArg₂ (· ++ ·) ?_ ?_
    · cases first
      · rfl
      · exact padded head
    · exact List.flatMap_congr fun line _ => padded line

end Outline

end RestWiring.Stencil
