import RestWiring.Json.Reader
import RestWiring.Proofs.Json.Numbers
import RestWiring.Proofs.Json.Strings

/-!
# Texts that read back

A value that is written reads back as the document that it is, in whatever layout it is written, as
long as its numbers read back. A layout is what stands between the parts of a value: nothing, or
line breaks and blanks.
-/
namespace RestWiring.Json

/-! ## Layouts -/

/-- What stands before every item and member and before the end of a container, and what stands
behind a colon. -/
structure Layout where
  gap : Nat → List Char
  space : List Char
  gap_blank : ∀ depth, ∀ c ∈ gap depth, isBlank c = true
  space_blank : ∀ c ∈ space, isBlank c = true

namespace Layout

def dense : Layout where
  gap _ := []
  space := []
  gap_blank := by simp
  space_blank := by simp

def indented : Layout where
  gap := newLine
  space := [' ']
  gap_blank depth c member := by
    rcases List.mem_cons.mp member with rfl | blank
    · rfl
    · rw [List.eq_of_mem_replicate blank]
      rfl
  space_blank := by simp [isBlank]

variable (l : Layout)

mutual

def chars (depth : Nat) : Json → List Char
  | .array [] => ['[', ']']
  | .object [] => ['{', '}']
  | .array items => '[' :: itemChars (depth + 1) items ++ l.gap depth ++ [']']
  | .object members => '{' :: memberChars (depth + 1) members ++ l.gap depth ++ ['}']
  | .null => ['n', 'u', 'l', 'l']
  | .bool true => ['t', 'r', 'u', 'e']
  | .bool false => ['f', 'a', 'l', 's', 'e']
  | .number n => numberText n
  | .string s => quote s.toList

def itemChars (depth : Nat) : List Json → List Char
  | [] => []
  | [j] => l.gap depth ++ chars depth j
  | j :: js => l.gap depth ++ chars depth j ++ ',' :: itemChars depth js

def memberChars (depth : Nat) : List (String × Json) → List Char
  | [] => []
  | [(k, j)] => l.gap depth ++ quote k.toList ++ ':' :: l.space ++ chars depth j
  | (k, j) :: js =>
    l.gap depth ++ quote k.toList ++ ':' :: l.space ++ chars depth j ++ ',' :: memberChars depth js

end

mutual

theorem chars_dense (depth : Nat) : (j : Json) → dense.chars depth j = compactChars j
  | .array [] | .object [] | .null | .bool true | .bool false | .number _ | .string _ => rfl
  | .array (item :: items) => by
    rw [chars, compactChars, itemChars_dense (depth + 1) (item :: items)]
    · simp [dense]
    · simp
  | .object (member :: members) => by
    rw [chars, compactChars, memberChars_dense (depth + 1) (member :: members)]
    · simp [dense]
    · simp

theorem itemChars_dense (depth : Nat) :
    (js : List Json) → dense.itemChars depth js = compactItems js
  | [] => rfl
  | [j] => by rw [itemChars, compactItems, chars_dense depth j]; rfl
  | j :: k :: js => by
    rw [itemChars, compactItems, chars_dense depth j, itemChars_dense depth (k :: js)]
    · rfl
    all_goals simp

theorem memberChars_dense (depth : Nat) :
    (ms : List (String × Json)) → dense.memberChars depth ms = compactMembers ms
  | [] => rfl
  | [(k, j)] => by rw [memberChars, compactMembers, chars_dense depth j]; simp [dense]
  | (k, j) :: m :: ms => by
    rw [memberChars, compactMembers, chars_dense depth j, memberChars_dense depth (m :: ms)]
    · simp [dense]
    all_goals simp

end

mutual

theorem chars_indented (depth : Nat) : (j : Json) → indented.chars depth j = prettyChars depth j
  | .array [] | .object [] | .null | .bool true | .bool false | .number _ | .string _ => rfl
  | .array (item :: items) => by
    rw [chars, prettyChars, itemChars_indented (depth + 1) (item :: items)]
    · rfl
    all_goals simp
  | .object (member :: members) => by
    rw [chars, prettyChars, memberChars_indented (depth + 1) (member :: members)]
    · rfl
    all_goals simp

theorem itemChars_indented (depth : Nat) :
    (js : List Json) → indented.itemChars depth js = prettyItems depth js
  | [] => rfl
  | [j] => by rw [itemChars, prettyItems, chars_indented depth j]; rfl
  | j :: k :: js => by
    rw [itemChars, prettyItems, chars_indented depth j, itemChars_indented depth (k :: js)]
    · rfl
    all_goals simp

theorem memberChars_indented (depth : Nat) :
    (ms : List (String × Json)) → indented.memberChars depth ms = prettyMembers depth ms
  | [] => rfl
  | [(k, j)] => by rw [memberChars, prettyMembers, chars_indented depth j]; simp [indented]
  | (k, j) :: m :: ms => by
    rw [memberChars, prettyMembers, chars_indented depth j, memberChars_indented depth (m :: ms)]
    · simp [indented]
    all_goals simp

end

end Layout

/-! ## The numbers of a value -/

mutual

/-- The numbers in a value. -/
def numbers : Json → List Number
  | .number n => [n]
  | .array items => itemNumbers items
  | .object members => memberNumbers members
  | .null => []
  | .bool _ => []
  | .string _ => []

def itemNumbers : List Json → List Number
  | [] => []
  | j :: js => numbers j ++ itemNumbers js

def memberNumbers : List (String × Json) → List Number
  | [] => []
  | (_, j) :: ms => numbers j ++ memberNumbers ms

end

/-- Whether the numbers in a value read back from their texts. -/
def Readable (j : Json) : Prop := ∀ n ∈ j.numbers, n.ReadsBack

/-! ## Reading what is written -/

theorem dropWhile_isBlank {blanks : List Char} (blank : ∀ c ∈ blanks, isBlank c = true)
    (cs : List Char) : (blanks ++ cs).dropWhile isBlank = cs.dropWhile isBlank :=
  List.dropWhile_append_of_pos blank

theorem dropWhile_of_visible {c : Char} (visible : isBlank c = false) (cs : List Char) :
    (c :: cs).dropWhile isBlank = c :: cs := by
  rw [List.dropWhile_cons, visible]
  rfl

theorem isBlank_of_digit {c : Char} (digit : (c = '-' || c.isDigit) = true) :
    isBlank c = false := by
  unfold isBlank
  by_contra blank
  simp only [Bool.not_eq_false, Bool.or_eq_true, decide_eq_true_eq] at blank
  rcases blank with ((rfl | rfl) | rfl) | rfl <;> cases digit

/-- A number ends at a blank. -/
theorem EndsNumber.of_blank {c : Char} (blank : isBlank c = true) (cs : List Char) :
    EndsNumber (c :: cs) := by
  rintro _ ⟨⟩
  simp only [isBlank, Bool.or_eq_true, decide_eq_true_eq] at blank
  rcases blank with ((rfl | rfl) | rfl) | rfl <;> rfl

/-- A number ends at blanks that a delimiter stands behind. -/
theorem EndsNumber.of_blanks {blanks : List Char} (blank : ∀ c ∈ blanks, isBlank c = true)
    {rest : List Char} (ends : EndsNumber rest) : EndsNumber (blanks ++ rest) := by
  cases blanks with
  | nil => exact ends
  | cons c blanks => exact .of_blank (blank c List.mem_cons_self) _

theorem EndsNumber.of_delimiter {c : Char} (other : ContinuesNumber c = false) (cs : List Char) :
    EndsNumber (c :: cs) := by
  rintro _ ⟨⟩
  exact other

namespace Document

theorem value_blanks {blanks : List Char} (blank : ∀ c ∈ blanks, isBlank c = true)
    (fuel : Nat) (cs : List Char) : value fuel (blanks ++ cs) = value fuel cs := by
  cases fuel with
  | zero => rfl
  | succ fuel => rw [value, value, dropWhile_isBlank blank]

theorem value_quoted {cs rest : List Char} {s : Option String}
    (read : stringBody [] true cs = some (s, rest)) (fuel : Nat) :
    value (fuel + 1) ('"' :: cs) = (.string s, some rest) := by
  rw [value, dropWhile_of_visible rfl]
  simp only [read]

theorem value_string (fuel : Nat) (text rest : List Char) :
    value (fuel + 1) (quote text ++ rest) = (.string (some (String.ofList text)), some rest) := by
  rw [quote, List.append_assoc]
  exact value_quoted (stringBody_quote text rest) fuel

/-- A text that is read to its end. -/
theorem ofText_of_value {cs : List Char} {d : Document}
    (read : value (2 * cs.length + 1 + 1) cs = (d, some [])) :
    ofText (String.ofList cs) = (d, true) := by
  unfold ofText
  simp only [String.toList_ofList, read]
  rfl

theorem value_number {cs rest : List Char} {n : Number}
    (read : numberToken cs = some (some n, [])) (ends : EndsNumber rest) (fuel : Nat) :
    value (fuel + 1) (cs ++ rest) = (.number (some n), some rest) := by
  obtain ⟨c, tail, rfl, first⟩ := numberToken_head read
  have token : numberToken (c :: (tail ++ rest)) = some (some n, rest) := by
    rw [← List.cons_append, numberToken_append ends, read]
    rfl
  rw [value, List.cons_append, dropWhile_of_visible (isBlank_of_digit first)]
  split
  case h_7 equal =>
    obtain ⟨rfl, rfl⟩ := List.cons.inj equal
    rw [if_pos first, token]
  case h_8 equal => cases equal
  all_goals
    rename_i equal
    obtain ⟨rfl, -⟩ := List.cons.inj equal
    cases first

theorem value_array {cs : List Char} (fuel : Nat) (open_ : (cs.dropWhile isBlank).head? ≠ some ']') :
    value (fuel + 1) ('[' :: cs) =
      (.array (items fuel (cs.dropWhile isBlank)).1 (items fuel (cs.dropWhile isBlank)).2.isSome,
        (items fuel (cs.dropWhile isBlank)).2) := by
  rw [value, dropWhile_of_visible rfl]
  simp only
  split
  · rename_i equal
    rw [equal] at open_
    exact absurd rfl open_
  · rfl

theorem value_object {cs : List Char} (fuel : Nat) (open_ : (cs.dropWhile isBlank).head? ≠ some '}') :
    value (fuel + 1) ('{' :: cs) =
      (.object (members fuel (cs.dropWhile isBlank)).1 (members fuel (cs.dropWhile isBlank)).2.isSome,
        (members fuel (cs.dropWhile isBlank)).2) := by
  rw [value, dropWhile_of_visible rfl]
  simp only
  split
  · rename_i equal
    rw [equal] at open_
    exact absurd rfl open_
  · rfl

theorem takeWhile_isBlank (cs : List Char) : ∀ c ∈ cs.takeWhile isBlank, isBlank c = true :=
  fun _ member => List.mem_takeWhile_imp member

/-- Items read the same without the blanks before them. -/
theorem items_dropWhile (fuel : Nat) (cs : List Char) :
    items fuel (cs.dropWhile isBlank) = items fuel cs := by
  cases fuel with
  | zero => rfl
  | succ fuel =>
    have same : value fuel (cs.dropWhile isBlank) = value fuel cs := by
      rw [← value_blanks (takeWhile_isBlank cs), List.takeWhile_append_dropWhile]
    rw [items, items, same]

/-- Members read the same without the blanks before them. -/
theorem members_dropWhile (fuel : Nat) (cs : List Char) :
    members fuel (cs.dropWhile isBlank) = members fuel cs := by
  cases fuel with
  | zero => rfl
  | succ fuel =>
    have same : (cs.dropWhile isBlank).dropWhile isBlank = cs.dropWhile isBlank := by
      rw [← dropWhile_isBlank (takeWhile_isBlank cs), List.takeWhile_append_dropWhile]
    rw [members, members, same]

/-- A member reads as its name and its value, and what follows it decides whether there are more. -/
theorem members_member {gap space : List Char} (gap_blank : ∀ c ∈ gap, isBlank c = true)
    (space_blank : ∀ c ∈ space, isBlank c = true) {fuel : Nat} {cs rest : List Char} {d : Document}
    (read : value fuel cs = (d, some rest)) (name : String) :
    members (fuel + 1) (gap ++ (quote name.toList ++ ':' :: (space ++ cs))) =
      match rest.dropWhile isBlank with
      | '}' :: rest => ([(some name, d)], some rest)
      | ',' :: rest => ((some name, d) :: (members fuel rest).1, (members fuel rest).2)
      | _ => ([(some name, d)], none) := by
  have opened : (gap ++ (quote name.toList ++ ':' :: (space ++ cs))).dropWhile isBlank =
      '"' :: (name.toList.flatMap escapeChar ++ '"' :: ':' :: (space ++ cs)) := by
    rw [dropWhile_isBlank gap_blank]
    simp [quote, isBlank]
  rw [members, opened]
  simp only [stringBody_quote, String.ofList_toList,
    dropWhile_of_visible (show isBlank ':' = false from rfl), value_blanks space_blank]
  generalize value fuel cs = found at read ⊢
  subst read
  rfl

end Document

namespace Layout

open Document (value items members ofJson ofItems ofMembers)

variable (l : Layout)

/-- A value that is written begins with neither a blank nor the end of an array. -/
theorem chars_head (depth : Nat) {j : Json} (readable : j.Readable) :
    ∃ c cs, l.chars depth j = c :: cs ∧ isBlank c = false ∧ c ≠ ']' := by
  cases j with
  | null => exact ⟨_, _, rfl, rfl, by decide⟩
  | bool b => cases b <;> exact ⟨_, _, rfl, rfl, by decide⟩
  | string s => exact ⟨_, _, rfl, rfl, by decide⟩
  | array items => cases items <;> exact ⟨_, _, rfl, rfl, by decide⟩
  | object members => cases members <;> exact ⟨_, _, rfl, rfl, by decide⟩
  | number n =>
    obtain ⟨c, cs, equal, first⟩ := numberToken_head (readable n List.mem_cons_self)
    refine ⟨c, cs, equal, isBlank_of_digit first, ?_⟩
    rintro rfl
    cases first

theorem itemChars_head (depth : Nat) {j : Json} (readable : j.Readable) (js : List Json)
    (rest : List Char) :
    ((l.itemChars depth (j :: js) ++ rest).dropWhile isBlank).head? ≠ some ']' := by
  obtain ⟨c, cs, equal, visible, other⟩ := l.chars_head depth readable
  have written : ∃ more, l.itemChars depth (j :: js) ++ rest = l.gap depth ++ c :: more := by
    cases js with
    | nil => exact ⟨cs ++ rest, by simp [itemChars, equal]⟩
    | cons k js => exact ⟨_, by simp [itemChars, equal]; rfl⟩
  obtain ⟨more, written⟩ := written
  rw [written, dropWhile_isBlank (l.gap_blank depth), dropWhile_of_visible visible]
  simpa using other

theorem memberChars_head (depth : Nat) (m : String × Json) (ms : List (String × Json))
    (rest : List Char) :
    ((l.memberChars depth (m :: ms) ++ rest).dropWhile isBlank).head? ≠ some '}' := by
  have written : ∃ more, l.memberChars depth (m :: ms) ++ rest = l.gap depth ++ '"' :: more := by
    cases ms with
    | nil => exact ⟨_, by simp [memberChars, quote]; rfl⟩
    | cons m' ms => exact ⟨_, by simp [memberChars, quote]; rfl⟩
  obtain ⟨more, written⟩ := written
  rw [written, dropWhile_isBlank (l.gap_blank depth), dropWhile_of_visible rfl]
  simp

mutual

/-- A value that is written reads back, whatever ends it. -/
theorem value_chars {depth : Nat} : {j : Json} → (readable : j.Readable) → {rest : List Char} →
    (ends : EndsNumber rest) → {fuel : Nat} →
    (enough : 2 * (l.chars depth j).length ≤ fuel + 1) →
    value (fuel + 1) (l.chars depth j ++ rest) = (ofJson j, some rest)
  | .null, _, _, _, _, _ => rfl
  | .bool true, _, _, _, _, _ => rfl
  | .bool false, _, _, _, _, _ => rfl
  | .string s, _, rest, _, fuel, _ => by
    rw [chars, Document.value_string, String.ofList_toList]
    rfl
  | .number n, readable, rest, ends, fuel, _ =>
    Document.value_number (readable n List.mem_cons_self) ends fuel
  | .array [], _, _, _, _, _ => rfl
  | .object [], _, _, _, _, _ => rfl
  | .array (j :: js), readable, rest, ends, fuel, enough => by
    have written : l.chars depth (.array (j :: js)) ++ rest =
        '[' :: (l.itemChars (depth + 1) (j :: js) ++ (l.gap depth ++ ']' :: rest)) := by
      simp [chars]
    have length : (l.chars depth (.array (j :: js))).length =
        (l.itemChars (depth + 1) (j :: js)).length + (l.gap depth).length + 2 := by
      simp [chars]
      omega
    have first : j.Readable := fun n member => readable n (List.mem_append_left _ member)
    have read : items fuel (l.itemChars (depth + 1) (j :: js) ++ (l.gap depth ++ ']' :: rest)) =
        (ofItems (j :: js), some rest) :=
      items_chars (by simp) readable (l.gap_blank depth) (by omega)
    rw [written, Document.value_array _ (l.itemChars_head _ first _ _),
      Document.items_dropWhile, read]
    rfl
  | .object ((k, j) :: ms), readable, rest, ends, fuel, enough => by
    have written : l.chars depth (.object ((k, j) :: ms)) ++ rest =
        '{' :: (l.memberChars (depth + 1) ((k, j) :: ms) ++ (l.gap depth ++ '}' :: rest)) := by
      simp [chars]
    have length : (l.chars depth (.object ((k, j) :: ms))).length =
        (l.memberChars (depth + 1) ((k, j) :: ms)).length + (l.gap depth).length + 2 := by
      simp [chars]
      omega
    have read : members fuel
        (l.memberChars (depth + 1) ((k, j) :: ms) ++ (l.gap depth ++ '}' :: rest)) =
        (ofMembers ((k, j) :: ms), some rest) :=
      members_chars (by simp) readable (l.gap_blank depth) (by omega)
    rw [written, Document.value_object _ (l.memberChars_head _ _ _ _),
      Document.members_dropWhile, read]
    rfl

/-- Items that are written read back up to the end of their array. -/
theorem items_chars {depth : Nat} : {js : List Json} → (some_ : js ≠ []) →
    (readable : ∀ n ∈ itemNumbers js, n.ReadsBack) → {blanks rest : List Char} →
    (blank : ∀ c ∈ blanks, isBlank c = true) → {fuel : Nat} →
    (enough : 2 * ((l.itemChars depth js).length + 1) ≤ fuel) →
    items fuel (l.itemChars depth js ++ (blanks ++ ']' :: rest)) = (ofItems js, some rest)
  | [j], _, readable, blanks, rest, blank, fuel + 2, enough => by
    have ends : EndsNumber (blanks ++ ']' :: rest) := .of_blanks blank (.of_delimiter rfl rest)
    have first : j.Readable := fun n member => readable n (List.mem_append_left _ member)
    have closed : (blanks ++ ']' :: rest).dropWhile isBlank = ']' :: rest := by
      rw [dropWhile_isBlank blank, dropWhile_of_visible rfl]
    rw [itemChars, List.length_append] at enough
    rw [items, itemChars, List.append_assoc, Document.value_blanks (l.gap_blank depth),
      value_chars first ends (by omega)]
    simp only [closed]
    rfl
  | j :: k :: js, _, readable, blanks, rest, blank, fuel + 2, enough => by
    have first : j.Readable := fun n member => readable n (List.mem_append_left _ member)
    have others : ∀ n ∈ itemNumbers (k :: js), n.ReadsBack := fun n member =>
      readable n (List.mem_append_right _ member)
    have written : l.itemChars depth (j :: k :: js) ++ (blanks ++ ']' :: rest) =
        l.gap depth ++ (l.chars depth j ++ ',' ::
          (l.itemChars depth (k :: js) ++ (blanks ++ ']' :: rest))) := by
      simp [itemChars]
    have length : (l.itemChars depth (j :: k :: js)).length =
        (l.gap depth).length + (l.chars depth j).length + (l.itemChars depth (k :: js)).length + 1 := by
      simp [itemChars]
      omega
    rw [items, written, Document.value_blanks (l.gap_blank depth),
      value_chars first (.of_delimiter rfl _) (by omega)]
    simp only [dropWhile_of_visible (show isBlank ',' = false from rfl)]
    rw [items_chars (by simp) others blank (by omega)]
    rfl

/-- Members that are written read back up to the end of their object. -/
theorem members_chars {depth : Nat} : {ms : List (String × Json)} → (some_ : ms ≠ []) →
    (readable : ∀ n ∈ memberNumbers ms, n.ReadsBack) → {blanks rest : List Char} →
    (blank : ∀ c ∈ blanks, isBlank c = true) → {fuel : Nat} →
    (enough : 2 * ((l.memberChars depth ms).length + 1) ≤ fuel) →
    members fuel (l.memberChars depth ms ++ (blanks ++ '}' :: rest)) =
      (ofMembers ms, some rest)
  | [(k, j)], _, readable, blanks, rest, blank, fuel + 2, enough => by
    have ends : EndsNumber (blanks ++ '}' :: rest) := .of_blanks blank (.of_delimiter rfl rest)
    have first : j.Readable := fun n member => readable n (List.mem_append_left _ member)
    have closed : (blanks ++ '}' :: rest).dropWhile isBlank = '}' :: rest := by
      rw [dropWhile_isBlank blank, dropWhile_of_visible rfl]
    have written : l.memberChars depth [(k, j)] ++ (blanks ++ '}' :: rest) =
        l.gap depth ++ (quote k.toList ++ ':' :: (l.space ++
          (l.chars depth j ++ (blanks ++ '}' :: rest)))) := by
      simp [memberChars]
    have length : (l.chars depth j).length ≤ (l.memberChars depth [(k, j)]).length := by
      simp [memberChars]
      omega
    rw [written, Document.members_member (l.gap_blank depth) l.space_blank
      (value_chars first ends (by omega)), closed]
    rfl
  | (k, j) :: (k', j') :: ms, _, readable, blanks, rest, blank, fuel + 2, enough => by
    have first : j.Readable := fun n member => readable n (List.mem_append_left _ member)
    have others : ∀ n ∈ memberNumbers ((k', j') :: ms), n.ReadsBack := fun n member =>
      readable n (List.mem_append_right _ member)
    have written : l.memberChars depth ((k, j) :: (k', j') :: ms) ++ (blanks ++ '}' :: rest) =
        l.gap depth ++ (quote k.toList ++ ':' :: (l.space ++ (l.chars depth j ++ ',' ::
          (l.memberChars depth ((k', j') :: ms) ++ (blanks ++ '}' :: rest))))) := by
      simp [memberChars]
    have length : (l.chars depth j).length + (l.memberChars depth ((k', j') :: ms)).length + 1 ≤
        (l.memberChars depth ((k, j) :: (k', j') :: ms)).length := by
      simp [memberChars]
      omega
    rw [written, Document.members_member (l.gap_blank depth) l.space_blank
      (value_chars first (.of_delimiter rfl _) (by omega)), dropWhile_of_visible rfl]
    simp only
    rw [members_chars (by simp) others blank (by omega)]
    rfl

end

/-- A whole text that is written reads back. -/
theorem ofText_chars {j : Json} (readable : j.Readable) (depth : Nat) :
    Document.ofText (String.ofList (l.chars depth j)) = (ofJson j, true) := by
  refine Document.ofText_of_value ?_
  have read : value (2 * (l.chars depth j).length + 2) (l.chars depth j ++ []) =
      (ofJson j, some []) := l.value_chars readable .nil (by omega)
  rwa [List.append_nil] at read

end Layout

theorem ofText_compact {j : Json} (readable : j.Readable) :
    Document.ofText j.compact = (Document.ofJson j, true) := by
  rw [compact, ← Layout.chars_dense 0]
  exact Layout.dense.ofText_chars readable 0

theorem ofText_pretty {j : Json} (readable : j.Readable) :
    Document.ofText j.pretty = (Document.ofJson j, true) := by
  rw [pretty, ← Layout.chars_indented]
  exact Layout.indented.ofText_chars readable 0

/-! ## The numbers that are read -/

namespace Document

mutual

/-- The numbers in a document that have a value. -/
def numbers : Document → List Number
  | .number (some n) => [n]
  | .array items _ => itemNumbers items
  | .object members _ => memberNumbers members
  | .number none => []
  | .broken => []
  | .null => []
  | .bool _ => []
  | .string _ => []

def itemNumbers : List Document → List Number
  | [] => []
  | d :: ds => numbers d ++ itemNumbers ds

def memberNumbers : List (Option String × Document) → List Number
  | [] => []
  | (_, d) :: ds => numbers d ++ memberNumbers ds

end

/-- Whether all numbers in a document are ones that a text can be read as. -/
def InRange (d : Document) : Prop := ∀ n ∈ d.numbers, n.InRange

theorem itemNumbers_inRange {d : Document} {ds : List Document} (first : d.InRange)
    (others : ∀ n ∈ itemNumbers ds, n.InRange) : ∀ n ∈ itemNumbers (d :: ds), n.InRange :=
  List.forall_mem_append.mpr ⟨first, others⟩

theorem memberNumbers_inRange (name : Option String) {d : Document}
    {ds : List (Option String × Document)} (first : d.InRange)
    (others : ∀ n ∈ memberNumbers ds, n.InRange) :
    ∀ n ∈ memberNumbers ((name, d) :: ds), n.InRange :=
  List.forall_mem_append.mpr ⟨first, others⟩

section

variable {fuel : Nat}

theorem value_inRange (items_inRange : ∀ cs, ∀ n ∈ itemNumbers (items fuel cs).1, n.InRange)
    (members_inRange : ∀ cs, ∀ n ∈ memberNumbers (members fuel cs).1, n.InRange) (cs : List Char) :
    (value (fuel + 1) cs).1.InRange := by
  have numberless {d : Document} (none_ : d.numbers = []) : d.InRange := by
    rw [InRange, none_]
    exact nofun
  rw [value]
  split
  case h_5 =>
    -- an array
    split
    · exact numberless rfl
    · exact items_inRange _
  case h_6 =>
    -- an object
    split
    · exact numberless rfl
    · exact members_inRange _
  case h_7 =>
    -- a number
    split
    · split
      · rename_i number rest token
        intro n member
        cases number with
        | none => cases member
        | some m =>
          rw [List.mem_singleton.mp member]
          exact numberToken_inRange token
      · exact numberless rfl
    · exact numberless rfl
  case h_4 => split <;> exact numberless rfl
  all_goals exact numberless rfl

theorem items_inRange (value_inRange : ∀ cs, (value fuel cs).1.InRange)
    (others : ∀ cs, ∀ n ∈ itemNumbers (items fuel cs).1, n.InRange) (cs : List Char) :
    ∀ n ∈ itemNumbers (items (fuel + 1) cs).1, n.InRange := by
  have first := value_inRange cs
  rw [items]
  split <;> rename_i equal <;> rw [equal] at first
  · exact itemNumbers_inRange first nofun
  · split
    · exact itemNumbers_inRange first nofun
    · exact itemNumbers_inRange first (others _)
    · exact itemNumbers_inRange first nofun

theorem members_inRange (value_inRange : ∀ cs, (value fuel cs).1.InRange)
    (others : ∀ cs, ∀ n ∈ memberNumbers (members fuel cs).1, n.InRange) (cs : List Char) :
    ∀ n ∈ memberNumbers (members (fuel + 1) cs).1, n.InRange := by
  rw [members]
  split
  · split
    · exact nofun
    · split
      · rename_i name _ _ _ rest _
        have first := value_inRange rest
        split <;> rename_i equal <;> rw [equal] at first
        · exact memberNumbers_inRange name first nofun
        · split
          · exact memberNumbers_inRange name first nofun
          · exact memberNumbers_inRange name first (others _)
          · exact memberNumbers_inRange name first nofun
      · exact nofun
  · exact nofun

end

/-- Every number in what has been read of a text is in range. -/
theorem inRange_of_text (fuel : Nat) :
    (∀ cs, (value fuel cs).1.InRange) ∧
      (∀ cs, ∀ n ∈ itemNumbers (items fuel cs).1, n.InRange) ∧
      ∀ cs, ∀ n ∈ memberNumbers (members fuel cs).1, n.InRange := by
  induction fuel with
  | zero => exact ⟨by rintro cs n ⟨⟩, by rintro cs n ⟨⟩, by rintro cs n ⟨⟩⟩
  | succ fuel ih =>
    obtain ⟨values, arrays, objects⟩ := ih
    exact ⟨value_inRange arrays objects, items_inRange values arrays,
      members_inRange values objects⟩

theorem ofText_inRange (text : String) : (ofText text).1.InRange := by
  have read := (inRange_of_text (2 * text.toList.length + 2)).1 text.toList
  unfold ofText
  dsimp only
  split <;> rename_i equal <;> rw [equal] at read <;> exact read

end Document

end RestWiring.Json
