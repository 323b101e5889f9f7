import RestWiring.Proofs.Json.Readers

/-!
# Values and their texts

A value that is written reads back as itself, with the members of its objects listed by name, in
every reader that enters as many levels of containers as the value has.
-/
namespace RestWiring

namespace Double

theorem positional_ne_nil (digits : List Char) (k : Int) : positional digits k ≠ [] := by
  unfold positional
  split <;> simp

theorem scientific_ne_nil (plus : Bool) {digits : List Char} (some_ : digits ≠ []) (k : Int) :
    scientific plus digits k ≠ [] := by
  unfold scientific
  match digits with
  | [c] => exact nofun
  | c :: d :: rest => exact nofun

theorem textFrom_ne_nil (least : Int) (plus : Bool) (d : Double) : textFrom least plus d ≠ [] := by
  have signed_ne_nil {text : List Char} (some_ : text ≠ []) : d.signed text ≠ [] := by
    unfold signed
    split
    · exact nofun
    · exact some_
  unfold textFrom
  obtain ⟨c, k⟩ := d.shortest
  refine signed_ne_nil ?_
  split
  · exact positional_ne_nil _ _
  · exact scientific_ne_nil plus Nat.toDigits_ne_nil _

end Double

namespace Json

open Document (ofJson ofItems ofMembers anyItems anyMembers)

mutual

/-- How many levels of containers a value has. -/
def levels : Json → Nat
  | .array items => itemLevels items + 1
  | .object members => memberLevels members + 1
  | .null | .bool _ | .number _ | .string _ => 0

def itemLevels : List Json → Nat
  | [] => 0
  | j :: js => max (levels j) (itemLevels js)

def memberLevels : List (String × Json) → Nat
  | [] => 0
  | (_, j) :: ms => max (levels j) (memberLevels ms)

end

theorem descend_of_lt {depth n : Nat} (room : n + 1 < depth) :
    ∃ inner, descend depth = .ok inner ∧ n < inner := by
  obtain ⟨inner, rfl⟩ := Nat.exists_eq_add_of_lt room
  exact ⟨n + inner + 1, by rw [show n + 1 + inner + 1 = n + inner + 2 by omega]; rfl, by omega⟩

mutual

theorem any_ofJson {depth : Nat} : (j : Json) → (room : j.levels < depth) →
    Document.any depth (ofJson j) = .ok j.sorted
  | .null, _ | .bool _, _ | .number _, _ | .string _, _ => rfl
  | .array items, room => by
    obtain ⟨inner, entered, room⟩ := descend_of_lt room
    exact bind_success_iff.mpr ⟨inner, entered,
      bind_success_iff.mpr ⟨_, anyItems_ofJson items room, rfl⟩⟩
  | .object members, room => by
    obtain ⟨inner, entered, room⟩ := descend_of_lt room
    exact bind_success_iff.mpr ⟨inner, entered,
      bind_success_iff.mpr ⟨_, anyMembers_ofJson members room, rfl⟩⟩

theorem anyItems_ofJson {depth : Nat} : (js : List Json) → (room : itemLevels js < depth) →
    anyItems depth (ofItems js) = .ok (sortedItems js)
  | [], _ => rfl
  | j :: js, room => by
    rw [itemLevels, Nat.max_lt] at room
    rw [ofItems, anyItems, any_ofJson j room.1, anyItems_ofJson js room.2]
    rfl

theorem anyMembers_ofJson {depth : Nat} : (ms : List (String × Json)) →
    (room : memberLevels ms < depth) → anyMembers depth (ofMembers ms) = .ok (sortedMembers ms)
  | [], _ => rfl
  | (name, j) :: ms, room => by
    rw [memberLevels, Nat.max_lt] at room
    rw [ofMembers, anyMembers, any_ofJson j room.1, anyMembers_ofJson ms room.2]
    rfl

end

/-- Whether a value is one that a text can stand for: members are listed by name, and numbers are in
range. -/
structure WellFormed (j : Json) : Prop where
  listed : j.sorted = j
  inRange : j.InRange

/-- Whether a text parses to a value, wherever the levels of the value can be entered. -/
def Parses (text : String) (j : Json) : Prop :=
  (Document.ofText text).2 = true ∧
    ∀ depth, j.levels < depth → Document.any depth (Document.ofText text).1 = .ok j

/-- A value that is written reads back as itself. -/
theorem WellFormed.parses {j : Json} (wellFormed : j.WellFormed)
    (doubles : ∀ x, .double x ∈ j.numbers → x.ReadsBack) : Parses j.compact j := by
  rw [Parses, ofText_compact (wellFormed.inRange.readable doubles)]
  exact ⟨rfl, fun depth room => (any_ofJson j room).trans (congrArg Except.ok wellFormed.listed)⟩

/-- What parses and is not nested too deeply is what a whole text is read as. -/
theorem Parses.ofText {text : String} {j : Json} (parses : Parses text j)
    (room : j.levels < depthLimit) : Reader.any.ofText text = .ok j :=
  ofText_success_iff.mpr ⟨parses.2 _ room, parses.1⟩

theorem compactChars_ne_nil (j : Json) : j.compactChars ≠ [] := by
  cases j with
  | bool b => cases b <;> exact List.cons_ne_nil _ _
  | null | string | array | object => exact List.cons_ne_nil _ _
  | number n =>
    cases n with
    | int i =>
      simp only [compactChars, numberText]
      split
      · exact List.cons_ne_nil _ _
      · exact Nat.toDigits_ne_nil
    | double d => exact Double.textFrom_ne_nil (-5) true d

end Json

end RestWiring
