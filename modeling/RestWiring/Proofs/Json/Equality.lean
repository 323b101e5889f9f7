import RestWiring.Json

/-!
# Equality of JSON values

Two values are the same if they are equal once the two zeros are one number. That is less than
equality, but an equivalence still.
-/
namespace RestWiring

/-- The double in which the two zeros are one. -/
def Double.canonical (d : Double) : Double := if d.isZero then zero else d

theorem Double.same_iff {a b : Double} : a.same b = true ↔ a.canonical = b.canonical := by
  have zero_isZero : zero.isZero = true := rfl
  rw [same, Bool.or_eq_true, Bool.and_eq_true, beq_iff_eq, canonical, canonical]
  by_cases left : a.isZero = true <;> by_cases right : b.isZero = true
  · simp [left, right]
  · have differ : a ≠ b := fun equal => right (equal ▸ left)
    have differ' : zero ≠ b := fun equal => right (equal ▸ zero_isZero)
    simp [left, right, differ, differ']
  · have differ : a ≠ b := fun equal => left (equal ▸ right)
    have differ' : a ≠ zero := fun equal => left (equal ▸ zero_isZero)
    simp [left, right, differ, differ']
  · simp [left, right]

def Number.canonical : Number → Number
  | .int i => .int i
  | .double d => .double d.canonical

theorem Number.same_iff {a b : Number} : a.same b = true ↔ a.canonical = b.canonical := by
  cases a <;> cases b <;> simp [same, canonical, Double.same_iff]

namespace Json

mutual

def canonical : Json → Json
  | .null => .null
  | .bool b => .bool b
  | .number n => .number n.canonical
  | .string s => .string s
  | .array items => .array (canonicalItems items)
  | .object members => .object (canonicalMembers members)

def canonicalItems : List Json → List Json
  | [] => []
  | j :: js => canonical j :: canonicalItems js

def canonicalMembers : List (String × Json) → List (String × Json)
  | [] => []
  | (k, j) :: js => (k, canonical j) :: canonicalMembers js

end

mutual

theorem same_iff : (a b : Json) → (a.same b = true ↔ a.canonical = b.canonical)
  | .array as, .array bs => by simp [same, canonical, sameItems_iff as bs]
  | .object as, .object bs => by simp [same, canonical, sameMembers_iff as bs]
  | .null, b | .bool _, b | .string _, b => by cases b <;> simp [same, canonical]
  | .number _, b => by cases b <;> simp [same, canonical, Number.same_iff]
  | .array _, .null | .array _, .bool _ | .array _, .number _ | .array _, .string _
  | .array _, .object _ | .object _, .null | .object _, .bool _ | .object _, .number _
  | .object _, .string _ | .object _, .array _ => by simp [same, canonical]

theorem sameItems_iff :
    (as bs : List Json) → (sameItems as bs = true ↔ canonicalItems as = canonicalItems bs)
  | [], bs => by cases bs <;> simp [sameItems, canonicalItems]
  | _ :: _, [] => by simp [sameItems, canonicalItems]
  | a :: as, b :: bs => by simp [sameItems, canonicalItems, same_iff a b, sameItems_iff as bs]

theorem sameMembers_iff : (as bs : List (String × Json)) →
    (sameMembers as bs = true ↔ canonicalMembers as = canonicalMembers bs)
  | [], bs => by cases bs <;> simp [sameMembers, canonicalMembers]
  | _ :: _, [] => by simp [sameMembers, canonicalMembers]
  | (k, a) :: as, (l, b) :: bs => by
    simp [sameMembers, canonicalMembers, same_iff a b, sameMembers_iff as bs, and_assoc]

end

theorem beq_iff {a b : Json} : (a == b) = true ↔ a.canonical = b.canonical := same_iff a b

instance : EquivBEq Json where
  rfl := beq_iff.mpr rfl
  symm same := beq_iff.mpr (beq_iff.mp same).symm
  trans same same' := beq_iff.mpr ((beq_iff.mp same).trans (beq_iff.mp same'))

end Json

end RestWiring
