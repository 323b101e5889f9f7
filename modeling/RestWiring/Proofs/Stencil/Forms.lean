import RestWiring.Proofs.Stencil.Drawings

/-!
# The forms of values

What is known of the forms of the variables tells which expressions have a value for sure, and of
which form it is. A stencil is sure if all its expressions are and its loops go over lists. A sure
stencil is rendered, whatever values of these forms its variables hold.
-/
namespace RestWiring.Stencil

/-- What is known of a value. -/
inductive Form where
  /-- Nothing. -/
  | any
  | number
  /-- It is an integer from a least to a greatest one. -/
  | int (least greatest : Int)
  | map
  | list (items : Form)
  deriving DecidableEq

namespace Form

def Holds : Form → Value → Prop
  | .any, _ => True
  | .number, v => ∃ n, v.numeric? = some n
  | .int least greatest, v => ∃ i, v = .int i ∧ least ≤ i ∧ i ≤ greatest
  | .map, v => ∃ members, v = .map members
  | .list form, v => ∃ items, v = .list items ∧ ∀ item ∈ items, form.Holds item

def isNumber : Form → Bool
  | .number | .int .. => true
  | .any | .map | .list _ => false

/-- The form of a difference, if it has no more than 128 bits. -/
def difference : Form → Form → Option Form
  | .int a b, .int c d =>
    if Value.fitsInt (a - d) && Value.fitsInt (b - c) then some (.int (a - d) (b - c)) else none
  | _, _ => none

/-- The form of what an operator gives. -/
def combined (op : Operator) (l r : Form) : Option Form :=
  match op with
  | .sub => l.difference r
  | .div => if l.isNumber && r.isNumber then some .number else none
  | .concat | .equal | .notEqual | .less | .lessEqual | .greater | .greaterEqual => some .any
  | _ => none

end Form

/-- What is known of variables by name. -/
abbrev Forms := List (String × Form)

/-- Whether the variables are of the forms that are known. -/
def Fits (known : Forms) (scope : Scope) : Prop :=
  ∀ name form, known.lookup name = some form → form.Holds ((scope.find? name).getD .undefined)

/-- Whether a filter gives something for every value. -/
def isSureFilter (name : String) : List Expr → Bool
  | [] => name = "tojson"
  | [.literal (.int width), .literal (.bool _)] => name = "indent" ∧ 0 ≤ width ∧ width < 2 ^ 64
  | _ => false

/-- The form of the value of an expression. -/
def Expr.form (known : Forms) : Expr → Option Form
  | .literal (.int i) => some (.int i i)
  | .literal _ => some .any
  | .variable name => some ((known.lookup name).getD .any)
  | .member e _ => do
    let form ← e.form known
    if form = .map then some .any else none
  | .not e => do
    let _ ← e.form known
    some .any
  | .binary op left right => do
    let l ← left.form known
    let r ← right.form known
    l.combined op r
  | .filter name e arguments => do
    let _ ← e.form known
    if isSureFilter name arguments then some .any else none
  | _ => none

mutual

def Segment.isSure (known : Forms) : Segment → Bool
  | .text _ => true
  | .emit _ e => (e.form known).isSome
  | .branch _ condition whenTrue whenFalse =>
    (condition.form known).isSome && areSure known whenTrue && areSure known whenFalse
  | .loop _ (.one name) source none body whenEmpty =>
    (match source.form known with
      | some (.list form) => areSure ((name, form) :: ("loop", .map) :: known) body
      | _ => false) && areSure known whenEmpty
  | .loop .. => false

def areSure (known : Forms) : List Segment → Bool
  | [] => true
  | s :: rest => s.isSure known && areSure known rest

end

/-! ## Sure expressions -/

theorem Form.numeric {form : Form} {v : Value} (holds : form.Holds v)
    (number : form.isNumber = true) : ∃ n, v.numeric? = some n := by
  cases form with
  | number => exact holds
  | int least greatest =>
    obtain ⟨i, rfl, -⟩ := holds
    exact ⟨.int i, rfl⟩
  | any | map | list _ => cases number

theorem fitsInt_iff {i : Int} : Value.fitsInt i = true ↔ -(2 ^ 127) ≤ i ∧ i < 2 ^ 127 := by
  have width : (Nat.pow 2 127 : Int) = 2 ^ 127 := by decide
  rw [Value.fitsInt, Bool.and_eq_true, decide_eq_true_eq, decide_eq_true_eq, width]

theorem Form.combine {op : Operator} {l r form : Form} {v w : Value}
    (found : l.combined op r = some form) (left : l.Holds v) (right : r.Holds w) :
    ∃ u, Value.combine op v w = .ok u ∧ form.Holds u := by
  cases op with
  | sub =>
    cases l <;> cases r <;> try cases found
    case int.int a b c d =>
    obtain ⟨fits, ⟨⟩⟩ := Option.ite_none_right_eq_some.mp found
    obtain ⟨i, rfl, least, greatest⟩ := left
    obtain ⟨j, rfl, least', greatest'⟩ := right
    rw [Bool.and_eq_true, fitsInt_iff, fitsInt_iff] at fits
    have inside : Value.fitsInt (i - j) = true := fitsInt_iff.mpr ⟨by omega, by omega⟩
    refine ⟨.int (i - j), ?_, i - j, rfl, by omega, by omega⟩
    simp only [Value.combine, Value.arithmetic, Value.numeric?, inside, if_true]
  | div =>
    obtain ⟨numbers, ⟨⟩⟩ := Option.ite_none_right_eq_some.mp found
    rw [Bool.and_eq_true] at numbers
    obtain ⟨a, shown⟩ := Form.numeric left numbers.1
    obtain ⟨b, shown'⟩ := Form.numeric right numbers.2
    refine ⟨.double (a.toDouble.div b.toDouble), ?_, .double _, rfl⟩
    simp only [Value.combine, Value.quotient, shown, shown']
  | concat | equal | notEqual | less | lessEqual | greater | greaterEqual =>
    cases found
    exact ⟨_, rfl, trivial⟩
  | _ => cases found

theorem size_of_int {i : Int} (least : 0 ≤ i) (greatest : i < 2 ^ 64) :
    (Value.int i).size = .ok i.toNat := by
  simp only [Value.size, Value.int?, least, decide_true, Bool.true_and, decide_eq_true_eq]
  exact if_pos greatest

theorem isSureFilter_gives (scope : Scope) {name : String} {arguments : List Expr}
    (sure : isSureFilter name arguments = true) (v : Value) :
    ∃ u, (evalAll scope arguments >>= Value.filter name v) = .ok u := by
  unfold isSureFilter at sure
  split at sure
  · obtain rfl := of_decide_eq_true sure
    exact ⟨_, rfl⟩
  · rename_i width first
    obtain ⟨rfl, least, greatest⟩ := of_decide_eq_true sure
    refine ⟨Value.ofChars (Value.indented width.toNat first false v.shown), ?_⟩
    have applied := filter_indent (.int width) (.bool first) v
    rw [size_of_int least greatest] at applied
    exact applied
  · cases sure

variable {known : Forms} {scope : Scope}

theorem Expr.eval_form (fits : Fits known scope) :
    (e : Expr) → {form : Form} → (found : e.form known = some form) →
    ∃ v, e.eval scope = .ok v ∧ form.Holds v
  | .literal value, form, found => by
    refine ⟨value, rfl, ?_⟩
    cases value <;> cases found <;> first | trivial | exact ⟨_, rfl, Int.le_refl _, Int.le_refl _⟩
  | .variable name, form, found => by
    refine ⟨_, rfl, ?_⟩
    cases found
    cases listed : known.lookup name with
    | none => trivial
    | some form => exact fits name form listed
  | .member e name, form, found => by
    obtain ⟨_, inner, found⟩ := Option.bind_eq_some_iff.mp found
    obtain ⟨rfl, ⟨⟩⟩ := Option.ite_none_right_eq_some.mp found
    obtain ⟨_, eval, members, rfl⟩ := eval_form fits e inner
    exact ⟨_, bind_success_iff.mpr ⟨_, eval, rfl⟩, trivial⟩
  | .not e, form, found => by
    obtain ⟨_, inner, ⟨⟩⟩ := Option.bind_eq_some_iff.mp found
    obtain ⟨v, eval, -⟩ := eval_form fits e inner
    exact ⟨_, bind_success_iff.mpr ⟨v, eval, rfl⟩, trivial⟩
  | .binary op left right, form, found => by
    obtain ⟨l, left_inner, found⟩ := Option.bind_eq_some_iff.mp found
    obtain ⟨r, right_inner, found⟩ := Option.bind_eq_some_iff.mp found
    obtain ⟨v, left_eval, left_holds⟩ := eval_form fits left left_inner
    obtain ⟨w, right_eval, right_holds⟩ := eval_form fits right right_inner
    obtain ⟨u, combined, holds⟩ := Form.combine found left_holds right_holds
    refine ⟨u, ?_, holds⟩
    cases op with
    | and | or => cases found
    | _ =>
      refine bind_success_iff.mpr ⟨v, left_eval, ?_⟩
      exact bind_success_iff.mpr ⟨w, right_eval, combined⟩
  | .filter name e arguments, form, found => by
    obtain ⟨_, inner, found⟩ := Option.bind_eq_some_iff.mp found
    obtain ⟨sure, ⟨⟩⟩ := Option.ite_none_right_eq_some.mp found
    obtain ⟨v, eval, -⟩ := eval_form fits e inner
    obtain ⟨u, gives⟩ := isSureFilter_gives scope sure v
    exact ⟨u, bind_success_iff.mpr ⟨v, eval, gives⟩, trivial⟩

/-! ## Sure stencils -/

theorem Fits.insert {name : String} {form : Form} {v : Value} (fits : Fits known scope)
    (holds : form.Holds v) : Fits ((name, form) :: known) (scope.insert name v) := by
  intro other found listed
  rw [lookup_cons_eq] at listed
  rw [SortedMap.find?_insert]
  split at listed
  · rename_i same
    cases listed
    simpa only [if_pos same, Option.getD_some] using holds
  · rename_i differ
    simpa only [if_neg differ] using fits other found listed

/-- A round of a loop sees the item and a description of the progress. -/
theorem Fits.loopScope {form : Form} {v : Value} (fits : Fits known scope) (name : String)
    (holds : form.Holds v) (items : List Value) (length : Option Nat) (index : Nat) :
    ∃ inner, Stencil.loopScope scope (.one name) items length index v = .ok inner ∧
      Fits ((name, form) :: ("loop", .map) :: known) inner := by
  have described (before after : Value) : Form.map.Holds (progress index length before after) :=
    ⟨_, rfl⟩
  exact ⟨_, rfl, (fits.insert (described _ _)).insert holds⟩

theorem located_ok {α : Type} {line : Nat} {step : Except Fault α} {a : α}
    (success : step = .ok a) : located line step = .ok a := by
  rw [success]
  rfl

variable (escaping : Escaping)

mutual

theorem Segment.render_sure {known : Forms} {scope : Scope} (fits : Fits known scope) :
    (s : Segment) → (sure : s.isSure known = true) → ∃ text, s.render escaping scope = .ok text
  | .text content, _ => ⟨_, rfl⟩
  | .emit line e, sure => by
    obtain ⟨form, found⟩ := Option.isSome_iff_exists.mp sure
    obtain ⟨v, eval, -⟩ := e.eval_form fits found
    exact ⟨_, bind_success_iff.mpr ⟨v, located_ok eval, rfl⟩⟩
  | .branch line condition whenTrue whenFalse, sure => by
    simp only [Segment.isSure, Bool.and_eq_true] at sure
    obtain ⟨⟨condition_sure, whenTrue_sure⟩, whenFalse_sure⟩ := sure
    obtain ⟨form, found⟩ := Option.isSome_iff_exists.mp condition_sure
    obtain ⟨v, eval, -⟩ := condition.eval_form fits found
    obtain ⟨text, taken⟩ : ∃ text, (if v.isTrue then renderAll escaping scope whenTrue
        else renderAll escaping scope whenFalse) = .ok text := by
      split
      · exact renderAll_sure fits whenTrue whenTrue_sure
      · exact renderAll_sure fits whenFalse whenFalse_sure
    exact ⟨text, bind_success_iff.mpr ⟨v, located_ok eval, taken⟩⟩
  | .loop line (.one name) source none body whenEmpty, sure => by
    rw [Segment.isSure, Bool.and_eq_true] at sure
    obtain ⟨body_sure, whenEmpty_sure⟩ := sure
    split at body_sure
    case h_2 => cases body_sure
    case h_1 form found =>
    obtain ⟨_, eval, items, rfl, hold⟩ := source.eval_form fits found
    rw [Segment.render_each eval]
    split
    · exact renderAll_sure fits whenEmpty whenEmpty_sure
    · have round : ∀ item ∈ items.zipIdx, ∃ text,
          (located line (loopScope scope (.one name) items (some items.length) item.2 item.1) >>=
            fun inner => renderAll escaping inner body) = .ok text := by
        intro item member
        obtain ⟨inner, entered, fits'⟩ := fits.loopScope name
          (hold item.1 (List.fst_mem_of_mem_zipIdx member)) items (some items.length) item.2
        obtain ⟨text, success⟩ := renderAll_sure fits' body body_sure
        exact ⟨text, bind_success_iff.mpr ⟨inner, located_ok entered, success⟩⟩
      obtain ⟨rounds, success⟩ := mapM_succeeds round
      exact ⟨rounds.flatten, bind_success_iff.mpr ⟨rounds, success, rfl⟩⟩

theorem renderAll_sure {known : Forms} {scope : Scope} (fits : Fits known scope) :
    (segments : List Segment) → (sure : areSure known segments = true) →
    ∃ text, renderAll escaping scope segments = .ok text
  | [], _ => ⟨[], rfl⟩
  | s :: rest, sure => by
    rw [areSure, Bool.and_eq_true] at sure
    obtain ⟨first, success⟩ := s.render_sure fits sure.1
    obtain ⟨others, success'⟩ := renderAll_sure fits rest sure.2
    exact ⟨first ++ others, bind_success_iff.mpr
      ⟨first, success, bind_success_iff.mpr ⟨others, success', rfl⟩⟩⟩

end

end RestWiring.Stencil
