import RestWiring.Proofs.Fallible
import RestWiring.Proofs.SortedMap
import RestWiring.Proofs.Stencil.Outlines
import RestWiring.Stencil.Render

/-!
# Drawing stencils

What is known of the variables can tell what a stencil is rendered to before the texts from outside
are known: an outline, with holes for these texts. To draw a stencil is to find this outline. It
cannot be done where a text from outside would be shown otherwise than as a literal, or would decide
which parts appear. If a stencil that can be drawn is rendered, then to its outline, whatever texts
fill the holes.
-/
namespace RestWiring.Stencil

variable {ι : Type}

/-! ## Sketches -/

/-- What is known of a value before the texts are known that fill the holes. -/
inductive Sketch (ι : Type) where
  /-- There is none: something has failed. -/
  | missing
  | fixed (v : Value)
  /-- The text that fills a hole, perhaps one that is known not to be empty. -/
  | foreign (i : ι) (present : Bool)
  | foreigns (is : List ι)
  | code (o : Outline ι)
  | codes (os : List (Outline ι))
  /-- The progress of a loop, of which is known whether the round is the last. -/
  | round (last : Bool)

namespace Sketch

def Holds (texts : ι → String) : Sketch ι → Value → Prop
  | .missing, _ => False
  | .fixed a, v => v = a
  | .foreign i present, v => (present = true → texts i ≠ "") ∧ v = .text (texts i)
  | .foreigns is, v => v = .list (is.map fun i => .text (texts i))
  | .code o, v => ∃ safe, v = .string (String.ofList (o.filled texts)) safe
  | .codes os, v => v = .list (os.map fun o => .text (String.ofList (o.filled texts)))
  | .round last, v => v.member "last" = .ok (.bool last)

/-- What is known of a value that is the same whatever texts fill the holes. -/
def ofResult {ε : Type} : Except ε Value → Sketch ι
  | .ok v => .fixed v
  | .error _ => .missing

/-- The value, if it is known. -/
def value? : Sketch ι → Option Value
  | .fixed v => some v
  | _ => none

/-- Whether a value counts as true, if that is known. -/
def truth? : Sketch ι → Option Bool
  | .fixed v => some v.isTrue
  | .foreign _ true => some true
  | .foreigns is => some !is.isEmpty
  | .codes os => some !os.isEmpty
  | .missing | .foreign _ false | .code _ | .round _ => none

/-- What is known of the items of a value, if it is a list. -/
def items? : Sketch ι → Option (List (Sketch ι))
  | .fixed (.list vs) => some (vs.map .fixed)
  | .foreigns is => some (is.map (.foreign · false))
  | .codes os => some (os.map .code)
  | _ => none

/-- What becomes of a value that a filter is applied to. -/
def filtered? (name : String) (arguments : List Expr) (s : Sketch ι) : Option (Sketch ι) :=
  match s, arguments with
  | .fixed v, [] => if name = "tojson" then some (.ofResult (Value.filter name v [])) else none
  | .foreign i _, [] => if name = "tojson" then some (.code [.hole i]) else none
  | .code o, [.literal width, .literal first] =>
    if name = "indent" then
      match width.size, Value.flag (some first) with
      | .ok width, .ok first => some (.code (o.indented width first false))
      | _, _ => some .missing
    else none
  | _, _ => none

/-- The holes in a value that is shown, texts from outside as literals. -/
def holes : Sketch ι → List ι
  | .foreign i _ => [i]
  | .foreigns is => is
  | .code o => o.holes
  | .codes os => os.flatMap Outline.holes
  | .missing | .fixed _ | .round _ => []

end Sketch

/-- What is known of variables by name. -/
abbrev Knowledge (ι : Type) := List (String × Sketch ι)

/-- Whether the variables hold what is known of them. -/
def Agrees (texts : ι → String) (known : Knowledge ι) (scope : Scope) : Prop :=
  ∀ name sketch, known.lookup name = some sketch →
    sketch.Holds texts ((scope.find? name).getD .undefined)

/-- What is known of the value of an expression. -/
def Expr.sketch? (known : Knowledge ι) : Expr → Option (Sketch ι)
  | .literal value => some (.fixed value)
  | .variable name => known.lookup name
  | .member e name => do
    match ← e.sketch? known with
    | .round last => if name = "last" then some (.fixed (.bool last)) else none
    | _ => none
  | .not e => do return .fixed (.bool !(← (← e.sketch? known).truth?))
  | .binary op left right => do
    let a ← (← left.sketch? known).value?
    let b ← (← right.sketch? known).value?
    return .ofResult ((Expr.binary op (.literal a) (.literal b)).eval ∅)
  | .filter name e arguments => do (← e.sketch? known).filtered? name arguments
  | _ => none

mutual

/-- The outline of what a part is rendered to, if it does not depend on texts from outside. -/
def Segment.draw? (known : Knowledge ι) : Segment → Option (Outline ι)
  | .text content => some (Outline.ofText content)
  | .emit _ e => do
    match ← e.sketch? known with
    | .missing => some []
    | .fixed v => some (Outline.ofChars (Escaping.off.shown v))
    | .code o => some o
    | _ => none
  | .branch _ condition whenTrue whenFalse => do
    if ← (← condition.sketch? known).truth? then drawAll? known whenTrue else drawAll? known whenFalse
  | .loop _ (.one name) source none body whenEmpty => do
    let items ← (← source.sketch? known).items?
    if items.isEmpty then drawAll? known whenEmpty
    else
      let rounds ← items.zipIdx.mapM fun (item, index) =>
        drawAll? ((name, item) :: ("loop", .round (index + 1 == items.length)) :: known) body
      return rounds.flatten
  | .loop .. => none

def drawAll? (known : Knowledge ι) : List Segment → Option (Outline ι)
  | [] => some []
  | s :: rest => do
    let first ← s.draw? known
    return first ++ (← drawAll? known rest)

end

/-! ## Expressions -/

section

variable {texts : ι → String} {known : Knowledge ι} {scope : Scope}

theorem Sketch.eq_of_value? {s : Sketch ι} {a v : Value} (found : s.value? = some a)
    (holds : s.Holds texts v) : v = a := by
  cases s with
  | fixed a =>
    cases found
    exact holds
  | _ => cases found

theorem Sketch.isTrue_of_truth? {s : Sketch ι} {v : Value} {b : Bool} (decided : s.truth? = some b)
    (holds : s.Holds texts v) : v.isTrue = b := by
  cases s with
  | fixed a =>
    cases holds
    exact Option.some.inj decided
  | foreign i present =>
    cases present with
    | false => cases decided
    | true =>
      obtain ⟨nonempty, rfl⟩ := holds
      cases decided
      simpa [Value.text, Value.isTrue] using nonempty rfl
  | foreigns is | codes os =>
    cases holds
    cases decided
    exact congrArg (!·) List.isEmpty_map
  | missing => exact holds.elim
  | code | round => cases decided

/-- What an operator gives depends on what its operands give. If the second one fails and is not
looked at, it does not matter what it would be. -/
theorem Expr.eval_binary (op : Operator) :
    ∃ combined : Except Fault Value → Except Fault Value → Except Fault Value,
      (∀ scope left right, (Expr.binary op left right).eval scope =
        combined (left.eval scope) (right.eval scope)) ∧
      (∀ e r, combined (.error e) r = .error e) ∧
      ∀ l e v, combined l (.error e) = .ok v → ∀ r, combined l r = .ok v := by
  cases op with
  | and =>
    refine ⟨fun l r => l >>= fun l => if l.isTrue then r else .ok l, fun _ _ _ => rfl,
      fun _ _ => rfl, fun l e v success r => ?_⟩
    obtain ⟨a, rfl, chosen⟩ := bind_success_iff.mp success
    change (if a.isTrue then r else .ok a) = _
    split at chosen
    · cases chosen
    · rename_i fails
      rw [if_neg fails, chosen]
  | or =>
    refine ⟨fun l r => l >>= fun l => if l.isTrue then .ok l else r, fun _ _ _ => rfl,
      fun _ _ => rfl, fun l e v success r => ?_⟩
    obtain ⟨a, rfl, chosen⟩ := bind_success_iff.mp success
    change (if a.isTrue then .ok a else r) = _
    split at chosen
    · rename_i holds
      rw [if_pos holds, chosen]
    · cases chosen
  | _ =>
    refine ⟨fun l r => l >>= fun l => r >>= Value.combine _ l, fun _ _ _ => rfl, fun _ _ => rfl,
      fun l e v success r => ?_⟩
    obtain ⟨a, rfl, combination⟩ := bind_success_iff.mp success
    cases combination

/-- Once its arguments are read, the filter `indent` works on the characters that a value shows. -/
theorem filter_indent (width first v : Value) :
    Value.filter "indent" v [width, first] = (do
      let width ← width.size
      let first ← Value.flag (some first)
      .ok (Value.ofChars (Value.indented width first false v.shown))) :=
  rfl

theorem Sketch.ofResult_holds {ε : Type} {r : Except ε Value} {v : Value} (success : r = .ok v) :
    (ofResult r).Holds texts v := by
  subst success
  rfl

theorem Sketch.filtered_holds {name : String} {arguments : List Expr} {s t : Sketch ι} {v w : Value}
    (filtered : s.filtered? name arguments = some t) (holds : s.Holds texts v)
    (success : (evalAll scope arguments >>= Value.filter name v) = .ok w) : t.Holds texts w := by
  unfold filtered? at filtered
  split at filtered <;> (try split at filtered) <;> (try cases filtered) <;> (try subst name)
  case h_1.isTrue =>
    cases holds
    exact ofResult_holds success
  case h_2.isTrue i present =>
    obtain ⟨-, rfl⟩ := holds
    cases success
    refine ⟨true, ?_⟩
    rw [Outline.filled_cons, Outline.filled, List.flatMap_nil, List.append_nil]
    rfl
  case h_3.isTrue o width first =>
    obtain ⟨safe, rfl⟩ := holds
    change Value.filter "indent" _ [width, first] = _ at success
    rw [filter_indent, Value.shown, String.toList_ofList] at success
    obtain ⟨width', sized, success⟩ := bind_success_iff.mp success
    obtain ⟨first', flagged, equal⟩ := bind_success_iff.mp success
    rw [sized, flagged] at filtered
    cases filtered
    cases equal
    exact ⟨false, by rw [← Outline.indented_filled]; rfl⟩

theorem Expr.sketch_holds (agrees : Agrees texts known scope) :
    (e : Expr) → {s : Sketch ι} → {v : Value} → (found : e.sketch? known = some s) →
    (success : e.eval scope = .ok v) → s.Holds texts v
  | .literal value, _, _, found, success => by
    cases found
    cases success
    rfl
  | .variable name, _, _, found, success => by
    cases success
    exact agrees name _ found
  | .member e name, s, v, found, success => by
    obtain ⟨inner, sketched, found⟩ := Option.bind_eq_some_iff.mp found
    obtain ⟨w, evaluated, success⟩ := bind_success_iff.mp success
    have holds := sketch_holds agrees e sketched evaluated
    cases inner with
    | round last =>
      obtain ⟨rfl, ⟨⟩⟩ := Option.ite_none_right_eq_some.mp found
      exact (Except.ok.inj (success.symm.trans holds))
    | _ => cases found
  | .not e, _, _, found, success => by
    obtain ⟨inner, sketched, found⟩ := Option.bind_eq_some_iff.mp found
    obtain ⟨b, decided, ⟨⟩⟩ := Option.bind_eq_some_iff.mp found
    obtain ⟨w, evaluated, ⟨⟩⟩ := bind_success_iff.mp success
    rw [Sketch.isTrue_of_truth? decided (sketch_holds agrees e sketched evaluated)]
    rfl
  | .binary op left right, s, v, found, success => by
    obtain ⟨l, left_sketched, found⟩ := Option.bind_eq_some_iff.mp found
    obtain ⟨a, left_known, found⟩ := Option.bind_eq_some_iff.mp found
    obtain ⟨r, right_sketched, found⟩ := Option.bind_eq_some_iff.mp found
    obtain ⟨b, right_known, ⟨⟩⟩ := Option.bind_eq_some_iff.mp found
    obtain ⟨combined, evaluation, strict, unseen⟩ := eval_binary op
    refine Sketch.ofResult_holds ?_
    rw [evaluation] at success ⊢
    cases left_evaluated : left.eval scope with
    | error e =>
      rw [left_evaluated, strict] at success
      cases success
    | ok v =>
      rw [left_evaluated] at success
      have left_holds := sketch_holds agrees left left_sketched left_evaluated
      obtain rfl := Sketch.eq_of_value? left_known left_holds
      cases right_evaluated : right.eval scope with
      | error e =>
        rw [right_evaluated] at success
        exact unseen _ e _ success _
      | ok w =>
        rw [right_evaluated] at success
        have right_holds := sketch_holds agrees right right_sketched right_evaluated
        obtain rfl := Sketch.eq_of_value? right_known right_holds
        exact success
  | .filter name e arguments, _, _, found, success => by
    obtain ⟨inner, sketched, filtered⟩ := Option.bind_eq_some_iff.mp found
    obtain ⟨w, evaluated, success⟩ := bind_success_iff.mp success
    exact Sketch.filtered_holds filtered (sketch_holds agrees e sketched evaluated) success

/-! ## Loops -/

/-- What a loop tells of its last round. -/
theorem progress_last (index length : Nat) (before after : Value) :
    (progress index (some length) before after).member "last" = .ok (.bool (index + 1 == length)) := by
  unfold progress Value.member
  dsimp only
  rw [← SortedMap.entries_ofList]
  rw [← SortedMap.find?,
    (SortedMap.find?_ofList (v := .bool (index + 1 == length)) (by simp)).mpr (by simp)]
  rfl

/-- What is listed first under a name is what is found under it. -/
theorem lookup_cons_eq {κ : Type} (name other : String) (k : κ) (known : List (String × κ)) :
    ((name, k) :: known).lookup other = if other = name then some k else known.lookup other := by
  rw [List.lookup_cons]
  by_cases same : other = name
  · simp [same]
  · simp [beq_false_of_ne same, same]

/-- What is known of a variable that is bound to a value. -/
theorem Agrees.insert {name : String} {s : Sketch ι} {v : Value} (agrees : Agrees texts known scope)
    (holds : s.Holds texts v) : Agrees texts ((name, s) :: known) (scope.insert name v) := by
  intro other found listed
  rw [lookup_cons_eq] at listed
  rw [SortedMap.find?_insert]
  split at listed
  · rename_i same
    cases listed
    simpa only [if_pos same, Option.getD_some] using holds
  · rename_i differ
    simpa only [if_neg differ] using agrees other found listed

/-- A round of a loop sees the item and a description of the progress. -/
theorem Agrees.loopScope (agrees : Agrees texts known scope) (name : String) (items : List Value)
    (index : Nat) {s : Sketch ι} {item : Value} (holds : s.Holds texts item) :
    ∃ inner, Stencil.loopScope scope (.one name) items (some items.length) index item = .ok inner ∧
      Agrees texts ((name, s) :: ("loop", .round (index + 1 == items.length)) :: known) inner :=
  ⟨_, rfl, (agrees.insert (s := .round _) (progress_last index items.length _ _)).insert holds⟩

/-- A loop over a list renders its body once for each item. -/
theorem Segment.render_each {escaping : Escaping} {scope : Scope} {source : Expr} {items : List Value}
    (eval : source.eval scope = .ok (.list items)) (line : Nat) (name : String)
    (body whenEmpty : List Segment) :
    (Segment.loop line (.one name) source none body whenEmpty).render escaping scope =
      if items.isEmpty then renderAll escaping scope whenEmpty
      else do
        let rounds ← items.zipIdx.mapM fun item => do
          let inner ← located line
            (Stencil.loopScope scope (.one name) items (some items.length) item.2 item.1)
          renderAll escaping inner body
        return rounds.flatten := by
  rw [Segment.render, eval]
  rfl

theorem Sketch.items_hold {s : Sketch ι} {v : Value} {items : List (Sketch ι)}
    (listed : s.items? = some items) (holds : s.Holds texts v) :
    ∃ vs, v = .list vs ∧ List.Forall₂ (Holds texts) items vs := by
  cases s with
  | fixed a =>
    cases holds
    cases v with
    | list vs =>
      cases listed
      exact ⟨vs, rfl, List.forall₂_map_left_iff.mpr (List.forall₂_same.mpr fun _ _ => rfl)⟩
    | _ => cases listed
  | foreigns is =>
    cases holds
    cases listed
    refine ⟨_, rfl, List.forall₂_map_left_iff.mpr (List.forall₂_map_right_iff.mpr ?_)⟩
    exact List.forall₂_same.mpr fun _ _ => ⟨nofun, rfl⟩
  | codes os =>
    cases holds
    cases listed
    refine ⟨_, rfl, List.forall₂_map_left_iff.mpr (List.forall₂_map_right_iff.mpr ?_)⟩
    exact List.forall₂_same.mpr fun _ _ => ⟨false, rfl⟩
  | _ => cases listed

/-- Rounds that are drawn one by one are rendered one by one. -/
theorem rounds_rendered {draw : Sketch ι × Nat → Option (Outline ι)}
    {render : Value × Nat → Except FaultAt (List Char)} {items : List (Sketch ι)} {vs : List Value}
    (holds : List.Forall₂ (Sketch.Holds texts) items vs)
    (each : ∀ item v index o text, item.Holds texts v → draw (item, index) = some o →
      render (v, index) = .ok text → text = o.filled texts) (first : Nat) {rounds : List (Outline ι)}
    {results : List (List Char)} (drawn : (items.zipIdx first).mapM draw = some rounds)
    (success : (vs.zipIdx first).mapM render = .ok results) :
    results = rounds.map (Outline.filled texts) := by
  induction holds generalizing first rounds results with
  | nil =>
    cases drawn
    cases success
    rfl
  | cons head _ ih =>
    rw [List.zipIdx_cons, List.mapM_cons] at drawn success
    obtain ⟨o, drawn_first, drawn⟩ := Option.bind_eq_some_iff.mp drawn
    obtain ⟨others, drawn_others, equal⟩ := Option.bind_eq_some_iff.mp drawn
    cases equal
    obtain ⟨text, rendered, success⟩ := bind_success_iff.mp success
    obtain ⟨texts', success_others, equal⟩ := bind_success_iff.mp success
    cases equal
    rw [List.map_cons, each _ _ _ o text head drawn_first rendered,
      ih _ drawn_others success_others]

/-! ## Parts -/

theorem located_success {α : Type} {line : Nat} {f : Except Fault α} {a : α}
    (success : located line f = .ok a) : f = .ok a := by
  cases f with
  | ok b => exact congrArg _ (Except.ok.inj success)
  | error e => cases success

mutual

theorem Segment.draw_filled {known : Knowledge ι} {scope : Scope}
    (agrees : Agrees texts known scope) :
    (s : Segment) → {o : Outline ι} → {text : List Char} → (drawn : s.draw? known = some o) →
    (success : s.render .off scope = .ok text) → text = o.filled texts
  | .text content, _, _, drawn, success => by
    cases drawn
    cases success
    exact (Outline.filled_ofText ..).symm
  | .emit line e, o, text, drawn, success => by
    obtain ⟨s, sketched, drawn⟩ := Option.bind_eq_some_iff.mp drawn
    obtain ⟨v, evaluated, ⟨⟩⟩ := bind_success_iff.mp success
    have holds := e.sketch_holds agrees sketched (located_success evaluated)
    cases s with
    | missing => exact holds.elim
    | fixed a =>
      cases holds
      cases drawn
      exact (Outline.filled_ofChars ..).symm
    | code o =>
      cases drawn
      obtain ⟨safe, rfl⟩ := holds
      cases safe <;> exact String.toList_ofList
    | _ => cases drawn
  | .branch line condition whenTrue whenFalse, o, text, drawn, success => by
    obtain ⟨s, sketched, drawn⟩ := Option.bind_eq_some_iff.mp drawn
    obtain ⟨b, decided, drawn⟩ := Option.bind_eq_some_iff.mp drawn
    obtain ⟨v, evaluated, success⟩ := bind_success_iff.mp success
    have holds := condition.sketch_holds agrees sketched (located_success evaluated)
    rw [Sketch.isTrue_of_truth? decided holds] at success
    cases b with
    | true => exact drawAll_filled agrees whenTrue drawn success
    | false => exact drawAll_filled agrees whenFalse drawn success
  | .loop line (.one name) source none body whenEmpty, o, text, drawn, success => by
    obtain ⟨s, sketched, drawn⟩ := Option.bind_eq_some_iff.mp drawn
    obtain ⟨items, listed, drawn⟩ := Option.bind_eq_some_iff.mp drawn
    obtain ⟨v, evaluated, -⟩ := bind_success_iff.mp success
    have holds := source.sketch_holds agrees sketched (located_success evaluated)
    obtain ⟨vs, rfl, hold⟩ := Sketch.items_hold listed holds
    have same_length : vs.length = items.length := hold.length_eq.symm
    have same_empty : vs.isEmpty = items.isEmpty := by
      rw [Bool.eq_iff_iff, List.isEmpty_iff_length_eq_zero, List.isEmpty_iff_length_eq_zero,
        same_length]
    rw [Segment.render_each (located_success evaluated)] at success
    split at drawn
    · rename_i empty
      rw [if_pos (same_empty.trans empty)] at success
      exact drawAll_filled agrees whenEmpty drawn success
    · rename_i nonempty
      obtain ⟨rounds, drawn_rounds, equal⟩ := Option.bind_eq_some_iff.mp drawn
      cases equal
      rw [if_neg (same_empty ▸ nonempty)] at success
      obtain ⟨results, success_rounds, equal⟩ := bind_success_iff.mp success
      cases equal
      rw [Outline.filled_flatten, ← rounds_rendered hold ?_ 0 drawn_rounds success_rounds]
      intro item v index o text holds drawn success
      obtain ⟨inner, entered, agrees'⟩ := agrees.loopScope name vs index holds
      rw [entered] at success
      rw [same_length] at agrees'
      exact drawAll_filled agrees' body drawn success

/-- If a stencil that can be drawn is rendered, then to its outline, whatever texts fill the holes. -/
theorem drawAll_filled {known : Knowledge ι} {scope : Scope} (agrees : Agrees texts known scope) :
    (segments : List Segment) → {o : Outline ι} → {text : List Char} →
    (drawn : drawAll? known segments = some o) →
    (success : renderAll .off scope segments = .ok text) → text = o.filled texts
  | [], _, _, drawn, success => by
    cases drawn
    cases success
    rfl
  | s :: rest, _, _, drawn, success => by
    obtain ⟨first, drawn_first, drawn⟩ := Option.bind_eq_some_iff.mp drawn
    obtain ⟨others, drawn_others, equal⟩ := Option.bind_eq_some_iff.mp drawn
    cases equal
    obtain ⟨text, rendered, success⟩ := bind_success_iff.mp success
    obtain ⟨texts', success_others, equal⟩ := bind_success_iff.mp success
    cases equal
    rw [Outline.filled_append, ← s.draw_filled agrees drawn_first rendered,
      ← drawAll_filled agrees rest drawn_others success_others]

end

/-! ## Holes -/

/-- Whether a stencil can be drawn, and which holes its outline then has. -/
def Draws (known : Knowledge ι) (segments : List Segment) (holes : List ι) : Prop :=
  ∃ o, drawAll? known segments = some o ∧ o.holes = holes

/-- The holes of a list are those of its items. -/
theorem Sketch.holes_items {s : Sketch ι} {items : List (Sketch ι)}
    (listed : s.items? = some items) : items.flatMap holes = s.holes := by
  cases s with
  | fixed v =>
    cases v with
    | list vs =>
      cases listed
      rw [List.flatMap_map]
      exact List.flatMap_eq_nil_iff.mpr fun _ _ => rfl
    | _ => cases listed
  | foreigns is =>
    cases listed
    rw [List.flatMap_map]
    exact List.flatMap_singleton' is
  | codes os =>
    cases listed
    rw [List.flatMap_map]
    rfl
  | _ => cases listed

namespace Draws

variable {segments before after : List Segment} {holes holes' all : List ι}

theorem append (first : Draws known before holes) (others : Draws known after holes') :
    Draws known (before ++ after) (holes ++ holes') := by
  obtain ⟨os, drawn_others, rfl⟩ := others
  induction before generalizing holes with
  | nil =>
    obtain ⟨o, ⟨⟩, rfl⟩ := first
    exact ⟨os, drawn_others, rfl⟩
  | cons s before ih =>
    obtain ⟨_, drawn, rfl⟩ := first
    obtain ⟨o, drawn_first, drawn⟩ := Option.bind_eq_some_iff.mp drawn
    obtain ⟨rest, drawn_rest, equal⟩ := Option.bind_eq_some_iff.mp drawn
    obtain ⟨joined, drawn_joined, same⟩ := ih ⟨rest, drawn_rest, rfl⟩
    cases equal
    refine ⟨o ++ joined, ?_, ?_⟩
    · rw [List.cons_append, drawAll?, drawn_first, drawn_joined]
      rfl
    · rw [Outline.holes_append, same, Outline.holes_append, List.append_assoc]

/-- A stencil is drawn up to one of its parts, and from there on. -/
theorem split (n : Nat) (first : Draws known (segments.take n) holes)
    (others : Draws known (segments.drop n) holes') (together : holes ++ holes' = all) :
    Draws known segments all := by
  rw [← segments.take_append_drop n, ← together]
  exact first.append others

/-- What comes before the first hole. -/
theorem skip (n : Nat) (first : Draws known (segments.take n) [])
    (others : Draws known (segments.drop n) holes) : Draws known segments holes :=
  .split n first others (List.nil_append _)

/-- An operation on known values is shown, if it does not fail. -/
theorem binary (line : Nat) (op : Operator) {left right : Expr} {a b : Value}
    (found : left.sketch? known = some (.fixed a)) (found' : right.sketch? known = some (.fixed b)) :
    Draws known [.emit line (.binary op left right)] [] := by
  cases result : (Expr.binary op (.literal a) (.literal b)).eval ∅ with
  | error e =>
    refine ⟨[], ?_, rfl⟩
    simp [drawAll?, Segment.draw?, Expr.sketch?, found, found', Sketch.value?, result, Sketch.ofResult]
  | ok v =>
    refine ⟨Outline.ofChars (Escaping.off.shown v), ?_, Outline.holes_ofChars _⟩
    simp [drawAll?, Segment.draw?, Expr.sketch?, found, found', Sketch.value?, result, Sketch.ofResult]

theorem branch {line : Nat} {condition : Expr} {whenTrue whenFalse : List Segment} {s : Sketch ι}
    {b : Bool} (sketched : condition.sketch? known = some s) (decided : s.truth? = some b)
    (chosen : Draws known (if b then whenTrue else whenFalse) holes) :
    Draws known [.branch line condition whenTrue whenFalse] holes := by
  obtain ⟨o, drawn, rfl⟩ := chosen
  refine ⟨o, ?_, rfl⟩
  cases b <;> simpa [drawAll?, Segment.draw?, sketched, decided] using drawn

/-- Rounds that are drawn have the holes of the items, one after another. -/
theorem rounds {draw : Sketch ι × Nat → Option (Outline ι)} {items : List (Sketch ι)}
    (each : ∀ item ∈ items, ∀ index, ∃ o, draw (item, index) = some o ∧ o.holes = item.holes)
    (first : Nat) :
    ∃ os, (items.zipIdx first).mapM draw = some os ∧
      os.flatMap Outline.holes = items.flatMap Sketch.holes := by
  induction items generalizing first with
  | nil => exact ⟨[], rfl, rfl⟩
  | cons item items ih =>
    obtain ⟨head, others⟩ := List.forall_mem_cons.mp each
    obtain ⟨o, drawn, same⟩ := head first
    obtain ⟨os, drawn', same'⟩ := ih others (first + 1)
    refine ⟨o :: os, ?_, ?_⟩
    · rw [List.zipIdx_cons, List.mapM_cons, drawn, drawn']
      rfl
    · rw [List.flatMap_cons, List.flatMap_cons, same, same']

/-- A loop has the holes of the items, if every round has those of its item. -/
theorem each {line : Nat} {name : String} {source : Expr} {body : List Segment} {s : Sketch ι}
    {items : List (Sketch ι)} (sketched : source.sketch? known = some s)
    (listed : s.items? = some items) (total : s.holes = holes)
    (round : ∀ item ∈ items, ∀ last,
      Draws ((name, item) :: ("loop", .round last) :: known) body item.holes) :
    Draws known [.loop line (.one name) source none body []] holes := by
  let draw (item : Sketch ι × Nat) : Option (Outline ι) :=
    drawAll? ((name, item.1) :: ("loop", .round (item.2 + 1 == items.length)) :: known) body
  have shown : ∀ item ∈ items, ∀ index, ∃ o, draw (item, index) = some o ∧ o.holes = item.holes :=
    fun item member _ => round item member _
  obtain ⟨os, drawn, same⟩ := rounds shown 0
  rw [← total, ← Sketch.holes_items listed, ← same]
  have loop : (Segment.loop line (.one name) source none body []).draw? known = some os.flatten := by
    rw [Segment.draw?, sketched]
    change (s.items? >>= _) = _
    rw [listed]
    change (if items.isEmpty then drawAll? known [] else items.zipIdx.mapM draw >>= _) = _
    rw [drawn]
    cases items with
    | nil =>
      cases drawn
      rfl
    | cons => rfl
  refine ⟨os.flatten, ?_, Outline.holes_flatten os⟩
  rw [drawAll?, loop, drawAll?]
  exact congrArg some (List.append_nil _)

end Draws

end

end RestWiring.Stencil
