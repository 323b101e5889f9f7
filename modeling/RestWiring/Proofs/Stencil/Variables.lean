import RestWiring.Proofs.Stencil.Drawings

/-!
# The variables of stencils

A stencil mentions variables, of which its loops bind some. It is rendered alike in all scopes that
agree on the others, which are free: to the same text, or with the same fault in the same line.
-/
namespace RestWiring.Stencil

/-! ## Free variables -/

mutual

/-- The variables that an expression mentions. A function is looked for among them first. -/
def Expr.mentioned : Expr → List String
  | .literal _ => []
  | .variable name => [name]
  | .list items => mentionedInAll items
  | .map names values => mentionedInAll names ++ mentionedInAll values
  | .member e _ => e.mentioned
  | .item e index => e.mentioned ++ index.mentioned
  | .slice e start stop step => e.mentioned ++ (start.mentioned ++ (stop.mentioned ++ step.mentioned))
  | .not e => e.mentioned
  | .neg e => e.mentioned
  | .binary _ left right => left.mentioned ++ right.mentioned
  | .choice condition whenTrue whenFalse =>
    condition.mentioned ++ (whenTrue.mentioned ++ whenFalse.mentioned)
  | .filter _ e arguments => e.mentioned ++ mentionedInAll arguments
  | .test _ e arguments => e.mentioned ++ mentionedInAll arguments
  | .call name arguments => name :: mentionedInAll arguments
  | .method e _ arguments => e.mentioned ++ mentionedInAll arguments

def mentionedInAll : List Expr → List String
  | [] => []
  | e :: es => e.mentioned ++ mentionedInAll es

end

def LoopNames.bound : LoopNames → List String
  | .one name => [name]
  | .several names => names

mutual

/-- The variables that a part mentions outside of the loops that bind them. -/
def Segment.free : Segment → List String
  | .text _ => []
  | .emit _ e => e.mentioned
  | .branch _ condition whenTrue whenFalse =>
    condition.mentioned ++ (freeInAll whenTrue ++ freeInAll whenFalse)
  | .loop _ names source condition body whenEmpty =>
    source.mentioned ++
      ((condition.elim [] Expr.mentioned).filter (· ∉ names.bound) ++
        ((freeInAll body).filter (· ∉ "loop" :: names.bound) ++ freeInAll whenEmpty))

def freeInAll : List Segment → List String
  | [] => []
  | s :: rest => s.free ++ freeInAll rest

end

/-- Whether some variables hold the same in two scopes. -/
def AgreeOn (names : List String) (scope scope' : Scope) : Prop :=
  ∀ name ∈ names, scope.find? name = scope'.find? name

section

variable {scope scope' : Scope} {vars vars' : List String}

theorem agreeOn_append :
    AgreeOn (vars ++ vars') scope scope' ↔ AgreeOn vars scope scope' ∧ AgreeOn vars' scope scope' :=
  List.forall_mem_append

theorem agreeOn_cons {name : String} :
    AgreeOn (name :: vars) scope scope' ↔
      scope.find? name = scope'.find? name ∧ AgreeOn vars scope scope' :=
  List.forall_mem_cons

/-! ## Expressions -/

mutual

theorem Expr.eval_congr : (e : Expr) → (agree : AgreeOn e.mentioned scope scope') →
    e.eval scope = e.eval scope'
  | .literal _, _ => rfl
  | .variable name, agree => by
    rw [Expr.eval, Expr.eval, agree name List.mem_cons_self]
  | .list items, agree => by
    rw [Expr.eval, Expr.eval, evalAll_congr items agree]
  | .map names values, agree => by
    obtain ⟨left, right⟩ := agreeOn_append.mp agree
    rw [Expr.eval, Expr.eval, evalAll_congr names left, evalAll_congr values right]
  | .member e _, agree => by
    rw [Expr.eval, Expr.eval, e.eval_congr agree]
  | .item e index, agree => by
    obtain ⟨left, right⟩ := agreeOn_append.mp agree
    rw [Expr.eval, Expr.eval, e.eval_congr left, index.eval_congr right]
  | .slice e start stop step, agree => by
    simp only [Expr.mentioned, agreeOn_append] at agree
    obtain ⟨of, first, last, every⟩ := agree
    rw [Expr.eval, Expr.eval, e.eval_congr of, start.eval_congr first, stop.eval_congr last,
      step.eval_congr every]
  | .not e, agree => by
    rw [Expr.eval, Expr.eval, e.eval_congr agree]
  | .neg e, agree => by
    rw [Expr.eval, Expr.eval, e.eval_congr agree]
  | .binary op left right, agree => by
    obtain ⟨first, second⟩ := agreeOn_append.mp agree
    obtain ⟨combined, eval, -⟩ := Expr.eval_binary op
    rw [eval, eval, left.eval_congr first, right.eval_congr second]
  | .choice condition whenTrue whenFalse, agree => by
    simp only [Expr.mentioned, agreeOn_append] at agree
    obtain ⟨which, first, second⟩ := agree
    rw [Expr.eval, Expr.eval, condition.eval_congr which, whenTrue.eval_congr first,
      whenFalse.eval_congr second]
  | .filter name e arguments, agree => by
    obtain ⟨of, given⟩ := agreeOn_append.mp agree
    rw [Expr.eval, Expr.eval, e.eval_congr of, evalAll_congr arguments given]
  | .test name e arguments, agree => by
    obtain ⟨of, given⟩ := agreeOn_append.mp agree
    rw [Expr.eval, Expr.eval, e.eval_congr of, evalAll_congr arguments given]
  | .call name arguments, agree => by
    obtain ⟨of, given⟩ := agreeOn_cons.mp agree
    rw [Expr.eval, Expr.eval, of, evalAll_congr arguments given]
  | .method e name arguments, agree => by
    obtain ⟨of, given⟩ := agreeOn_append.mp agree
    rw [Expr.eval, Expr.eval, e.eval_congr of, evalAll_congr arguments given]

theorem evalAll_congr : (es : List Expr) → (agree : AgreeOn (mentionedInAll es) scope scope') →
    evalAll scope es = evalAll scope' es
  | [], _ => rfl
  | e :: es, agree => by
    obtain ⟨first, others⟩ := agreeOn_append.mp agree
    rw [evalAll, evalAll, e.eval_congr first, evalAll_congr es others]

end

/-! ## What loops bind -/

theorem AgreeOn.mono (agree : AgreeOn vars scope scope') (fewer : vars' ⊆ vars) :
    AgreeOn vars' scope scope' :=
  fun name member => agree name (fewer member)

/-- It does not matter what is held by variables that are bound. -/
theorem AgreeOn.bound (bound : List (String × Value))
    (agree : AgreeOn (vars.filter (· ∉ bound.map (·.1))) scope scope') :
    AgreeOn vars (bound.foldl (fun scope e => scope.insert e.1 e.2) scope)
      (bound.foldl (fun scope e => scope.insert e.1 e.2) scope') := by
  induction bound generalizing scope scope' with
  | nil => exact agree.mono (by simp)
  | cons first bound ih =>
    refine ih fun name member => ?_
    rw [SortedMap.find?_insert, SortedMap.find?_insert]
    split
    · rfl
    · rename_i other
      obtain ⟨listed, unbound⟩ := List.mem_filter.mp member
      exact agree name (List.mem_filter.mpr ⟨listed, by simpa [other] using unbound⟩)

/-- What a loop binds depends on the item only. -/
theorem bindItem_cases (names : LoopNames) (v : Value) :
    (∃ fault, ∀ scope, bindItem scope names v = .error fault) ∨
      ∃ bound : List (String × Value), bound.map (·.1) = names.bound ∧ ∀ scope,
        bindItem scope names v = .ok (bound.foldl (fun scope e => scope.insert e.1 e.2) scope) := by
  cases names with
  | one name => exact .inr ⟨[(name, v)], rfl, fun _ => rfl⟩
  | several names =>
    cases v with
    | list items =>
      by_cases fits : items.length = names.length
      · refine .inr ⟨names.zip items, List.map_fst_zip (Nat.le_of_eq fits.symm), fun scope => ?_⟩
        rw [bindItem, if_pos fits]
      · exact .inl ⟨_, fun scope => by rw [bindItem, if_neg fits]⟩
    | _ => exact .inl ⟨_, fun _ => rfl⟩

/-- Two steps fail in the same way or give scopes that agree. -/
def Alike {ε : Type} (names : List String) (step step' : Except ε Scope) : Prop :=
  (∃ e, step = .error e ∧ step' = .error e) ∨
    ∃ inner inner', step = .ok inner ∧ step' = .ok inner' ∧ AgreeOn names inner inner'

theorem Alike.located {step step' : Except Fault Scope} (alike : Alike vars step step') (line : Nat) :
    Alike vars (Stencil.located line step) (Stencil.located line step') := by
  obtain ⟨e, rfl, rfl⟩ | ⟨_, _, rfl, rfl, agree⟩ := alike
  · exact .inl ⟨_, rfl, rfl⟩
  · exact .inr ⟨_, _, rfl, rfl, agree⟩

theorem Alike.bind_congr {ε β : Type} {step step' : Except ε Scope} (alike : Alike vars step step')
    {next : Scope → Except ε β}
    (same : ∀ {inner inner'}, AgreeOn vars inner inner' → next inner = next inner') :
    (step >>= next) = (step' >>= next) := by
  obtain ⟨e, rfl, rfl⟩ | ⟨_, _, rfl, rfl, agree⟩ := alike
  · rfl
  · exact same agree

theorem bindItem_alike (names : LoopNames) (v : Value)
    (agree : AgreeOn (vars.filter (· ∉ names.bound)) scope scope') :
    Alike vars (bindItem scope names v) (bindItem scope' names v) := by
  obtain ⟨fault, fails⟩ | ⟨bound, binds, succeeds⟩ := bindItem_cases names v
  · exact .inl ⟨fault, fails scope, fails scope'⟩
  · rw [← binds] at agree
    exact .inr ⟨_, _, succeeds scope, succeeds scope', agree.bound⟩

theorem chosenItems_congr {names : LoopNames} {condition : Expr}
    (agree : AgreeOn (condition.mentioned.filter (· ∉ names.bound)) scope scope')
    (items : List Value) :
    chosenItems scope names condition items = chosenItems scope' names condition items := by
  induction items with
  | nil => rfl
  | cons v items ih =>
    rw [chosenItems, chosenItems, ih]
    exact (bindItem_alike names v agree).bind_congr fun agree' => by rw [condition.eval_congr agree']

theorem loopItems_congr {names : LoopNames} {condition : Option Expr}
    (agree : AgreeOn ((condition.elim [] Expr.mentioned).filter (· ∉ names.bound)) scope scope')
    (source : Value) :
    loopItems scope names condition source = loopItems scope' names condition source := by
  cases condition with
  | none => rfl
  | some condition => simp only [loopItems, chosenItems_congr agree]

theorem loopScope_alike {names : LoopNames}
    (agree : AgreeOn (vars.filter (· ∉ "loop" :: names.bound)) scope scope') (items : List Value)
    (length : Option Nat) (index : Nat) (v : Value) :
    Alike vars (loopScope scope names items length index v)
      (loopScope scope' names items length index v) := by
  apply bindItem_alike
  refine AgreeOn.bound [("loop", _)] (agree.mono fun name member => ?_)
  simp only [List.mem_filter, decide_eq_true_eq] at member ⊢
  obtain ⟨⟨listed, unbound⟩, other⟩ := member
  exact ⟨listed, fun bound => (List.mem_cons.mp bound).elim (fun same => other (by simp [same])) unbound⟩

/-! ## Stencils -/

variable (escaping : Escaping)

/-- A loop renders its body for every item that it goes over. -/
theorem Segment.render_loop (scope : Scope) (line : Nat) (names : LoopNames) (source : Expr)
    (condition : Option Expr) (body whenEmpty : List Segment) :
    (Segment.loop line names source condition body whenEmpty).render escaping scope = (do
      let v ← Stencil.located line (source.eval scope)
      let visited ← Stencil.located line (loopItems scope names condition v)
      if visited.1.isEmpty then renderAll escaping scope whenEmpty
      else do
        let rounds ← visited.1.zipIdx.mapM fun item =>
          Stencil.located line (loopScope scope names visited.1 visited.2 item.2 item.1) >>=
            fun inner => renderAll escaping inner body
        return rounds.flatten) := by
  rw [Segment.render]

mutual

theorem Segment.render_congr {scope scope' : Scope} : (s : Segment) →
    (agree : AgreeOn s.free scope scope') → s.render escaping scope = s.render escaping scope'
  | .text _, _ => rfl
  | .emit line e, agree => by
    rw [Segment.render, Segment.render, e.eval_congr agree]
  | .branch line condition whenTrue whenFalse, agree => by
    simp only [Segment.free, agreeOn_append] at agree
    obtain ⟨which, first, second⟩ := agree
    rw [Segment.render, Segment.render, condition.eval_congr which, renderAll_congr whenTrue first,
      renderAll_congr whenFalse second]
  | .loop line names source condition body whenEmpty, agree => by
    simp only [Segment.free, agreeOn_append] at agree
    obtain ⟨of, chosen, inside, empty⟩ := agree
    -- What the loop binds is bound anew for every item, so that the scopes need not agree on it.
    have round (items : List Value) (length : Option Nat) (item : Value × Nat) :
        (Stencil.located line (loopScope scope names items length item.2 item.1) >>=
            fun inner => renderAll escaping inner body) =
          (Stencil.located line (loopScope scope' names items length item.2 item.1) >>=
            fun inner => renderAll escaping inner body) :=
      ((loopScope_alike inside items length item.2 item.1).located line).bind_congr
        fun agree' => renderAll_congr body agree'
    simp only [Segment.render_loop, source.eval_congr of, loopItems_congr chosen,
      renderAll_congr whenEmpty empty, round]

theorem renderAll_congr {scope scope' : Scope} : (segments : List Segment) →
    (agree : AgreeOn (freeInAll segments) scope scope') →
    renderAll escaping scope segments = renderAll escaping scope' segments
  | [], _ => rfl
  | s :: rest, agree => by
    obtain ⟨first, others⟩ := agreeOn_append.mp agree
    rw [renderAll, renderAll, s.render_congr first, renderAll_congr rest others]

end

end

end RestWiring.Stencil
