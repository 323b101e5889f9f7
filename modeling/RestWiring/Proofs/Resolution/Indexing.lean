import RestWiring.Proofs.Resolution.Precedence
import RestWiring.Resolution.Indexed

/-!
# Looking up in the maps of a resolution

While a template is resolved, every key that is looked up is there: the sweeps through maps place what
the sweeps through lists place, one declaration after another. `Tracks` ties the names in the maps to
the list of pending declarations; it holds between any two placements.
-/
namespace RestWiring

variable {c : Declarations} {declared pending kept rest block later : List (Ref × Declared)}
  {g : ResolutionGraph} {u : Unresolved} {s : SweepState} {r : Ref} {d : Declared}

theorem SortedMap.index_eq {κ α : Type} [Key κ] {m : SortedMap κ α} {k : κ} {v : α}
    (found : m.find? k = some v) : m.index k = .ok v := by
  rw [index, found]

/-! ## Checking through maps -/

namespace Declarations

theorem declares_eq_true_iff : c.declares r = true ↔ c.Declares r := by
  obtain ⟨category, name⟩ := r
  cases category <;> rfl

/-- The references of all declarations, listed in the order of the declarations. -/
def listReferences (declared : List (Ref × Declared)) : List (Ref × List Ref) :=
  declared.map fun x => (x.1, x.2.references)

theorem find?_collectReferences (distinct : (declared.map (·.1)).Nodup) (member : (r, d) ∈ declared) :
    (SortedMap.ofList (listReferences declared)).find? r = some d.references := by
  have keys : (listReferences declared).map (·.1) = declared.map (·.1) := List.map_map
  refine (SortedMap.find?_ofList (keys ▸ distinct)).mpr ?_
  exact List.mem_map_of_mem (f := fun x => (x.1, x.2.references)) member

theorem entries_collectReferences (success : c.classify = .ok declared) :
    (SortedMap.ofList (listReferences declared)).entries = listReferences declared := by
  have keys : (listReferences declared).map (·.1) = c.refs := by
    rw [← classify_refs success]
    exact List.map_map
  refine Entries.eq_of_mem_iff (SortedMap.ascending _) ?_ fun x => ?_
  · rw [Entries.Ascending, ← List.pairwise_map (R := fun r s => Key.before r s = true), keys]
    exact c.refs_pairwise
  · exact (SortedMap.entries_ofList_perm (keys ▸ c.refs_nodup)).mem_iff

/-- The check through maps is the check through lists. -/
theorem checkEntries_eq {known : List Ref} (known_iff : ∀ {s}, s ∈ known ↔ c.Declares s)
    (declared : List (Ref × Declared)) :
    c.checkEntries (listReferences declared) = checkReferences known declared := by
  have same (targets : List Ref) : (targets.find? fun target => !c.declares target) =
      targets.find? fun target => !known.contains target := by
    congr 1
    funext target
    rw [Bool.eq_iff_iff]
    simp [known_iff, ← declares_eq_true_iff]
  induction declared with
  | nil => rfl
  | cons head rest ih =>
    obtain ⟨referrer, d⟩ := head
    rw [listReferences, List.map_cons, checkEntries, checkReferences, same]
    cases d.references.find? fun target => !known.contains target with
    | some target => rfl
    | none => exact ih

theorem mem_names {category : Category} {name : String} :
    name ∈ c.names category ↔ c.Declares (category, name) := by
  cases category <;> exact SortedMap.mem_keys_iff_contains

/-- What is declared is found and classified. -/
theorem Means.lookUp_eq (means : c.Means r d) : c.lookUp r = .ok d := by
  cases means with
  | endpoint declared classified | resolver declared classified | output declared classified =>
    rw [lookUp, SortedMap.index_eq declared]
    exact congrArg (Except.mapError Halt.failed) classified
  | param declared =>
    rw [lookUp, SortedMap.index_eq declared]
    rfl

end Declarations

theorem ResolutionGraph.stores_eq_false (absent : g.node? r = none) : g.stores r = false := by
  obtain ⟨category, name⟩ := r
  cases category <;>
    exact SortedMap.contains_eq_false_iff.mpr (Option.map_eq_none_iff.mp absent)

/-! ## Names that are still to be placed -/

/-- Whether the names in the maps are those of the pending declarations. -/
def Tracks (u : Unresolved) (pending : List (Ref × Declared)) : Prop :=
  ∀ category, ∃ names, SortedMap.find? u category = some names ∧
    ∀ name, SortedMap.contains names name = true ↔ (category, name) ∈ pending.map (·.1)

theorem Tracks.start (success : c.classify = .ok declared) : Tracks c.unresolved declared := by
  intro category
  have distinct : ((Category.all.map fun category =>
      (category, SortedSet.ofList (c.names category))).map (·.1)).Nodup := by
    rw [List.map_map]
    exact (by decide : (Category.all.map id).Nodup)
  refine ⟨SortedSet.ofList (c.names category), ?_, fun name => ?_⟩
  · refine (SortedMap.find?_ofList distinct).mpr (List.mem_map_of_mem ?_)
    cases category <;> decide
  · rw [SortedSet.ofList, SortedSet.contains_foldl_add, Declarations.mem_names,
      Declarations.classify_refs success, Declarations.mem_refs]
    exact or_iff_right nofun

theorem Tracks.ready_eq (tracks : Tracks u pending) (targets : List Ref) :
    u.ready targets = .ok (targets.all fun s => !(pending.map (·.1)).contains s) := by
  induction targets with
  | nil => rfl
  | cons target rest ih =>
    obtain ⟨category, name⟩ := target
    obtain ⟨names, found, same⟩ := tracks category
    rw [Unresolved.ready, SortedMap.index_eq found, List.all_cons]
    by_cases waits : (category, name) ∈ pending.map (·.1)
    · have listed : (pending.map (·.1)).contains (category, name) = true := List.contains_iff_mem.mpr waits
      simp only [bind, Except.bind, (same name).mpr waits, listed]
      rfl
    · have absent : SortedMap.contains names name = false :=
        Bool.eq_false_iff.mpr fun contains => waits ((same name).mp contains)
      have unlisted : (pending.map (·.1)).contains (category, name) = false :=
        Bool.eq_false_iff.mpr fun contains => waits (List.contains_iff_mem.mp contains)
      simp only [bind, Except.bind, absent, unlisted]
      exact ih

/-- The names that a category still has to place are listed in the order of the pending declarations. -/
theorem Tracks.members (tracks : Tracks u pending) {category : Category}
    (ascending : block.Pairwise fun x y => Key.before x.1 y.1 = true)
    (own : ∀ x ∈ block, x.1.1 = category)
    (all : ∀ x ∈ pending, x.1.1 = category → x ∈ block) (sub : ∀ x ∈ block, x ∈ pending) :
    ∃ names, SortedMap.index u category = .ok names ∧
      (SortedSet.members names).map (category, ·) = block.map (·.1) := by
  obtain ⟨names, found, same⟩ := tracks category
  refine ⟨names, SortedMap.index_eq found, Key.eq_of_ascending id ?_ ?_ fun r => ?_⟩
  · exact Declarations.category_pairwise category (SortedMap.keys_pairwise names)
  · exact List.pairwise_map.mpr ascending
  · constructor
    · intro member
      obtain ⟨name, inside, rfl⟩ := List.mem_map.mp member
      obtain ⟨x, listed, here⟩ := List.mem_map.mp ((same name).mp (SortedSet.mem_members.mp inside))
      exact List.mem_map.mpr ⟨x, all x listed (congrArg Prod.fst here), here⟩
    · intro member
      obtain ⟨x, inside, rfl⟩ := List.mem_map.mp member
      have category_eq := own x inside
      refine List.mem_map.mpr ⟨x.1.2, SortedSet.mem_members.mpr ((same _).mpr ?_), ?_⟩
      · exact category_eq ▸ List.mem_map_of_mem (sub x inside)
      · exact category_eq ▸ rfl

/-- Placing a declaration takes its name out of the maps. -/
theorem Tracks.erase (tracks : Tracks u (kept ++ (r, d) :: rest))
    (distinct : ((kept ++ (r, d) :: rest).map (·.1)).Nodup) :
    Tracks (u.modify r.1 (SortedMap.erase · r.2)) (kept ++ rest) := by
  intro category
  obtain ⟨names, found, same⟩ := tracks category
  by_cases here : category = r.1
  · subst here
    refine ⟨SortedMap.erase names r.2, by rw [SortedMap.find?_modify_self, found]; rfl, fun name => ?_⟩
    rw [SortedMap.contains_erase, same, mem_refs_without distinct, and_comm, ne_eq, ne_eq]
    refine and_congr_right fun _ => not_congr ⟨?_, ?_⟩
    · rintro rfl
      rfl
    · exact congrArg Prod.snd
  · refine ⟨names, by rw [SortedMap.find?_modify_of_ne _ _ here, found], fun name => ?_⟩
    rw [same, mem_refs_without distinct]
    refine (and_iff_left ?_).symm
    exact fun equal => here (congrArg Prod.fst equal)

/-! ## Sweeping through maps -/

section Sweeps

/-- What a sweep under way has to do with the list of pending declarations. -/
structure InStep (declared pending : List (Ref × Declared)) (s : SweepState) : Prop where
  progress : Progress declared pending s.graph
  tracks : Tracks s.unresolved pending

/-- A pending declaration is looked up, and it is placed if it is ready and passed over if it is
not. -/
theorem InStep.visit (success : c.classify = .ok declared) (closed : c.Closed)
    (inStep : InStep declared (kept ++ (r, d) :: rest) s) :
    (d.ready ((kept ++ (r, d) :: rest).map (·.1)) = false ∧
      visitIndexed c (.ofList (Declarations.listReferences declared)) s r = .ok s) ∨
    ∃ s', d.ready ((kept ++ (r, d) :: rest).map (·.1)) = true ∧
      s.graph.placeDeclared r.2 d = .ok s'.graph ∧ InStep declared (kept ++ rest) s' ∧
      s'.placed = s.placed + 1 ∧
      visitIndexed c (.ofList (Declarations.listReferences declared)) s r = .ok s' := by
  obtain ⟨progress, tracks⟩ := inStep
  have referable := Declarations.referable_of_closed success closed
  have member : (r, d) ∈ declared := progress.sublist.subset (by simp)
  have pending : r ∈ (kept ++ (r, d) :: rest).map (·.1) := by simp
  have distinct := referable.distinct.sublist (progress.sublist.map (·.1))
  have looked : SortedMap.index (.ofList (Declarations.listReferences declared)) r =
      .ok d.references :=
    SortedMap.index_eq (Declarations.find?_collectReferences referable.distinct member)
  have asked : s.unresolved.ready d.references =
      .ok (d.ready ((kept ++ (r, d) :: rest).map (·.1))) := tracks.ready_eq d.references
  cases ready : d.ready ((kept ++ (r, d) :: rest).map (·.1)) with
  | false =>
    refine .inl ⟨rfl, ?_⟩
    simp only [visitIndexed, looked, asked, ready, bind, Except.bind]
    rfl
  | true =>
    obtain ⟨g', placed, progress'⟩ := progress.place referable ready
    have absent : s.graph.node? r = none := by
      by_contra stored
      exact (progress.stored_iff (List.mem_map_of_mem member)).mp
        (Option.ne_none_iff_exists'.mp stored) pending
    have means := (Declarations.mem_classify_iff success).mp member
    have built : placeIndexed c s.graph r = .ok g' := by
      simp only [placeIndexed, ResolutionGraph.stores_eq_false absent, means.lookUp_eq, placed, bind,
        Except.bind]
      rfl
    refine .inr ⟨⟨_, g', s.placed + 1⟩, rfl, placed, ⟨progress', tracks.erase distinct⟩, rfl, ?_⟩
    simp only [visitIndexed, looked, asked, ready, built, bind, Except.bind]
    rfl

/-- The visits of consecutive declarations do what the sweep does with them. -/
theorem InStep.visitAll (success : c.classify = .ok declared) (closed : c.Closed)
    (inStep : InStep declared (kept ++ (block ++ later)) s) :
    ∃ kept' s', visitAllIndexed c (.ofList (Declarations.listReferences declared)) s
        (block.map (·.1)) = .ok s' ∧
      sweep kept (block ++ later) s.graph = sweep kept' later s'.graph ∧
      InStep declared (kept' ++ later) s' ∧ (∀ x ∈ kept', x ∈ kept ∨ x ∈ block) ∧
      s'.placed + kept'.length = s.placed + kept.length + block.length := by
  induction block generalizing kept s with
  | nil => exact ⟨kept, s, rfl, rfl, inStep, fun _ => .inl, rfl⟩
  | cons head block ih =>
    obtain ⟨r, d⟩ := head
    rw [List.cons_append] at inStep
    rw [List.map_cons, visitAllIndexed, List.cons_append, sweep]
    rcases inStep.visit success closed with ⟨waits, visited⟩ |
      ⟨s₁, ready, placed, inStep₁, count, visited⟩
    · have inStep₁ : InStep declared ((kept ++ [(r, d)]) ++ (block ++ later)) s := by
        simpa using inStep
      obtain ⟨kept', s', others, swept, inStep', sub, count⟩ := ih inStep₁
      refine ⟨kept', s', ?_, ?_, inStep', fun x member => ?_, ?_⟩
      · rw [visited]
        exact others
      · rw [if_neg (by rw [waits]; exact Bool.false_ne_true), swept]
      · rcases sub x member with before | inside
        · rcases List.mem_append.mp before with before | here
          · exact .inl before
          · exact .inr (List.mem_singleton.mp here ▸ List.mem_cons_self)
        · exact .inr (List.mem_cons_of_mem _ inside)
      · simp only [List.length_append, List.length_cons, List.length_nil] at count ⊢
        omega
    · obtain ⟨kept', s', others, swept, inStep', sub, count'⟩ := ih inStep₁
      refine ⟨kept', s', ?_, ?_, inStep', fun x member => ?_, ?_⟩
      · rw [visited]
        exact others
      · rw [if_pos ready, placed]
        exact swept
      · exact (sub x member).imp_right (List.mem_cons_of_mem _)
      · simp only [List.length_cons]
        omega

theorem Progress.ascending (success : c.classify = .ok declared)
    (progress : Progress declared pending g) :
    pending.Pairwise fun x y => Key.before x.1 y.1 = true := by
  refine List.Pairwise.sublist progress.sublist ?_
  rw [← List.pairwise_map (R := fun r s => Key.before r s = true), Declarations.classify_refs success]
  exact c.refs_pairwise

/-- The turns of the categories, each with the pending declarations of its own, do what the sweep
does. -/
theorem InStep.sweep (success : c.classify = .ok declared) (closed : c.Closed)
    {categories : List Category} {blocks : List (List (Ref × Declared))}
    (own : List.Forall₂ (fun category block => ∀ x ∈ block, x.1.1 = category) categories blocks)
    (distinct : categories.Nodup) (past : ∀ x ∈ kept, x.1.1 ∉ categories)
    (inStep : InStep declared (kept ++ blocks.flatten) s) :
    ∃ left s', sweepIndexed c (.ofList (Declarations.listReferences declared)) s categories = .ok s' ∧
      RestWiring.sweep kept blocks.flatten s.graph = .ok (left, s'.graph) ∧
      InStep declared left s' ∧
      s'.placed + left.length = s.placed + kept.length + blocks.flatten.length := by
  induction own generalizing kept s with
  | nil => exact ⟨kept, s, rfl, rfl, by simpa using inStep, rfl⟩
  | @cons category block categories blocks here others ih =>
    obtain ⟨new, distinct⟩ := List.nodup_cons.mp distinct
    rw [List.flatten_cons] at inStep ⊢
    have ascending : block.Pairwise fun x y => Key.before x.1 y.1 = true :=
      (List.pairwise_append.mp (List.pairwise_append.mp
        (inStep.progress.ascending success)).2.1).1
    have all : ∀ x ∈ kept ++ (block ++ blocks.flatten), x.1.1 = category → x ∈ block := by
      intro x member category_eq
      rcases List.mem_append.mp member with before | member
      · exact absurd (category_eq ▸ List.mem_cons_self) (past x before)
      · rcases List.mem_append.mp member with inside | after
        · exact inside
        · obtain ⟨block', listed, inside⟩ := List.mem_flatten.mp after
          obtain ⟨category', later, own⟩ := exists_of_mem_right others listed
          exact absurd (category_eq ▸ (own x inside).symm ▸ later) new
    obtain ⟨names, found, members⟩ := inStep.tracks.members ascending here all fun x inside =>
      List.mem_append_right _ (List.mem_append_left _ inside)
    obtain ⟨kept', s₁, visited, swept, inStep₁, sub, count⟩ := inStep.visitAll success closed
    have past' : ∀ x ∈ kept', x.1.1 ∉ categories := by
      intro x member
      rcases sub x member with before | inside
      · exact fun later => past x before (List.mem_cons_of_mem _ later)
      · exact here x inside ▸ new
    obtain ⟨left, s', turns, rest, inStep', count'⟩ := ih distinct past' inStep₁
    refine ⟨left, s', ?_, swept.trans rest, inStep', ?_⟩
    · rw [sweepIndexed, found]
      simp only [bind, Except.bind, members, visited]
      exact turns
    · rw [List.length_append]
      omega

/-- What is pending, category by category. -/
theorem flatten_categories (ascending : pending.Pairwise fun x y => Key.before x.1 y.1 = true) :
    (Category.all.map fun category => pending.filter (·.1.1 = category)).flatten = pending := by
  refine Key.eq_of_ascending Prod.fst ?_ ascending fun x => ?_
  · refine List.pairwise_flatten.mpr ⟨?_, ?_⟩
    · intro block listed
      obtain ⟨category, -, rfl⟩ := List.mem_map.mp listed
      exact ascending.filter _
    · refine List.pairwise_map.mpr (List.Pairwise.imp ?_ (by decide :
        Category.all.Pairwise fun a b => a.rank < b.rank))
      intro a b less x inside y inside'
      refine Ref.before_iff.mpr (.inl ?_)
      obtain rfl : x.1.1 = a := by simpa using (List.mem_filter.mp inside).2
      obtain rfl : y.1.1 = b := by simpa using (List.mem_filter.mp inside').2
      exact less
  · constructor
    · intro member
      obtain ⟨block, listed, inside⟩ := List.mem_flatten.mp member
      obtain ⟨category, -, rfl⟩ := List.mem_map.mp listed
      exact (List.mem_filter.mp inside).1
    · intro member
      refine List.mem_flatten.mpr ⟨_, List.mem_map_of_mem (a := x.1.1) ?_, ?_⟩
      · cases x.1.1 <;> decide
      · exact List.mem_filter.mpr ⟨member, by simp⟩

/-- The names that are left in the maps are listed in the order of the pending declarations. -/
theorem Tracks.remaining_eq (tracks : Tracks u pending)
    (ascending : pending.Pairwise fun x y => Key.before x.1 y.1 = true) :
    u.remaining = pending.map (·.1) := by
  refine Key.eq_of_ascending id ?_ (List.pairwise_map.mpr ascending) fun r => ?_
  · refine List.pairwise_flatMap.mpr ⟨fun x _ => ?_, ?_⟩
    · exact Declarations.category_pairwise x.1 (SortedMap.keys_pairwise x.2)
    · refine u.ascending.imp fun {x y} before r inside r' inside' => ?_
      obtain ⟨name, -, rfl⟩ := List.mem_map.mp inside
      obtain ⟨name', -, rfl⟩ := List.mem_map.mp inside'
      exact Ref.before_iff.mpr (.inl (by simpa [Key.before] using before))
  · obtain ⟨category, name⟩ := r
    obtain ⟨names, found, same⟩ := tracks category
    rw [Unresolved.remaining, List.mem_flatMap]
    constructor
    · rintro ⟨⟨category', names'⟩, listed, inside⟩
      obtain ⟨name', member, equal⟩ := List.mem_map.mp inside
      cases equal
      cases found.symm.trans (SortedMap.mem_entries.mp listed)
      exact (same name).mp (SortedSet.mem_members.mp member)
    · intro member
      exact ⟨(category, names), SortedMap.mem_entries.mpr found,
        List.mem_map_of_mem (SortedSet.mem_members.mpr ((same name).mpr member))⟩

/-- Nothing is left in the maps exactly when nothing is pending. -/
theorem Tracks.all_isEmpty (tracks : Tracks u pending)
    (ascending : pending.Pairwise fun x y => Key.before x.1 y.1 = true) :
    u.values.all SortedMap.isEmpty = pending.isEmpty := by
  have none_left : u.remaining = [] ↔ pending = [] := by
    rw [tracks.remaining_eq ascending, List.map_eq_nil_iff]
  rw [Bool.eq_iff_iff, List.all_eq_true, List.isEmpty_iff, ← none_left, Unresolved.remaining,
    List.flatMap_eq_nil_iff]
  simp only [SortedMap.values, SortedMap.isEmpty, SortedSet.members, SortedMap.keys, List.forall_mem_map,
    List.isEmpty_iff, List.map_eq_nil_iff]

/-- The sweeps through maps come to what the sweeps through lists come to. -/
theorem InStep.settle (success : c.classify = .ok declared) (closed : c.Closed) {fuel : Nat}
    (inStep : InStep declared pending ⟨u, g, 0⟩) (enough : pending.length < fuel) (passes : Nat) :
    settleIndexed c (.ofList (Declarations.listReferences declared)) fuel u g passes =
      (RestWiring.settle pending g passes).mapError .failed := by
  induction fuel generalizing pending u g passes with
  | zero => exact absurd enough (Nat.not_lt_zero _)
  | succ fuel ih =>
    have ascending := inStep.progress.ascending success
    rw [settleIndexed, RestWiring.settle, inStep.tracks.all_isEmpty ascending]
    split
    · rfl
    · have own : List.Forall₂ (fun category block => ∀ x ∈ block, x.1.1 = category) Category.all
          (Category.all.map fun category => pending.filter (·.1.1 = category)) := by
        refine List.forall₂_map_right_iff.mpr (List.forall₂_same.mpr fun category _ x inside => ?_)
        simpa using (List.mem_filter.mp inside).2
      have blocks := flatten_categories ascending
      have inStep : InStep declared ([] ++ (Category.all.map fun category =>
          pending.filter (·.1.1 = category)).flatten) ⟨u, g, 0⟩ := blocks.symm ▸ inStep
      obtain ⟨left, s', turns, swept, inStep', count⟩ :=
        inStep.sweep success closed own (by decide) (List.forall_mem_nil _)
      rw [blocks] at swept count
      rw [swept]
      simp only [turns, bind, Except.bind]
      simp only [List.length_nil, Nat.add_zero, Nat.zero_add] at count
      by_cases idle : s'.placed = 0
      · rw [if_pos idle, if_neg (by omega), inStep'.tracks.remaining_eq
          (inStep'.progress.ascending success), List.map_map]
        rfl
      · rw [if_neg idle, if_pos (by omega)]
        exact ih ⟨inStep'.progress, inStep'.tracks⟩ (by omega) (passes + 1)

end Sweeps

namespace Template

/-- There are as many declarations as the template counts. -/
theorem length_classify {t : Template} (success : t.config.classify = .ok declared) :
    declared.length = t.declarationCount := by
  have length := congrArg List.length (Declarations.classify_refs success)
  simpa [Declarations.refs, declarationCount, SortedMap.keys, SortedMap.size, Nat.add_assoc] using length

theorem resolveIndexed_eq (t : Template) : t.resolveIndexed = t.resolveWithPasses.mapError .failed := by
  cases success : t.config.classify with
  | error e => simp only [resolveIndexed, resolveWithPasses, Declarations.collectReferences, success,
      bind, Except.bind, Except.mapError]
  | ok declared =>
    have known {s : Ref} : s ∈ declared.map (·.1) ↔ t.config.Declares s := by
      rw [Declarations.classify_refs success, Declarations.mem_refs]
    have collected : t.config.collectReferences =
        .ok (.ofList (Declarations.listReferences declared)) := by
      rw [Declarations.collectReferences, success]
      rfl
    have checks : t.config.checkEntries
        (SortedMap.ofList (Declarations.listReferences declared)).entries =
          checkReferences (declared.map (·.1)) declared := by
      rw [Declarations.entries_collectReferences success, Declarations.checkEntries_eq known]
    rw [resolveIndexed, collected, resolveWithPasses, success]
    simp only [bind, Except.bind, Except.mapError, checks]
    cases checked : checkReferences (declared.map (·.1)) declared with
    | error e => rfl
    | ok =>
      have closed : t.config.Closed := (Declarations.checkReferences_iff_closed success).mp checked
      have inStep : InStep declared declared ⟨t.config.unresolved, {}, 0⟩ :=
        ⟨.start, .start success⟩
      exact inStep.settle success closed (by rw [length_classify success]; exact Nat.lt_succ_self _) 0

/-- What resolving a template comes to is determined by its declarations: the first defect of a
declaration, else the first reference that leads nowhere, else a cycle or a graph. No key is looked up
on the way that is not there. -/
theorem resolve_reports (t : Template) :
    t.config.Verdict t.resolve ∧ t.resolveIndexed = t.resolveWithPasses.mapError .failed :=
  ⟨t.resolve_verdict, t.resolveIndexed_eq⟩

end Template

end RestWiring
