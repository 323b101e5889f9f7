import RestWiring.Proofs.Resolution.Fidelity

/-!
# What is reported about a template

Of everything that is wrong with a template one thing is reported. The declarations themselves come
first, in the order of categories and names, and each with the first of its own defects; then
references to what is not declared, in the order of the declarations and of the references in each;
cycles come last. The reports are stated on the declarations alone.
-/
namespace RestWiring

/-! ## What can be wrong with a declaration -/

/-- What is wrong with an endpoint declaration: its kind, else the first field that its kind needs and
that is not there, else its method. -/
inductive EndpointDecl.Defect (name : String) (e : EndpointDecl) : ResolutionError → Prop
  | kind (absolute : e.kind ≠ "baseurl") (relative : e.kind ≠ "relativeurl") :
    Defect name e (.unknownKind name e.kind)
  | url (kind : e.kind = "baseurl") (missing : e.url = none) : Defect name e (.missingField name "url")
  | base (kind : e.kind = "relativeurl") (missing : e.base = none) :
    Defect name e (.missingField name "base")
  | relative {base : String} (kind : e.kind = "relativeurl") (named : e.base = some base)
      (missing : e.relative = none) : Defect name e (.missingField name "relative")
  | method {shape : EndpointShape} {word : String} (shaped : e.HasShape shape)
      (written : e.method = some word) (unknown : Method.ofText? word = none) :
    Defect name e (.invalidMethod name word)

/-- What is wrong with a resolver declaration: its kind, else the first field that its kind needs and
that is not there. -/
inductive ResolverDecl.Defect (name : String) (r : ResolverDecl) : ResolutionError → Prop
  | kind (endpoint : r.kind ≠ "EndpointResolver") (database : r.kind ≠ "DatabaseResolver") :
    Defect name r (.unknownKind name r.kind)
  | endpoint (kind : r.kind = "EndpointResolver") (missing : r.endpoint = none) :
    Defect name r (.missingField name "endpoint")
  | connectionString (kind : r.kind = "DatabaseResolver") (missing : r.connectionString = none) :
    Defect name r (.missingField name "connectionstring")
  | table {connectionString : String} (kind : r.kind = "DatabaseResolver")
      (connected : r.connectionString = some connectionString) (missing : r.table = none) :
    Defect name r (.missingField name "table")

/-- What is wrong with an output declaration: its kind. -/
inductive OutputDecl.Defect (name : String) (o : OutputDecl) : ResolutionError → Prop
  | kind (unknown : OutputKind.ofText? o.kind = none) : Defect name o (.unknownKind name o.kind)

section Classification

variable {name field : String} {err : ResolutionError}

theorem requireField_error_iff {value : Option String} :
    requireField name field value = .error err ↔ value = none ∧ err = .missingField name field := by
  cases value <;> simp [requireField, eq_comm]

theorem EndpointDecl.shape_of_hasShape {e : EndpointDecl} {shape : EndpointShape}
    (shaped : e.HasShape shape) : e.shape name = .ok shape := by
  cases shape with
  | base url =>
    obtain ⟨kind, written⟩ := shaped
    simp [EndpointDecl.shape, kind, written, requireField, bind, Except.bind, pure, Except.pure]
  | relative base path params =>
    obtain ⟨kind, based, placed, rfl⟩ := shaped
    simp [EndpointDecl.shape, kind, based, placed, requireField, bind, Except.bind, pure, Except.pure]

/-- An endpoint declaration is refused for the first of its defects. -/
theorem EndpointDecl.classify_error_iff {e : EndpointDecl} :
    e.classify name = .error err ↔ e.Defect name err := by
  constructor
  · intro failed
    rcases bind_error_iff.mp failed with unshaped | ⟨shape, shaped, failed⟩
    · unfold EndpointDecl.shape at unshaped
      split at unshaped
      · rename_i kind
        rcases bind_error_iff.mp unshaped with absent | ⟨_, _, ⟨⟩⟩
        obtain ⟨missing, rfl⟩ := requireField_error_iff.mp absent
        exact .url kind missing
      · rename_i absolute
        split at unshaped
        · rename_i kind
          rcases bind_error_iff.mp unshaped with absent | ⟨base, named, unshaped⟩
          · obtain ⟨missing, rfl⟩ := requireField_error_iff.mp absent
            exact .base kind missing
          · rcases bind_error_iff.mp unshaped with absent | ⟨_, _, ⟨⟩⟩
            obtain ⟨missing, rfl⟩ := requireField_error_iff.mp absent
            exact .relative kind (requireField_success_iff.mp named) missing
        · rename_i relative
          cases unshaped
          exact .kind absolute relative
    · rcases bind_error_iff.mp failed with unread | ⟨_, _, ⟨⟩⟩
      unfold EndpointDecl.methodOf at unread
      split at unread
      · cases unread
      · rename_i written
        split at unread
        · cases unread
        · rename_i unknown
          cases unread
          exact .method (shape_success shaped) written unknown
  · intro defect
    refine bind_error_iff.mpr ?_
    cases defect with
    | kind absolute relative => exact .inl (by simp [EndpointDecl.shape, absolute, relative])
    | url kind missing =>
      exact .inl (by simp [EndpointDecl.shape, kind, missing, requireField, bind, Except.bind])
    | base kind missing =>
      exact .inl (by simp [EndpointDecl.shape, kind, missing, requireField, bind, Except.bind])
    | relative kind named missing =>
      exact .inl (by simp [EndpointDecl.shape, kind, named, missing, requireField, bind, Except.bind])
    | method shaped written unknown =>
      refine .inr ⟨_, shape_of_hasShape shaped, bind_error_iff.mpr (.inl ?_)⟩
      simp [EndpointDecl.methodOf, written, unknown]

theorem ResolverDecl.classify_error_iff {r : ResolverDecl} :
    r.classify name = .error err ↔ r.Defect name err := by
  constructor
  · intro failed
    unfold ResolverDecl.classify at failed
    split at failed
    · rename_i kind
      rcases bind_error_iff.mp failed with absent | ⟨_, _, ⟨⟩⟩
      obtain ⟨missing, rfl⟩ := requireField_error_iff.mp absent
      exact .endpoint kind missing
    · rename_i endpoint
      split at failed
      · rename_i kind
        rcases bind_error_iff.mp failed with absent | ⟨connectionString, connected, failed⟩
        · obtain ⟨missing, rfl⟩ := requireField_error_iff.mp absent
          exact .connectionString kind missing
        · rcases bind_error_iff.mp failed with absent | ⟨_, _, ⟨⟩⟩
          obtain ⟨missing, rfl⟩ := requireField_error_iff.mp absent
          exact .table kind (requireField_success_iff.mp connected) missing
      · rename_i database
        cases failed
        exact .kind endpoint database
  · intro defect
    cases defect with
    | kind endpoint database => simp [ResolverDecl.classify, endpoint, database]
    | endpoint kind missing | connectionString kind missing =>
      simp [ResolverDecl.classify, kind, missing, requireField, bind, Except.bind]
    | table kind connected missing =>
      simp [ResolverDecl.classify, kind, connected, missing, requireField, bind, Except.bind]

theorem OutputDecl.classify_error_iff {o : OutputDecl} :
    o.classify name = .error err ↔ o.Defect name err := by
  constructor
  · intro failed
    unfold OutputDecl.classify at failed
    split at failed
    · cases failed
    · rename_i unknown
      cases failed
      exact .kind unknown
  · rintro ⟨unknown⟩
    simp [OutputDecl.classify, unknown]

/-- Classification stops at the first declaration of a category that has a defect. -/
theorem classifyAll_error {α : Type} {category : Category}
    {classify : String → α → Except ResolutionError Declared} {entries : List (String × α)}
    (failed : classifyAll category classify entries = .error err) :
    ∃ before name decl after, entries = before ++ (name, decl) :: after ∧
      classify name decl = .error err ∧ ∀ x ∈ before, ∃ d, classify x.1 x.2 = .ok d := by
  induction entries with
  | nil => cases failed
  | cons entry rest ih =>
    obtain ⟨name, decl⟩ := entry
    rcases bind_error_iff.mp failed with here | ⟨d, fine, failed⟩
    · exact ⟨[], name, decl, rest, rfl, here, nofun⟩
    · rcases bind_error_iff.mp failed with later | ⟨_, _, ⟨⟩⟩
      obtain ⟨before, name', decl', after, rfl, here, earlier⟩ := ih later
      exact ⟨(name, decl) :: before, name', decl', after, rfl, here,
        List.forall_mem_cons.mpr ⟨⟨d, fine⟩, earlier⟩⟩

end Classification

/-! ## The order of declarations -/

theorem Ref.before_iff {r s : Ref} :
    Key.before r s = true ↔ r.1.rank < s.1.rank ∨ r.1 = s.1 ∧ Key.before r.2 s.2 = true := by
  obtain ⟨category, name⟩ := r
  obtain ⟨category', name'⟩ := s
  cases category <;> cases category' <;> simp [Key.before, Category.rank]

namespace Declarations

variable {c : Declarations} {declared : List (Ref × Declared)} {r s : Ref} {err : ResolutionError}

/-! ## Defects of declarations -/

/-- What is wrong with what is declared under a category and a name. Nothing can be wrong with a
parameter. -/
inductive Defect (c : Declarations) : Ref → ResolutionError → Prop
  | endpoint {name : String} {e : EndpointDecl} {err : ResolutionError}
      (declared : c.endpoints.find? name = some e) (defect : e.Defect name err) :
    Defect c (.endpoint, name) err
  | resolver {name : String} {r : ResolverDecl} {err : ResolutionError}
      (declared : c.resolvers.find? name = some r) (defect : r.Defect name err) :
    Defect c (.resolver, name) err
  | output {name : String} {o : OutputDecl} {err : ResolutionError}
      (declared : c.outputs.find? name = some o) (defect : o.Defect name err) :
    Defect c (.output, name) err

/-- Whether a declaration has a defect and no declaration before it has one. -/
structure FirstDefect (c : Declarations) (r : Ref) (err : ResolutionError) : Prop where
  defect : c.Defect r err
  first : ∀ r', Key.before r' r = true → ∀ err', ¬c.Defect r' err'

/-- Whether no declaration has a defect. -/
def Flawless (c : Declarations) : Prop := ∀ r err, ¬c.Defect r err

theorem defect_endpoint_iff {name : String} : c.Defect (.endpoint, name) err ↔
    ∃ e, c.endpoints.find? name = some e ∧ e.classify name = .error err := by
  constructor
  · rintro (⟨declared, defect⟩ | _ | _)
    exact ⟨_, declared, EndpointDecl.classify_error_iff.mpr defect⟩
  · rintro ⟨e, declared, failed⟩
    exact .endpoint declared (EndpointDecl.classify_error_iff.mp failed)

theorem defect_resolver_iff {name : String} : c.Defect (.resolver, name) err ↔
    ∃ r, c.resolvers.find? name = some r ∧ r.classify name = .error err := by
  constructor
  · rintro (_ | ⟨declared, defect⟩ | _)
    exact ⟨_, declared, ResolverDecl.classify_error_iff.mpr defect⟩
  · rintro ⟨r, declared, failed⟩
    exact .resolver declared (ResolverDecl.classify_error_iff.mp failed)

theorem defect_output_iff {name : String} : c.Defect (.output, name) err ↔
    ∃ o, c.outputs.find? name = some o ∧ o.classify name = .error err := by
  constructor
  · rintro (_ | _ | ⟨declared, defect⟩)
    exact ⟨_, declared, OutputDecl.classify_error_iff.mpr defect⟩
  · rintro ⟨o, declared, failed⟩
    exact .output declared (OutputDecl.classify_error_iff.mp failed)

section Category

variable {α : Type} {category : Category} {classify : String → α → Except ResolutionError Declared}
  {m : SortedMap String α}

/-- If the declarations of a category classify, none of them has a defect. -/
theorem not_defect_of_classifyAll
    (defect_iff : ∀ {name err}, c.Defect (category, name) err ↔
      ∃ decl, m.find? name = some decl ∧ classify name decl = .error err)
    (success : classifyAll category classify m.entries = .ok declared) (name : String) :
    ¬c.Defect (category, name) err := by
  intro defect
  obtain ⟨decl, found, failed⟩ := defect_iff.mp defect
  obtain ⟨d, -, -, fine⟩ := exists_of_mem_left (classifyAll_success_iff.mp success)
    (SortedMap.mem_entries.mpr found)
  cases fine.symm.trans failed

/-- If they do not, and the categories before have no defects, the first defect is reported. -/
theorem firstDefect_of_classifyAll
    (defect_iff : ∀ {name err}, c.Defect (category, name) err ↔
      ∃ decl, m.find? name = some decl ∧ classify name decl = .error err)
    (earlier : ∀ r, r.1.rank < category.rank → ∀ err, ¬c.Defect r err)
    (failed : classifyAll category classify m.entries = .error err) :
    ∃ r, c.FirstDefect r err := by
  obtain ⟨before, name, decl, after, split, here, fine⟩ := classifyAll_error failed
  have listed : m.find? name = some decl := SortedMap.mem_entries.mp (by simp [split])
  refine ⟨(category, name), defect_iff.mpr ⟨decl, listed, here⟩, ?_⟩
  rintro ⟨category', name'⟩ less err' defect
  rcases Ref.before_iff.mp less with lower | ⟨same, less⟩
  · exact earlier _ lower err' defect
  · cases same
    obtain ⟨decl', found, failed⟩ := defect_iff.mp defect
    have listed : (name', decl') ∈ m.entries := SortedMap.mem_entries.mpr found
    obtain ⟨d, success⟩ := fine _ (Key.mem_of_before Prod.fst (split ▸ m.ascending) (split ▸ listed) less)
    cases success.symm.trans failed

end Category

theorem flawless_of_classify (success : c.classify = .ok declared) : c.Flawless := by
  obtain ⟨endpoints, resolvers, outputs, first, second, third, -⟩ := classify_success success
  rintro ⟨_ | _ | _ | _, name⟩ err
  · exact not_defect_of_classifyAll defect_endpoint_iff first name
  · rintro ⟨⟩
  · exact not_defect_of_classifyAll defect_resolver_iff second name
  · exact not_defect_of_classifyAll defect_output_iff third name

/-- When declarations do not classify, the first defect is reported. -/
theorem firstDefect_of_classify (failed : c.classify = .error err) : ∃ r, c.FirstDefect r err := by
  rcases bind_error_iff.mp failed with failed | ⟨endpoints, first, failed⟩
  · refine firstDefect_of_classifyAll defect_endpoint_iff ?_ failed
    exact fun r lower => absurd lower (Nat.not_lt_zero _)
  rcases bind_error_iff.mp failed with failed | ⟨resolvers, second, failed⟩
  · refine firstDefect_of_classifyAll defect_resolver_iff ?_ failed
    rintro ⟨_ | _ | _ | _, name⟩ lower err
    · exact not_defect_of_classifyAll defect_endpoint_iff first name
    · rintro ⟨⟩
    · exact absurd lower (Nat.lt_irrefl _)
    · exact absurd lower (Nat.not_lt_of_lt (by simp [Category.rank]))
  rcases bind_error_iff.mp failed with failed | ⟨_, _, ⟨⟩⟩
  · refine firstDefect_of_classifyAll defect_output_iff ?_ failed
    rintro ⟨_ | _ | _ | _, name⟩ lower err
    · exact not_defect_of_classifyAll defect_endpoint_iff first name
    · rintro ⟨⟩
    · exact not_defect_of_classifyAll defect_resolver_iff second name
    · exact absurd lower (Nat.lt_irrefl _)

/-! ## References to what is not declared -/

/-- What is referred to under a category and a name, in order: by an endpoint its base, its parameters
and its outputs. -/
def references (c : Declarations) : Ref → List Ref
  | (.endpoint, name) =>
    (c.endpoints.find? name).elim [] fun e =>
      (if e.kind = "relativeurl" then
        e.base.toList.map (.endpoint, ·) ++ e.paramNames.map (.param, ·) else []) ++
      e.outputs.map (.output, ·)
  | (.param, name) => (c.params.find? name).elim [] fun p => [(.resolver, p.resolver)]
  | (.resolver, name) =>
    (c.resolvers.find? name).elim [] fun r =>
      if r.kind = "EndpointResolver" then r.endpoint.toList.map (.endpoint, ·) else []
  | (.output, _) => []

theorem mem_elim {α β : Type} {o : Option α} {f : α → List β} {b : β} :
    b ∈ o.elim [] f ↔ ∃ a, o = some a ∧ b ∈ f a := by
  cases o <;> simp

/-- The references of a template in order are its references. -/
theorem mem_references_iff : s ∈ c.references r ↔ c.Refers r s := by
  constructor
  · intro member
    obtain ⟨category, name⟩ := r
    cases category with
    | endpoint =>
      obtain ⟨e, declared, member⟩ := mem_elim.mp member
      rcases List.mem_append.mp member with member | member
      · split at member
        · rename_i kind
          rcases List.mem_append.mp member with member | member
          · obtain ⟨base, named, rfl⟩ := List.mem_map.mp member
            exact .base declared kind (Option.mem_toList.mp named)
          · obtain ⟨param, named, rfl⟩ := List.mem_map.mp member
            exact .param declared kind named
        · cases member
      · obtain ⟨output, named, rfl⟩ := List.mem_map.mp member
        exact .output declared named
    | param =>
      obtain ⟨p, declared, member⟩ := mem_elim.mp member
      rw [List.mem_singleton.mp member]
      exact .supplier declared
    | resolver =>
      obtain ⟨r, declared, member⟩ := mem_elim.mp member
      split at member
      · rename_i kind
        obtain ⟨endpoint, named, rfl⟩ := List.mem_map.mp member
        exact .source declared kind (Option.mem_toList.mp named)
      · cases member
    | output => cases member
  · intro refers
    cases refers with
    | base declared kind named => exact mem_elim.mpr ⟨_, declared, by simp [kind, named]⟩
    | param declared kind named => exact mem_elim.mpr ⟨_, declared, by simp [kind, named]⟩
    | output declared named => exact mem_elim.mpr ⟨_, declared, by simp [named]⟩
    | supplier declared => exact mem_elim.mpr ⟨_, declared, List.mem_singleton_self _⟩
    | source declared kind named => exact mem_elim.mpr ⟨_, declared, by simp [kind, named]⟩

theorem Means.references_eq {d : Declared} (means : c.Means r d) : d.references = c.references r := by
  cases means with
  | endpoint declared classified =>
    obtain ⟨method, shape, rfl, shaped, -⟩ := EndpointDecl.classify_success classified
    cases shape with
    | base => simp [Declared.references, references, declared, shaped.1]
    | relative =>
      obtain ⟨kind, named, -, rfl⟩ := shaped
      simp [Declared.references, references, declared, kind, named]
  | param declared => simp [Declared.references, references, declared]
  | resolver declared classified =>
    obtain ⟨shape, rfl, shaped⟩ := ResolverDecl.classify_success classified
    cases shape with
    | endpoint => simp [Declared.references, references, declared, shaped.1, shaped.2]
    | database => simp [Declared.references, references, declared, shaped.1]
  | output declared classified =>
    obtain ⟨kind, rfl, -⟩ := OutputDecl.classify_success classified
    rfl

/-- Whether a reference leads nowhere and no reference before it does, in the order of the declarations
and of the references in each. -/
structure FirstMissing (c : Declarations) (r s : Ref) : Prop where
  missing : ∃ before after, c.references r = before ++ s :: after ∧ ¬c.Declares s ∧
    ∀ s' ∈ before, c.Declares s'
  first : ∀ r', Key.before r' r = true → ∀ s' ∈ c.references r', c.Declares s'

/-- The check of references stops at the first that leads nowhere. -/
theorem checkReferences_error {known : List Ref}
    (failed : checkReferences known declared = .error err) :
    ∃ before r d after s, declared = before ++ (r, d) :: after ∧
      d.references.find? (!known.contains ·) = some s ∧ err = .missingReference r.2 s.2 ∧
      ∀ x ∈ before, ∀ s' ∈ x.2.references, s' ∈ known := by
  induction declared with
  | nil => cases failed
  | cons head rest ih =>
    obtain ⟨r, d⟩ := head
    rw [checkReferences] at failed
    split at failed
    · rename_i s missing
      cases failed
      exact ⟨[], r, d, rest, s, rfl, missing, rfl, List.forall_mem_nil _⟩
    · rename_i complete
      obtain ⟨before, r', d', after, s, rfl, missing, rfl, earlier⟩ := ih failed
      refine ⟨(r, d) :: before, r', d', after, s, rfl, missing, rfl,
        List.forall_mem_cons.mpr ⟨?_, earlier⟩⟩
      simpa using complete

theorem firstMissing_of_checkReferences (success : c.classify = .ok declared)
    (failed : checkReferences (declared.map (·.1)) declared = .error err) :
    ∃ r s, c.FirstMissing r s ∧ err = .missingReference r.2 s.2 := by
  obtain ⟨before, r, d, after, s, split, missing, rfl, earlier⟩ := checkReferences_error failed
  have known {s' : Ref} : s' ∈ declared.map (·.1) ↔ c.Declares s' := by
    rw [classify_refs success, mem_refs]
  have means {r' : Ref} {d' : Declared} := mem_classify_iff success (r := r') (d := d')
  refine ⟨r, s, ⟨?_, ?_⟩, rfl⟩
  · obtain ⟨absent, first, later, list, present⟩ := List.find?_eq_some_iff_append.mp missing
    have here : (r, d) ∈ declared := by simp [split]
    rw [(means.mp here).references_eq] at list
    refine ⟨first, later, list, ?_, fun s' member => ?_⟩
    · simpa [← known] using absent
    · simpa [← known] using present s' member
  · intro r' less s' member
    have declares : c.Declares r' := (mem_references_iff.mp member).declares_left
    obtain ⟨⟨r', d'⟩, listed, rfl⟩ := List.mem_map.mp (known.mpr declares)
    rw [← (means.mp listed).references_eq] at member
    have ascending : declared.Pairwise fun x y => Key.before x.1 y.1 = true := by
      rw [← List.pairwise_map (R := fun r s => Key.before r s = true), classify_refs success]
      exact c.refs_pairwise
    exact known.mp (earlier _ (Key.mem_of_before Prod.fst (split ▸ ascending) (split ▸ listed) less) s' member)

/-! ## The report -/

/-- There is one first defect. -/
theorem FirstDefect.unique {r' : Ref} {err' : ResolutionError} (first : c.FirstDefect r err)
    (first' : c.FirstDefect r' err') : r = r' ∧ err = err' := by
  obtain rfl : r = r' := Key.total
    (Bool.eq_false_iff.mpr fun before => first'.first r before err first.defect)
    (Bool.eq_false_iff.mpr fun before => first.first r' before err' first'.defect)
  refine ⟨rfl, ?_⟩
  obtain ⟨_ | _ | _ | _, name⟩ := r
  · obtain ⟨e, declared, failed⟩ := defect_endpoint_iff.mp first.defect
    obtain ⟨e', declared', failed'⟩ := defect_endpoint_iff.mp first'.defect
    cases declared.symm.trans declared'
    exact Except.error.inj (failed.symm.trans failed')
  · cases first.defect
  · obtain ⟨r, declared, failed⟩ := defect_resolver_iff.mp first.defect
    obtain ⟨r', declared', failed'⟩ := defect_resolver_iff.mp first'.defect
    cases declared.symm.trans declared'
    exact Except.error.inj (failed.symm.trans failed')
  · obtain ⟨o, declared, failed⟩ := defect_output_iff.mp first.defect
    obtain ⟨o', declared', failed'⟩ := defect_output_iff.mp first'.defect
    cases declared.symm.trans declared'
    exact Except.error.inj (failed.symm.trans failed')

/-- There is one first reference that leads nowhere. -/
theorem FirstMissing.unique {r' s' : Ref} (first : c.FirstMissing r s)
    (first' : c.FirstMissing r' s') : r = r' ∧ s = s' := by
  have missing {r s : Ref} (first : c.FirstMissing r s) : s ∈ c.references r ∧ ¬c.Declares s := by
    obtain ⟨⟨before, after, split, absent, -⟩, -⟩ := first
    exact ⟨by simp [split], absent⟩
  obtain rfl : r = r' := Key.total
    (Bool.eq_false_iff.mpr fun before => (missing first).2 (first'.first r before s (missing first).1))
    (Bool.eq_false_iff.mpr fun before => (missing first').2 (first.first r' before s' (missing first').1))
  classical
  have found {s : Ref} (first : c.FirstMissing r s) :
      (c.references r).find? (fun s => decide (¬c.Declares s)) = some s := by
    obtain ⟨⟨before, after, split, absent, present⟩, -⟩ := first
    exact List.find?_eq_some_iff_append.mpr ⟨by simpa using absent, before, after, split,
      fun s member => by simpa using present s member⟩
  exact ⟨rfl, Option.some.inj ((found first).symm.trans (found first'))⟩

/-- What resolving a template comes to: to the first defect of a declaration; if there is none, to the
first reference that leads nowhere; if there is none either, to a cycle or to what is asked for. -/
inductive Verdict (c : Declarations) {α : Type} : Except ResolutionError α → Prop
  | defect {r : Ref} {err : ResolutionError} (first : c.FirstDefect r err) : Verdict c (.error err)
  | missing {r s : Ref} (flawless : c.Flawless) (first : c.FirstMissing r s) :
    Verdict c (.error (.missingReference r.2 s.2))
  | cyclic (flawless : c.Flawless) (closed : c.Closed) (remaining : List String) :
    Verdict c (.error (.cyclicDependency remaining))
  | resolved (flawless : c.Flawless) (closed : c.Closed) (a : α) : Verdict c (.ok a)

end Declarations

theorem Template.resolve_verdict (t : Template) : t.config.Verdict t.resolve := by
  rw [resolve]
  rcases t.resolveWithPasses_cases with ⟨err, failed, outcome⟩ | ⟨declared, err, success, failed, outcome⟩ |
    ⟨declared, success, closed, settled⟩
  · obtain ⟨r, first⟩ := Declarations.firstDefect_of_classify failed
    exact outcome ▸ .defect first
  · obtain ⟨r, s, first, rfl⟩ := Declarations.firstMissing_of_checkReferences success failed
    exact outcome ▸ .missing (Declarations.flawless_of_classify success) first
  · have flawless := Declarations.flawless_of_classify success
    generalize t.resolveWithPasses = outcome at settled ⊢
    cases settled with
    | complete => exact .resolved flawless closed _
    | stuck => exact .cyclic flawless closed _

/-- An output has to be declared as one: a parameter of its name does not do. -/
example : Template.resolve {
    version := "1"
    kind := "api"
    config :=
      { endpoints := SortedMap.insert ∅ "site"
          { kind := "baseurl", url := some "http://site", outputs := ["rows"] }
        params := SortedMap.insert ∅ "rows" { resolver := "table" } } } =
    .error (.missingReference "site" "rows") := rfl

end RestWiring
