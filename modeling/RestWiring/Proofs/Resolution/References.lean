import RestWiring.Proofs.Fallible
import RestWiring.Proofs.SortedMap
import RestWiring.Resolution.Reference

/-!
# References between declarations

Which declarations refer to which is stated here on the declarations of a template alone, apart from
the classification that resolution works with. Classified declarations are then shown to be the
declarations of the template, in order, with exactly these references.
-/
namespace RestWiring

namespace Declarations

/-- Whether something is declared under a category and a name. -/
def Declares (c : Declarations) : Ref → Prop
  | (.endpoint, name) => c.endpoints.contains name = true
  | (.param, name) => c.params.contains name = true
  | (.resolver, name) => c.resolvers.contains name = true
  | (.output, name) => c.outputs.contains name = true

/-- A relative endpoint refers to its base and its parameters, every endpoint to its outputs, a
parameter to its resolver, and a resolver that reads an endpoint to that endpoint. -/
inductive Refers (c : Declarations) : Ref → Ref → Prop
  | base {name base : String} {e : EndpointDecl} (declared : c.endpoints.find? name = some e)
      (relative : e.kind = "relativeurl") (named : e.base = some base) :
      Refers c (.endpoint, name) (.endpoint, base)
  | param {name param : String} {e : EndpointDecl} (declared : c.endpoints.find? name = some e)
      (relative : e.kind = "relativeurl") (named : param ∈ e.paramNames) :
      Refers c (.endpoint, name) (.param, param)
  | output {name output : String} {e : EndpointDecl} (declared : c.endpoints.find? name = some e)
      (named : output ∈ e.outputs) : Refers c (.endpoint, name) (.output, output)
  | supplier {name : String} {p : ParamDecl} (declared : c.params.find? name = some p) :
      Refers c (.param, name) (.resolver, p.resolver)
  | source {name endpoint : String} {r : ResolverDecl} (declared : c.resolvers.find? name = some r)
      (reads : r.kind = "EndpointResolver") (named : r.endpoint = some endpoint) :
      Refers c (.resolver, name) (.endpoint, endpoint)

/-- Only what is declared refers to something. -/
theorem Refers.declares_left {c : Declarations} {r s : Ref} (refers : c.Refers r s) :
    c.Declares r := by
  cases refers <;> exact SortedMap.contains_iff.mpr ⟨_, ‹_›⟩

/-- Every declaration has a kind that is known and the fields that its kind needs. -/
structure Classifies (c : Declarations) : Prop where
  endpoints : ∀ {name e}, c.endpoints.find? name = some e → ∃ d, e.classify name = .ok d
  resolvers : ∀ {name r}, c.resolvers.find? name = some r → ∃ d, r.classify name = .ok d
  outputs : ∀ {name o}, c.outputs.find? name = some o → ∃ d, o.classify name = .ok d

/-- Every name that is referred to is declared. -/
def Closed (c : Declarations) : Prop := ∀ {r s}, c.Refers r s → c.Declares s

/-- What a declaration of the template is classified as. -/
inductive Means (c : Declarations) : Ref → Declared → Prop
  | endpoint {name : String} {e : EndpointDecl} {d : Declared}
    (declared : c.endpoints.find? name = some e)
      (classified : e.classify name = .ok d) : Means c (.endpoint, name) d
  | param {name : String} {p : ParamDecl} (declared : c.params.find? name = some p) :
      Means c (.param, name) (.param p)
  | resolver {name : String} {r : ResolverDecl} {d : Declared}
    (declared : c.resolvers.find? name = some r)
      (classified : r.classify name = .ok d) : Means c (.resolver, name) d
  | output {name : String} {o : OutputDecl} {d : Declared}
    (declared : c.outputs.find? name = some o)
      (classified : o.classify name = .ok d) : Means c (.output, name) d

end Declarations

/-! ## Classification of one declaration -/

theorem requireField_success_iff {name field v : String} {value : Option String} :
    requireField name field value = .ok v ↔ value = some v := by
  cases value <;> simp [requireField]

/-- What a declaration says about where its endpoint is reached. -/
def EndpointDecl.HasShape (e : EndpointDecl) : EndpointShape → Prop
  | .base url => e.kind = "baseurl" ∧ e.url = some url
  | .relative base path params =>
    e.kind = "relativeurl" ∧ e.base = some base ∧ e.relative = some path ∧ params = e.paramNames

theorem EndpointDecl.shape_success {name : String} {e : EndpointDecl} {shape : EndpointShape}
    (success : e.shape name = .ok shape) : e.HasShape shape := by
  unfold EndpointDecl.shape at success
  split at success
  · rename_i kind
    obtain ⟨url, field, equal⟩ := bind_success_iff.mp success
    cases equal
    exact ⟨kind, requireField_success_iff.mp field⟩
  · split at success
    · rename_i kind
      obtain ⟨base, baseField, success⟩ := bind_success_iff.mp success
      obtain ⟨path, pathField, equal⟩ := bind_success_iff.mp success
      cases equal
      exact ⟨kind, requireField_success_iff.mp baseField, requireField_success_iff.mp pathField,
        rfl⟩
    · cases success

theorem EndpointDecl.classify_success {name : String} {e : EndpointDecl} {d : Declared}
    (success : e.classify name = .ok d) :
    ∃ method shape, d = .endpoint e method shape ∧ e.HasShape shape ∧
      e.methodOf name = .ok method := by
  obtain ⟨shape, shaped, success⟩ := bind_success_iff.mp success
  obtain ⟨method, read, equal⟩ := bind_success_iff.mp success
  cases equal
  exact ⟨method, shape, rfl, shape_success shaped, read⟩

/-- What a declaration says about where its resolver reads. -/
def ResolverDecl.HasShape (r : ResolverDecl) : ResolverShape → Prop
  | .endpoint endpoint => r.kind = "EndpointResolver" ∧ r.endpoint = some endpoint
  | .database connectionString table =>
    r.kind = "DatabaseResolver" ∧ r.connectionString = some connectionString ∧ r.table = some table

theorem ResolverDecl.classify_success {name : String} {r : ResolverDecl} {d : Declared}
    (success : r.classify name = .ok d) : ∃ shape, d = .resolver r shape ∧ r.HasShape shape := by
  unfold ResolverDecl.classify at success
  split at success
  · rename_i kind
    obtain ⟨endpoint, field, equal⟩ := bind_success_iff.mp success
    cases equal
    exact ⟨_, rfl, kind, requireField_success_iff.mp field⟩
  · split at success
    · rename_i kind
      obtain ⟨connectionString, connectionField, success⟩ := bind_success_iff.mp success
      obtain ⟨table, tableField, equal⟩ := bind_success_iff.mp success
      cases equal
      exact ⟨_, rfl, kind, requireField_success_iff.mp connectionField,
        requireField_success_iff.mp tableField⟩
    · cases success

theorem OutputDecl.classify_success {name : String} {o : OutputDecl} {d : Declared}
    (success : o.classify name = .ok d) :
    ∃ kind, d = .output o kind ∧ OutputKind.ofText? o.kind = some kind := by
  unfold OutputDecl.classify at success
  split at success
  · rename_i kind known
    cases success
    exact ⟨kind, rfl, known⟩
  · cases success

def Declared.category : Declared → Category
  | .endpoint .. => .endpoint
  | .param _ => .param
  | .resolver .. => .resolver
  | .output .. => .output

namespace Declarations.Means

variable {c : Declarations} {r s : Ref} {d : Declared}

theorem category_eq (means : c.Means r d) : d.category = r.1 := by
  cases means with
  | endpoint declared classified =>
    obtain ⟨_, _, rfl, _⟩ := EndpointDecl.classify_success classified
    rfl
  | param declared => rfl
  | resolver declared classified =>
    obtain ⟨_, rfl, _⟩ := ResolverDecl.classify_success classified
    rfl
  | output declared classified =>
    obtain ⟨_, rfl, _⟩ := OutputDecl.classify_success classified
    rfl

theorem declares (means : c.Means r d) : c.Declares r := by
  cases means <;> exact SortedMap.contains_iff.mpr ⟨_, ‹_›⟩

theorem endpoint_references {name : String} {e : EndpointDecl} {method : Method}
    {shape : EndpointShape}
    (declared : c.endpoints.find? name = some e) (shaped : e.HasShape shape) :
    s ∈ (Declared.endpoint e method shape).references ↔ c.Refers (.endpoint, name) s := by
  constructor
  · intro member
    cases shape with
    | base url =>
      obtain ⟨output, named, rfl⟩ := List.mem_map.mp member
      exact .output declared named
    | relative base path params =>
      obtain ⟨kind, named, -, rfl⟩ := shaped
      rcases List.mem_cons.mp member with rfl | member
      · exact .base declared kind named
      · rcases List.mem_append.mp member with member | member
        · obtain ⟨param, used, rfl⟩ := List.mem_map.mp member
          exact .param declared kind used
        · obtain ⟨output, used, rfl⟩ := List.mem_map.mp member
          exact .output declared used
  · intro refers
    have same {e' : EndpointDecl} (declared' : c.endpoints.find? name = some e') : e' = e :=
      Option.some.inj (declared'.symm.trans declared)
    cases shape with
    | base url =>
      cases refers with
      | base declared' relative named => simp [same declared', shaped.1] at relative
      | param declared' relative named => simp [same declared', shaped.1] at relative
      | output declared' named => exact List.mem_map_of_mem (same declared' ▸ named)
    | relative base path params =>
      obtain ⟨-, baseNamed, -, rfl⟩ := shaped
      cases refers with
      | base declared' relative named =>
        rw [same declared', baseNamed] at named
        cases named
        exact List.mem_cons_self
      | param declared' relative named =>
        rw [same declared'] at named
        exact List.mem_cons_of_mem _ (List.mem_append_left _ (List.mem_map_of_mem named))
      | output declared' named =>
        rw [same declared'] at named
        exact List.mem_cons_of_mem _ (List.mem_append_right _ (List.mem_map_of_mem named))

theorem resolver_references {name : String} {r : ResolverDecl} {shape : ResolverShape}
    (declared : c.resolvers.find? name = some r) (shaped : r.HasShape shape) :
    s ∈ (Declared.resolver r shape).references ↔ c.Refers (.resolver, name) s := by
  cases shape with
  | endpoint endpoint =>
    constructor
    · intro member
      rw [List.mem_singleton.mp member]
      exact .source declared shaped.1 shaped.2
    · intro refers
      cases refers with
      | source declared' reads named =>
        rw [declared] at declared'
        cases declared'
        rw [shaped.2] at named
        cases named
        exact List.mem_singleton_self _
  | database connectionString table =>
    constructor
    · rintro ⟨⟩
    · intro refers
      cases refers with
      | source declared' reads named =>
        rw [declared] at declared'
        cases declared'
        simp [shaped.1] at reads

/-- The references of a classified declaration are those of the declaration itself. -/
theorem mem_references_iff (means : c.Means r d) : s ∈ d.references ↔ c.Refers r s := by
  cases means with
  | endpoint declared classified =>
    obtain ⟨method, shape, rfl, shaped, -⟩ := EndpointDecl.classify_success classified
    exact endpoint_references declared shaped
  | param declared =>
    constructor
    · intro member
      rw [List.mem_singleton.mp member]
      exact .supplier declared
    · intro refers
      cases refers with
      | supplier declared' =>
        rw [declared] at declared'
        cases declared'
        exact List.mem_singleton_self _
  | resolver declared classified =>
    obtain ⟨shape, rfl, shaped⟩ := ResolverDecl.classify_success classified
    exact resolver_references declared shaped
  | output declared classified =>
    obtain ⟨kind, rfl, -⟩ := OutputDecl.classify_success classified
    constructor <;> rintro ⟨⟩

end Declarations.Means

/-! ## Classification of all declarations -/

theorem classifyAll_success_iff {α : Type} {category : Category}
    {classify : String → α → Except ResolutionError Declared} {entries : List (String × α)}
    {declared : List (Ref × Declared)} :
    classifyAll category classify entries = .ok declared ↔
      List.Forall₂ (fun entry d => d.1 = (category, entry.1) ∧ classify entry.1 entry.2 = .ok d.2)
        entries declared := by
  induction entries generalizing declared with
  | nil =>
    rw [List.forall₂_nil_left_iff]
    exact ⟨fun equal => (Except.ok.inj equal).symm, fun equal => equal ▸ rfl⟩
  | cons entry rest ih =>
    obtain ⟨name, decl⟩ := entry
    rw [classifyAll, bind_success_iff, List.forall₂_cons_left_iff]
    constructor
    · rintro ⟨d, first, others⟩
      obtain ⟨ds, success, equal⟩ := bind_success_iff.mp others
      exact ⟨((category, name), d), ds, ⟨rfl, first⟩, ih.mp success, (Except.ok.inj equal).symm⟩
    · rintro ⟨⟨ref, d⟩, ds, ⟨rfl, first⟩, related, rfl⟩
      exact ⟨d, first, bind_success_iff.mpr ⟨ds, ih.mpr related, rfl⟩⟩

theorem classifyAll_succeeds {α : Type} {category : Category}
    {classify : String → α → Except ResolutionError Declared} {entries : List (String × α)}
    (each : ∀ name decl, (name, decl) ∈ entries → ∃ d, classify name decl = .ok d) :
    ∃ declared, classifyAll category classify entries = .ok declared := by
  induction entries with
  | nil => exact ⟨[], rfl⟩
  | cons entry rest ih =>
    obtain ⟨d, first⟩ := each entry.1 entry.2 List.mem_cons_self
    obtain ⟨ds, others⟩ := ih fun name decl member => each name decl (List.mem_cons_of_mem _ member)
    refine ⟨((category, entry.1), d) :: ds, classifyAll_success_iff.mpr (.cons ⟨rfl, first⟩ ?_)⟩
    exact classifyAll_success_iff.mp others

theorem classifyAll_mem_iff {α : Type} {category : Category}
    {classify : String → α → Except ResolutionError Declared} {entries : List (String × α)}
    {declared : List (Ref × Declared)}
    (success : classifyAll category classify entries = .ok declared) {r : Ref} {d : Declared} :
    (r, d) ∈ declared ↔
      ∃ name decl, r = (category, name) ∧ (name, decl) ∈ entries ∧ classify name decl = .ok d := by
  have related := classifyAll_success_iff.mp success
  clear success
  induction related with
  | nil => simp
  | @cons entry head rest tail first _ ih =>
    obtain ⟨name, decl⟩ := entry
    obtain ⟨ref, meaning⟩ := head
    obtain ⟨equal, classified⟩ := first
    constructor
    · intro member
      rcases List.mem_cons.mp member with same | later
      · cases same
        exact ⟨name, decl, equal, List.mem_cons_self, classified⟩
      · obtain ⟨name', decl', place, member, success⟩ := ih.mp later
        exact ⟨name', decl', place, List.mem_cons_of_mem _ member, success⟩
    · rintro ⟨name', decl', rfl, member, success⟩
      rcases List.mem_cons.mp member with same | member
      · cases same
        have meanings : Except.ok meaning = Except.ok d := classified.symm.trans success
        cases meanings
        cases equal
        exact List.mem_cons_self
      · exact List.mem_cons_of_mem _ (ih.mpr ⟨name', decl', rfl, member, success⟩)

theorem classifyAll_refs {α : Type} {category : Category}
    {classify : String → α → Except ResolutionError Declared} {entries : List (String × α)}
    {declared : List (Ref × Declared)}
    (success : classifyAll category classify entries = .ok declared) :
    declared.map (·.1) = entries.map fun entry => (category, entry.1) := by
  have related := classifyAll_success_iff.mp success
  clear success
  induction related with
  | nil => rfl
  | cons first _ ih => rw [List.map_cons, List.map_cons, ih, first.1]

namespace Declarations

variable {c : Declarations} {declared : List (Ref × Declared)}

/-- The parts that a classification is put together from. -/
theorem classify_success (success : c.classify = .ok declared) :
    ∃ endpoints resolvers outputs,
      classifyAll .endpoint EndpointDecl.classify c.endpoints.entries = .ok endpoints ∧
      classifyAll .resolver ResolverDecl.classify c.resolvers.entries = .ok resolvers ∧
      classifyAll .output OutputDecl.classify c.outputs.entries = .ok outputs ∧
      declared = endpoints ++ (c.params.entries.map fun entry =>
        ((Category.param, entry.1), Declared.param entry.2)) ++ resolvers ++ outputs := by
  obtain ⟨endpoints, first, success⟩ := bind_success_iff.mp success
  obtain ⟨resolvers, second, success⟩ := bind_success_iff.mp success
  obtain ⟨outputs, third, equal⟩ := bind_success_iff.mp success
  cases equal
  exact ⟨endpoints, resolvers, outputs, first, second, third, rfl⟩

theorem Classifies.classify_succeeds (classifies : c.Classifies) :
    ∃ declared, c.classify = .ok declared := by
  have endpoints : ∃ ds, classifyAll .endpoint EndpointDecl.classify c.endpoints.entries = .ok ds :=
    classifyAll_succeeds fun name e member => classifies.endpoints (SortedMap.mem_entries.mp member)
  have resolvers : ∃ ds, classifyAll .resolver ResolverDecl.classify c.resolvers.entries = .ok ds :=
    classifyAll_succeeds fun name r member => classifies.resolvers (SortedMap.mem_entries.mp member)
  have outputs : ∃ ds, classifyAll .output OutputDecl.classify c.outputs.entries = .ok ds :=
    classifyAll_succeeds fun name o member => classifies.outputs (SortedMap.mem_entries.mp member)
  obtain ⟨endpoints, first⟩ := endpoints
  obtain ⟨resolvers, second⟩ := resolvers
  obtain ⟨outputs, third⟩ := outputs
  simp [Declarations.classify, first, second, third, bind, Except.bind, pure, Except.pure]

/-- Classification lists exactly the declarations of the template with what they mean. -/
theorem mem_classify_iff (success : c.classify = .ok declared) {r : Ref} {d : Declared} :
    (r, d) ∈ declared ↔ c.Means r d := by
  obtain ⟨endpoints, resolvers, outputs, first, second, third, rfl⟩ := classify_success success
  simp only [List.mem_append, classifyAll_mem_iff first, classifyAll_mem_iff second,
    classifyAll_mem_iff third,
    SortedMap.mem_entries]
  constructor
  · rintro (((⟨name, e, rfl, declared, classified⟩ | member) | ⟨name, r, rfl, declared,
      classified⟩) |
      ⟨name, o, rfl, declared, classified⟩)
    · exact .endpoint declared classified
    · obtain ⟨⟨name, p⟩, declared, equal⟩ := List.mem_map.mp member
      cases equal
      exact .param (SortedMap.mem_entries.mp declared)
    · exact .resolver declared classified
    · exact .output declared classified
  · intro means
    cases means with
    | endpoint declared classified => exact .inl (.inl (.inl ⟨_, _, rfl, declared, classified⟩))
    | param declared =>
      refine .inl (.inl (.inr (List.mem_map.mpr ⟨(_, _), SortedMap.mem_entries.mpr declared, rfl⟩)))
    | resolver declared classified => exact .inl (.inr ⟨_, _, rfl, declared, classified⟩)
    | output declared classified => exact .inr ⟨_, _, rfl, declared, classified⟩

/-- The declarations of a template by category and name, in the order in which they are swept. -/
def refs (c : Declarations) : List Ref :=
  c.endpoints.keys.map (.endpoint, ·) ++ c.params.keys.map (.param, ·) ++
    c.resolvers.keys.map (.resolver, ·) ++ c.outputs.keys.map (.output, ·)

theorem classify_refs (success : c.classify = .ok declared) : declared.map (·.1) = c.refs := by
  obtain ⟨endpoints, resolvers, outputs, first, second, third, rfl⟩ := classify_success success
  simp [refs, classifyAll_refs first, classifyAll_refs second, classifyAll_refs third,
    SortedMap.keys,
    Function.comp_def]

theorem mem_refs {r : Ref} : r ∈ c.refs ↔ c.Declares r := by
  obtain ⟨category, name⟩ := r
  cases category <;> simp [refs, Declares, SortedMap.mem_keys_iff_contains]

theorem category_pairwise (category : Category) {names : List String}
    (ascending : names.Pairwise fun a b => Key.before a b = true) :
    (names.map fun name => (category, name)).Pairwise fun r s : Ref => Key.before r s = true := by
  rw [List.pairwise_map]
  refine ascending.imp fun {a b} before => ?_
  simp only [Key.before] at before ⊢
  rw [before]
  cases decide (category.rank < category.rank) <;> rfl

/-- Declarations are swept in ascending order of category and name. -/
theorem refs_pairwise (c : Declarations) : c.refs.Pairwise fun r s => Key.before r s = true := by
  simp only [refs, List.pairwise_append, category_pairwise _ (SortedMap.keys_pairwise _), true_and,
    List.mem_append, List.mem_map]
  refine ⟨⟨?_, ?_⟩, ?_⟩
  · rintro _ ⟨_, -, rfl⟩ _ ⟨_, -, rfl⟩
    rfl
  · rintro _ (⟨_, -, rfl⟩ | ⟨_, -, rfl⟩) _ ⟨_, -, rfl⟩ <;> rfl
  · rintro _ ((⟨_, -, rfl⟩ | ⟨_, -, rfl⟩) | ⟨_, -, rfl⟩) _ ⟨_, -, rfl⟩ <;> rfl

theorem checkReferences_success_iff {known : List Ref} :
    checkReferences known declared = .ok () ↔
      ∀ r d, (r, d) ∈ declared → ∀ s ∈ d.references, s ∈ known := by
  induction declared with
  | nil => simp [checkReferences]
  | cons head rest ih =>
    obtain ⟨referrer, meaning⟩ := head
    rw [checkReferences]
    cases missing : meaning.references.find? fun target => !known.contains target with
    | some target =>
      have absent : target ∉ known := by simpa using List.find?_some missing
      refine ⟨fun failure => (by cases failure), fun all => ?_⟩
      exact absurd (all _ _ List.mem_cons_self target (List.mem_of_find?_eq_some missing)) absent
    | none =>
      have present : ∀ s ∈ meaning.references, s ∈ known := by simpa using missing
      rw [ih]
      constructor
      · intro all r d member
        rcases List.mem_cons.mp member with same | later
        · cases same
          exact present
        · exact all r d later
      · exact fun all r d member => all r d (List.mem_cons_of_mem _ member)

/-- The check of all references passes exactly when every name that is referred to is declared. -/
theorem checkReferences_iff_closed (success : c.classify = .ok declared) :
    checkReferences (declared.map (·.1)) declared = .ok () ↔ c.Closed := by
  rw [checkReferences_success_iff, classify_refs success]
  constructor
  · intro checked r s refers
    obtain ⟨d, member⟩ : ∃ d, (r, d) ∈ declared := by
      have listed : r ∈ declared.map (·.1) := by
        rw [classify_refs success, mem_refs]
        exact refers.declares_left
      simpa using listed
    have means := (mem_classify_iff success).mp member
    exact mem_refs.mp (checked r d member s (means.mem_references_iff.mpr refers))
  · intro closed r d member s referenced
    have means := (mem_classify_iff success).mp member
    exact mem_refs.mpr (closed (means.mem_references_iff.mp referenced))

end Declarations

end RestWiring
