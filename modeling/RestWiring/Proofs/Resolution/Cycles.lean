import RestWiring.Proofs.Resolution.Fixpoint
import RestWiring.Proofs.Text.ByteOrder

/-!
# Cyclic declarations

Resolving a template whose declarations classify and refer to declared names fails exactly when the
references have a cycle, and then names exactly the declarations from which a cycle can be reached.
-/
namespace RestWiring

open Relation

/-! ## Classified declarations and the template -/

namespace Declarations

variable {c : Declarations} {declared : List (Ref × Declared)}

theorem refs_nodup (c : Declarations) : c.refs.Nodup :=
  c.refs_pairwise.imp fun {r s} before equal => by simp [equal, Key.irrefl] at before

theorem referable_of_closed (success : c.classify = .ok declared) (closed : c.Closed) :
    Referable declared where
  distinct := classify_refs success ▸ c.refs_nodup
  closed := by
    intro r d member s referenced
    rw [classify_refs success, mem_refs]
    exact closed (((mem_classify_iff success).mp member).mem_references_iff.mp referenced)
  categories := fun member => ((mem_classify_iff success).mp member).category_eq

/-- Classified declarations refer to one another as the template's own declarations do. -/
theorem refersIn_eq (success : c.classify = .ok declared) : RefersIn declared = c.Refers := by
  funext r s
  apply propext
  constructor
  · rintro ⟨d, member, referenced⟩
    exact ((mem_classify_iff success).mp member).mem_references_iff.mp referenced
  · intro refers
    have listed : r ∈ declared.map (·.1) := by
      rw [classify_refs success, mem_refs]
      exact refers.declares_left
    obtain ⟨⟨r, d⟩, member, rfl⟩ := List.mem_map.mp listed
    exact ⟨d, member, ((mem_classify_iff success).mp member).mem_references_iff.mpr refers⟩

/-- Outputs refer to nothing. -/
theorem Refers.not_output {r s : Ref} (refers : c.Refers r s) : r.1 ≠ .output := by
  cases refers <;> simp

end Declarations

namespace Template

variable {t : Template} {declared : List (Ref × Declared)}

/-- Once all checks have passed, resolving is sweeping. -/
theorem resolveWithPasses_eq_settle (success : t.config.classify = .ok declared)
    (closed : t.config.Closed) :
    t.resolveWithPasses = settle declared {} 0 := by
  rw [resolveWithPasses, success]
  have checked := (Declarations.checkReferences_iff_closed success).mpr closed
  simp only [bind, Except.bind, checked]

theorem resolveWithPasses_settled (success : t.config.classify = .ok declared)
    (closed : t.config.Closed) :
    Settled declared t.resolveWithPasses := by
  rw [resolveWithPasses_eq_settle success closed]
  exact Progress.start.settle (Declarations.referable_of_closed success closed) 0

end Template

/-! ## What a stuck run leaves -/

/-- What waits for one another is exactly that from which a cycle can be reached. -/
theorem Progress.mem_left_iff {declared left : List (Ref × Declared)} {g : ResolutionGraph}
    (progress : Progress declared left g)
    (waits : ∀ x ∈ left, ∃ s ∈ x.2.references, s ∈ left.map (·.1))
    {r : Ref} : r ∈ left.map (·.1) ↔ ReachesCycle (RefersIn declared) r := by
  refine ⟨fun member => reachesCycle_of_trapped ?_ member, progress.cyclic⟩
  intro r listed
  obtain ⟨⟨r, d⟩, member, rfl⟩ := List.mem_map.mp listed
  obtain ⟨s, referenced, inside⟩ := waits _ member
  exact ⟨s, inside, d, progress.sublist.subset member, referenced⟩

/-- Categories other than outputs come in the order of their names, so texts come in the order of
references. -/
theorem Ref.text_lt {r s : Ref} (before : Key.before r s = true) (notOutput : s.1 ≠ .output) :
    r.text < s.text := by
  obtain ⟨category, name⟩ := r
  obtain ⟨category', name'⟩ := s
  simp only [text, Category.qualify, String.lt_iff, String.toList_append]
  by_cases same : category = category'
  · subst same
    have smaller : name < name' := by simpa [Key.before] using before
    exact List.append_left_lt smaller
  · have lower : category.rank < category'.rank := by
      cases category <;> cases category' <;> simp_all [Key.before, Category.rank]
    cases category <;> cases category' <;>
      simp_all [Category.rank, Category.text, List.cons_lt_cons_iff]

theorem texts_pairwise {c : Declarations} {refs : List Ref} (sublist : refs.Sublist c.refs)
    (notOutput : ∀ r ∈ refs, r.1 ≠ .output) :
    (refs.map fun r => Text.bytes r.text).Pairwise (· < ·) := by
  rw [List.pairwise_map]
  refine (c.refs_pairwise.sublist sublist).imp_of_mem fun {r s} _ member before => ?_
  exact Text.bytes_lt_iff.mpr (Ref.text_lt before (notOutput s member))

namespace Template

/-- Resolving a template whose declarations classify and refer to declared names succeeds exactly
when the references have no cycle. The only other outcome lists the declarations from which a cycle
can be reached, in the byte order of their texts. -/
theorem resolveWithPasses_cycles (t : Template) (classifies : t.config.Classifies)
    (closed : t.config.Closed) :
    ((∃ g passes, t.resolveWithPasses = .ok (g, passes)) ↔ ∀ r, ¬ TransGen t.config.Refers r r) ∧
      ∀ e, t.resolveWithPasses = .error e →
        ∃ remaining : List Ref, e = .cyclicDependency (remaining.map Ref.text) ∧
          (remaining.map fun r => Text.bytes r.text).Pairwise (· < ·) ∧
          ∀ r, r ∈ remaining ↔ ReachesCycle t.config.Refers r := by
  obtain ⟨declared, success⟩ := classifies.classify_succeeds
  have settled := resolveWithPasses_settled success closed
  have refers_eq := Declarations.refersIn_eq success
  cases outcome : t.resolveWithPasses with
  | ok result =>
    rw [outcome] at settled
    cases settled with
    | complete passes progress =>
      refine ⟨⟨fun _ r cycle => ?_, fun _ => ⟨_, _, rfl⟩⟩, fun e failure => (by cases failure)⟩
      have pending := progress.cyclic (refers_eq ▸ ReachesCycle.of_cycle cycle)
      cases pending
  | error e =>
    rw [outcome] at settled
    cases settled with
    | @stuck left g progress nonempty waits =>
      have exactly {r : Ref} : r ∈ left.map (·.1) ↔ ReachesCycle t.config.Refers r :=
        refers_eq ▸ progress.mem_left_iff waits
      refine ⟨⟨fun ⟨_, _, equal⟩ => (by cases equal), fun acyclic => ?_⟩, ?_⟩
      · obtain ⟨x, member⟩ := List.exists_mem_of_ne_nil left nonempty
        obtain ⟨r, -, cycle⟩ := exactly.mp (List.mem_map_of_mem member)
        exact absurd cycle (acyclic r)
      · intro e' same
        cases same
        refine ⟨left.map (·.1), by rw [List.map_map]; rfl, ?_, fun r => exactly⟩
        refine texts_pairwise (Declarations.classify_refs success ▸ progress.sublist.map _)
          fun r member => ?_
        obtain ⟨s, refers, -⟩ := (exactly.mp member).successor
        exact refers.not_output

/-- A parameter whose resolver reads an endpoint that uses the parameter. -/
def looped : Template where
  version := "1"
  kind := "api"
  config :=
    { endpoints :=
        (SortedMap.insert ∅ "site" { kind := "baseurl", url := some "http://site" }).insert "item"
          { kind := "relativeurl", base := some "site", relative := some "item",
            params := [.name "id"] }
      params := SortedMap.insert ∅ "id" { resolver := "ids" }
      resolvers :=
        SortedMap.insert ∅ "ids" { kind := "EndpointResolver", endpoint := some "item" } }

theorem resolveWithPasses_cycles_looped :
    looped.config.Classifies ∧ looped.config.Closed ∧
      ¬ ∃ g passes, looped.resolveWithPasses = .ok (g, passes) := by
  have classifies : looped.config.Classifies := by
    constructor
    · intro name e declared
      simp only [looped, SortedMap.find?_insert, SortedMap.find?_empty] at declared
      split_ifs at declared <;> cases declared <;> exact ⟨_, rfl⟩
    · intro name r declared
      simp only [looped, SortedMap.find?_insert, SortedMap.find?_empty] at declared
      split_ifs at declared
      cases declared
      exact ⟨_, rfl⟩
    · rintro name o ⟨⟩
  have closed : looped.config.Closed := by
    obtain ⟨declared, success⟩ := classifies.classify_succeeds
    refine (Declarations.checkReferences_iff_closed success).mp ?_
    cases success
    rfl
  have item : looped.config.endpoints.find? "item" = some
      { kind := "relativeurl", base := some "site", relative := some "item",
        params := [.name "id"] } := by
    simp [looped, SortedMap.find?_insert]
  have uses : looped.config.Refers (.endpoint, "item") (.param, "id") :=
    .param item rfl (List.mem_singleton_self _)
  have id : looped.config.params.find? "id" = some { resolver := "ids" } :=
    SortedMap.find?_insert_self ..
  have supplied : looped.config.Refers (.param, "id") (.resolver, "ids") := .supplier id
  have reads : looped.config.Refers (.resolver, "ids") (.endpoint, "item") :=
    .source (SortedMap.find?_insert_self ..) rfl rfl
  refine ⟨classifies, closed, fun success => ?_⟩
  have acyclic := (resolveWithPasses_cycles looped classifies closed).1.mp success
  exact acyclic _ (.head uses (.head supplied (.single reads)))

end Template

end RestWiring
