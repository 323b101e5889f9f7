import Mathlib.Order.Bounds.Defs
import RestWiring.Proofs.Resolution.Indexing

/-!
# How many sweeps it takes

Placing a declaration helps those that come after it in the same sweep, but those that come before it
have to wait for the next one. A chain of references therefore costs a sweep for each of its steps that
leads to a later declaration, and the number of sweeps is one more than the greatest such cost.
-/
namespace RestWiring

/-- How many steps of a chain lead to something that is swept later than what refers to it:
endpoints come before parameters, these before resolvers and outputs, and each category goes by name. -/
def laterSteps : List Ref → Nat
  | r :: s :: rest => (if Key.before r s then 1 else 0) + laterSteps (s :: rest)
  | _ => 0

/-- One or more declarations of which each refers to the next. -/
structure Declarations.IsReferenceChain (c : Declarations) (chain : List Ref) : Prop where
  nonempty : chain ≠ []
  declared : ∀ r ∈ chain, c.Declares r
  linked : chain.IsChain c.Refers

/-- Whether some chain of references from here has at least so many steps that lead to something
later. -/
def Lags (refers : Ref → Ref → Prop) (n : Nat) (r : Ref) : Prop :=
  ∃ rest, (r :: rest).IsChain refers ∧ n ≤ laterSteps (r :: rest)

section Lags

variable {refers : Ref → Ref → Prop} {n : Nat} {r s : Ref}

theorem Lags.zero : Lags refers 0 r := ⟨[], List.isChain_singleton r, Nat.zero_le _⟩

theorem Lags.of_succ (lags : Lags refers (n + 1) r) : Lags refers n r := by
  obtain ⟨rest, linked, bound⟩ := lags
  exact ⟨rest, linked, by omega⟩

/-- A declaration lags as far as what it refers to, and once more behind what is later. -/
theorem lags_succ_iff :
    Lags refers (n + 1) r ↔ ∃ s, refers r s ∧ Lags refers (if Key.before r s then n else n + 1) s := by
  have step (s : Ref) (rest : List Ref) :
      n + 1 ≤ laterSteps (r :: s :: rest) ↔
        (if Key.before r s then n else n + 1) ≤ laterSteps (s :: rest) := by
    rw [laterSteps]
    split <;> omega
  constructor
  · intro lags
    obtain ⟨rest, linked, bound⟩ := lags
    cases rest with
    | nil => simp [laterSteps] at bound
    | cons s rest =>
      obtain ⟨first, linked⟩ := List.isChain_cons_cons.mp linked
      exact ⟨s, first, rest, linked, (step s rest).mp bound⟩
  · intro lags
    obtain ⟨s, first, rest, linked, bound⟩ := lags
    exact ⟨s :: rest, List.isChain_cons_cons.mpr ⟨first, linked⟩, (step s rest).mpr bound⟩

end Lags

/-! ## One sweep -/

section Sweeps

open Classical in
/-- The declarations that lag at least so far, in the order in which they are swept. -/
noncomputable def lagging (declared : List (Ref × Declared)) (n : Nat)
    (among : List (Ref × Declared)) : List (Ref × Declared) :=
  among.filter fun x => Lags (RefersIn declared) n x.1

variable {declared seen unseen left among pending : List (Ref × Declared)} {g g' : ResolutionGraph}
  {r s : Ref} {d : Declared} {n passes : Nat}

theorem mem_refs_lagging :
    s ∈ (lagging declared n among).map (·.1) ↔
      s ∈ among.map (·.1) ∧ Lags (RefersIn declared) n s := by
  simp [lagging]

theorem lagging_zero : lagging declared 0 among = among := by
  simp [lagging, Lags.zero]

theorem lagging_nil : lagging declared n [] = [] := rfl

theorem lagging_append (first second : List (Ref × Declared)) :
    lagging declared n (first ++ second) = lagging declared n first ++ lagging declared n second :=
  List.filter_append ..

theorem lagging_cons_of_lags (lags : Lags (RefersIn declared) n r) :
    lagging declared n ((r, d) :: among) = (r, d) :: lagging declared n among :=
  List.filter_cons_of_pos (by simpa using lags)

theorem lagging_cons_of_not (ends : ¬ Lags (RefersIn declared) n r) :
    lagging declared n ((r, d) :: among) = lagging declared n among :=
  List.filter_cons_of_neg (by simpa using ends)

/-- When a declaration is visited in the sweep of a given number, what has been visited before is
pending if it lags further than that, and what has not if it lags that far. So the declaration is
ready unless it lags further itself. -/
theorem ready_iff_not_lags (referable : Referable declared)
    (ascending : (declared.map (·.1)).Pairwise fun r s => Key.before r s = true)
    (irreflexive : ¬ RefersIn declared r r) (parts : declared = seen ++ (r, d) :: unseen) :
    d.ready ((lagging declared (n + 1) seen ++ (r, d) :: lagging declared n unseen).map (·.1)) =
        true ↔ ¬ Lags (RefersIn declared) (n + 1) r := by
  have member : (r, d) ∈ declared := by simp [parts]
  have refers_iff {s : Ref} : RefersIn declared r s ↔ s ∈ d.references := by
    constructor
    · intro refers
      obtain ⟨d', member', referenced⟩ := refers
      rwa [referable.meaning_unique member' member] at referenced
    · exact fun referenced => ⟨d, member, referenced⟩
  have pending_iff {s : Ref} :
      s ∈ (lagging declared (n + 1) seen ++ (r, d) :: lagging declared n unseen).map (·.1) ↔
        (s ∈ seen.map (·.1) ∧ Lags (RefersIn declared) (n + 1) s) ∨ s = r ∨
          (s ∈ unseen.map (·.1) ∧ Lags (RefersIn declared) n s) := by
    rw [List.map_append, List.map_cons, List.mem_append, List.mem_cons, mem_refs_lagging,
      mem_refs_lagging]
  rw [parts, List.map_append, List.map_cons, List.pairwise_append, List.pairwise_cons] at ascending
  obtain ⟨-, ⟨after, -⟩, before⟩ := ascending
  have earlier {s : Ref} (visited : s ∈ seen.map (·.1)) : Key.before r s = false := by
    by_contra later
    rw [Bool.not_eq_false] at later
    have loop := Key.trans later (before s visited r List.mem_cons_self)
    simp [Key.irrefl] at loop
  rw [ready_iff, lags_succ_iff]
  constructor
  · intro ready lags
    obtain ⟨s, refers, lags⟩ := lags
    have referenced := refers_iff.mp refers
    apply ready s referenced
    rw [pending_iff]
    have listed := referable.closed member s referenced
    rw [parts, List.map_append, List.map_cons, List.mem_append, List.mem_cons] at listed
    rcases listed with visited | rfl | ahead
    · rw [earlier visited, if_neg (by simp)] at lags
      exact .inl ⟨visited, lags⟩
    · exact .inr (.inl rfl)
    · rw [after s ahead, if_pos rfl] at lags
      exact .inr (.inr ⟨ahead, lags⟩)
  · intro ends s referenced waiting
    apply ends
    have refers := refers_iff.mpr referenced
    rcases pending_iff.mp waiting with ⟨visited, lags⟩ | rfl | ⟨ahead, lags⟩
    · refine ⟨s, refers, ?_⟩
      rwa [earlier visited, if_neg (by simp)]
    · exact absurd refers irreflexive
    · refine ⟨s, refers, ?_⟩
      rwa [after s ahead, if_pos rfl]

/-- A sweep turns what lags one number of sweeps into what lags one more. -/
theorem sweep_lagging (referable : Referable declared)
    (ascending : (declared.map (·.1)).Pairwise fun r s => Key.before r s = true)
    (irreflexive : ∀ r, ¬ RefersIn declared r r) (parts : declared = seen ++ unseen)
    (swept : sweep (lagging declared (n + 1) seen) (lagging declared n unseen) g = .ok (left, g')) :
    left = lagging declared (n + 1) declared := by
  -- The induction is on all declarations, those placed by earlier sweeps too: what has been passed
  -- over and what is ahead are told apart by their place in the list.
  induction unseen generalizing seen g with
  | nil =>
    cases swept
    rw [parts, List.append_nil]
  | cons head unseen ih =>
    obtain ⟨r, d⟩ := head
    have next : declared = (seen ++ [(r, d)]) ++ unseen := by rw [parts, List.append_cons]
    by_cases lags : Lags (RefersIn declared) n r
    · rw [lagging_cons_of_lags lags, sweep] at swept
      have ready := ready_iff_not_lags (n := n) referable ascending (irreflexive r) parts
      split at swept
      · rename_i placeable
        obtain ⟨g'', -, swept⟩ := bind_success_iff.mp swept
        apply ih next
        rw [lagging_append, lagging_cons_of_not (ready.mp placeable), lagging_nil, List.append_nil]
        exact swept
      · rename_i waits
        have further : Lags (RefersIn declared) (n + 1) r := by
          by_contra ends
          exact waits (ready.mpr ends)
        apply ih next
        rw [lagging_append, lagging_cons_of_lags further, lagging_nil]
        exact swept
    · rw [lagging_cons_of_not lags] at swept
      apply ih next
      rw [lagging_append, lagging_cons_of_not fun further => lags further.of_succ, lagging_nil,
        List.append_nil]
      exact swept

/-! ## All sweeps -/

/-- Sweeping succeeds if nothing is pending, or if a sweep places something and sweeping what it
leaves succeeds. -/
theorem settle_success (settled : settle pending g n = .ok (g', passes)) :
    (pending = [] ∧ passes = n) ∨
      (pending ≠ [] ∧ ∃ left g'', sweep [] pending g = .ok (left, g'') ∧
        left.length < pending.length ∧ settle left g'' (n + 1) = .ok (g', passes)) := by
  unfold settle at settled
  split at settled
  · rename_i empty
    cases settled
    exact .inl ⟨List.isEmpty_iff.mp empty, rfl⟩
  · rename_i nonempty
    split at settled
    · cases settled
    · rename_i left g'' swept
      split at settled
      · rename_i shorter
        exact .inr ⟨by simpa using nonempty, left, g'', swept, shorter, settled⟩
      · cases settled

/-- No sweep is made once nothing lags so far, and one is made as long as something does. -/
theorem settle_lagging (referable : Referable declared)
    (ascending : (declared.map (·.1)).Pairwise fun r s => Key.before r s = true)
    (irreflexive : ∀ r, ¬ RefersIn declared r r)
    (settled : settle (lagging declared n declared) g n = .ok (g', passes)) :
    lagging declared passes declared = [] ∧
      ∀ m, n ≤ m → m < passes → lagging declared m declared ≠ [] := by
  induction size : (lagging declared n declared).length using Nat.strong_induction_on
    generalizing n g with
  | _ length ih =>
    rcases settle_success settled with ⟨done, rfl⟩ | ⟨more, left, g'', swept, shorter, settled⟩
    · refine ⟨done, fun m _ _ => ?_⟩
      omega
    · have left_eq : left = lagging declared (n + 1) declared :=
        sweep_lagging referable ascending irreflexive (List.nil_append declared).symm swept
      subst left_eq
      obtain ⟨last, earlier⟩ := ih _ (size ▸ shorter) settled rfl
      refine ⟨last, fun m least less => ?_⟩
      by_cases first : m = n
      · rw [first]
        exact more
      · exact earlier m (by omega) less

/-- Every sweep places something, so there are no more of them than there are declarations. -/
theorem settle_passes_le (settled : settle pending g n = .ok (g', passes)) :
    passes ≤ n + pending.length := by
  induction size : pending.length using Nat.strong_induction_on generalizing pending n g with
  | _ length ih =>
    rcases settle_success settled with ⟨-, rfl⟩ | ⟨-, left, g'', -, shorter, settled⟩
    · omega
    · have bound := ih _ (size ▸ shorter) settled rfl
      omega

end Sweeps

/-! ## Chains of a template -/

/-- What is referred to is declared, so a chain that starts at a declaration stays at declarations. -/
theorem Declarations.IsReferenceChain.of_linked {c : Declarations} {r : Ref} {rest : List Ref}
    (closed : c.Closed) (declared : c.Declares r) (linked : (r :: rest).IsChain c.Refers) :
    c.IsReferenceChain (r :: rest) := by
  refine ⟨by simp, ?_, linked⟩
  induction rest generalizing r with
  | nil => simpa using declared
  | cons s rest ih =>
    obtain ⟨first, linked⟩ := List.isChain_cons_cons.mp linked
    rw [List.forall_mem_cons]
    exact ⟨declared, ih (closed first) linked⟩

namespace Template

variable {t : Template} {declared : List (Ref × Declared)} {n : Nat}

/-- Something lags at least so far if some chain has at least so many steps to something later. -/
theorem lagging_ne_nil_iff (success : t.config.classify = .ok declared) (closed : t.config.Closed) :
    lagging declared n declared ≠ [] ↔
      ∃ chain, t.config.IsReferenceChain chain ∧ n ≤ laterSteps chain := by
  have declares_iff {r : Ref} : r ∈ declared.map (·.1) ↔ t.config.Declares r := by
    rw [Declarations.classify_refs success, Declarations.mem_refs]
  have refers_eq := Declarations.refersIn_eq success
  constructor
  · intro some
    obtain ⟨x, member⟩ := List.exists_mem_of_ne_nil _ some
    obtain ⟨listed, rest, linked, bound⟩ := mem_refs_lagging.mp (List.mem_map_of_mem member)
    rw [refers_eq] at linked
    exact ⟨x.1 :: rest, .of_linked closed (declares_iff.mp listed) linked, bound⟩
  · intro chained
    obtain ⟨chain, ⟨nonempty, declares, linked⟩, bound⟩ := chained
    obtain ⟨r, rest, rfl⟩ := List.exists_cons_of_ne_nil nonempty
    have lags : Lags (RefersIn declared) n r := ⟨rest, refers_eq ▸ linked, bound⟩
    have member := mem_refs_lagging.mpr ⟨declares_iff.mpr (declares r List.mem_cons_self), lags⟩
    intro none
    simp [none] at member

/-- The number of sweeps that it takes to resolve a template is none for an empty template, and else
one more than the greatest number of steps to later declarations on a chain of references. There are
never more sweeps than declarations. -/
theorem resolveWithPasses_counts (t : Template) {g : ResolutionGraph} {passes : Nat}
    (success : t.resolveWithPasses = .ok (g, passes)) :
    (t.declarationCount = 0 → passes = 0) ∧
      (t.declarationCount ≠ 0 →
        IsGreatest {n | ∃ chain, t.config.IsReferenceChain chain ∧ n = 1 + laterSteps chain} passes) ∧
      passes ≤ t.declarationCount := by
  obtain ⟨declared, classified, closed, progress⟩ :=
    resolve_progress (resolve_success_iff.mpr ⟨passes, success⟩)
  have ascending : (declared.map (·.1)).Pairwise fun r s => Key.before r s = true := by
    rw [Declarations.classify_refs classified]
    exact t.config.refs_pairwise
  have irreflexive (r : Ref) : ¬ RefersIn declared r r := by
    intro loop
    have pending := progress.cyclic (ReachesCycle.of_cycle (.single loop))
    cases pending
  rw [resolveWithPasses_eq_settle classified closed] at success
  have bound : passes ≤ t.declarationCount := by
    rw [← length_classify classified]
    simpa using settle_passes_le success
  have all : lagging declared 0 declared = declared := lagging_zero
  rw [← all] at success
  obtain ⟨last, earlier⟩ := settle_lagging (Declarations.referable_of_closed classified closed)
    ascending irreflexive success
  have less {chain : List Ref} (chained : t.config.IsReferenceChain chain) :
      laterSteps chain < passes := by
    by_contra long
    exact (lagging_ne_nil_iff classified closed).mpr ⟨chain, chained, Nat.le_of_not_lt long⟩ last
  refine ⟨fun none => by omega, fun some => ⟨?_, ?_⟩, bound⟩
  · have nonempty : declared ≠ [] := by
      rintro rfl
      exact some (length_classify classified).symm
    have swept : passes ≠ 0 := by
      rintro rfl
      rw [lagging_zero] at last
      exact nonempty last
    obtain ⟨chain, chained, long⟩ := (lagging_ne_nil_iff classified closed).mp
      (earlier (passes - 1) (Nat.zero_le _) (by omega))
    have short := less chained
    exact ⟨chain, chained, by omega⟩
  · intro n member
    obtain ⟨chain, chained, rfl⟩ := member
    have short := less chained
    omega

/-- Endpoints that are declared before what they are relative to. -/
def stairs : Template where
  version := "1"
  kind := "api"
  config :=
    { endpoints :=
        ((SortedMap.insert ∅ "a" { kind := "relativeurl", base := some "b", relative := some "a" }).insert
          "b" { kind := "relativeurl", base := some "c", relative := some "b" }).insert
          "c" { kind := "baseurl", url := some "http://site" } }

theorem resolveWithPasses_counts_stairs :
    (∃ g, stairs.resolveWithPasses = .ok (g, 3)) ∧
      IsGreatest {n | ∃ chain, stairs.config.IsReferenceChain chain ∧ n = 1 + laterSteps chain} 3 := by
  have succeeds : ∃ g, stairs.resolveWithPasses = .ok (g, 3) := by
    change ∃ g, settle _ {} 0 = .ok (g, 3)
    unfold settle
    change ∃ g, settle [_, _] { endpoints := SortedMap.insert ∅ _ _ } 1 = .ok (g, 3)
    unfold settle
    change ∃ g, settle [_] { endpoints := SortedMap.insert (SortedMap.insert ∅ _ _) _ _ } 2 =
      .ok (g, 3)
    unfold settle
    change ∃ g, settle []
      { endpoints := SortedMap.insert (SortedMap.insert (SortedMap.insert ∅ _ _) _ _) _ _ } 3 =
        .ok (g, 3)
    unfold settle
    exact ⟨_, rfl⟩
  obtain ⟨g, success⟩ := succeeds
  have some : stairs.declarationCount ≠ 0 := by decide
  exact ⟨⟨g, success⟩, (resolveWithPasses_counts stairs success).2.1 some⟩

end Template

end RestWiring
