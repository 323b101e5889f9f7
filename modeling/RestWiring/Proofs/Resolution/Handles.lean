import RestWiring.Proofs.Orchestration.Dependencies

/-!
# Graphs built by hand

A resolution graph gives out handles: adding a node returns the node that is stored under its name,
and stored nodes can be looked up. A graph that is filled with nodes made of its own handles keeps the
first node that is added under each category and name, and what its nodes hold, at any depth, is what
it stores. So the resolvers around a stored endpoint are stored ones, too.
-/
namespace RestWiring

namespace ResolutionGraph

variable {g : ResolutionGraph} {nodes later : List Node} {n m : Node} {r : Ref} {name : String}
  {e : Endpoint}

/-! ## Adding nodes one after another -/

/-- What adding a node returns. -/
def added (g : ResolutionGraph) : Node → Node
  | .endpoint e => .endpoint (g.addEndpoint e).1
  | .param p => .param (g.addParam p).1
  | .resolver r => .resolver (g.addResolver r).1
  | .output o => .output (g.addOutput o).1

/-- The graph that an empty one becomes when nodes are added to it. -/
def built (nodes : List Node) : ResolutionGraph := nodes.foldl add {}

/-- Under a name that is taken nothing is added, and the node that is there is returned. -/
theorem add_of_stored (stored : g.node? n.ref = some m) : g.added n = m ∧ g.add n = g := by
  cases n <;>
    (obtain ⟨node, found, rfl⟩ := Option.map_eq_some_iff.mp stored
     simp [added, add, addEndpoint, addParam, addResolver, addOutput, place_of_present _ found])

theorem added_of_absent (absent : g.node? n.ref = none) : g.added n = n := by
  cases n <;>
    simp only [node?, Node.ref, Option.map_eq_none_iff] at absent <;>
    simp [added, addEndpoint, addParam, addResolver, addOutput, place_of_absent _ absent]

/-- What is stored after a node has been added: what was there, else the node. -/
theorem node?_add : (g.add n).node? r = (g.node? r).or (if n.ref = r then some n else none) := by
  by_cases same : n.ref = r
  · subst same
    cases stored : g.node? n.ref with
    | none => simp [node?_add_self stored]
    | some m => simp [(add_of_stored stored).2, stored]
  · rw [node?_add_of_ne (Ne.symm same), if_neg same, Option.or_none]

/-- What adding a node returns is what stands under the name of the node afterwards. -/
theorem node?_add_ref : (g.add n).node? n.ref = some (g.added n) := by
  cases stored : g.node? n.ref with
  | none => rw [node?_add_self stored, added_of_absent stored]
  | some m =>
    obtain ⟨returned, unchanged⟩ := add_of_stored stored
    rw [returned, unchanged, stored]

theorem built_append : built (nodes ++ later) = later.foldl add (built nodes) :=
  List.foldl_append

theorem built_concat : built (nodes ++ [n]) = (built nodes).add n := built_append

/-- Under each category and name stands the first node that was added there. -/
theorem node?_built : (built nodes).node? r = nodes.find? (·.ref = r) := by
  induction nodes using List.reverseRecOn with
  | nil => rcases r with ⟨_ | _ | _ | _, name⟩ <;> rfl
  | append_singleton nodes n ih =>
    rw [built_concat, node?_add, ih, List.find?_append, List.find?_singleton]
    simp

/-- A stored node stays, whatever is added after it. -/
theorem node?_built_append (stored : (built nodes).node? r = some n) :
    (built (nodes ++ later)).node? r = some n := by
  rw [node?_built] at stored
  rw [node?_built, List.find?_append, stored, Option.some_or]

theorem built_named : (built nodes).Named := fun stored => by
  rw [node?_built] at stored
  simpa using List.find?_some stored

/-! ## Handles -/

/-- The handles that a graph has given out by the time that some nodes have been added to it, those
inside of others included. -/
inductive GivenOut (nodes : List Node) : Node → Prop
  | lookup {earlier later : List Node} {r : Ref} {n : Node} (before : nodes = earlier ++ later)
      (stored : (built earlier).node? r = some n) : GivenOut nodes n
  | result {earlier later : List Node} {n : Node} (before : nodes = earlier ++ n :: later) :
      GivenOut nodes ((built earlier).added n)
  | inside {outer n : Node} (given : GivenOut nodes outer) (held : n ∈ outer.contents) :
      GivenOut nodes n

theorem GivenOut.of_stored (stored : (built nodes).node? r = some n) : GivenOut nodes n :=
  .lookup (List.append_nil nodes).symm stored

/-- Whether each of some nodes is made of handles that the graph had given out by then. -/
inductive Sourced : List Node → Prop
  | nil : Sourced []
  | concat {nodes : List Node} {n : Node} (sourced : Sourced nodes)
      (handles : ∀ m ∈ n.contents, GivenOut nodes m) : Sourced (nodes ++ [n])

/-- A handle is good for what stands under its name, as long as stored nodes hold only stored ones. -/
theorem GivenOut.stored (given : GivenOut nodes n) (contained : (built nodes).SelfContained) :
    (built nodes).node? n.ref = some n := by
  induction given with
  | lookup before stored =>
    rw [before, built_named stored]
    exact node?_built_append stored
  | @result earlier later n before =>
    have returned : (built (earlier ++ [n])).node? n.ref = some ((built earlier).added n) := by
      rw [built_concat, node?_add_ref]
    rw [before, built_named returned, List.append_cons]
    exact node?_built_append returned
  -- A handle inside of another is held by a node that is stored.
  | inside _ held ih => exact contained ih _ held

/-- A graph that is made of its own handles holds nothing that it does not store. -/
theorem Sourced.selfContained (sourced : Sourced nodes) : (built nodes).SelfContained := by
  induction sourced with
  | nil =>
    intro r n stored
    rw [node?_built] at stored
    cases stored
  | @concat nodes n _ handles ih =>
    rw [built_concat]
    cases stored : (built nodes).node? n.ref with
    | none => exact ih.add stored fun m held => (handles m held).stored ih
    | some m =>
      rw [(add_of_stored stored).2]
      exact ih

/-! ## Resolvers around an endpoint -/

/-- Resolvers are kept in the order in which their names are used first. -/
theorem resolversOf_ordered {params : List Param} {feeding : List Resolver} {used : List String}
    (same : ∀ name, name ∈ used ↔ ∃ r ∈ feeding, r.name = name)
    (ordered : feeding.Pairwise fun r s => used.idxOf r.name < used.idxOf s.name) :
    (resolversOf params feeding).Pairwise fun r s =>
      (used ++ params.map (·.resolver.name)).idxOf r.name <
        (used ++ params.map (·.resolver.name)).idxOf s.name := by
  induction params generalizing feeding used with
  | nil => simpa [resolversOf] using ordered
  | cons p params ih =>
    have kept {r : Resolver} (member : r ∈ feeding) : r.name ∈ used :=
      (same r.name).mpr ⟨r, member, rfl⟩
    -- The places of names that have been used do not change when one more is used.
    have ordered' : feeding.Pairwise fun r s =>
        (used ++ [p.resolver.name]).idxOf r.name < (used ++ [p.resolver.name]).idxOf s.name :=
      ordered.imp_of_mem fun first second before => by
        rwa [List.idxOf_append_of_mem (kept first), List.idxOf_append_of_mem (kept second)]
    rw [resolversOf, List.map_cons, List.append_cons]
    split
    · rename_i known
      obtain ⟨r, member, equal⟩ := List.any_eq_true.mp known
      refine ih (fun name => ?_) ordered'
      rw [List.mem_append, List.mem_singleton, same]
      exact or_iff_left_of_imp fun last => ⟨r, member, (beq_iff_eq.mp equal).trans last.symm⟩
    · rename_i unknown
      have new : p.resolver.name ∉ used := fun member => by
        obtain ⟨r, listed, equal⟩ := (same _).mp member
        exact unknown (List.any_eq_true.mpr ⟨r, listed, beq_iff_eq.mpr equal⟩)
      refine ih (fun name => ?_) ?_
      · simp [same, or_and_right, exists_or, eq_comm]
      · refine List.pairwise_append.mpr ⟨ordered', List.pairwise_singleton _ _, ?_⟩
        intro r member s last
        rw [List.mem_singleton.mp last, List.idxOf_append_of_mem (kept member),
          List.idxOf_append_of_notMem new, List.idxOf_cons_self]
        exact Nat.lt_add_right 0 (List.idxOf_lt_length_of_mem (kept member))

/-- How the resolvers that supply the parameters of an endpoint are listed. -/
structure Feeding (g : ResolutionGraph) (e : Endpoint) (feeding : List Resolver) : Prop where
  stored : ∀ r ∈ feeding, g.resolvers.find? r.name = some r
  supplies_iff : ∀ r, r ∈ feeding ↔ ∃ p ∈ e.params, p.resolver = r
  once : feeding.Nodup
  first_use : feeding.Pairwise fun r s =>
    (e.params.map (·.resolver.name)).idxOf r.name < (e.params.map (·.resolver.name)).idxOf s.name

/-- How the resolvers that read from the endpoint of a given name are listed. -/
structure Reading (g : ResolutionGraph) (name : String) (reading : List Resolver) : Prop where
  mem_iff : ∀ r, r ∈ reading ↔ g.resolvers.find? r.name = some r ∧
    ∃ e select, g.endpoints.find? name = some e ∧ r.source = .endpoint e select
  ascending : reading.Pairwise fun r s => r.name < s.name

theorem endpoint?_eq_some_iff {r : Resolver} :
    r.endpoint? = some e ↔ ∃ select, r.source = .endpoint e select := by
  unfold Resolver.endpoint?
  cases r.source <;> simp

/-- The resolvers of the parameters of a stored endpoint are stored. -/
theorem SelfContained.supplier (contained : g.SelfContained)
    (stored : g.endpoints.find? name = some e) {p : Param} (used : p ∈ e.params) :
    g.resolvers.find? p.resolver.name = some p.resolver := by
  have held : (Node.endpoint e).Holds (.resolver p.resolver) :=
    .tail (.single (Node.param_mem_contents used)) (List.mem_singleton_self _)
  simpa [node?, Node.ref] using contained.holds (r := (.endpoint, name)) (by simp [node?, stored]) held

theorem SelfContained.feeding (contained : g.SelfContained)
    (stored : g.endpoints.find? name = some e) : Feeding g e (resolversFeeding e) := by
  have drawn {r : Resolver} (member : r ∈ resolversFeeding e) : ∃ p ∈ e.params, p.resolver = r :=
    (mem_resolversOf member).resolve_left List.not_mem_nil
  have found {r : Resolver} (supplies : ∃ p ∈ e.params, p.resolver = r) :
      g.resolvers.find? r.name = some r := by
    obtain ⟨p, used, rfl⟩ := supplies
    exact contained.supplier stored used
  have ordered := @resolversOf_ordered e.params [] [] (by simp) .nil
  refine ⟨fun r member => found (drawn member), fun r => ⟨drawn, fun supplies => ?_⟩, ?_, ordered⟩
  · obtain ⟨p, used, rfl⟩ := supplies
    obtain ⟨s, member, named⟩ := exists_feeding_iff.mpr ⟨p, used, rfl⟩
    -- Of one name only one resolver is stored.
    have equal := (found (drawn member)).symm.trans (named ▸ found ⟨p, used, rfl⟩)
    exact Option.some.inj equal ▸ member
  · refine ordered.imp fun before equal => ?_
    rw [equal] at before
    exact Nat.lt_irrefl _ before

/-- The resolvers that are read from a stored endpoint are those that read this very endpoint. -/
theorem SelfContained.reading (contained : g.SelfContained) (named : g.Named) (name : String) :
    Reading g name (g.resolversReading name) where
  mem_iff r := by
    have source {e : Endpoint} (stored : g.resolvers.find? r.name = some r)
        (reads : r.endpoint? = some e) : g.endpoints.find? e.name = some e := by
      have held := contained (r := (.resolver, r.name)) (by simp [node?, stored]) _
        (Node.source_mem_contents reads)
      simpa [node?, Node.ref] using held
    rw [resolversReading, List.mem_filter, SortedMap.mem_values, Option.any_eq_true]
    constructor
    · rintro ⟨⟨key, stored⟩, e, reads, same⟩
      obtain rfl := named.resolver stored
      obtain rfl := beq_iff_eq.mp same
      obtain ⟨select, equal⟩ := endpoint?_eq_some_iff.mp reads
      exact ⟨stored, e, select, source stored reads, equal⟩
    · rintro ⟨stored, e, select, found, equal⟩
      exact ⟨⟨r.name, stored⟩, e, endpoint?_eq_some_iff.mpr ⟨select, equal⟩,
        beq_iff_eq.mpr (named.endpoint found)⟩
  ascending := by
    refine List.Pairwise.filter _ (List.pairwise_map.mpr ?_)
    refine g.resolvers.ascending.imp_of_mem fun {a b} first second before => ?_
    rw [named.resolver (SortedMap.mem_entries.mp first), named.resolver (SortedMap.mem_entries.mp second)]
    exact of_decide_eq_true before

/-! ## What hand-built graphs keep -/

/-- However nodes are added to a graph that is empty at first, each of them made of handles that the
graph has given out:

* under each category and name stands the first node that was added there, and it stays, whatever is
  added later;
* an addition returns what stands under the name of the node then, and one under a taken name returns
  the node that is there and changes nothing;
* every node is stored under its own name, and whatever it holds, at any depth, is stored under its
  own name as well;
* the resolvers that feed a stored endpoint are stored ones, each once, in the order in which the
  parameters of the endpoint use them first;
* the resolvers that read from a name are, in name order, the stored ones that read from the endpoint
  stored there. -/
theorem built_closed (sourced : Sourced nodes) :
    (∀ r, (built nodes).node? r = nodes.find? (·.ref = r)) ∧
      (∀ later r n, (built nodes).node? r = some n → (built (nodes ++ later)).node? r = some n) ∧
      (∀ n, (built (nodes ++ [n])).node? n.ref = some ((built nodes).added n)) ∧
      (∀ n m, (built nodes).node? n.ref = some m →
        (built nodes).added n = m ∧ built (nodes ++ [n]) = built nodes) ∧
      (∀ r n, (built nodes).node? r = some n →
        n.ref = r ∧ ∀ m, n.Holds m → (built nodes).node? m.ref = some m) ∧
      (∀ name e, (built nodes).endpoints.find? name = some e →
        Feeding (built nodes) e (resolversFeeding e)) ∧
      ∀ name, Reading (built nodes) name ((built nodes).resolversReading name) := by
  have contained : (built nodes).SelfContained := sourced.selfContained
  refine ⟨fun r => node?_built, fun later r n => node?_built_append, fun n => ?_, fun n m stored => ?_,
    fun r n stored => ⟨built_named stored, fun m => contained.holds stored⟩,
    fun name e => contained.feeding, contained.reading built_named⟩
  · rw [built_concat, node?_add_ref]
  · rw [built_concat]
    exact add_of_stored stored

def scopes : Resolver := ⟨"scopes", "", none, .database "postgres://db" "scopes"⟩

def api : Endpoint := ⟨"api", "", .get, none, [], .base "https://svc.example.com"⟩

def scope : Param := ⟨"scope", "", "string", scopes⟩

def region : Param := ⟨"region", "", "string", scopes⟩

def users : Endpoint :=
  ⟨"users", "", .get, none, [], .relative "/users/{scope}/{region}" api [scope, region]⟩

/-- A resolver is replaced in vain, and what the attempt returns supplies two parameters. -/
def usersNodes : List Node :=
  [.resolver scopes, .resolver { scopes with description := "replacement" }, .endpoint api,
    .param scope, .param region, .endpoint users,
    .resolver ⟨"by_user", "", none, .endpoint users none⟩]

theorem sourced_users : Sourced usersNodes := by
  have first : Sourced (usersNodes.take 1) := @Sourced.concat [] _ .nil nofun
  have again : Sourced (usersNodes.take 2) := @Sourced.concat (usersNodes.take 1) _ first nofun
  have base : Sourced (usersNodes.take 3) := @Sourced.concat (usersNodes.take 2) _ again nofun
  have one : Sourced (usersNodes.take 4) := by
    refine @Sourced.concat (usersNodes.take 3) _ base fun m held => ?_
    rw [List.mem_singleton.mp held]
    exact @GivenOut.result (usersNodes.take 3) (usersNodes.take 1) [.endpoint api] _ rfl
  have two : Sourced (usersNodes.take 5) := by
    refine @Sourced.concat (usersNodes.take 4) _ one fun m held => ?_
    rw [List.mem_singleton.mp held]
    exact .inside (.of_stored (r := (.param, "scope")) rfl) List.mem_cons_self
  have below : Sourced (usersNodes.take 6) := by
    refine @Sourced.concat (usersNodes.take 5) _ two fun m held => ?_
    have inside : m = .endpoint api ∨ m = .param scope ∨ m = .param region := by
      simpa [Node.contents, users] using held
    rcases inside with rfl | rfl | rfl
    · exact .of_stored (r := (.endpoint, "api")) rfl
    · exact .of_stored (r := (.param, "scope")) rfl
    · exact .of_stored (r := (.param, "region")) rfl
  refine @Sourced.concat (usersNodes.take 6) _ below fun m held => ?_
  rw [List.mem_singleton.mp held]
  exact .of_stored (r := (.endpoint, "users")) rfl

/-- The replacement is not kept, and the resolver that is kept supplies both parameters. -/
theorem built_closed_users :
    Sourced usersNodes ∧ (built usersNodes).node? (.resolver, "scopes") = some (.resolver scopes) ∧
      resolversFeeding users = [scopes] ∧ Feeding (built usersNodes) users [scopes] ∧
      Reading (built usersNodes) "users" [⟨"by_user", "", none, .endpoint users none⟩] := by
  obtain ⟨first, -, -, -, -, feeding, reading⟩ := built_closed sourced_users
  exact ⟨sourced_users, first _, rfl, feeding "users" users rfl, reading "users"⟩

end ResolutionGraph

end RestWiring
