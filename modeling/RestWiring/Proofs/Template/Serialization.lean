import RestWiring.Proofs.Json.Readers
import RestWiring.Template.Format

/-!
# Templates survive serialization

Every declaration is written faithfully: what is left out of its text is what its reader gives it
without, and settings that stand beside the fields of an output have other names than these. A
template that has been read from a text is therefore read again from the text that is written of it.
-/
namespace RestWiring

open Json (Reader Faithful Stable Fills Keeps Distinct orNull descend)

theorem ParamUse.faithful (depth : Nat) :
    Faithful (ParamUse.reader : Reader ParamUse) ParamUse.toJson depth :=
  Faithful.textOrMap ParamUse.name ParamUse.keyed (fun _ => rfl) fun _ => rfl

namespace EndpointDecl

/-- What reads back of an endpoint beside its texts. -/
structure Kept (depth : Nat) (e : EndpointDecl) : Prop where
  params : e.params.isEmpty = false →
    Stable (Reader.list ParamUse.reader) (fun uses => .array (uses.map ParamUse.toJson)) depth
      e.params
  body : Stable (Reader.option Reader.any) (orNull id) depth e.body
  outputs : e.outputs.isEmpty = false →
    Stable (Reader.list Reader.string) (fun names => .array (names.map Json.string)) depth
      e.outputs

theorem faithful (depth : Nat) : Faithful (reader : Reader EndpointDecl) toJson depth := by
  refine Faithful.record fields { kind := "" } (P := Kept) (by unfold Distinct; decide) ?_ ?_ ?_
  · exact fun inner _ => ⟨nofun, ⟨rfl, by rintro n ⟨⟩⟩, nofun⟩
  · intro inner _
    simp only [fields, List.forall_mem_cons]
    refine ⟨(Faithful.string inner).keeps fun _ _ _ kept => { kept with },
      (Faithful.string inner).keeps fun _ _ _ kept => { kept with },
      (Faithful.optionString inner).keeps fun _ _ _ kept => { kept with },
      (Faithful.optionString inner).keeps fun _ _ _ kept => { kept with },
      (Faithful.optionString inner).keeps fun _ _ _ kept => { kept with },
      (Faithful.list fun deeper _ => ParamUse.faithful deeper).keeps fun _ _ stable kept =>
        { kept with params := fun _ => stable },
      (Faithful.optionString inner).keeps fun _ _ _ kept => { kept with },
      (Faithful.optionAny inner).keeps fun _ _ stable kept => { kept with body := stable },
      (Faithful.list fun deeper _ => Faithful.string deeper).keeps fun _ _ stable kept =>
        { kept with outputs := fun _ => stable }, nofun⟩
  · intro inner e kept
    rw [← List.append_nil (_ ++ _)]
    simp only [List.append_assoc]
    exact .value (.string inner e.kind) <|
      .unlessEmpty (fun _ => .string inner e.description) String.isEmpty_iff.mp rfl <|
      .option (.optionString inner e.url) rfl <|
      .option (.optionString inner e.base) rfl <|
      .option (.optionString inner e.relative) rfl <|
      .unlessEmpty kept.params List.isEmpty_iff.mp rfl <|
      .option (.optionString inner e.method) rfl <|
      .optionAny kept.body rfl <|
      .unlessEmpty kept.outputs List.isEmpty_iff.mp rfl <|
      .done

end EndpointDecl

theorem ParamDecl.faithful (depth : Nat) :
    Faithful (ParamDecl.reader : Reader ParamDecl) ParamDecl.toJson depth := by
  refine Faithful.record ParamDecl.fields { resolver := "" } (P := fun _ _ => True)
    (by unfold Distinct; decide) ?_ ?_ ?_
  · exact fun _ _ => trivial
  · exact fun _ _ _ _ _ _ _ _ _ _ => trivial
  · intro inner p _
    rw [← List.append_nil (_ ++ _)]
    simp only [List.append_assoc]
    exact .value (.string inner p.type) <|
      .value (.string inner p.resolver) <|
      .unlessEmpty (fun _ => .string inner p.description) String.isEmpty_iff.mp rfl <|
      .done

namespace ResolverDecl

/-- What reads back of a resolver beside its texts. -/
def Kept (depth : Nat) (r : ResolverDecl) : Prop :=
  Stable (Reader.option Reader.any) (orNull id) depth r.authentication

theorem faithful (depth : Nat) : Faithful (reader : Reader ResolverDecl) toJson depth := by
  refine Faithful.record fields { kind := "" } (P := Kept) (by unfold Distinct; decide) ?_ ?_ ?_
  · exact fun inner _ => ⟨rfl, by rintro n ⟨⟩⟩
  · intro inner _
    simp only [fields, List.forall_mem_cons]
    exact ⟨(Faithful.string inner).keeps fun _ _ _ kept => kept,
      (Faithful.string inner).keeps fun _ _ _ kept => kept,
      (Faithful.optionString inner).keeps fun _ _ _ kept => kept,
      (Faithful.optionString inner).keeps fun _ _ _ kept => kept,
      (Faithful.optionString inner).keeps fun _ _ _ kept => kept,
      (Faithful.optionString inner).keeps fun _ _ _ kept => kept,
      (Faithful.optionAny inner).keeps fun _ _ stable _ => stable, nofun⟩
  · intro inner r kept
    rw [← List.append_nil (_ ++ _)]
    simp only [List.append_assoc]
    exact .value (.string inner r.kind) <|
      .unlessEmpty (fun _ => .string inner r.description) String.isEmpty_iff.mp rfl <|
      .option (.optionString inner r.endpoint) rfl <|
      .option (.optionString inner r.select) rfl <|
      .option (.optionString inner r.connectionString) rfl <|
      .option (.optionString inner r.table) rfl <|
      .optionAny kept rfl <|
      .done

end ResolverDecl

namespace OutputDecl

/-- What holds of the settings of an output: they read back, and no field goes by their names. -/
def Kept (depth : Nat) (o : OutputDecl) : Prop :=
  ∀ m ∈ o.config.entries, (fields : List (Field Reader OutputDecl)).find? (·.goesBy m.1) = none ∧
    Stable Reader.any id depth m.2

/-- An output without its settings. -/
def bare (o : OutputDecl) : OutputDecl := { o with config := ∅ }

theorem foldl_insert (o : OutputDecl) (entries : List (String × Json)) :
    entries.foldl (fun o m => { o with config := o.config.insert m.1 m.2 }) o =
      { o with config := entries.foldl (fun c m => c.insert m.1 m.2) o.config } := by
  induction entries generalizing o with
  | nil => rfl
  | cons m entries ih => exact ih _

theorem faithful (depth : Nat) : Faithful (reader : Reader OutputDecl) toJson depth := by
  refine Faithful.openRecord fields { kind := "", target := "" } bare (fun o => o.config.entries)
    (P := Kept) (by unfold Distinct; decide) ?_ ?_ ?_ ?_ ?_ ?_
  · rintro inner m ⟨⟩
  · intro inner
    simp only [fields, List.forall_mem_cons]
    exact ⟨(Faithful.string inner).keeps fun _ _ _ kept => kept,
      (Faithful.string inner).keeps fun _ _ _ kept => kept,
      (Faithful.string inner).keeps fun _ _ _ kept => kept, nofun⟩
  · intro inner name j o unknown stable kept m member
    rcases Entries.mem_insert member with rfl | before
    · exact ⟨unknown, stable⟩
    · exact kept m before
  · intro inner o _
    rw [← List.append_nil (_ ++ _)]
    simp only [List.append_assoc]
    exact .value (.string inner o.kind) <|
      .value (.string inner o.target) <|
      .unlessEmpty (fun _ => .string inner o.description) String.isEmpty_iff.mp rfl <|
      .done
  · exact fun inner o kept => kept
  · intro o
    rw [foldl_insert]
    exact congrArg (fun config => { o with config }) o.config.ofList_entries

end OutputDecl

theorem Metadata.faithful (depth : Nat) :
    Faithful (Metadata.reader : Reader Metadata) Metadata.toJson depth := by
  refine Faithful.record Metadata.fields {} (P := fun inner m => m.tags.isEmpty = false →
      Stable (Reader.list Reader.string) (fun names => .array (names.map Json.string)) inner m.tags)
    (by unfold Distinct; decide) ?_ ?_ ?_
  · exact fun _ _ => nofun
  · intro inner _
    simp only [Metadata.fields, List.forall_mem_cons]
    exact ⟨(Faithful.string inner).keeps fun _ _ _ kept => kept,
      (Faithful.list fun deeper _ => Faithful.string deeper).keeps fun _ _ stable _ _ => stable,
      nofun⟩
  · intro inner m kept
    rw [← List.append_nil (_ ++ _)]
    simp only [List.append_assoc]
    exact .value (.string inner m.name) <|
      .unlessEmpty kept List.isEmpty_iff.mp rfl <|
      .done

/-- What is still to be entered where a container has been entered. -/
theorem descend_eq {depth inner : Nat} (entered : descend depth = .ok inner) :
    depth = inner + 1 := by
  unfold descend at entered
  split at entered <;> cases entered
  rfl

namespace Declarations

/-- What reads back of declarations. -/
structure Kept (depth : Nat) (c : Declarations) : Prop where
  endpoints : Stable (Reader.map EndpointDecl.reader)
    (fun m => .object (m.map EndpointDecl.toJson).entries) depth c.endpoints
  params : Stable (Reader.map ParamDecl.reader)
    (fun m => .object (m.map ParamDecl.toJson).entries) depth c.params
  resolvers : Stable (Reader.map ResolverDecl.reader)
    (fun m => .object (m.map ResolverDecl.toJson).entries) depth c.resolvers
  outputs : Stable (Reader.map OutputDecl.reader)
    (fun m => .object (m.map OutputDecl.toJson).entries) depth c.outputs

/-- No declarations read back where there is a level left to enter. -/
theorem kept_empty (depth : Nat) : Kept (depth + 2) {} := by
  have empty {α : Type} {read : Reader α} {write : α → Json} :
      Stable (Reader.map read) (fun m => .object (m.map write).entries) (depth + 2) ∅ :=
    Json.map_stable rfl (by rintro e ⟨⟩)
  exact ⟨empty, empty, empty, empty⟩

theorem faithful (depth : Nat) : Faithful (reader : Reader Declarations) toJson (depth + 3) := by
  refine Faithful.record fields {} (P := Kept) (by unfold Distinct; decide) ?_ ?_ ?_
  · intro inner entered
    obtain rfl : inner = depth + 2 := by
      have := descend_eq entered
      omega
    exact kept_empty depth
  · intro inner _
    simp only [fields, List.forall_mem_cons]
    exact ⟨(Faithful.map fun deeper _ => EndpointDecl.faithful deeper).keeps fun _ _ stable kept =>
        { kept with endpoints := stable },
      (Faithful.map fun deeper _ => ParamDecl.faithful deeper).keeps fun _ _ stable kept =>
        { kept with params := stable },
      (Faithful.map fun deeper _ => ResolverDecl.faithful deeper).keeps fun _ _ stable kept =>
        { kept with resolvers := stable },
      (Faithful.map fun deeper _ => OutputDecl.faithful deeper).keeps fun _ _ stable kept =>
        { kept with outputs := stable }, nofun⟩
  · intro inner c kept
    exact .value kept.endpoints <| .value kept.params <| .value kept.resolvers <|
      .value kept.outputs .done

end Declarations

namespace Template

/-- What reads back of a template beside its texts. -/
structure Kept (depth : Nat) (t : Template) : Prop where
  metadata : Stable Metadata.reader Metadata.toJson depth t.metadata
  config : Stable Declarations.reader Declarations.toJson depth t.config

theorem faithful (depth : Nat) : Faithful (reader : Reader Template) toJson (depth + 4) := by
  refine Faithful.record fields { version := "", kind := "", config := {} } (P := Kept)
    (by unfold Distinct; decide) ?_ ?_ ?_
  · intro inner entered
    obtain rfl : inner = depth + 3 := by
      have := descend_eq entered
      omega
    exact ⟨(Metadata.faithful _).stable (d := .object [] true) nofun rfl,
      (Declarations.faithful depth).stable (d := .object [] true) nofun rfl⟩
  · intro inner entered
    obtain rfl : inner = depth + 3 := by
      have := descend_eq entered
      omega
    simp only [fields, List.forall_mem_cons]
    exact ⟨(Faithful.string _).keeps fun _ _ _ kept => { kept with },
      (Faithful.string _).keeps fun _ _ _ kept => { kept with },
      (Metadata.faithful _).keeps fun _ _ stable kept => { kept with metadata := stable },
      (Declarations.faithful depth).keeps fun _ _ stable kept => { kept with config := stable },
      nofun⟩
  · intro inner t kept
    exact .value (.string inner t.version) <| .value (.string inner t.kind) <|
      .value kept.metadata <| .value kept.config .done

/-- A template that has been read from a text survives being written and read: it is read again from
its own text, be it dense or indented, as long as its doubles read back from theirs. -/
theorem survives_serialization {source : String} {t : Template}
    (read : ofJsonText source = .ok t)
    (doubles : ∀ d, .double d ∈ t.toJson.numbers → d.ReadsBack) :
    ofJsonText t.toJson.compact = .ok t ∧ ofJsonText t.toJson.pretty = .ok t :=
  (faithful 124).ofText read doubles

/-- A value that spells a template out otherwise than the template does: with an empty description,
a body that is null, another name for a field and members in another order. -/
def shopJson : Json :=
  .object
    [("version", .string "1"), ("kind", .string "shop"),
     ("config", .object
       [("resolvers", .object
          [("rates", .object [("connection_string", .string "db"), ("kind", .string "database")])]),
        ("endpoints", .object
          [("orders", .object
             [("kind", .string "relativeurl"), ("description", .string ""), ("body", .null),
              ("params", .array
                [.string "since", .object [],
                 .object [("until", .null), ("limit", .number (.double ⟨false, 2 ^ 52, -53⟩))]])])]),
        ("outputs", .object
          [("log", .object
             [("ttl", .int 3), ("target", .string "orders"), ("kind", .string "queue")])])])]

def shop : Template where
  version := "1"
  kind := "shop"
  config :=
    { endpoints := .ofList
        [("orders",
          { kind := "relativeurl"
            params :=
              [.name "since", .keyed ∅,
               .keyed (.ofList
                [("limit", .number (.double ⟨false, 2 ^ 52, -53⟩)), ("until", .null)])] })]
      resolvers := .ofList [("rates", { kind := "database", connectionString := some "db" })]
      outputs := .ofList
        [("log", { kind := "queue", target := "orders", config := .ofList [("ttl", .int 3)] })] }

theorem survives_serialization_shop :
    ofJsonText shopJson.compact = .ok shop ∧ ofJsonText shop.toJson.compact = .ok shop ∧
      ofJsonText shop.toJson.pretty = .ok shop := by
  have half : Double.ReadsBack ⟨false, 2 ^ 52, -53⟩ := by
    unfold Double.ReadsBack
    decide +kernel
  have readable : shopJson.Readable := by
    have numbers : shopJson.numbers = [.double ⟨false, 2 ^ 52, -53⟩, .int 3] := rfl
    intro n member
    rw [numbers] at member
    simp only [List.mem_cons, List.not_mem_nil, or_false] at member
    rcases member with rfl | rfl
    · exact half
    · exact .of_int ⟨by decide, by decide⟩
  have read : ofJsonText shopJson.compact = .ok shop := by
    refine Json.ofText_success_iff.mpr ?_
    rw [Json.ofText_compact readable]
    exact ⟨rfl, rfl⟩
  refine ⟨read, survives_serialization read fun d member => ?_⟩
  have numbers : shop.toJson.numbers = [.double ⟨false, 2 ^ 52, -53⟩, .int 3] := rfl
  rw [numbers] at member
  simp only [List.mem_cons, Number.double.injEq, List.not_mem_nil, or_false, reduceCtorEq] at member
  exact member ▸ half

end Template

end RestWiring
