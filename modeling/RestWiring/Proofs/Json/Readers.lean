import RestWiring.Proofs.Fallible
import RestWiring.Proofs.Json.Documents
import RestWiring.Proofs.SortedMap

/-!
# Readers and writers

A writer is faithful to a reader if everything that the reader makes of a document reads back from
what the writer makes of it. Readers that are put together out of others have faithful writers if
the others have: lists, maps, options, and records, whose writers may leave fields out that hold
what the reader gives them anyway.
-/
namespace RestWiring.Json

open Document (ofJson ofItems ofMembers anyItems anyMembers)

/-! ## Values as documents -/

theorem ofItems_eq (js : List Json) : ofItems js = js.map ofJson := by
  induction js with
  | nil => rfl
  | cons j js ih => rw [ofItems, ih]; rfl

theorem ofMembers_eq (ms : List (String × Json)) :
    ofMembers ms = ms.map fun m => (some m.1, ofJson m.2) := by
  induction ms with
  | nil => rfl
  | cons m ms ih => rw [ofMembers, ih]; rfl

/-- Whether all numbers in a value are ones that a text can be read as. -/
def InRange (j : Json) : Prop := ∀ n ∈ j.numbers, n.InRange

theorem inRange_array {items : List Json} :
    (Json.array items).InRange ↔ ∀ j ∈ items, j.InRange := by
  change (∀ n ∈ itemNumbers items, n.InRange) ↔ _
  induction items with
  | nil => simp [itemNumbers]
  | cons j js ih => rw [itemNumbers, List.forall_mem_append, List.forall_mem_cons, ih]; rfl

theorem inRange_object {members : List (String × Json)} :
    (Json.object members).InRange ↔ ∀ m ∈ members, m.2.InRange := by
  change (∀ n ∈ memberNumbers members, n.InRange) ↔ _
  induction members with
  | nil => simp [memberNumbers]
  | cons m ms ih => rw [memberNumbers, List.forall_mem_append, List.forall_mem_cons, ih]; rfl

namespace Document

theorem inRange_array {items : List Document} {closed : Bool} :
    (Document.array items closed).InRange ↔ ∀ d ∈ items, d.InRange := by
  change (∀ n ∈ itemNumbers items, n.InRange) ↔ _
  induction items with
  | nil => simp [itemNumbers]
  | cons d ds ih => rw [itemNumbers, List.forall_mem_append, List.forall_mem_cons, ih]; rfl

theorem inRange_object {members : List (Option String × Document)} {closed : Bool} :
    (Document.object members closed).InRange ↔ ∀ m ∈ members, m.2.InRange := by
  change (∀ n ∈ memberNumbers members, n.InRange) ↔ _
  induction members with
  | nil => simp [memberNumbers]
  | cons m ms ih => rw [memberNumbers, List.forall_mem_append, List.forall_mem_cons, ih]; rfl

mutual

theorem numbers_ofJson : (j : Json) → (ofJson j).numbers = j.numbers
  | .null | .bool _ | .number _ | .string _ => rfl
  | .array items => itemNumbers_ofItems items
  | .object members => memberNumbers_ofMembers members

theorem itemNumbers_ofItems : (js : List Json) → itemNumbers (ofItems js) = Json.itemNumbers js
  | [] => rfl
  | j :: js => by
    rw [ofItems, itemNumbers, Json.itemNumbers, numbers_ofJson j, itemNumbers_ofItems js]

theorem memberNumbers_ofMembers :
    (ms : List (String × Json)) → memberNumbers (ofMembers ms) = Json.memberNumbers ms
  | [] => rfl
  | (_, j) :: ms => by
    rw [ofMembers, memberNumbers, Json.memberNumbers, numbers_ofJson j, memberNumbers_ofMembers ms]

end

theorem inRange_ofJson {j : Json} (inRange : j.InRange) : (ofJson j).InRange := by
  unfold InRange
  rw [numbers_ofJson]
  exact inRange

end Document

/-! ## Faithful writers -/

/-- Whether a value reads back, at some depth, from what is written of it. -/
structure Stable {α : Type} (read : Reader α) (write : α → Json) (depth : Nat) (a : α) : Prop where
  back : read depth (ofJson (write a)) = .ok a
  inRange : (write a).InRange

/-- Whether everything that is read at a depth reads back from what is written of it. -/
structure Faithful {α : Type} (read : Reader α) (write : α → Json) (depth : Nat) : Prop where
  stable : ∀ {d : Document} {a : α}, d.InRange → read depth d = .ok a →
    Stable read write depth a

variable {α σ : Type} {depth : Nat}

theorem Stable.string (depth : Nat) (s : String) : Stable Reader.string .string depth s :=
  ⟨rfl, by rintro n ⟨⟩⟩

theorem Faithful.string (depth : Nat) : Faithful Reader.string .string depth where
  stable _ _ := .string _ _

section Any

/-- Values that read back one by one read back as items. -/
theorem anyItems_ofItems {js : List Json}
    (back : ∀ j ∈ js, Document.any depth (ofJson j) = .ok j) :
    anyItems depth (ofItems js) = .ok js := by
  induction js with
  | nil => rfl
  | cons j js ih =>
    obtain ⟨first, others⟩ := List.forall_mem_cons.mp back
    simp only [ofItems, anyItems, first, ih others]
    rfl

theorem anyMembers_ofMembers {ms : List (String × Json)}
    (back : ∀ m ∈ ms, Document.any depth (ofJson m.2) = .ok m.2) :
    anyMembers depth (ofMembers ms) = .ok ms := by
  induction ms with
  | nil => rfl
  | cons m ms ih =>
    obtain ⟨first, others⟩ := List.forall_mem_cons.mp back
    simp only [ofMembers, anyMembers, first, ih others]
    rfl

mutual

theorem any_stable {depth : Nat} : {d : Document} → (inRange : d.InRange) → {j : Json} →
    (read : Document.any depth d = .ok j) → Stable Reader.any id depth j
  | .null, _, j, read => by
    cases read
    exact ⟨rfl, by rintro n ⟨⟩⟩
  | .bool b, _, j, read => by
    cases read
    exact ⟨rfl, by rintro n ⟨⟩⟩
  | .string (some s), _, j, read => by
    cases read
    exact ⟨rfl, by rintro n ⟨⟩⟩
  | .number (some n), inRange, j, read => by
    cases read
    exact ⟨rfl, inRange⟩
  | .array items closed, inRange, j, read => by
    obtain ⟨inner, entered, read⟩ := bind_success_iff.mp read
    obtain ⟨js, items_read, closing⟩ := bind_success_iff.mp read
    split at closing
    · cases closing
      have stable := anyItems_stable (Document.inRange_array.mp inRange) items_read
      refine ⟨?_, inRange_array.mpr fun j member => (stable j member).inRange⟩
      refine bind_success_iff.mpr ⟨inner, entered, ?_⟩
      rw [anyItems_ofItems fun j member => (stable j member).back]
      rfl
    · cases closing
  | .object members closed, inRange, j, read => by
    obtain ⟨inner, entered, read⟩ := bind_success_iff.mp read
    obtain ⟨ms, members_read, closing⟩ := bind_success_iff.mp read
    split at closing
    · cases closing
      have stable := anyMembers_stable (Document.inRange_object.mp inRange) members_read
      have kept {m : String × Json} (member : m ∈ Entries.ofList ms) : m ∈ ms :=
        SortedMap.mem_of_mem_ofList (SortedMap.entries_ofList ms ▸ member)
      refine ⟨?_, inRange_object.mpr fun m member => (stable m (kept member)).inRange⟩
      refine bind_success_iff.mpr ⟨inner, entered, ?_⟩
      rw [anyMembers_ofMembers fun m member => (stable m (kept member)).back]
      exact congrArg (fun ms => Except.ok (Json.object ms)) (SortedMap.ofList_ofList ms)
    · cases closing

theorem anyItems_stable {depth : Nat} : {ds : List Document} → (inRange : ∀ d ∈ ds, d.InRange) →
    {js : List Json} → (read : anyItems depth ds = .ok js) →
    ∀ j ∈ js, Stable Reader.any id depth j
  | [], _, js, read => by
    cases read
    simp
  | d :: ds, inRange, js, read => by
    obtain ⟨first, others⟩ := List.forall_mem_cons.mp inRange
    obtain ⟨j, first_read, read⟩ := bind_success_iff.mp read
    obtain ⟨js, others_read, equal⟩ := bind_success_iff.mp read
    cases equal
    exact List.forall_mem_cons.mpr ⟨any_stable first first_read, anyItems_stable others others_read⟩

theorem anyMembers_stable {depth : Nat} : {ds : List (Option String × Document)} →
    (inRange : ∀ d ∈ ds, d.2.InRange) → {ms : List (String × Json)} →
    (read : anyMembers depth ds = .ok ms) → ∀ m ∈ ms, Stable Reader.any id depth m.2
  | [], _, ms, read => by
    cases read
    simp
  | (some name, d) :: ds, inRange, ms, read => by
    obtain ⟨first, others⟩ := List.forall_mem_cons.mp inRange
    obtain ⟨j, first_read, read⟩ := bind_success_iff.mp read
    obtain ⟨ms, others_read, equal⟩ := bind_success_iff.mp read
    cases equal
    exact List.forall_mem_cons.mpr
      ⟨any_stable first first_read, anyMembers_stable others others_read⟩

end

theorem Faithful.any (depth : Nat) : Faithful Reader.any id depth where
  stable inRange read := any_stable inRange read

/-- Only null reads as null. -/
theorem any_eq_null {d : Document} (read : Document.any depth d = .ok .null) : d = .null := by
  cases d with
  | null => rfl
  | broken | bool => cases read
  | number n => cases n <;> cases read
  | string s => cases s <;> cases read
  | array items closed | object items closed =>
    obtain ⟨_, -, read⟩ := bind_success_iff.mp read
    obtain ⟨_, -, closing⟩ := bind_success_iff.mp read
    split at closing <;> cases closing

end Any

/-! ## Options, lists and maps -/

section Containers

variable {read : Reader α} {write : α → Json}

/-- What is written of a value that may be absent. -/
def orNull (write : α → Json) : Option α → Json
  | some a => write a
  | none => .null

theorem option_of_ne_null {d : Document} (present : d ≠ .null) :
    Reader.option read depth d = some <$> read depth d := by
  cases d <;> first | rfl | exact absurd rfl present

theorem ofJson_ne_null {j : Json} (present : j ≠ .null) : ofJson j ≠ .null := by
  cases j <;> first | exact absurd rfl present | simp [ofJson]

theorem map_success_iff {β : Type} {f : α → β} {step : Except ReadFault α} {b : β} :
    f <$> step = .ok b ↔ ∃ a, step = .ok a ∧ f a = b := by
  cases step <;> simp [Functor.map, Except.map]

/-- A writer that writes null only for null is faithful also where a value may be null. -/
theorem Faithful.option (faithful : Faithful read write depth)
    (present : ∀ {d a}, read depth d = .ok a → write a = .null → d = .null) :
    Faithful (Reader.option read) (orNull write) depth := by
  refine ⟨fun {d v} inRange success => ?_⟩
  by_cases null : d = .null
  · subst null
    cases success
    exact ⟨rfl, by rintro n ⟨⟩⟩
  · rw [option_of_ne_null null, map_success_iff] at success
    obtain ⟨a, value_read, rfl⟩ := success
    obtain ⟨back, range⟩ := faithful.stable inRange value_read
    refine ⟨?_, range⟩
    have visible : write a ≠ .null := fun written => null (present value_read written)
    change Reader.option read depth (ofJson (write a)) = _
    rw [option_of_ne_null (ofJson_ne_null visible), back]
    rfl

theorem Stable.optionString (depth : Nat) (v : Option String) :
    Stable (Reader.option Reader.string) (orNull .string) depth v := by
  cases v <;> exact ⟨rfl, by rintro n ⟨⟩⟩

theorem Faithful.optionString (depth : Nat) :
    Faithful (Reader.option Reader.string) (orNull .string) depth where
  stable _ _ := .optionString _ _

theorem Faithful.optionAny (depth : Nat) :
    Faithful (Reader.option Reader.any) (orNull id) depth := by
  refine (Faithful.any depth).option fun {d a} success null => ?_
  cases (null : a = .null)
  exact any_eq_null success

/-- Items are read one level deeper. -/
theorem list_stable {inner : Nat} (entered : descend depth = .ok inner) {as : List α}
    (stable : ∀ a ∈ as, Stable read write inner a) :
    Stable (Reader.list read) (fun as => .array (as.map write)) depth as := by
  refine ⟨?_, inRange_array.mpr ?_⟩
  · refine bind_success_iff.mpr ⟨inner, entered, bind_success_iff.mpr ⟨as, ?_, rfl⟩⟩
    rw [ofItems_eq, List.map_map, mapM_success_iff, List.forall₂_map_left_iff, List.forall₂_same]
    exact fun a member => (stable a member).back
  · intro j member
    obtain ⟨a, inside, rfl⟩ := List.mem_map.mp member
    exact (stable a inside).inRange

theorem Faithful.list (faithful : ∀ inner, descend depth = .ok inner → Faithful read write inner) :
    Faithful (Reader.list read) (fun as => .array (as.map write)) depth := by
  refine ⟨fun {d as} inRange success => ?_⟩
  cases d with
  | array items closed =>
    obtain ⟨inner, entered, success⟩ := bind_success_iff.mp success
    obtain ⟨as', items_read, closing⟩ := bind_success_iff.mp success
    split at closing <;> cases closing
    refine list_stable entered fun a member => ?_
    obtain ⟨d, inside, item_read⟩ := exists_of_mem_right (mapM_success_iff.mp items_read) member
    exact (faithful inner entered).stable (Document.inRange_array.mp inRange d inside) item_read
  | broken | null | bool | object => cases success
  | number n => cases n <;> cases success
  | string s => cases s <;> cases success

theorem stable_of_mapMembers (faithful : Faithful read write depth)
    {ds : List (Option String × Document)} (inRange : ∀ m ∈ ds, m.2.InRange)
    {es : List (String × α)} (success : Reader.mapMembers read depth ds = .ok es) :
    ∀ e ∈ es, Stable read write depth e.2 := by
  induction ds generalizing es with
  | nil =>
    cases success
    simp
  | cons m ds ih =>
    obtain ⟨first, others⟩ := List.forall_mem_cons.mp inRange
    obtain ⟨name, d⟩ := m
    cases name with
    | none => cases success
    | some name =>
      obtain ⟨a, first_read, success⟩ := bind_success_iff.mp success
      obtain ⟨es', others_read, equal⟩ := bind_success_iff.mp success
      cases equal
      exact List.forall_mem_cons.mpr ⟨faithful.stable first first_read, ih others others_read⟩

theorem mapMembers_ofMembers {es : List (String × α)}
    (stable : ∀ e ∈ es, Stable read write depth e.2) :
    Reader.mapMembers read depth (ofMembers (es.map fun e => (e.1, write e.2))) = .ok es := by
  induction es with
  | nil => rfl
  | cons e es ih =>
    obtain ⟨first, others⟩ := List.forall_mem_cons.mp stable
    simp only [List.map_cons, ofMembers, Reader.mapMembers, first.back, ih others]
    rfl

/-- A map whose values read back one level deeper reads back. -/
theorem map_stable {inner : Nat} (entered : descend depth = .ok inner) {m : SortedMap String α}
    (stable : ∀ e ∈ m.entries, Stable read write inner e.2) :
    Stable (Reader.map read) (fun m => .object (m.map write).entries) depth m := by
  refine ⟨?_, inRange_object.mpr fun j member => ?_⟩
  · refine bind_success_iff.mpr ⟨inner, entered, bind_success_iff.mpr
      ⟨m.entries, mapMembers_ofMembers stable, ?_⟩⟩
    rw [if_pos rfl, SortedMap.ofList_entries]
  · obtain ⟨e, inside, rfl⟩ := List.mem_map.mp member
    exact (stable e inside).inRange

theorem Faithful.map (faithful : ∀ inner, descend depth = .ok inner → Faithful read write inner) :
    Faithful (Reader.map read) (fun m => .object (m.map write).entries) depth := by
  refine ⟨fun {d m} inRange success => ?_⟩
  cases d with
  | object members closed =>
    obtain ⟨inner, entered, success⟩ := bind_success_iff.mp success
    obtain ⟨es, members_read, closing⟩ := bind_success_iff.mp success
    split at closing <;> cases closing
    have collected := stable_of_mapMembers (faithful inner entered)
      (Document.inRange_object.mp inRange) members_read
    exact map_stable entered fun e member => collected e (SortedMap.mem_of_mem_ofList member)
  | broken | null | bool | array => cases success
  | number n => cases n <;> cases success
  | string s => cases s <;> cases success

theorem mapMembers_any (ds : List (Option String × Document)) :
    Reader.mapMembers Reader.any depth ds = anyMembers depth ds := by
  induction ds with
  | nil => rfl
  | cons m ds ih =>
    obtain ⟨name, d⟩ := m
    cases name with
    | none => rfl
    | some name => rw [Reader.mapMembers, anyMembers, ih]; rfl

/-- A document that is read as a map of values is read as an object, too. -/
theorem any_of_map {d : Document} {m : SortedMap String Json}
    (success : Reader.map Reader.any depth d = .ok m) :
    Document.any depth d = .ok (.object m.entries) := by
  cases d with
  | object members closed =>
    obtain ⟨inner, entered, success⟩ := bind_success_iff.mp success
    obtain ⟨es, members_read, closing⟩ := bind_success_iff.mp success
    split at closing
    · rename_i closed
      cases closing
      rw [mapMembers_any] at members_read
      refine bind_success_iff.mpr ⟨inner, entered, bind_success_iff.mpr ⟨es, members_read, ?_⟩⟩
      rw [if_pos closed, SortedMap.entries_ofList]
    · cases closing
  | broken | null | bool | array => cases success
  | number n => cases n <;> cases success
  | string s => cases s <;> cases success

theorem Faithful.textOrMap (ofText : String → α) (ofMap : SortedMap String Json → α)
    {name : String} {write : α → Json}
    (text : ∀ s, write (ofText s) = .string s)
    (map : ∀ m, write (ofMap m) = .object m.entries) :
    Faithful (DataFormat.textOrMap name ofText ofMap : Reader α) write depth := by
  refine ⟨fun {d a} inRange success => ?_⟩
  obtain ⟨j, whole, success⟩ := bind_success_iff.mp success
  have range := Document.inRange_ofJson ((Faithful.any depth).stable inRange whole).inRange
  split at success
  · rename_i a' as_text
    cases success
    obtain ⟨s, -, rfl⟩ := map_success_iff.mp as_text
    have written := text s
    refine ⟨?_, ?_⟩ <;> rw [written]
    · rfl
    · rintro n ⟨⟩
  · split at success
    · rename_i a' as_map
      cases success
      obtain ⟨m, read, rfl⟩ := map_success_iff.mp as_map
      obtain ⟨back, range⟩ := (Faithful.map fun inner _ => Faithful.any inner).stable range read
      have entries : (m.map id).entries = m.entries := List.map_id _
      rw [entries] at back range
      refine ⟨?_, (map m).symm ▸ range⟩
      rw [map m]
      refine bind_success_iff.mpr ⟨.object m.entries, any_of_map back, ?_⟩
      have not_text : (ofText <$> Reader.string : Reader α) depth (ofJson (.object m.entries)) =
          .error (.shape (.wrongType .map .string)) := rfl
      have as_map : (ofMap <$> Reader.map Reader.any : Reader α) depth
          (ofJson (.object m.entries)) = .ok (ofMap m) := map_success_iff.mpr ⟨m, back, rfl⟩
      simp only [not_text, as_map]
    · cases success

end Containers

/-! ## Records -/

section Records

variable {fields : List (Field Reader σ)} {other : String → Reader (σ → σ)}

/-- Whether no two fields go by one name. -/
def Distinct (fields : List (Field Reader σ)) : Prop :=
  (fields.flatMap fun f => f.name :: f.aliases).Nodup

/-- A field is found under its name. -/
theorem Distinct.find? (distinct : Distinct fields) :
    ∀ f ∈ fields, fields.find? (·.goesBy f.name) = some f := by
  induction fields with
  | nil => simp
  | cons g fields ih =>
    rw [Distinct, List.flatMap_cons, List.nodup_append] at distinct
    obtain ⟨-, others, apart⟩ := distinct
    refine List.forall_mem_cons.mpr ⟨?_, fun f member => ?_⟩
    · rw [List.find?_cons_of_pos]
      simp [Field.goesBy]
    · rw [List.find?_cons_of_neg]
      · exact ih others f member
      · have called : f.name ∈ fields.flatMap fun f => f.name :: f.aliases :=
          List.mem_flatMap.mpr ⟨f, member, List.mem_cons_self⟩
        have first : f.name ≠ g.name := fun same =>
          apart g.name List.mem_cons_self f.name called same.symm
        have alias_ : f.name ∉ g.aliases := fun inside =>
          apart f.name (List.mem_cons_of_mem _ inside) f.name called rfl
        simp [Field.goesBy, first.symm, alias_]

theorem Distinct.names (distinct : Distinct fields) : (fields.map (·.name)).Nodup := by
  refine distinct.sublist ?_
  induction fields with
  | nil => exact .slnil
  | cons f fields ih =>
    rw [Distinct, List.flatMap_cons, List.nodup_append] at distinct
    rw [List.map_cons, List.flatMap_cons, List.cons_append]
    exact ((ih distinct.2.1).trans (List.sublist_append_right _ _)).cons_cons _

/-- Whether members are those of fields in order, some left out, and reading them at a depth makes
one record of another. -/
inductive Fills (depth : Nat) :
    List (Field Reader σ) → List (String × Json) → σ → σ → Prop
  | done {s : σ} : Fills depth [] [] s s
  | present {field : Field Reader σ} {fields : List (Field Reader σ)} {j : Json}
      {members : List (String × Json)} {put : σ → σ} {s s' : σ}
      (read : field.read depth (ofJson j) = .ok put) (inRange : j.InRange)
      (rest : Fills depth fields members (put s) s') :
    Fills depth (field :: fields) ((field.name, j) :: members) s s'
  | leftOut {field : Field Reader σ} {fields : List (Field Reader σ)}
      {members : List (String × Json)} {s s' : σ} (optional : field.required = false)
      (rest : Fills depth fields members s s') :
    Fills depth (field :: fields) members s s'

variable {members : List (String × Json)} {s s' : σ}

theorem Fills.inRange (fills : Fills depth fields members s s') : ∀ m ∈ members, m.2.InRange := by
  induction fills with
  | done => simp
  | present _ inRange _ ih => exact List.forall_mem_cons.mpr ⟨inRange, ih⟩
  | leftOut _ _ ih => exact ih

theorem Fills.required (fills : Fills depth fields members s s') :
    ∀ f ∈ fields, f.required = true → f.name ∈ members.map (·.1) := by
  induction fills with
  | done => simp
  | present _ _ _ ih =>
    refine List.forall_mem_cons.mpr ⟨fun _ => List.mem_cons_self, fun f member needed => ?_⟩
    exact List.mem_cons_of_mem _ (ih f member needed)
  | leftOut optional _ ih =>
    refine List.forall_mem_cons.mpr ⟨fun needed => ?_, ih⟩
    rw [optional] at needed
    cases needed

/-- Members that fill a record are read one after another, whatever comes behind them. -/
theorem Fills.recordMembers {all : List (Field Reader σ)} (fills : Fills depth fields members s s')
    (found : ∀ f ∈ fields, all.find? (·.goesBy f.name) = some f)
    (names : (fields.map (·.name)).Nodup) {seen : List String} (new : ∀ f ∈ fields, f.name ∉ seen)
    (rest : List (Option String × Document)) :
    Reader.recordMembers all other depth (ofMembers members ++ rest) seen s =
      Reader.recordMembers all other depth rest ((members.map (·.1)).reverse ++ seen) s' := by
  induction fills generalizing seen with
  | done => rfl
  | @present field fields j members put s s' read inRange _ ih =>
    obtain ⟨first_found, found⟩ := List.forall_mem_cons.mp found
    obtain ⟨first_new, new⟩ := List.forall_mem_cons.mp new
    rw [List.map_cons, List.nodup_cons] at names
    obtain ⟨apart, names⟩ := names
    have still_new : ∀ f ∈ fields, f.name ∉ field.name :: seen := by
      intro f member
      rw [List.mem_cons, not_or]
      exact ⟨fun same => apart (same ▸ List.mem_map_of_mem member), new f member⟩
    have unseen : seen.contains field.name = false := by simpa using first_new
    rw [List.map_cons, List.reverse_cons, List.append_assoc]
    refine Eq.trans ?_ (ih found names still_new)
    simp only [ofMembers, List.cons_append, Reader.recordMembers, first_found, unseen, read]
    rfl
  | leftOut _ _ ih =>
    rw [List.map_cons, List.nodup_cons] at names
    exact ih (List.forall_mem_cons.mp found).2 names.2 (List.forall_mem_cons.mp new).2

/-- Whether a property of records is kept by what a field reads at a depth. -/
def Keeps (P : σ → Prop) (depth : Nat) (read : Reader (σ → σ)) : Prop :=
  ∀ d put, d.InRange → read depth d = .ok put → ∀ s, P s → P (put s)

theorem Keeps.recordMembers {P : σ → Prop} (keeps : ∀ f ∈ fields, Keeps P depth f.read)
    (others : ∀ name, fields.find? (·.goesBy name) = none → Keeps P depth (other name))
    {ds : List (Option String × Document)} (inRange : ∀ m ∈ ds, m.2.InRange)
    {seen seen' : List String}
    (success : Reader.recordMembers fields other depth ds seen s = .ok (seen', s'))
    (start : P s) : P s' := by
  induction ds generalizing seen s with
  | nil =>
    cases success
    exact start
  | cons m ds ih =>
    obtain ⟨first, later⟩ := List.forall_mem_cons.mp inRange
    obtain ⟨name, d⟩ := m
    cases name with
    | none => cases success
    | some name =>
      rw [Reader.recordMembers] at success
      split at success
      · rename_i field found
        split at success
        · cases success
        · obtain ⟨put, read, success⟩ := bind_success_iff.mp success
          exact ih later success
            (keeps field (List.mem_of_find?_eq_some found) d put first read s start)
      · rename_i found
        obtain ⟨put, read, success⟩ := bind_success_iff.mp success
        exact ih later success (others name found d put first read s start)

theorem Keeps.recordItems {P : σ → Prop} {name : String} {total : Nat}
    (keeps : ∀ f ∈ fields, Keeps P depth f.read) {ds : List Document}
    (inRange : ∀ d ∈ ds, d.InRange) {closed : Bool}
    (success : Reader.recordItems name total depth fields ds closed s = .ok s') (start : P s) :
    P s' := by
  induction fields generalizing ds s with
  | nil =>
    cases ds with
    | nil =>
      simp only [Reader.recordItems] at success
      split at success <;> cases success
      exact start
    | cons => cases success
  | cons field fields ih =>
    obtain ⟨first_keeps, keeps⟩ := List.forall_mem_cons.mp keeps
    cases ds with
    | nil =>
      cases closed with
      | false => cases success
      | true =>
        simp only [Reader.recordItems] at success
        split at success
        · cases success
        · exact ih keeps inRange success start
    | cons d ds =>
      obtain ⟨first, inRange⟩ := List.forall_mem_cons.mp inRange
      obtain ⟨put, read, success⟩ := bind_success_iff.mp success
      exact ih keeps inRange success (first_keeps d put first read s start)

/-- A record is read from an object that is closed and has every field that must be there. -/
theorem fromMembers_success_iff {outer : Nat} {ds : List (Option String × Document)}
    {closed : Bool} :
    Reader.fromMembers fields other s outer ds closed = .ok s' ↔
      closed = true ∧ ∃ inner seen, descend outer = .ok inner ∧
        Reader.recordMembers fields other inner ds [] s = .ok (seen, s') ∧
          ∀ f ∈ fields, f.required = true → f.name ∈ seen := by
  have complete (seen : List String) :
      (fields.find? fun f => f.required && !seen.contains f.name) = none ↔
        ∀ f ∈ fields, f.required = true → f.name ∈ seen := by
    simp [List.find?_eq_none]
  unfold Reader.fromMembers
  simp only [bind_success_iff]
  constructor
  · rintro ⟨inner, entered, ⟨seen, s''⟩, read, closing⟩
    cases closed with
    | false => cases closing
    | true =>
      simp only [Bool.not_true, Bool.false_eq_true, if_false] at closing
      split at closing
      · cases closing
      · rename_i nothing
        cases closing
        exact ⟨rfl, inner, seen, entered, read, (complete seen).mp nothing⟩
  · rintro ⟨rfl, inner, seen, entered, read, there⟩
    refine ⟨inner, entered, ⟨seen, s'⟩, read, ?_⟩
    simp only [(complete seen).mpr there]
    rfl

/-- Members that fill a record up, with others behind them, are read as the record. -/
theorem Fills.fromMembers {outer : Nat} (entered : descend outer = .ok depth)
    (distinct : Distinct fields) (fills : Fills depth fields members s s')
    {rest : List (String × Json)} {s'' : σ}
    (others : ∀ seen, Reader.recordMembers fields other depth (ofMembers rest) seen s' =
      .ok (seen, s'')) :
    Reader.fromMembers fields other s outer (ofMembers (members ++ rest)) true = .ok s'' := by
  have listed : ofMembers (members ++ rest) = ofMembers members ++ ofMembers rest := by
    simp only [ofMembers_eq, List.map_append]
  refine fromMembers_success_iff.mpr
    ⟨rfl, depth, (members.map (·.1)).reverse, entered, ?_, fun f member needed => ?_⟩
  · rw [listed, fills.recordMembers distinct.find? distinct.names (by simp), List.append_nil, others]
  · exact List.mem_reverse.mpr (fills.required f member needed)

/-- A record is written faithfully if every field keeps what the writer needs, and what is written
fills the record up. -/
theorem Faithful.record (fields : List (Field Reader σ)) (init : σ) {name : String}
    {P : Nat → σ → Prop} {members : σ → List (String × Json)} {outer : Nat}
    (distinct : Distinct fields)
    (start : ∀ inner, descend outer = .ok inner → P inner init)
    (keeps : ∀ inner, descend outer = .ok inner → ∀ f ∈ fields, Keeps (P inner) inner f.read)
    (fills : ∀ inner s, P inner s → Fills inner fields (members s) init s) :
    Faithful (Reader.record name fields init) (fun s => .object (members s)) outer := by
  refine ⟨fun {d s} inRange success => ?_⟩
  have stable {inner : Nat} (entered : descend outer = .ok inner) (kept : P inner s) :
      Stable (Reader.record name fields init) (fun s => .object (members s)) outer s := by
    have filled := fills inner s kept
    refine ⟨?_, inRange_object.mpr filled.inRange⟩
    have read : Reader.fromMembers fields Reader.skip init outer (ofMembers (members s ++ [])) true =
        .ok s := filled.fromMembers entered distinct fun _ => rfl
    rw [List.append_nil] at read
    exact read
  have skipped (depth : Nat) (other : String) : Keeps (P depth) depth (Reader.skip other) := by
    intro d put _ read s kept
    unfold Reader.skip at read
    split at read <;> cases read
    exact kept
  cases d with
  | object ds closed =>
    obtain ⟨-, inner, seen, entered, read, -⟩ := fromMembers_success_iff.mp success
    exact stable entered (Keeps.recordMembers (keeps inner entered)
      (fun name _ => skipped inner name) (Document.inRange_object.mp inRange) read
      (start inner entered))
  | array ds closed =>
    obtain ⟨inner, entered, success⟩ := bind_success_iff.mp success
    exact stable entered (Keeps.recordItems (keeps inner entered)
      (Document.inRange_array.mp inRange) success (start inner entered))
  | broken | null | bool => cases success
  | number n => cases n <;> cases success
  | string s => cases s <;> cases success

/-- Members that no field goes by are kept one after another. -/
theorem recordMembers_kept {keep : String → Json → σ → σ} {ms : List (String × Json)}
    (foreign : ∀ m ∈ ms, fields.find? (·.goesBy m.1) = none)
    (back : ∀ m ∈ ms, Document.any depth (ofJson m.2) = .ok m.2) (seen : List String) (s : σ) :
    Reader.recordMembers fields (fun name depth d => keep name <$> Document.any depth d) depth
        (ofMembers ms) seen s =
      .ok (seen, ms.foldl (fun s m => keep m.1 m.2 s) s) := by
  induction ms generalizing s with
  | nil => rfl
  | cons m ms ih =>
    obtain ⟨first, foreign⟩ := List.forall_mem_cons.mp foreign
    obtain ⟨first_back, back⟩ := List.forall_mem_cons.mp back
    rw [List.foldl_cons, ← ih foreign back]
    simp only [ofMembers, Reader.recordMembers, first, first_back]
    rfl

/-- A record that keeps its further members is written faithfully if these are written behind its
fields. -/
theorem Faithful.openRecord (fields : List (Field Reader σ)) (init : σ) (bare : σ → σ)
    (kept : σ → List (String × Json)) {name : String} {keep : String → Json → σ → σ}
    {P : Nat → σ → Prop} {members : σ → List (String × Json)} {outer : Nat}
    (distinct : Distinct fields) (start : ∀ inner, P inner init)
    (keeps : ∀ inner, ∀ f ∈ fields, Keeps (P inner) inner f.read)
    (keeps_kept : ∀ inner name j s, fields.find? (·.goesBy name) = none →
      Stable Reader.any id inner j → P inner s → P inner (keep name j s))
    (fills : ∀ inner s, P inner s → Fills inner fields (members s) init (bare s))
    (foreign : ∀ inner s, P inner s → ∀ m ∈ kept s,
      fields.find? (·.goesBy m.1) = none ∧ Stable Reader.any id inner m.2)
    (collected : ∀ s, (kept s).foldl (fun s m => keep m.1 m.2 s) (bare s) = s) :
    Faithful (Reader.openRecord name fields keep init) (fun s => .object (members s ++ kept s))
      outer := by
  refine ⟨fun {d s} inRange success => ?_⟩
  cases d with
  | object ds closed =>
    obtain ⟨-, inner, seen, entered, read, -⟩ := fromMembers_success_iff.mp success
    have others (name : String) (unknown : fields.find? (·.goesBy name) = none) :
        Keeps (P inner) inner fun depth d => keep name <$> Document.any depth d := by
      intro d put range put_read s holds
      obtain ⟨j, value_read, rfl⟩ := map_success_iff.mp put_read
      exact keeps_kept inner name j s unknown ((Faithful.any inner).stable range value_read) holds
    have holds : P inner s := Keeps.recordMembers (keeps inner) others
      (Document.inRange_object.mp inRange) read (start inner)
    have filled := fills inner s holds
    refine ⟨?_, inRange_object.mpr fun m member => ?_⟩
    · refine filled.fromMembers entered distinct fun seen => ?_
      rw [recordMembers_kept (fun m member => (foreign inner s holds m member).1)
        (fun m member => (foreign inner s holds m member).2.back), collected]
    · rcases List.mem_append.mp member with own | further
      · exact filled.inRange m own
      · exact (foreign inner s holds m further).2.inRange
  | broken | null | bool | array => cases success
  | number n => cases n <;> cases success
  | string s => cases s <;> cases success

end Records

/-! ## Fields -/

section Fields

variable {fields : List (Field Reader σ)} {members : List (String × Json)} {s s' : σ}
  {read : Reader α} {write : α → Json} {put : α → σ → σ} {name : String}

/-- A field keeps a property if putting in what reads back keeps it. -/
theorem Faithful.keeps {P : σ → Prop} (faithful : Faithful read write depth)
    (step : ∀ a s, Stable read write depth a → P s → P (put a s)) :
    Keeps P depth (put <$> read : Reader (σ → σ)) := by
  intro d put' range success s holds
  obtain ⟨a, value_read, rfl⟩ := map_success_iff.mp success
  exact step a s (faithful.stable range value_read) holds

/-- A field that is written always. -/
theorem Fills.value {aliases : List String} {required : Bool} {a : α}
    (stable : Stable read write depth a)
    (rest : Fills depth fields members (put a s) s') :
    Fills depth (⟨name, aliases, required, put <$> read⟩ :: fields) ((name, write a) :: members)
      s s' := by
  have back : (put <$> read : Reader (σ → σ)) depth (ofJson (write a)) = .ok (put a) :=
    map_success_iff.mpr ⟨a, stable.back, rfl⟩
  exact .present back stable.inRange rest

/-- A field that is left out when it holds what an empty record holds. -/
theorem Fills.unlessEmpty {aliases : List String} {a standard : α} {empty : Bool}
    (stable : empty = false → Stable read write depth a)
    (left_out : empty = true → a = standard) (absent : put standard s = s)
    (rest : Fills depth fields members (put a s) s') :
    Fills depth (⟨name, aliases, false, put <$> read⟩ :: fields)
      (Json.omittedIf empty name (write a) ++ members) s s' := by
  cases empty with
  | false => exact .value (stable rfl) rest
  | true =>
    rw [left_out rfl, absent] at rest
    exact .leftOut rfl rest

/-- A field that is left out when it has no value. -/
theorem Fills.option {aliases : List String} {put : Option α → σ → σ} {v : Option α}
    (stable : Stable (Reader.option read) (orNull write) depth v)
    (absent : put none s = s) (rest : Fills depth fields members (put v s) s') :
    Fills depth (⟨name, aliases, false, put <$> Reader.option read⟩ :: fields)
      (Json.optional name (v.map write) ++ members) s s' := by
  cases v with
  | some a => exact .value stable rest
  | none =>
    rw [absent] at rest
    exact .leftOut rfl rest

/-- A field of any value that is left out when it has none. -/
theorem Fills.optionAny {aliases : List String} {put : Option Json → σ → σ} {v : Option Json}
    (stable : Stable (Reader.option Reader.any) (orNull id) depth v)
    (absent : put none s = s) (rest : Fills depth fields members (put v s) s') :
    Fills depth (⟨name, aliases, false, put <$> Reader.option Reader.any⟩ :: fields)
      (Json.optional name v ++ members) s s' := by
  have filled : Fills depth (⟨name, aliases, false, put <$> Reader.option Reader.any⟩ :: fields)
      (Json.optional name (v.map id) ++ members) s s' := .option stable absent rest
  rwa [Option.map_id, id] at filled

end Fields

/-! ## Whole texts -/

/-- A value in range whose doubles read back is readable. -/
theorem InRange.readable {j : Json} (inRange : j.InRange)
    (doubles : ∀ d, .double d ∈ j.numbers → d.ReadsBack) : j.Readable := by
  intro n member
  cases n with
  | int i => exact .of_int (inRange _ member)
  | double d => exact doubles d member

theorem ofText_success_iff {read : Reader α} {text : String} {a : α} :
    read.ofText text = .ok a ↔
      read depthLimit (Document.ofText text).1 = .ok a ∧ (Document.ofText text).2 = true := by
  unfold Reader.ofText
  simp only [bind_success_iff]
  constructor
  · rintro ⟨a', success, closing⟩
    split at closing
    · rename_i ended
      cases closing
      exact ⟨success, ended⟩
    · cases closing
  · rintro ⟨success, ended⟩
    exact ⟨a, success, if_pos ended⟩

/-- A value that has been read from a text is read again from the texts of what is written of it. -/
theorem Faithful.ofText {read : Reader α} {write : α → Json}
    (faithful : Faithful read write depthLimit) {source : String} {a : α}
    (success : read.ofText source = .ok a)
    (doubles : ∀ d, .double d ∈ (write a).numbers → d.ReadsBack) :
    read.ofText (write a).compact = .ok a ∧ read.ofText (write a).pretty = .ok a := by
  have stable := faithful.stable (Document.ofText_inRange source) (ofText_success_iff.mp success).1
  have readable := stable.inRange.readable doubles
  constructor
  · rw [ofText_success_iff, ofText_compact readable]
    exact ⟨stable.back, rfl⟩
  · rw [ofText_success_iff, ofText_pretty readable]
    exact ⟨stable.back, rfl⟩

end RestWiring.Json
