import Mathlib.Data.List.Nodup
import RestWiring.SortedMap

/-!
# Looking up in sorted maps

What every operation on a `SortedMap` does to look-ups, and that look-ups determine a map. Later
modules reason about maps through `find?` alone and never open the list of entries.
-/
namespace RestWiring

theorem Key.apart_iff {κ : Type} [Key κ] {a b : κ} :
    (Key.before a b || Key.before b a) = true ↔ a ≠ b := by
  constructor
  · rintro apart rfl
    simp [Key.irrefl] at apart
  · intro different
    by_contra together
    simp only [Bool.or_eq_true, not_or, Bool.not_eq_true] at together
    exact different (Key.total together.1 together.2)

/-- Lists in strictly ascending order are determined by their members. -/
theorem Key.eq_of_ascending {κ α : Type} [Key κ] (key : α → κ) {as bs : List α}
    (ascending : as.Pairwise fun a b => Key.before (key a) (key b) = true)
    (ascending' : bs.Pairwise fun a b => Key.before (key a) (key b) = true)
    (same : ∀ a, a ∈ as ↔ a ∈ bs) : as = bs := by
  have distinct {l : List α} (h : l.Pairwise fun a b => Key.before (key a) (key b) = true) :
      l.Nodup := h.imp fun {a b} before equal => by simp [equal, Key.irrefl] at before
  have permuted : as.Perm bs :=
    (List.perm_ext_iff_of_nodup (distinct ascending) (distinct ascending')).mpr same
  refine permuted.eq_of_pairwise ?_ ascending ascending'
  intro a b _ _ forward backward
  have loop := Key.trans forward backward
  rw [Key.irrefl] at loop
  cases loop

/-- What comes before an item of an ascending list is listed before it. -/
theorem Key.mem_of_before {κ α : Type} [Key κ] (key : α → κ) {earlier later : List α} {a b : α}
    (ascending : (earlier ++ a :: later).Pairwise fun x y => Key.before (key x) (key y) = true)
    (listed : b ∈ earlier ++ a :: later) (before : Key.before (key b) (key a) = true) :
    b ∈ earlier := by
  rcases List.mem_append.mp listed with member | member
  · exact member
  · rcases List.mem_cons.mp member with rfl | member
    · simp [Key.irrefl] at before
    · have after := (List.pairwise_cons.mp (List.pairwise_append.mp ascending).2.1).1 _ member
      have around := Key.trans before after
      simp [Key.irrefl] at around

namespace Entries

variable {κ α : Type} [Key κ]

theorem find?_cons_self (k : κ) (v : α) (rest : Entries κ α) :
    find? k ((k, v) :: rest) = some v := by
  simp [find?, Key.irrefl]

theorem find?_cons_of_ne {k k' : κ} (v : α) (rest : Entries κ α) (different : k ≠ k') :
    find? k ((k', v) :: rest) = find? k rest := by
  have apart := Key.apart_iff.mpr different
  rw [find?, if_pos apart]

theorem find?_insert_self (k : κ) (v : α) (es : Entries κ α) :
    find? k (insert k v es) = some v := by
  induction es with
  | nil => exact find?_cons_self k v []
  | cons head rest ih =>
    obtain ⟨k', v'⟩ := head
    simp only [insert]
    split
    · exact find?_cons_self k v _
    · split
      · rename_i later
        have different : k ≠ k' := by
          rintro rfl
          simp [Key.irrefl] at later
        rw [find?_cons_of_ne _ _ different]
        exact ih
      · exact find?_cons_self k v _

theorem find?_insert_of_ne {k k' : κ} (v : α) (es : Entries κ α) (different : k' ≠ k) :
    find? k' (insert k v es) = find? k' es := by
  induction es with
  | nil => exact find?_cons_of_ne v [] different
  | cons head rest ih =>
    obtain ⟨k'', v''⟩ := head
    simp only [insert]
    split
    · exact find?_cons_of_ne v _ different
    · rename_i notBefore
      split
      · by_cases same : k' = k''
        · subst same
          rw [find?_cons_self, find?_cons_self]
        · rw [find?_cons_of_ne _ _ same, find?_cons_of_ne _ _ same]
          exact ih
      · rename_i notAfter
        have equal : k = k'' := Key.total (by simpa using notBefore) (by simpa using notAfter)
        subst equal
        rw [find?_cons_of_ne _ _ different, find?_cons_of_ne _ _ different]

theorem mem_of_find? {k : κ} {v : α} {es : Entries κ α} (found : find? k es = some v) :
    (k, v) ∈ es := by
  induction es with
  | nil => simp [find?] at found
  | cons head rest ih =>
    obtain ⟨k', v'⟩ := head
    by_cases same : k = k'
    · subst same
      rw [find?_cons_self] at found
      cases found
      exact List.mem_cons_self
    · rw [find?_cons_of_ne _ _ same] at found
      exact List.mem_cons_of_mem _ (ih found)

theorem find?_of_mem {k : κ} {v : α} {es : Entries κ α} (ascending : Ascending es)
    (member : (k, v) ∈ es) :
    find? k es = some v := by
  induction es with
  | nil => cases member
  | cons head rest ih =>
    obtain ⟨k', v'⟩ := head
    have ⟨first, tail⟩ := List.pairwise_cons.mp ascending
    rcases List.mem_cons.mp member with equal | later
    · cases equal
      exact find?_cons_self k v rest
    · have different : k ≠ k' := by
        rintro rfl
        simpa [Key.irrefl] using first _ later
      rw [find?_cons_of_ne _ _ different]
      exact ih tail later

theorem mem_iff_find? {k : κ} {v : α} {es : Entries κ α} (ascending : Ascending es) :
    (k, v) ∈ es ↔ find? k es = some v :=
  ⟨find?_of_mem ascending, mem_of_find?⟩

theorem find?_map {β : Type} (f : α → β) (k : κ) (es : Entries κ α) :
    find? k (es.map fun e => (e.1, f e.2)) = (find? k es).map f := by
  induction es with
  | nil => rfl
  | cons head rest ih =>
    obtain ⟨k', v⟩ := head
    rw [List.map_cons]
    by_cases same : k = k'
    · subst same
      rw [find?_cons_self, find?_cons_self]
      rfl
    · rw [find?_cons_of_ne _ _ same, find?_cons_of_ne _ _ same]
      exact ih

/-- Strictly ascending entries are determined by their members. -/
theorem eq_of_mem_iff {es es' : Entries κ α} (ascending : Ascending es) (ascending' : Ascending es')
    (same : ∀ e, e ∈ es ↔ e ∈ es') : es = es' :=
  Key.eq_of_ascending Prod.fst ascending ascending' same

end Entries

namespace SortedMap

variable {κ α β : Type} [Key κ]

theorem mem_entries {m : SortedMap κ α} {k : κ} {v : α} : (k, v) ∈ m.entries ↔ m.find? k = some v :=
  Entries.mem_iff_find? m.ascending

/-- Maps with the same look-ups are the same. -/
theorem ext_find? {m n : SortedMap κ α} (same : ∀ k, m.find? k = n.find? k) : m = n := by
  apply SortedMap.ext
  refine Entries.eq_of_mem_iff m.ascending n.ascending ?_
  rintro ⟨k, v⟩
  rw [mem_entries, mem_entries, same k]

@[simp] theorem find?_empty (k : κ) : (∅ : SortedMap κ α).find? k = none := rfl

theorem contains_iff {m : SortedMap κ α} {k : κ} :
    m.contains k = true ↔ ∃ v, m.find? k = some v := by
  simp [contains, Option.isSome_iff_exists]

theorem contains_eq_false_iff {m : SortedMap κ α} {k : κ} :
    m.contains k = false ↔ m.find? k = none := by
  simp [contains]

@[simp] theorem contains_empty (k : κ) : (∅ : SortedMap κ α).contains k = false := rfl

theorem mem_keys {m : SortedMap κ α} {k : κ} : k ∈ m.keys ↔ ∃ v, m.find? k = some v := by
  simp [keys, mem_entries]

theorem mem_keys_iff_contains {m : SortedMap κ α} {k : κ} : k ∈ m.keys ↔ m.contains k = true := by
  rw [mem_keys, contains_iff]

theorem mem_values {m : SortedMap κ α} {v : α} : v ∈ m.values ↔ ∃ k, m.find? k = some v := by
  simp [values, mem_entries]

theorem keys_pairwise (m : SortedMap κ α) : m.keys.Pairwise fun a b => Key.before a b = true := by
  rw [keys, List.pairwise_map]
  exact m.ascending

theorem keys_nodup (m : SortedMap κ α) : m.keys.Nodup :=
  m.keys_pairwise.imp fun {a b} before equal => by simp [equal, Key.irrefl] at before

theorem entries_nodup (m : SortedMap κ α) : m.entries.Nodup := .of_map _ m.keys_nodup

/-- Maps in which the same keys are found list the same keys. -/
theorem keys_congr {m : SortedMap κ α} {n : SortedMap κ β}
    (same : ∀ k, m.contains k = true ↔ n.contains k = true) : m.keys = n.keys :=
  Key.eq_of_ascending id m.keys_pairwise n.keys_pairwise fun k => by
    rw [mem_keys_iff_contains, mem_keys_iff_contains, same]

theorem find?_insert_self (m : SortedMap κ α) (k : κ) (v : α) : (m.insert k v).find? k = some v :=
  Entries.find?_insert_self k v m.entries

theorem find?_insert_of_ne (m : SortedMap κ α) (v : α) {k k' : κ} (different : k' ≠ k) :
    (m.insert k v).find? k' = m.find? k' :=
  Entries.find?_insert_of_ne v m.entries different

theorem find?_insert [DecidableEq κ] (m : SortedMap κ α) (k k' : κ) (v : α) :
    (m.insert k v).find? k' = if k' = k then some v else m.find? k' := by
  by_cases same : k' = k
  · subst same
    rw [find?_insert_self, if_pos rfl]
  · rw [find?_insert_of_ne m v same, if_neg same]

theorem contains_insert {m : SortedMap κ α} {k k' : κ} {v : α} :
    (m.insert k v).contains k' = true ↔ k' = k ∨ m.contains k' = true := by
  by_cases same : k' = k
  · subst same
    simp [contains, find?_insert_self]
  · simp [contains, find?_insert_of_ne m v same, same]

theorem find?_filter_eq_some {m : SortedMap κ α} {keep : κ → α → Bool} {k : κ} {v : α} :
    (m.filter keep).find? k = some v ↔ m.find? k = some v ∧ keep k v = true := by
  rw [← mem_entries, ← mem_entries]
  simp [filter]

theorem find?_filter_key {m : SortedMap κ α} {keep : κ → Bool} {k : κ} :
    (m.filter fun k _ => keep k).find? k = if keep k then m.find? k else none := by
  ext v
  rw [find?_filter_eq_some]
  split <;> simp_all

theorem find?_map (f : α → β) (m : SortedMap κ α) (k : κ) : (m.map f).find? k = (m.find? k).map f :=
  Entries.find?_map f k m.entries

theorem find?_erase_eq_some {m : SortedMap κ α} {k k' : κ} {v : α} :
    (m.erase k).find? k' = some v ↔ k' ≠ k ∧ m.find? k' = some v := by
  rw [erase, find?_filter_eq_some, Key.apart_iff, and_comm, ne_comm]

theorem find?_alter_self (m : SortedMap κ α) (k : κ) (fresh : α) (f : α → α) :
    (m.alter k fresh f).find? k = some (f ((m.find? k).getD fresh)) :=
  m.find?_insert_self k _

theorem find?_alter_of_ne (m : SortedMap κ α) (fresh : α) (f : α → α) {k k' : κ}
    (different : k' ≠ k) :
    (m.alter k fresh f).find? k' = m.find? k' :=
  m.find?_insert_of_ne _ different

theorem find?_modify_self (m : SortedMap κ α) (k : κ) (f : α → α) :
    (m.modify k f).find? k = (m.find? k).map f := by
  unfold modify
  cases found : m.find? k with
  | none => exact found
  | some v => exact m.find?_insert_self k (f v)

theorem find?_modify_of_ne (m : SortedMap κ α) (f : α → α) {k k' : κ} (different : k' ≠ k) :
    (m.modify k f).find? k' = m.find? k' := by
  unfold modify
  cases m.find? k with
  | none => rfl
  | some v => exact m.find?_insert_of_ne _ different

theorem contains_filter {m : SortedMap κ α} {keep : κ → α → Bool} {k : κ} :
    (m.filter keep).contains k = true ↔ ∃ v, m.find? k = some v ∧ keep k v = true := by
  simp only [contains_iff, find?_filter_eq_some]

theorem contains_map {f : α → β} {m : SortedMap κ α} {k : κ} :
    (m.map f).contains k = m.contains k := by
  simp [contains, find?_map]

theorem contains_erase {m : SortedMap κ α} {k k' : κ} :
    (m.erase k).contains k' = true ↔ k' ≠ k ∧ m.contains k' = true := by
  simp only [contains_iff, find?_erase_eq_some, exists_and_left]

theorem contains_alter {m : SortedMap κ α} {k k' : κ} {fresh : α} {f : α → α} :
    (m.alter k fresh f).contains k' = true ↔ k' = k ∨ m.contains k' = true :=
  contains_insert

theorem contains_modify {m : SortedMap κ α} {k k' : κ} {f : α → α} :
    (m.modify k f).contains k' = m.contains k' := by
  by_cases same : k' = k
  · subst same
    simp [contains, find?_modify_self]
  · simp [contains, find?_modify_of_ne m f same]

/-- Entries under different keys are all collected. -/
theorem find?_foldl_insert {es : List (κ × α)} (nodup : (es.map (·.1)).Nodup) {m : SortedMap κ α}
    (apart : ∀ e ∈ es, m.find? e.1 = none) {k : κ} {v : α} :
    (es.foldl (fun m e => m.insert e.1 e.2) m).find? k = some v ↔
      (k, v) ∈ es ∨ m.find? k = some v := by
  induction es generalizing m with
  | nil => simp
  | cons e es ih =>
    obtain ⟨first, value⟩ := e
    rw [List.map_cons, List.nodup_cons] at nodup
    obtain ⟨new, nodup⟩ := nodup
    have others {e : κ × α} (member : e ∈ es) : e.1 ≠ first := by
      rintro rfl
      exact new (List.mem_map.mpr ⟨e, member, rfl⟩)
    have apart' : ∀ e ∈ es, (m.insert first value).find? e.1 = none := by
      intro e member
      rw [find?_insert_of_ne m value (others member)]
      exact apart e (List.mem_cons_of_mem _ member)
    rw [List.foldl_cons, ih nodup apart', List.mem_cons, Prod.mk.injEq]
    by_cases same : k = first
    · subst same
      have absent : (k, v) ∉ es := fun member => others member rfl
      rw [find?_insert_self, apart (k, value) List.mem_cons_self]
      simp [absent, eq_comm]
    · rw [find?_insert_of_ne m value same]
      simp [same]

theorem find?_ofList {es : List (κ × α)} (nodup : (es.map (·.1)).Nodup) {k : κ} {v : α} :
    (ofList es).find? k = some v ↔ (k, v) ∈ es := by
  rw [ofList, find?_foldl_insert nodup fun _ _ => rfl]
  exact or_iff_left nofun

theorem entries_ofList_perm {es : List (κ × α)} (nodup : (es.map (·.1)).Nodup) :
    (ofList es).entries.Perm es := by
  refine (List.perm_ext_iff_of_nodup (ofList es).entries_nodup (.of_map _ nodup)).mpr ?_
  rintro ⟨k, v⟩
  rw [mem_entries, find?_ofList nodup]

/-- Collecting the entries of a map gives the map back. -/
theorem ofList_entries (m : SortedMap κ α) : ofList m.entries = m :=
  SortedMap.ext <| Entries.eq_of_mem_iff (ofList m.entries).ascending m.ascending fun _ =>
    (entries_ofList_perm m.keys_nodup).mem_iff

theorem entries_ofList (es : List (κ × α)) : (ofList es).entries = Entries.ofList es := by
  suffices collected : ∀ m : SortedMap κ α,
      (es.foldl (fun m e => m.insert e.1 e.2) m).entries =
        es.foldl (fun acc e => Entries.insert e.1 e.2 acc) m.entries from collected empty
  induction es with
  | nil => exact fun m => rfl
  | cons e es ih => exact fun m => ih (m.insert e.1 e.2)

/-- What is collected is not changed by being collected once more. -/
theorem ofList_ofList (es : List (κ × α)) :
    Entries.ofList (Entries.ofList es) = Entries.ofList es := by
  rw [← entries_ofList es, ← entries_ofList, ofList_entries]

/-- Only what was there is collected. -/
theorem mem_of_mem_ofList {es : List (κ × α)} {e : κ × α} (member : e ∈ (ofList es).entries) :
    e ∈ es := by
  suffices collected : ∀ m : SortedMap κ α,
      e ∈ (es.foldl (fun m e => m.insert e.1 e.2) m).entries → e ∈ m.entries ∨ e ∈ es from
    (collected empty member).resolve_left nofun
  clear member
  induction es with
  | nil => exact fun m member => .inl member
  | cons first es ih =>
    intro m member
    rcases ih (m.insert first.1 first.2) member with before | later
    · rcases Entries.mem_insert before with equal | before
      · exact .inr (equal ▸ List.mem_cons_self)
      · exact .inl before
    · exact .inr (List.mem_cons_of_mem _ later)

/-- What is found after one map has been laid over another. -/
theorem find?_overlay (m n : SortedMap κ α) (k : κ) :
    (n.entries.foldl (fun m e => m.insert e.1 e.2) m).find? k = (n.find? k).or (m.find? k) := by
  suffices laid : ∀ (es : Entries κ α) (m : SortedMap κ α), es.Ascending →
      (es.foldl (fun m e => m.insert e.1 e.2) m).find? k = (Entries.find? k es).or (m.find? k) from
    laid n.entries m n.ascending
  intro es m ascending
  induction es generalizing m with
  | nil => rfl
  | cons e es ih =>
    obtain ⟨k', v⟩ := e
    obtain ⟨after, ascending⟩ := List.pairwise_cons.mp ascending
    rw [List.foldl_cons, ih _ ascending]
    by_cases same : k = k'
    · subst same
      have absent : Entries.find? k es = none := by
        cases found : Entries.find? k es with
        | none => rfl
        | some v' =>
          have before := after (k, v') (Entries.mem_of_find? found)
          simp [Key.irrefl] at before
      rw [Entries.find?_cons_self, find?_insert_self, absent]
      rfl
    · rw [Entries.find?_cons_of_ne _ _ same, find?_insert_of_ne m v same]

/-- Where values are the same if their canonical forms are equal, so are maps. -/
theorem beq_iff_map [BEq κ] [LawfulBEq κ] [BEq α] {canonical : α → β}
    (beq_iff : ∀ {a b : α}, (a == b) = true ↔ canonical a = canonical b) {m n : SortedMap κ α} :
    (m == n) = true ↔ m.map canonical = n.map canonical := by
  suffices lists : ∀ es es' : Entries κ α, (es == es') = true ↔
      es.map (fun e => (e.1, canonical e.2)) = es'.map fun e => (e.1, canonical e.2) by
    refine (lists m.entries n.entries).trans ⟨fun equal => SortedMap.ext equal, fun equal => ?_⟩
    exact congrArg entries equal
  intro es
  induction es with
  | nil => intro es'; cases es' <;> simp
  | cons e es ih =>
    intro es'
    cases es' with
    | nil => simp
    | cons e' es' =>
      obtain ⟨k, a⟩ := e
      obtain ⟨k', b⟩ := e'
      have first : ((k, a) == (k', b)) = true ↔ (k, canonical a) = (k', canonical b) := by
        rw [show ((k, a) == (k', b)) = (k == k' && a == b) from rfl, Bool.and_eq_true, beq_iff_eq,
          beq_iff, Prod.mk.injEq]
      rw [List.cons_beq_cons, Bool.and_eq_true, first, ih es', List.map_cons, List.map_cons,
        List.cons.injEq]

end SortedMap

namespace SortedSet

variable {κ : Type} [Key κ]

theorem mem_members {s : SortedSet κ} {k : κ} : k ∈ members s ↔ SortedMap.contains s k = true :=
  SortedMap.mem_keys_iff_contains

/-- Sets with the same members are the same. -/
theorem ext_contains {s t : SortedSet κ}
    (same : ∀ k, SortedMap.contains s k = true ↔ SortedMap.contains t k = true) : s = t := by
  refine SortedMap.ext_find? fun k => ?_
  have contained : SortedMap.contains s k = SortedMap.contains t k := Bool.eq_iff_iff.mpr (same k)
  unfold SortedMap.contains at contained
  cases found : SortedMap.find? s k <;> cases found' : SortedMap.find? t k <;> simp_all

theorem contains_add {s : SortedSet κ} {k k' : κ} :
    SortedMap.contains (add s k) k' = true ↔ k' = k ∨ SortedMap.contains s k' = true :=
  SortedMap.contains_insert

theorem contains_foldl_add {ks : List κ} {s : SortedSet κ} {k : κ} :
    SortedMap.contains (ks.foldl add s) k = true ↔ SortedMap.contains s k = true ∨ k ∈ ks := by
  induction ks generalizing s with
  | nil => simp
  | cons k' ks ih =>
    rw [List.foldl_cons, ih, contains_add, List.mem_cons, or_comm (a := k = k'), or_assoc]

end SortedSet

end RestWiring
