import RestWiring.Proofs.Deployment.Integrity
import RestWiring.Proofs.Deployment.Inventory
import RestWiring.Proofs.Json.Equality

/-!
# What manifests and their diffs tell

The manifest of a registry lists every construct under a key of its own, so nothing is lost in it. A
diff of two manifests tells what is only in one of them and what is in both but not the same there;
with the records of the update at hand that is all it takes to get from the one to the other.

Records are the same, and so are manifests, if they are equal once the two zeros are one number.
-/
namespace RestWiring

/-! ## Records that are the same -/

theorem SortedSet.beq_iff {s t : SortedSet String} : (s == t) = true ↔ s = t := by
  rw [show (s == t) = (s.entries == t.entries) from rfl, beq_iff_eq]
  exact ⟨SortedMap.ext, congrArg SortedMap.entries⟩

/-- The record in whose spec the two zeros are one number. -/
def ConstructRecord.canonical (r : ConstructRecord) : ConstructRecord :=
  { r with spec := r.spec.canonical }

theorem ConstructRecord.beq_iff {r r' : ConstructRecord} :
    (r == r') = true ↔ r.canonical = r'.canonical := by
  have fields : (r == r') = (r.kind == r'.kind && (r.name == r'.name && (r.spec == r'.spec &&
      (r.role == r'.role && (r.triggers == r'.triggers &&
        (r.notifications == r'.notifications && r.publishers == r'.publishers)))))) := rfl
  rw [fields]
  simp only [Bool.and_eq_true, beq_iff_eq, Json.beq_iff, SortedSet.beq_iff, canonical, mk.injEq]

theorem ConstructRecord.beq_eq_false_iff {r r' : ConstructRecord} :
    (r == r') = false ↔ r.canonical ≠ r'.canonical := by
  rw [← Bool.not_eq_true, beq_iff]

/-- Maps of records are the same if they hold the same records under the same keys. -/
theorem records_beq_iff {κ : Type} [Key κ] [BEq κ] [LawfulBEq κ] {m n : SortedMap κ ConstructRecord} :
    (m == n) = true ↔
      ∀ k, (m.find? k).map ConstructRecord.canonical = (n.find? k).map ConstructRecord.canonical := by
  rw [SortedMap.beq_iff_map ConstructRecord.beq_iff]
  simp only [← SortedMap.find?_map]
  exact ⟨fun equal k => by rw [equal], SortedMap.ext_find?⟩

/-! ## Diffs -/

/-- Carries out a diff: what is removed is dropped, and what is added or changed is taken from the
update. -/
def Manifest.carryOut (d : ManifestDiff) (current update : Manifest) : Manifest :=
  (update.filter fun k _ => decide (k ∈ d.added ∨ k ∈ d.changed)).entries.foldl
    (fun m e => m.insert e.1 e.2) (current.filter fun k _ => decide (k ∉ d.removed))

/-- What a diff tells about two manifests. -/
structure ManifestDiff.Tells (d : ManifestDiff) (current update : Manifest) : Prop where
  added_iff : ∀ k, k ∈ d.added ↔ update.contains k = true ∧ current.contains k = false
  removed_iff : ∀ k, k ∈ d.removed ↔ current.contains k = true ∧ update.contains k = false
  changed_iff : ∀ k, k ∈ d.changed ↔
    ∃ r r', current.find? k = some r ∧ update.find? k = some r' ∧ (r == r') = false
  added_ascending : d.added.Pairwise (· < ·)
  removed_ascending : d.removed.Pairwise (· < ·)
  changed_ascending : d.changed.Pairwise (· < ·)
  added_removed_apart : d.added.Disjoint d.removed
  added_changed_apart : d.added.Disjoint d.changed
  removed_changed_apart : d.removed.Disjoint d.changed

namespace Manifest

variable {current update : Manifest} {d : ManifestDiff} {k : String}

theorem mem_added : k ∈ (current.diff update).added ↔
    update.contains k = true ∧ current.contains k = false := by
  simp [diff, SortedMap.mem_keys_iff_contains]

theorem mem_removed : k ∈ (current.diff update).removed ↔
    current.contains k = true ∧ update.contains k = false := by
  simp [diff, SortedMap.mem_keys_iff_contains]

theorem mem_changed : k ∈ (current.diff update).changed ↔
    ∃ r r', current.find? k = some r ∧ update.find? k = some r' ∧ (r == r') = false := by
  simp only [diff, List.mem_map, List.mem_filter, Option.any_eq_true, bne, Bool.not_eq_true']
  constructor
  · intro changed
    obtain ⟨⟨k, r'⟩, ⟨listed, r, found, differ⟩, rfl⟩ := changed
    exact ⟨r, r', found, SortedMap.mem_entries.mp listed, differ⟩
  · intro changed
    obtain ⟨r, r', found, found', differ⟩ := changed
    exact ⟨(k, r'), ⟨SortedMap.mem_entries.mpr found', r, found, differ⟩, rfl⟩

theorem keys_ascending (m : Manifest) : m.keys.Pairwise (· < ·) :=
  m.keys_pairwise.imp fun before => by simpa [Key.before] using before

theorem changed_ascending (current update : Manifest) :
    (current.diff update).changed.Pairwise (· < ·) :=
  update.keys_ascending.sublist (List.filter_sublist.map _)

theorem diff_tells (current update : Manifest) : (current.diff update).Tells current update where
  added_iff _ := mem_added
  removed_iff _ := mem_removed
  changed_iff _ := mem_changed
  added_ascending := update.keys_ascending.filter _
  removed_ascending := current.keys_ascending.filter _
  changed_ascending := changed_ascending current update
  added_removed_apart := by
    intro k added removed
    rw [mem_added] at added
    rw [mem_removed] at removed
    simp [added.1] at removed
  added_changed_apart := by
    intro k added changed
    obtain ⟨r, r', found, -, -⟩ := mem_changed.mp changed
    have absent := (mem_added.mp added).2
    simp [SortedMap.contains, found] at absent
  removed_changed_apart := by
    intro k removed changed
    obtain ⟨r, r', -, found, -⟩ := mem_changed.mp changed
    have absent := (mem_removed.mp removed).2
    simp [SortedMap.contains, found] at absent

/-- What a diff does not mention is the same in both manifests. -/
theorem unmentioned_iff : (k ∉ (current.diff update).added ∧ k ∉ (current.diff update).removed ∧
      k ∉ (current.diff update).changed) ↔
    (current.find? k).map ConstructRecord.canonical = (update.find? k).map ConstructRecord.canonical := by
  rw [mem_added, mem_removed, mem_changed, SortedMap.contains, SortedMap.contains]
  cases current.find? k <;> cases update.find? k <;> simp [ConstructRecord.beq_eq_false_iff]

/-- A diff is empty if the manifests are the same. -/
theorem diff_isEmpty_iff : (current.diff update).isEmpty = true ↔ (current == update) = true := by
  simp only [records_beq_iff, ← unmentioned_iff, ManifestDiff.isEmpty, Bool.and_eq_true,
    List.isEmpty_iff, List.eq_nil_iff_forall_not_mem]
  constructor
  · intro empty k
    exact ⟨empty.1.1 k, empty.1.2 k, empty.2 k⟩
  · intro unmentioned
    exact ⟨⟨fun k => (unmentioned k).1, fun k => (unmentioned k).2.1⟩, fun k => (unmentioned k).2.2⟩

/-- On the way back what was added is removed and what was removed is added. -/
theorem diff_swap (current update : Manifest) : update.diff current =
    ⟨(current.diff update).removed, (current.diff update).added, (current.diff update).changed⟩ := by
  have changed : (update.diff current).changed = (current.diff update).changed := by
    have ascending {names : List String} (ascends : names.Pairwise (· < ·)) :
        names.Pairwise fun a b => Key.before a b = true :=
      ascends.imp fun less => by simpa [Key.before] using less
    apply Key.eq_of_ascending id (ascending (changed_ascending update current))
      (ascending (changed_ascending current update))
    intro k
    rw [mem_changed, mem_changed]
    constructor
    · intro ⟨r, r', found, found', differ⟩
      exact ⟨r', r, found', found, by rwa [ConstructRecord.beq_eq_false_iff, ne_comm,
        ← ConstructRecord.beq_eq_false_iff]⟩
    · intro ⟨r, r', found, found', differ⟩
      exact ⟨r', r, found', found, by rwa [ConstructRecord.beq_eq_false_iff, ne_comm,
        ← ConstructRecord.beq_eq_false_iff]⟩
  exact congrArg (ManifestDiff.mk _ _) changed

/-- Carrying out the diff of two manifests leads from the one to the other. -/
theorem carryOut_diff (current update : Manifest) :
    (carryOut (current.diff update) current update == update) = true := by
  rw [records_beq_iff]
  intro k
  rw [carryOut, SortedMap.find?_overlay, SortedMap.find?_filter_key, SortedMap.find?_filter_key]
  by_cases taken : k ∈ (current.diff update).added ∨ k ∈ (current.diff update).changed
  · have present : ∃ r, update.find? k = some r := by
      rcases taken with added | changed
      · exact SortedMap.contains_iff.mp (mem_added.mp added).1
      · obtain ⟨-, r, -, found, -⟩ := mem_changed.mp changed
        exact ⟨r, found⟩
    obtain ⟨r, found⟩ := present
    simp [taken, found]
  · rw [not_or] at taken
    by_cases removed : k ∈ (current.diff update).removed
    · have absent := SortedMap.contains_eq_false_iff.mp (mem_removed.mp removed).2
      simp [taken, removed, absent]
    · have unmentioned := unmentioned_iff.mp ⟨taken.1, removed, taken.2⟩
      simpa [taken, removed] using unmentioned

end Manifest

/-! ## Manifests of registries -/

/-- The key of a construct in a manifest. -/
def ConstructKey.text (key : ConstructKey) : String := key.1.text ++ "/" ++ key.2

theorem ConstructKey.text_injective : Function.Injective ConstructKey.text := by
  intro key key' same
  let called (key : ConstructKey) : ConstructRecord := { kind := key.1, name := key.2, spec := .null }
  have keys : (called key).key = (called key').key := same
  exact ConstructRecord.key_injective keys

theorem ConstructRecord.key_eq_iff {r r' : ConstructRecord} :
    r.key = r'.key ↔ (r.kind, r.name) = (r'.kind, r'.name) := by
  refine ⟨key_injective, fun same => ?_⟩
  obtain ⟨kind, name⟩ := Prod.mk.inj same
  rw [key, key, kind, name]

namespace Registry

variable {cs cs' : Constructs} {key : ConstructKey} {record : ConstructRecord} {k : String}

/-- A manifest lists every construct under its key, and nothing else. -/
theorem manifest_entries_perm (named : Named cs) :
    (manifest cs).entries.Perm (cs.entries.map fun e => (e.2.key, e.2)) := by
  have keys : (cs.values.map fun r => (r.key, r)) = cs.entries.map fun e => (e.2.key, e.2) := by
    rw [SortedMap.values, List.map_map]
    rfl
  rw [← keys]
  apply SortedMap.entries_ofList_perm
  simpa [Function.comp_def] using map_values_key_nodup named

theorem find?_manifest_iff (named : Named cs) :
    (manifest cs).find? k = some record ↔ ∃ key, ConstructKey.text key = k ∧ cs.find? key = some record := by
  rw [← SortedMap.mem_entries, (manifest_entries_perm named).mem_iff, List.mem_map]
  constructor
  · intro listed
    obtain ⟨⟨key, record⟩, member, equal⟩ := listed
    cases equal
    have found := SortedMap.mem_entries.mp member
    refine ⟨key, ?_, found⟩
    rw [← named key record found]
    rfl
  · intro found
    obtain ⟨key, rfl, found⟩ := found
    refine ⟨(key, record), SortedMap.mem_entries.mpr found, ?_⟩
    rw [← named key record found]
    rfl

/-- What a manifest lists under the key of a construct is its record. -/
theorem find?_manifest (named : Named cs) (key : ConstructKey) :
    (manifest cs).find? (ConstructKey.text key) = cs.find? key := by
  ext record
  rw [find?_manifest_iff named]
  constructor
  · intro listed
    obtain ⟨key', same, found⟩ := listed
    rwa [← ConstructKey.text_injective same]
  · exact fun found => ⟨key, rfl, found⟩

theorem find?_manifest_of_unknown (named : Named cs) (unknown : ∀ key, ConstructKey.text key ≠ k) :
    (manifest cs).find? k = none := by
  rw [Option.eq_none_iff_forall_ne_some]
  intro record listed
  obtain ⟨key, known, -⟩ := (find?_manifest_iff named).mp listed
  exact unknown key known

/-- Manifests are the same if the constructs are. -/
theorem manifest_beq_iff (named : Named cs) (named' : Named cs') :
    (manifest cs == manifest cs') = true ↔ (cs == cs') = true := by
  rw [records_beq_iff, records_beq_iff]
  constructor
  · intro same key
    simpa only [find?_manifest named, find?_manifest named'] using same (ConstructKey.text key)
  · intro same k
    by_cases known : ∃ key, ConstructKey.text key = k
    · obtain ⟨key, rfl⟩ := known
      rw [find?_manifest named, find?_manifest named', same key]
    · rw [not_exists] at known
      rw [find?_manifest_of_unknown named known, find?_manifest_of_unknown named' known]

/-- The manifest of a registry, whatever has been asked of it, lists every construct once under a key
that no other kind and name have. A diff of any two manifests tells exactly what they do not have in
common, each list in ascending order; it is empty if they are the same, the way back has it the other
way round, and carrying it out leads from the first to the second. So the diff of the manifests of two
registries is empty if their constructs are the same. -/
theorem manifests_exact :
    (∀ r r' : ConstructRecord, r.key = r'.key ↔ (r.kind, r.name) = (r'.kind, r'.name)) ∧
      (∀ requests, (manifest (serveAll {} requests).constructs).entries.Perm
        ((serveAll {} requests).constructs.entries.map fun e => (e.2.key, e.2))) ∧
      (∀ current update : Manifest, (current.diff update).Tells current update ∧
        ((current.diff update).isEmpty = true ↔ (current == update) = true) ∧
        update.diff current = ⟨(current.diff update).removed, (current.diff update).added,
          (current.diff update).changed⟩ ∧
        (Manifest.carryOut (current.diff update) current update == update) = true) ∧
      ∀ requests requests',
        ((manifest (serveAll {} requests).constructs).diff
          (manifest (serveAll {} requests').constructs)).isEmpty = true ↔
            ((serveAll {} requests).constructs == (serveAll {} requests').constructs) = true := by
  have named (requests : List Request) : Named (serveAll {} requests).constructs :=
    (sound_serveAll .empty requests).named
  refine ⟨fun r r' => ConstructRecord.key_eq_iff, fun requests => manifest_entries_perm (named requests),
    fun current update => ⟨Manifest.diff_tells current update, Manifest.diff_isEmpty_iff,
      Manifest.diff_swap current update, Manifest.carryOut_diff current update⟩, ?_⟩
  intro requests requests'
  rw [Manifest.diff_isEmpty_iff, manifest_beq_iff (named requests) (named requests')]

-- Records that differ in the sign of a zero are the same.
example :
    let queue (zero : Double) : Manifest :=
      SortedMap.insert ∅ "queue/orders" { kind := .queue, name := "orders", spec := .number (.double zero) }
    ((queue (.zero true)).diff (queue .zero)).isEmpty = true := by
  rfl

end Registry

end RestWiring
