import RestWiring.FileStore
import RestWiring.Proofs.Fallible
import RestWiring.Proofs.SortedMap
import RestWiring.Proofs.Text.Splitting

/-!
# Where files are

A path leads to one place, whatever is stored, as long as nothing is in the way. A file that is written
is found at the place of its path; besides it only folders come into being, and files at other places
stay as they are, so that a file can be read until something else is written at its place.
-/
namespace RestWiring

/-! ## Paths -/

namespace FilePath

variable {folder name : String} {here : List String} {parts' : List String}

/-- Where the parts of a path lead to from a folder when nothing is in the way. -/
def walk (here : List String) : List String → List String
  | [] => here
  | part :: rest =>
    if part = "" ∨ part = "." then walk here rest
    else if part = ".." then walk here.dropLast rest
    else walk (here ++ [part]) rest

theorem walk_append (here : List String) (first second : List String) :
    walk here (first ++ second) = walk (walk here first) second := by
  induction first generalizing here with
  | nil => rfl
  | cons part rest ih =>
    simp only [List.cons_append, walk]
    split
    · exact ih _
    · split <;> exact ih _

/-- A part that is the name of an entry: it stays where it is and leads to no other folder. -/
structure Plain (name : String) : Prop where
  nonempty : name ≠ ""
  not_here : name ≠ "."
  not_above : name ≠ ".."
  undivided : '/' ∉ name.toList

namespace Plain

theorem walk (plain : Plain name) (here : List String) : walk here [name] = here ++ [name] := by
  rw [FilePath.walk, if_neg (not_or.mpr ⟨plain.nonempty, plain.not_here⟩), if_neg plain.not_above]
  rfl

theorem not_startsWith (plain : Plain name) : name.startsWith "/" = false := by
  rw [String.startsWith_string_eq_false_iff]
  rintro ⟨rest, equal⟩
  exact plain.undivided (equal ▸ List.mem_cons_self)

end Plain

theorem parts_of_undivided (undivided : '/' ∉ name.toList) : parts name = [name] := by
  rw [parts, Text.splitOn_of_not_mem undivided, List.map_singleton, String.ofList_toList]

theorem parts_append (folder name : String) :
    parts (folder ++ "/" ++ name) = parts folder ++ parts name := by
  have chars : (folder ++ "/" ++ name).toList = folder.toList ++ '/' :: name.toList := by
    simp
  rw [parts, chars, Text.splitOn_append, List.map_append]
  rfl

theorem endsWith_slash_iff : folder.endsWith "/" = true ↔ ∃ rest, folder = rest ++ "/" := by
  rw [← String.endsWith_toSlice, String.Slice.endsWith_string_iff, String.copy_toSlice]
  constructor
  · rintro ⟨rest, equal⟩
    refine ⟨String.ofList rest, String.toList_inj.mp ?_⟩
    rw [String.toList_append, String.toList_ofList, equal]
  · rintro ⟨rest, rfl⟩
    exact ⟨rest.toList, (String.toList_append ..).symm⟩

/-- A name that is appended to a path becomes its last part; the others lead where the path leads. -/
theorem parts_join (folder : String) (plain : Plain name) :
    ∃ way, parts (join folder name) = way ++ [name] ∧
      ∀ here, walk here way = walk here (parts folder) := by
  have single := parts_of_undivided plain.undivided
  have empty : parts "" = [""] := parts_of_undivided (by simp)
  rw [join, plain.not_startsWith, if_neg Bool.false_ne_true]
  split
  · rename_i closed
    rcases Bool.or_eq_true_iff.mp closed with nowhere | slash
    · obtain rfl := String.isEmpty_iff.mp nowhere
      refine ⟨[], by simpa using single, fun here => ?_⟩
      rw [empty]
      rfl
    · obtain ⟨rest, rfl⟩ := endsWith_slash_iff.mp slash
      refine ⟨parts rest, by rw [parts_append, single], fun here => ?_⟩
      have trailing : parts (rest ++ "/") = parts rest ++ [""] := by
        rw [← String.append_empty (s := rest ++ "/"), parts_append, empty]
      rw [trailing, walk_append]
      rfl
  · exact ⟨parts folder, by rw [parts_append, single], fun here => rfl⟩

/-- A name that is appended to a path does not change where the path starts. -/
theorem startsWith_join (folder : String) (plain : Plain name) :
    (join folder name).startsWith "/" = folder.startsWith "/" := by
  rw [join, plain.not_startsWith, if_neg Bool.false_ne_true, Bool.eq_iff_iff]
  by_cases empty : folder = ""
  · subst empty
    have unslashed := plain.not_startsWith
    simp_all
  · obtain ⟨c, rest, chars⟩ : ∃ c rest, folder.toList = c :: rest :=
      List.exists_cons_of_ne_nil (by simpa using empty)
    split <;> simp [chars]

end FilePath

/-! ## Places -/

namespace FileStore

open FilePath (walk Plain parts)

variable {s s' s'' : FileStore} {here dir place way : List String} {path path' content name : String}
  {entry : FileEntry}

/-- Where a path leads to. -/
def location (s : FileStore) (path : String) : List String := walk (s.origin path) (parts path)

theorem location_join (s : FileStore) (folder : String) (plain : Plain name) :
    s.location (FilePath.join folder name) = s.location folder ++ [name] := by
  obtain ⟨way, parts_eq, same⟩ := FilePath.parts_join folder plain
  have start : s.origin (FilePath.join folder name) = s.origin folder := by
    rw [origin, origin, FilePath.startsWith_join folder plain]
  rw [location, location, parts_eq, start, FilePath.walk_append, same, plain.walk]

/-- Whether a store has come of another one by changes at some places and by making folders. -/
structure Within (places : List String → Prop) (s s' : FileStore) : Prop where
  here : s'.here = s.here
  entries : ∀ place, ¬ places place → s'.entries.find? place = s.entries.find? place ∨
    (s.entries.find? place = none ∧ s'.entries.find? place = some .folder)

namespace Within

variable {places places' : List String → Prop}

theorem refl (places : List String → Prop) (s : FileStore) : Within places s s :=
  ⟨rfl, fun _ _ => .inl rfl⟩

theorem trans (first : Within places s s') (second : Within places s' s'') :
    Within places s s'' where
  here := second.here.trans first.here
  entries := by
    intro place apart
    rcases second.entries place apart with same | ⟨absent, made⟩
    · rw [same]
      exact first.entries place apart
    · rcases first.entries place apart with same | ⟨-, made'⟩
      · exact .inr ⟨same.symm.trans absent, made⟩
      · rw [made'] at absent
        cases absent

theorem mono (within : Within places s s') (more : ∀ place, places place → places' place) :
    Within places' s s' :=
  ⟨within.here, fun place apart => within.entries place fun inside => apart (more place inside)⟩

theorem keeps (within : Within places s s') (apart : ¬ places place)
    (found : s.entries.find? place = some entry) : s'.entries.find? place = some entry := by
  rcases within.entries place apart with same | ⟨absent, -⟩
  · exact same.trans found
  · rw [absent] at found
    cases found

theorem location (within : Within places s s') (path : String) :
    s'.location path = s.location path := by
  rw [FileStore.location, FileStore.location, origin, origin, within.here]

end Within

/-- Whether a store has come of another one by making folders. -/
abbrev Unfolds : FileStore → FileStore → Prop := Within fun _ => False

theorem Unfolds.make (absent : s.entries.find? place = none) :
    Unfolds s { s with entries := s.entries.insert place .folder } where
  here := rfl
  entries := by
    intro other _
    by_cases same : other = place
    · subst same
      exact .inr ⟨absent, SortedMap.find?_insert_self _ _ _⟩
    · exact .inl (SortedMap.find?_insert_of_ne _ _ same)

/-- Making folders leads where the path leads, through folders that are there from then on. -/
theorem makeFolders_success (success : s.makeFolders here way = .ok (s', dir)) :
    dir = walk here way ∧ Unfolds s s' ∧
      ∀ s'' : FileStore,
        (∀ place, s'.entries.find? place = some .folder → s''.entries.find? place = some .folder) →
        ∀ rest, s''.follow here (way ++ rest) = s''.follow dir rest := by
  induction way generalizing s here with
  | nil =>
    cases success
    exact ⟨rfl, .refl _ _, fun _ _ _ => rfl⟩
  | cons part way ih =>
    rw [makeFolders] at success
    simp only [List.cons_append, follow, walk]
    split at success
    · rename_i still
      simp only [if_pos still]
      exact ih success
    · rename_i moving
      simp only [if_neg moving]
      split at success
      · rename_i up
        simp only [if_pos up]
        exact ih success
      · rename_i down
        simp only [if_neg down]
        split at success
        · cases success
        · rename_i short
          simp only [if_neg short]
          -- The folder is there in all stores that keep the folders of the last one.
          have through {t : FileStore} (made : t.entries.find? (here ++ [part]) = some .folder)
              (success : t.makeFolders (here ++ [part]) way = .ok (s', dir)) :
              dir = walk (here ++ [part]) way ∧ Unfolds t s' ∧ ∀ s'' : FileStore,
                (∀ place, s'.entries.find? place = some .folder →
                  s''.entries.find? place = some .folder) →
                s''.entries.find? (here ++ [part]) = some .folder ∧
                ∀ rest, s''.follow (here ++ [part]) (way ++ rest) = s''.follow dir rest := by
            obtain ⟨equal, unfolds, leads⟩ := ih success
            exact ⟨equal, unfolds, fun s'' kept => ⟨kept _ (unfolds.keeps not_false made), leads s'' kept⟩⟩
          split at success
          · rename_i absent
            obtain ⟨equal, unfolds, leads⟩ := through (SortedMap.find?_insert_self _ _ _) success
            refine ⟨equal, (Unfolds.make absent).trans unfolds, fun s'' kept rest => ?_⟩
            rw [(leads s'' kept).1]
            exact (leads s'' kept).2 rest
          · rename_i present
            obtain ⟨equal, unfolds, leads⟩ := through present success
            refine ⟨equal, unfolds, fun s'' kept rest => ?_⟩
            rw [(leads s'' kept).1]
            exact (leads s'' kept).2 rest
          · cases success

/-! ## Reading and writing -/

/-- Whether a store has come of another one by writing a text at a place and making folders. -/
structure Puts (place : List String) (content : String) (s s' : FileStore) : Prop
    extends Within (· = place) s s' where
  written : s'.entries.find? place = some (.text content)
  folders : ∀ other, s.entries.find? other = some .folder → s'.entries.find? other = some .folder

theorem read_success_iff :
    s.read path = .ok content ↔ checkPath path = .ok () ∧ ∃ place,
      s.follow (s.origin path) (parts path) = .ok place ∧
        s.entries.find? place = some (.text content) := by
  constructor
  · intro success
    obtain ⟨⟨⟩, checked, success⟩ := bind_success_iff.mp success
    obtain ⟨place, followed, success⟩ := bind_success_iff.mp success
    refine ⟨checked, place, followed, ?_⟩
    split at success
    · rename_i file
      cases success
      exact file
    · cases success
    · cases success
  · rintro ⟨checked, place, followed, file⟩
    refine bind_success_iff.mpr ⟨(), checked, bind_success_iff.mpr ⟨place, followed, ?_⟩⟩
    rw [file]

/-- A text that is written can be read at its path. -/
theorem write_success (divided : parts path = way ++ [name]) (plain : Plain name)
    (success : s.write path content = .ok s') :
    Puts (s.location path) content s s' ∧ s'.read path = .ok content := by
  obtain ⟨⟨⟩, checked, success⟩ := bind_success_iff.mp success
  obtain ⟨⟨made, dir⟩, folders, success⟩ := bind_success_iff.mp success
  rw [divided, List.dropLast_concat] at folders
  obtain ⟨rfl, unfolds, leads⟩ := makeFolders_success folders
  have last : (parts path).getLast?.getD "" = name := by rw [divided]; simp
  have here : s.location path = walk (s.origin path) way ++ [name] := by
    rw [location, divided, FilePath.walk_append, plain.walk]
  simp only [last, ← here] at success
  split at success
  · cases success
  rename_i short
  split at success
  · cases success
  rename_i nofolder
  cases success
  -- What stood at the place was no folder, so all folders stay.
  let entries := made.entries.insert (s.location path) (.text content)
  have written : entries.find? (s.location path) = some (.text content) :=
    SortedMap.find?_insert_self _ _ _
  have elsewhere {other : List String} (different : other ≠ s.location path) :
      entries.find? other = made.entries.find? other := SortedMap.find?_insert_of_ne _ _ different
  have kept (other : List String) (folder : made.entries.find? other = some .folder) :
      entries.find? other = some .folder := by
    rwa [elsewhere fun same => nofolder (same ▸ folder)]
  refine ⟨⟨⟨unfolds.here, fun other different => ?_⟩, written,
    fun other folder => kept other (unfolds.keeps not_false folder)⟩,
    read_success_iff.mpr ⟨checked, s.location path, ?_, written⟩⟩
  · rw [elsewhere different]
    exact unfolds.entries other not_false
  · have start : origin { made with entries } path = s.origin path := by
      rw [origin, origin, unfolds.here]
    change follow { made with entries } (origin { made with entries } path) (parts path) = _
    rw [start, divided, leads { made with entries } kept, follow,
      if_neg (not_or.mpr ⟨plain.nonempty, plain.not_here⟩), if_neg plain.not_above, if_neg short,
      ← here, written]
    rfl

/-- A path that leads to a text leads there as long as the text and all folders stay. -/
theorem follow_keeps (success : s.follow here way = .ok place)
    (file : s.entries.find? place = some (.text content))
    (kept : s'.entries.find? place = some (.text content))
    (folders : ∀ other, s.entries.find? other = some .folder →
      s'.entries.find? other = some .folder) :
    s'.follow here way = .ok place ∧ place = walk here way := by
  induction way generalizing here with
  | nil =>
    cases success
    exact ⟨rfl, rfl⟩
  | cons part way ih =>
    rw [follow] at success
    simp only [follow, walk]
    split at success
    · rename_i still
      simp only [if_pos still]
      exact ih success
    · rename_i moving
      simp only [if_neg moving]
      split at success
      · rename_i up
        simp only [if_pos up]
        exact ih success
      · rename_i down
        simp only [if_neg down]
        split at success
        · cases success
        · rename_i short
          simp only [if_neg short]
          split at success
          · cases success
          · rename_i present
            rw [folders _ present]
            exact ih success
          · split at success
            · rename_i last
              cases success
              rw [kept, List.isEmpty_iff.mp last]
              exact ⟨rfl, rfl⟩
            · cases success

/-- A text can be read until something else is written at its place. -/
theorem Puts.read_of_ne {other : String} (puts : Puts place content s s')
    (success : s.read path = .ok other) (apart : s.location path ≠ place) :
    s'.read path = .ok other := by
  obtain ⟨checked, found, followed, file⟩ := read_success_iff.mp success
  have found_eq := (follow_keeps followed file file fun _ => id).2
  have kept := puts.keeps (found_eq ▸ apart) file
  have start : s'.origin path = s.origin path := by rw [origin, origin, puts.here]
  have leads := (follow_keeps followed file kept puts.folders).1
  rw [← start] at leads
  exact read_success_iff.mpr ⟨checked, found, leads, kept⟩

end FileStore

end RestWiring
