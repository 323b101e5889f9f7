/-!
# Finite maps in key order

`Entries` are association lists; `SortedMap` are those in strictly ascending key order, so that
equal look-ups make equal maps and every traversal visits the keys in order. Insertion is one
pass over the list and needs no premise on it.
-/
namespace RestWiring

/-- A strict total order that can be computed. -/
class Key (κ : Type) where
  before : κ → κ → Bool
  irrefl : ∀ a, before a a = false
  trans : ∀ {a b c}, before a b = true → before b c = true → before a c = true
  total : ∀ {a b}, before a b = false → before b a = false → a = b

namespace Key

/-- Names are ordered by code points, which is the order of their UTF-8 bytes. -/
instance : Key String where
  before a b := decide (a < b)
  irrefl a := by simp
  trans h h' := by simp only [decide_eq_true_eq] at *; exact String.lt_trans h h'
  total h h' := by
    simp only [decide_eq_false_iff_not, String.not_lt] at h h'
    exact String.le_antisymm h' h

/-- An enumeration is ordered by rank. -/
@[reducible]
def ofRank {κ : Type} (rank : κ → Nat) (inj : ∀ a b, rank a = rank b → a = b) : Key κ where
  before a b := decide (rank a < rank b)
  irrefl a := by simp
  trans h h' := by simp only [decide_eq_true_eq] at *; omega
  total h h' := by simp only [decide_eq_false_iff_not] at *; exact inj _ _ (by omega)

/-- Pairs are ordered by their first parts, then by their second parts. -/
instance {α β : Type} [Key α] [Key β] : Key (α × β) where
  before a b := before a.1 b.1 || (!before b.1 a.1 && before a.2 b.2)
  irrefl a := by simp [irrefl]
  trans {a b c} h h' := by
    have t := @Key.trans α _
    have t2 := @Key.trans β _
    have tot := @Key.total α _
    have irr := @Key.irrefl α _
    simp only [Bool.or_eq_true, Bool.and_eq_true, Bool.not_eq_true'] at *
    rcases h with h | ⟨h, k⟩ <;> rcases h' with h' | ⟨h', k'⟩
    · exact .inl (t h h')
    · by_cases e : before b.1 c.1 = true
      · exact .inl (t h e)
      · have := tot (by simpa using e) h'; exact .inl (this ▸ h)
    · by_cases e : before a.1 b.1 = true
      · exact .inl (t e h')
      · have := tot (by simpa using e) h; exact .inl (this ▸ h')
    · by_cases e : before a.1 b.1 = true
      · by_cases f : before b.1 c.1 = true
        · exact .inl (t e f)
        · have := tot (by simpa using f) h'; exact .inl (this ▸ e)
      · have hab := tot (by simpa using e) h
        by_cases f : before b.1 c.1 = true
        · exact .inl (hab ▸ f)
        · have hbc := tot (by simpa using f) h'
          refine .inr ⟨?_, t2 k k'⟩
          rw [← hbc, ← hab]; exact irr _
  total {a b} h h' := by
    simp only [Bool.or_eq_false_iff, Bool.and_eq_false_iff] at h h'
    obtain ⟨h1, h2⟩ := h
    obtain ⟨h3, h4⟩ := h'
    have e := total h1 h3
    have hb : ∀ x : α, (before x x) = false := irrefl
    have h2' : before a.2 b.2 = false := by rcases h2 with h2 | h2 <;> simp_all
    have h4' : before b.2 a.2 = false := by rcases h4 with h4 | h4 <;> simp_all
    exact Prod.ext e (total h2' h4')

/-- Lists are ordered item by item; a list that runs out comes first. -/
def listBefore {α : Type} [Key α] : List α → List α → Bool
  | _, [] => false
  | [], _ :: _ => true
  | a :: as, b :: bs => before a b || (!before b a && listBefore as bs)

instance {α : Type} [Key α] : Key (List α) where
  before := listBefore
  irrefl a := by
    induction a with
    | nil => rfl
    | cons a as ih => simp [listBefore, irrefl, ih]
  trans {a b c} h h' := by
    induction a generalizing b c with
    | nil => cases b <;> cases c <;> simp_all [listBefore]
    | cons x xs ih =>
      cases b with
      | nil => simp [listBefore] at h
      | cons y ys =>
        cases c with
        | nil => simp [listBefore] at h'
        | cons z zs =>
          simp only [listBefore, Bool.or_eq_true, Bool.and_eq_true, Bool.not_eq_true'] at *
          rcases h with h | ⟨h, k⟩ <;> rcases h' with h' | ⟨h', k'⟩
          · exact .inl (Key.trans h h')
          · by_cases e : before y z = true
            · exact .inl (Key.trans h e)
            · exact .inl (Key.total (by simpa using e) h' ▸ h)
          · by_cases e : before x y = true
            · exact .inl (Key.trans e h')
            · exact .inl (Key.total (by simpa using e) h ▸ h')
          · by_cases e : before x y = true
            · by_cases f : before y z = true
              · exact .inl (Key.trans e f)
              · exact .inl (Key.total (by simpa using f) h' ▸ e)
            · have hxy := Key.total (by simpa using e) h
              by_cases f : before y z = true
              · exact .inl (hxy ▸ f)
              · have hyz := Key.total (by simpa using f) h'
                refine .inr ⟨?_, ih k k'⟩
                rw [← hyz, ← hxy]; exact irrefl _
  total {a b} h h' := by
    induction a generalizing b with
    | nil => cases b <;> simp_all [listBefore]
    | cons x xs ih =>
      cases b with
      | nil => simp [listBefore] at h'
      | cons y ys =>
        simp only [listBefore, Bool.or_eq_false_iff, Bool.and_eq_false_iff, Bool.not_eq_false'] at h h'
        have e := Key.total h.1 h'.1
        subst e
        have irr := irrefl x
        rw [ih (b := ys) (by simpa [irr] using h.2) (by simpa [irr] using h'.2)]

end Key

/-- The entries of a map as they are listed. -/
abbrev Entries (κ α : Type) := List (κ × α)

namespace Entries

variable {κ α : Type} [Key κ]

/-- Whether the keys ascend strictly. -/
def Ascending (es : Entries κ α) : Prop :=
  es.Pairwise fun a b => Key.before a.1 b.1 = true

/-- Puts a value under a key, in key order, in place of a value that is there. -/
def insert (k : κ) (v : α) : Entries κ α → Entries κ α
  | [] => [(k, v)]
  | (k', v') :: rest =>
    if Key.before k k' then (k, v) :: (k', v') :: rest
    else if Key.before k' k then (k', v') :: insert k v rest
    else (k, v) :: rest

/-- The value under a key, for keys whose equality is decided by the order. -/
def find? (k : κ) : Entries κ α → Option α
  | [] => none
  | (k', v') :: rest => if Key.before k k' || Key.before k' k then find? k rest else some v'

/-- Lists entries in key order; of two entries with one key the later wins. -/
def ofList (es : List (κ × α)) : Entries κ α :=
  es.foldl (fun acc e => insert e.1 e.2 acc) []

theorem mem_insert {k : κ} {v : α} {e : κ × α} {es : Entries κ α}
    (h : e ∈ insert k v es) : e = (k, v) ∨ e ∈ es := by
  induction es with
  | nil => simp_all [insert]
  | cons hd tl ih =>
    obtain ⟨k', v'⟩ := hd
    simp only [insert] at h
    split at h
    · simpa using h
    · split at h
      · rcases List.mem_cons.1 h with h | h
        · exact .inr (h ▸ List.mem_cons_self)
        · exact (ih h).imp id (List.mem_cons_of_mem _)
      · rcases List.mem_cons.1 h with h | h
        · exact .inl h
        · exact .inr (List.mem_cons_of_mem _ h)

theorem Ascending.insert {k : κ} {v : α} {es : Entries κ α} (h : Ascending es) :
    Ascending (insert k v es) := by
  induction es with
  | nil => exact List.pairwise_singleton _ _
  | cons hd tl ih =>
    obtain ⟨k', v'⟩ := hd
    have hd' := List.pairwise_cons.1 h
    simp only [Entries.insert]
    split
    · rename_i lt
      refine List.pairwise_cons.2 ⟨?_, h⟩
      intro e he
      rcases List.mem_cons.1 he with rfl | he
      · exact lt
      · exact Key.trans lt (hd'.1 e he)
    · rename_i nlt
      split
      · rename_i gt
        refine List.pairwise_cons.2 ⟨?_, ih hd'.2⟩
        intro e he
        rcases mem_insert he with rfl | he
        · exact gt
        · exact hd'.1 e he
      · rename_i ngt
        have : k = k' := Key.total (by simpa using nlt) (by simpa using ngt)
        subst this
        exact List.pairwise_cons.2 ⟨hd'.1, hd'.2⟩

end Entries

/-- A finite map whose entries stand in strictly ascending key order. -/
structure SortedMap (κ α : Type) [Key κ] where
  entries : Entries κ α
  ascending : entries.Ascending

namespace SortedMap

variable {κ α β : Type} [Key κ]

def empty : SortedMap κ α := ⟨[], List.Pairwise.nil⟩

instance : EmptyCollection (SortedMap κ α) := ⟨empty⟩

instance : Inhabited (SortedMap κ α) := ⟨empty⟩

theorem ext {m n : SortedMap κ α} (h : m.entries = n.entries) : m = n := by
  cases m; cases n; simp_all

instance [DecidableEq κ] [DecidableEq α] : DecidableEq (SortedMap κ α) := fun m n =>
  if h : m.entries = n.entries then .isTrue (ext h) else .isFalse fun e => h (e ▸ rfl)

instance [BEq κ] [BEq α] : BEq (SortedMap κ α) := ⟨fun m n => m.entries == n.entries⟩

instance [Repr κ] [Repr α] : Repr (SortedMap κ α) := ⟨fun m p => reprPrec m.entries p⟩

def find? (m : SortedMap κ α) (k : κ) : Option α := m.entries.find? k

def contains (m : SortedMap κ α) (k : κ) : Bool := (m.find? k).isSome

def keys (m : SortedMap κ α) : List κ := m.entries.map (·.1)

def values (m : SortedMap κ α) : List α := m.entries.map (·.2)

def size (m : SortedMap κ α) : Nat := m.entries.length

def isEmpty (m : SortedMap κ α) : Bool := m.entries.isEmpty

/-- Puts a value under a key, in place of a value that is there. -/
def insert (m : SortedMap κ α) (k : κ) (v : α) : SortedMap κ α :=
  ⟨m.entries.insert k v, m.ascending.insert⟩

/-- Keeps the entries that pass a test. -/
def filter (m : SortedMap κ α) (keep : κ → α → Bool) : SortedMap κ α :=
  ⟨m.entries.filter fun e => keep e.1 e.2, m.ascending.filter _⟩

/-- Takes a key and its value out. -/
def erase (m : SortedMap κ α) (k : κ) : SortedMap κ α :=
  m.filter fun k' _ => Key.before k k' || Key.before k' k

/-- Changes every value and no key. -/
def map (f : α → β) (m : SortedMap κ α) : SortedMap κ β :=
  ⟨m.entries.map fun e => (e.1, f e.2), by
    simpa [Entries.Ascending, List.pairwise_map] using m.ascending⟩

/-- Changes the value under one key, if the key is there. -/
def modify (m : SortedMap κ α) (k : κ) (f : α → α) : SortedMap κ α :=
  match m.find? k with
  | some v => m.insert k (f v)
  | none => m

/-- Changes the value under one key, starting from a default if the key is not there. -/
def alter (m : SortedMap κ α) (k : κ) (fresh : α) (f : α → α) : SortedMap κ α :=
  m.insert k (f ((m.find? k).getD fresh))

/-- Collects entries; of two entries with one key the later wins. -/
def ofList (es : List (κ × α)) : SortedMap κ α :=
  es.foldl (fun m e => m.insert e.1 e.2) empty

end SortedMap

/-- A finite set whose members are listed in strictly ascending order. -/
abbrev SortedSet (κ : Type) [Key κ] := SortedMap κ Unit

namespace SortedSet

variable {κ : Type} [Key κ]

def members (s : SortedSet κ) : List κ := SortedMap.keys s

def add (s : SortedSet κ) (k : κ) : SortedSet κ := SortedMap.insert s k ()

def ofList (ks : List κ) : SortedSet κ := ks.foldl add SortedMap.empty

end SortedSet

end RestWiring
