import RestWiring.Json

/-!
# Records in data formats

The fields of a record are declared once and read from every data format. A kind of reader `R` says
with a `DataFormat` instance how its format writes texts, lists, maps and records.
-/
namespace RestWiring

/-- A field of a record: its name, other names it goes by, whether it must be there, and how its
value goes into the record. -/
structure Field (R : Type → Type) (σ : Type) where
  name : String
  aliases : List String
  required : Bool
  read : R (σ → σ)

namespace Field

variable {R : Type → Type} {σ α : Type}

def mandatory [Functor R] (name : String) (read : R α) (put : α → σ → σ) : Field R σ :=
  ⟨name, [], true, put <$> read⟩

def optional [Functor R] (name : String) (read : R α) (put : α → σ → σ) : Field R σ :=
  ⟨name, [], false, put <$> read⟩

def goesBy (f : Field R σ) (name : String) : Bool := f.name == name || f.aliases.contains name

end Field

/-- What can be read from a data format. -/
class DataFormat (R : Type → Type) extends Functor R where
  text : R String
  /-- Any value. -/
  any : R Json
  /-- A value that may be absent. -/
  option {α : Type} : R α → R (Option α)
  list {α : Type} : R α → R (List α)
  /-- Values by name; of two members with one name the later wins. -/
  dictionary {α : Type} : R α → R (SortedMap String α)
  /-- A text, or a map of values. -/
  textOrMap {α : Type} (name : String) (ofText : String → α) (ofMap : SortedMap String Json → α) : R α
  /-- A record whose further members are skipped. -/
  record {σ : Type} (name : String) (fields : List (Field R σ)) (init : σ) : R σ
  /-- A record that keeps its further members. -/
  openRecord {σ : Type} (name : String) (fields : List (Field R σ)) (keep : String → Json → σ → σ)
    (init : σ) : R σ

end RestWiring
