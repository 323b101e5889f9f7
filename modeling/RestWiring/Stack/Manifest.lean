import RestWiring.Stack.Construct

/-!
# Manifests

A manifest lists every construct of a stack under a key made of its kind and its name. `Manifest.diff`
tells what has to be added, removed and changed to get from one manifest to another.
-/
namespace RestWiring

abbrev Manifest := SortedMap String ConstructRecord

structure ManifestDiff where
  added : List String
  removed : List String
  changed : List String
  deriving DecidableEq, Repr

namespace ManifestDiff

def isEmpty (d : ManifestDiff) : Bool := d.added.isEmpty && d.removed.isEmpty && d.changed.isEmpty

def toJson (d : ManifestDiff) : Json :=
  .object
    [("added", .strings d.added), ("removed", .strings d.removed), ("changed", .strings d.changed)]

end ManifestDiff

namespace Manifest

/-- Lists records; of two records with one key the later wins. -/
def ofRecords (records : List ConstructRecord) : Manifest :=
  .ofList (records.map fun r => (r.key, r))

def toJson (m : Manifest) : Json :=
  .object [("constructs", .object (m.map ConstructRecord.toJson).entries)]

/-- What leads from one manifest to an update of it. -/
def diff (current update : Manifest) : ManifestDiff where
  added := update.keys.filter fun k => !current.contains k
  removed := current.keys.filter fun k => !update.contains k
  changed := (update.entries.filter fun (k, r) => (current.find? k).any (· != r)).map (·.1)

end Manifest

end RestWiring
