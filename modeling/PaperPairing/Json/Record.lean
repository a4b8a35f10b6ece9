import PaperPairing.Json.Text

/-!
# Records

A record has named fields in a fixed order.  It is read from an object, whose
members may come in any order and among unknown ones, or from an array of its
fields in order.  No field may come twice, an array may be short at its end but
not too long, and what an absent field means is left to the record.
-/

namespace PaperPairing
namespace Json

/-- Members with their keys read; every key must be a text. -/
def namedMembers? (members : List (Bytes × Json)) : Option (List (String × Json)) :=
  members.mapM (fun m => (readText? m.1).map (fun key => (key, m.2)))

/-- The members whose keys are among the given names; none if one comes
twice. -/
def knownMembers? (names : List String) (members : List (Bytes × Json)) :
    Option (List (String × Json)) := do
  let named ← namedMembers? members
  let known := named.filter (fun m => names.contains m.1)
  if (known.map Prod.fst).Nodup then some known else none

def fields? (names : List String) : Json -> Option (List (Option Json))
  | object members =>
      (knownMembers? names members).map
        (fun known => names.map (fun name => known.lookup name))
  | array items =>
      if items.length ≤ names.length then
        some (items.map some ++ List.replicate (names.length - items.length) none)
      else
        none
  | _ => none

theorem length_of_fields? {names : List String} {v : Json} {fs : List (Option Json)}
    (h : fields? names v = some fs) : fs.length = names.length := by
  unfold fields? at h
  split at h
  · rcases Option.map_eq_some_iff.mp h with ⟨known, _, hfs⟩
    simp [← hfs]
  · split at h
    · cases h
      simp
      omega
    · cases h
  · cases h

def member (name : String) (v : Json) : Bytes × Json :=
  (escape name, v)

end Json
end PaperPairing
