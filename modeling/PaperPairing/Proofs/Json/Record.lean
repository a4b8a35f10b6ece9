import PaperPairing.Json.Record
import PaperPairing.Proofs.Json.Text

/-!
# Written records

An object whose keys are plain names gives each name the value of the member
that carries it, in whatever order the members come.
-/

namespace PaperPairing
namespace Json

def namedMembers (members : List (String × Json)) : List (Bytes × Json) :=
  members.map (fun m => member m.1 m.2)

theorem namedMembers?_namedMembers (members : List (String × Json)) :
    namedMembers? (namedMembers members) = some members := by
  induction members with
  | nil => rfl
  | cons m members ih =>
      have htail : List.mapM (fun m => (readText? m.1).map (fun key => (key, m.2)))
          (members.map (fun m => member m.1 m.2)) = some members := ih
      rw [namedMembers?, namedMembers, List.map_cons, List.mapM_cons, htail]
      simp [member, readText?_escape]

theorem fields?_namedMembers {names : List String} {members : List (String × Json)}
    (hknown : forall m, m ∈ members -> m.1 ∈ names)
    (hnodup : (members.map Prod.fst).Nodup) :
    fields? names (.object (namedMembers members)) =
      some (names.map (fun name => members.lookup name)) := by
  have hfilter : members.filter (fun m => names.contains m.1) = members := by
    rw [List.filter_eq_self]
    intro m hm
    exact List.contains_iff_mem.mpr (hknown m hm)
  have hmembers : knownMembers? names (namedMembers members) = some members := by
    rw [knownMembers?, namedMembers?_namedMembers]
    simp only [Option.bind_eq_bind, Option.bind_some, hfilter, if_pos hnodup]
  rw [fields?, hmembers]
  rfl

end Json
end PaperPairing
