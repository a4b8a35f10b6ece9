import Mathlib.Data.List.Nodup
import PaperPairing.Proofs.Json.Record

/-!
# Members in any order

A record is read from the members that carry its names, wherever they stand, and
members under other names make no difference.  It is refused if a key is no text or a
name comes twice.  An array gives its items to the names in order.
-/

namespace PaperPairing
namespace Json

/-!
## Looking up a name
-/

section

variable {α : Type} {l l' : List (String × α)}

theorem lookup_eq_some_iff_mem (hnodup : (l.map Prod.fst).Nodup) {name : String} {a : α} :
    l.lookup name = some a ↔ (name, a) ∈ l := by
  induction l with
  | nil => simp
  | cons m l ih =>
      rcases m with ⟨key, b⟩
      rcases List.nodup_cons.mp hnodup with ⟨hkey, htail⟩
      rw [List.lookup_cons, List.mem_cons, Prod.mk.injEq]
      cases hname : name == key with
      | true =>
          rw [beq_iff_eq] at hname
          have hnot : (key, a) ∉ l := by
            intro hmem
            exact hkey (List.mem_map.mpr ⟨(key, a), hmem, rfl⟩)
          simp [hname, hnot, eq_comm]
      | false =>
          rw [beq_eq_false_iff_ne] at hname
          simp [hname, ih htail]

theorem lookup_eq_of_perm (hperm : l'.Perm l) (hnodup : (l.map Prod.fst).Nodup)
    (name : String) : l'.lookup name = l.lookup name := by
  have hnodup' : (l'.map Prod.fst).Nodup := (hperm.map Prod.fst).nodup_iff.mpr hnodup
  apply Option.ext
  intro a
  rw [lookup_eq_some_iff_mem hnodup, lookup_eq_some_iff_mem hnodup', hperm.mem_iff]

theorem lookup_filter (p : String -> Bool) (name : String) :
    (l.filter (fun m => p m.1)).lookup name = if p name then l.lookup name else none := by
  induction l with
  | nil => simp
  | cons m l ih =>
      rcases m with ⟨key, a⟩
      rw [List.filter_cons]
      cases hname : name == key with
      | true =>
          rw [← eq_of_beq hname]
          cases hp : p name with
          | true => simp
          | false => simpa [hp] using ih
      | false =>
          rw [List.lookup_cons, hname, ← ih]
          split
          · rw [List.lookup_cons, hname]
          · rfl

end

/-!
## Members under the names of a record
-/

def named? (m : Bytes × Json) : Option (String × Json) :=
  (readText? m.1).map (fun key => (key, m.2))

def membersOf (names : List String) (members : List (Bytes × Json)) : List (String × Json) :=
  (members.filterMap named?).filter (fun m => names.contains m.1)

/-- All keys are texts, and no name comes twice. -/
structure IsRecord (names : List String) (members : List (Bytes × Json)) : Prop where
  readable : forall m, m ∈ members -> exists key, readText? m.1 = some key
  nodup : ((membersOf names members).map Prod.fst).Nodup

/-- A key that is a text, but none of the names. -/
def IsForeign (names : List String) (m : Bytes × Json) : Prop :=
  exists key, readText? m.1 = some key ∧ key ∉ names

theorem namedMembers?_eq_some_iff {members : List (Bytes × Json)}
    {named : List (String × Json)} :
    namedMembers? members = some named ↔
      (forall m, m ∈ members -> exists key, readText? m.1 = some key) ∧
        named = members.filterMap named? := by
  change members.mapM named? = some named ↔ _
  induction members generalizing named with
  | nil => simp [eq_comm]
  | cons m members ih =>
      rw [List.mapM_cons, List.forall_mem_cons]
      cases hkey : readText? m.1 with
      | none => simp [named?, hkey]
      | some key =>
          have hm : named? m = some (key, m.2) := by
            rw [named?, hkey]
            rfl
          simp only [hm, Option.bind_eq_bind, Option.bind_some, Option.bind_eq_some_iff, ih,
            List.filterMap_cons_some hm]
          constructor
          · intro h
            rcases h with ⟨_, ⟨hreadable, rfl⟩, h⟩
            cases h
            exact ⟨⟨⟨key, rfl⟩, hreadable⟩, rfl⟩
          · intro h
            rcases h with ⟨⟨-, hreadable⟩, rfl⟩
            exact ⟨_, ⟨hreadable, rfl⟩, rfl⟩

theorem knownMembers?_eq_some_iff {names : List String} {members : List (Bytes × Json)}
    {known : List (String × Json)} :
    knownMembers? names members = some known ↔
      IsRecord names members ∧ known = membersOf names members := by
  rw [knownMembers?, Option.bind_eq_bind, Option.bind_eq_some_iff]
  constructor
  · intro h
    rcases h with ⟨named, hnamed, h⟩
    rcases namedMembers?_eq_some_iff.mp hnamed with ⟨hreadable, rfl⟩
    rcases Option.ite_none_right_eq_some.mp h with ⟨hnodup, hknown⟩
    exact ⟨⟨hreadable, hnodup⟩, (Option.some.inj hknown).symm⟩
  · intro h
    rcases h with ⟨hrecord, rfl⟩
    exact ⟨_, namedMembers?_eq_some_iff.mpr ⟨hrecord.readable, rfl⟩, if_pos hrecord.nodup⟩

theorem fields?_object_eq_some_iff {names : List String} {members : List (Bytes × Json)}
    {fs : List (Option Json)} :
    fields? names (.object members) = some fs ↔
      IsRecord names members ∧
        fs = names.map (fun name => (membersOf names members).lookup name) := by
  rw [fields?, Option.map_eq_some_iff]
  constructor
  · intro h
    rcases h with ⟨known, hknown, hfs⟩
    rcases knownMembers?_eq_some_iff.mp hknown with ⟨hrecord, rfl⟩
    exact ⟨hrecord, hfs.symm⟩
  · intro h
    exact ⟨_, knownMembers?_eq_some_iff.mpr ⟨h.1, rfl⟩, h.2.symm⟩

/-!
## Order and unknown members
-/

section

variable {names : List String} {members members' extra : List (Bytes × Json)}

theorem membersOf_foreign (hextra : forall m, m ∈ extra -> IsForeign names m) :
    membersOf names extra = [] := by
  rw [membersOf, List.filter_eq_nil_iff]
  intro n hn
  rcases List.mem_filterMap.mp hn with ⟨m, hm, hnamed⟩
  rcases hextra m hm with ⟨key, hkey, hforeign⟩
  rw [named?, hkey] at hnamed
  cases hnamed
  rw [List.contains_iff_mem]
  exact hforeign

theorem membersOf_perm (hperm : members'.Perm (extra ++ members))
    (hextra : forall m, m ∈ extra -> IsForeign names m) :
    (membersOf names members').Perm (membersOf names members) := by
  have hmembers := (hperm.filterMap named?).filter (fun m => names.contains m.1)
  rw [List.filterMap_append, List.filter_append] at hmembers
  have hnone := membersOf_foreign hextra
  rw [membersOf] at hnone
  rwa [hnone, List.nil_append] at hmembers

theorem isRecord_iff_of_perm (hperm : members'.Perm (extra ++ members))
    (hextra : forall m, m ∈ extra -> IsForeign names m) :
    IsRecord names members' ↔ IsRecord names members := by
  have hnodup := ((membersOf_perm hperm hextra).map Prod.fst).nodup_iff
  constructor
  · intro h
    refine ⟨?_, hnodup.mp h.nodup⟩
    intro m hm
    exact h.readable m (hperm.mem_iff.mpr (List.mem_append_right extra hm))
  · intro h
    refine ⟨?_, hnodup.mpr h.nodup⟩
    intro m hm
    rcases List.mem_append.mp (hperm.mem_iff.mp hm) with hm | hm
    · rcases hextra m hm with ⟨key, hkey, -⟩
      exact ⟨key, hkey⟩
    · exact h.readable m hm

/-- Neither the order of the members nor members under other names matter. -/
theorem fields?_eq_of_perm (hperm : members'.Perm (extra ++ members))
    (hextra : forall m, m ∈ extra -> IsForeign names m) :
    fields? names (.object members') = fields? names (.object members) := by
  apply Option.ext
  intro fs
  rw [fields?_object_eq_some_iff, fields?_object_eq_some_iff,
    isRecord_iff_of_perm hperm hextra]
  apply and_congr_right
  intro hrecord
  rw [List.map_congr_left (fun name _ =>
    lookup_eq_of_perm (membersOf_perm hperm hextra) hrecord.nodup name)]

theorem fields?_of_twice {name : String} {m m' : Bytes × Json} (hname : name ∈ names)
    (htwice : [m, m'].Sublist members) (hm : readText? m.1 = some name)
    (hm' : readText? m'.1 = some name) : fields? names (.object members) = none := by
  rw [Option.eq_none_iff_forall_ne_some]
  intro fs hfs
  have hnodup := (fields?_object_eq_some_iff.mp hfs).1.nodup
  have hsub := ((htwice.filterMap named?).filter (fun n => names.contains n.1)).map Prod.fst
  have hpair : (membersOf names [m, m']).map Prod.fst = [name, name] := by
    simp [membersOf, named?, hm, hm', hname]
  rw [membersOf] at hpair
  rw [hpair] at hsub
  have hne := hsub.nodup hnodup
  simp at hne

end

/-!
## Arrays
-/

theorem nodup_map_fst_zip {names : List String} (hnodup : names.Nodup) (items : List Json) :
    ((names.zip items).map Prod.fst).Nodup := by
  induction names generalizing items with
  | nil => exact List.nodup_nil
  | cons name names ih =>
      rcases List.nodup_cons.mp hnodup with ⟨hname, hnodup⟩
      cases items with
      | nil => exact List.nodup_nil
      | cons item items =>
          rw [List.zip_cons_cons, List.map_cons, List.nodup_cons]
          refine ⟨?_, ih hnodup items⟩
          intro hmem
          rcases List.mem_map.mp hmem with ⟨m, hm, rfl⟩
          exact hname (List.of_mem_zip hm).1

theorem lookup_zip {names : List String} (hnodup : names.Nodup) {items : List Json}
    (hlength : items.length ≤ names.length) :
    names.map (fun name => (names.zip items).lookup name) =
      items.map some ++ List.replicate (names.length - items.length) none := by
  induction names generalizing items with
  | nil =>
      rw [List.length_nil, Nat.le_zero, List.length_eq_zero_iff] at hlength
      rw [hlength]
      rfl
  | cons name names ih =>
      rcases List.nodup_cons.mp hnodup with ⟨hname, hnodup⟩
      cases items with
      | nil => simp [List.replicate_succ]
      | cons item items =>
          have hother : forall other, other ∈ names ->
              ((name, item) :: names.zip items).lookup other = (names.zip items).lookup other := by
            intro other hother
            rw [List.lookup_cons]
            have hne : (other == name) = false := by
              rw [beq_eq_false_iff_ne]
              rintro rfl
              exact hname hother
            rw [hne]
          rw [List.zip_cons_cons, List.map_cons, List.lookup_cons_self, List.map_congr_left hother,
            ih hnodup (Nat.le_of_succ_le_succ hlength)]
          simp

/-- An array is read like the object that gives its items to the names in order. -/
theorem fields?_zipWith {names : List String} (hnodup : names.Nodup) {items : List Json}
    (hlength : items.length ≤ names.length) :
    fields? names (.object (List.zipWith member names items)) = fields? names (.array items) := by
  have hknown : forall m, m ∈ names.zip items -> m.1 ∈ names := by
    intro m hm
    exact (List.of_mem_zip hm).1
  have hread := fields?_namedMembers hknown (nodup_map_fst_zip hnodup items)
  rw [lookup_zip hnodup hlength] at hread
  rw [namedMembers, List.map_zip_eq_zipWith] at hread
  rw [fields?.eq_2, if_pos hlength]
  exact hread

end Json
end PaperPairing
