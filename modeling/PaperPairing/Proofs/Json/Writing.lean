import PaperPairing.Proofs.Json.Grammar
import PaperPairing.Proofs.Json.Members

/-!
# Written values

A written value is a text of the value.  Texts and numbers read back from the form they
are written in, and so do the items of a record.
-/

namespace PaperPairing
namespace Json

/-!
## Digits of a number
-/

def decimal (n : Nat) : Bytes :=
  (Nat.toDigits 10 n).map Char.toUInt8

theorem ofNat_eq (n : Nat) : ofNat n = number (decimal n) :=
  rfl

theorem isDigit_digitChar : forall d, d < 10 -> isDigit (Nat.digitChar d).toUInt8 = true := by
  decide

theorem toNat_digitChar : forall d, d < 10 -> (Nat.digitChar d).toUInt8.toNat = 48 + d := by
  decide

theorem decimal_of_lt {d : Nat} (h : d < 10) : decimal d = [(Nat.digitChar d).toUInt8] := by
  rw [decimal, Nat.toDigits_of_lt_base h]
  rfl

theorem decimal_append {n d : Nat} (hn : 0 < n) (hd : d < 10) :
    decimal (10 * n + d) = decimal n ++ decimal d := by
  rw [decimal, ← Nat.toDigits_append_toDigits (by decide) hn hd, List.map_append]
  rfl

theorem decimal_ne_nil (n : Nat) : decimal n ≠ [] := by
  simp [decimal]

theorem isDigit_of_mem_decimal {n : Nat} {x : UInt8} (h : x ∈ decimal n) :
    isDigit x = true := by
  induction n using Nat.base_induction 10 (by decide) with
  | single d hd =>
      rw [decimal_of_lt hd, List.mem_singleton] at h
      rw [h]
      exact isDigit_digitChar d hd
  | digit n d hd hn ih =>
      rw [decimal_append hn hd, List.mem_append, decimal_of_lt hd, List.mem_singleton] at h
      rcases h with h | h
      · exact ih h
      · rw [h]
        exact isDigit_digitChar d hd

theorem head?_decimal {n : Nat} (hn : 0 < n) : (decimal n).head? ≠ some 0x30 := by
  induction n using Nat.base_induction 10 (by decide) with
  | single d hd =>
      rw [decimal_of_lt hd, List.head?_cons]
      intro h
      have hzero := congrArg UInt8.toNat (Option.some.inj h)
      rw [toNat_digitChar d hd] at hzero
      exact hn.ne' (Nat.add_left_cancel hzero)
  | digit n d hd hpos ih =>
      rw [decimal_append hpos hd, List.head?_append_of_ne_nil _ (decimal_ne_nil n)]
      exact ih hpos

theorem isInteger_decimal (n : Nat) : IsInteger (decimal n) := by
  cases Nat.eq_zero_or_pos n with
  | inl hzero => exact .inl (by rw [hzero]; rfl)
  | inr hpos =>
      exact .inr ⟨⟨decimal_ne_nil n, fun _ => isDigit_of_mem_decimal⟩, head?_decimal hpos⟩

theorem digitsValue_decimal (n : Nat) : digitsValue (decimal n) = n := by
  induction n using Nat.base_induction 10 (by decide) with
  | single d hd =>
      rw [decimal_of_lt hd, digitsValue, List.foldl_cons, List.foldl_nil, toNat_digitChar d hd]
      omega
  | digit n d hd hn ih =>
      rw [digitsValue] at ih
      rw [decimal_append hn hd, decimal_of_lt hd, digitsValue, List.foldl_append, ih,
        List.foldl_cons, List.foldl_nil, toNat_digitChar d hd]
      omega

/-!
## Reading back
-/

theorem toText?_ofText (s : String) : (ofText s).toText? = some s :=
  readText?_escape s

theorem toNat?_ofNat {n bound : Nat} (h : n < bound) : (ofNat n).toNat? bound = some n := by
  have hdigits : (decimal n).all isDigit = true :=
    List.all_eq_true.mpr (fun _ => isDigit_of_mem_decimal)
  rw [ofNat_eq, toNat?, digitsValue_decimal, hdigits, decide_eq_true h]
  rfl

theorem fields?_of_length {names : List String} (hnodup : names.Nodup) {items : List Json}
    (hlength : items.length = names.length) :
    fields? names (.object (List.zipWith member names items)) = some (items.map some) := by
  rw [fields?_zipWith hnodup hlength.le, fields?.eq_2, if_pos hlength.le, hlength, Nat.sub_self]
  simp

/-!
## Texts
-/

/-- All strings and numbers of the value have their form. -/
def IsWritable (v : Json) : Prop :=
  forall t, t ∈ tokens v -> t.IsWellFormed

theorem isWritable_ofText (s : String) : IsWritable (ofText s) := by
  intro t ht
  rw [List.mem_singleton.mp ht]
  exact (isTextBody_of_textBody? (textBody?_escape s [])).1

theorem isWritable_ofNat (n : Nat) : IsWritable (ofNat n) := by
  intro t ht
  rw [List.mem_singleton.mp ht]
  refine ⟨[], decimal n, [], [], .inl rfl, isInteger_decimal n, .inl rfl, .inl rfl, ?_⟩
  rw [List.append_nil, List.append_nil]
  rfl

theorem isWritable_bool (value : Bool) : IsWritable (.bool value) := by
  intro t ht
  rw [List.mem_singleton.mp ht]
  trivial

theorem isWritable_object {members : List (String × Json)}
    (h : forall m, m ∈ members -> IsWritable m.2) :
    IsWritable (.object (namedMembers members)) := by
  intro t ht
  rw [tokens, List.mem_append, List.mem_cons, List.mem_singleton] at ht
  rcases ht with (rfl | ht) | rfl
  · trivial
  · rcases mem_memberTokens ht with rfl | rfl | ⟨m, hm, ht⟩
    · trivial
    · trivial
    · rcases List.mem_map.mp hm with ⟨n, hn, rfl⟩
      rcases ht with rfl | ht
      · exact isWritable_ofText n.1 _ List.mem_cons_self
      · exact h n hn t ht
  · trivial

theorem isWritable_zipWith {names : List String} {items : List Json}
    (h : forall v, v ∈ items -> IsWritable v) :
    IsWritable (.object (List.zipWith member names items)) := by
  have hobject : IsWritable (.object (namedMembers (names.zip items))) := by
    apply isWritable_object
    intro m hm
    exact h m.2 (List.of_mem_zip hm).2
  rwa [namedMembers, List.map_zip_eq_zipWith] at hobject

theorem spaced_spell {ts : List Token} (h : forall t, t ∈ ts -> t.IsWellFormed) :
    Spaced ts (spell ts) := by
  induction ts with
  | nil => exact .nil isBlanks_nil
  | cons t ts ih =>
      exact .cons isBlanks_nil (h t List.mem_cons_self)
        (ih (fun u hu => h u (List.mem_cons_of_mem t hu)))

theorem isTextOf_render {v : Json} (h : IsWritable v) : IsTextOf v (render v) :=
  spaced_spell h

end Json
end PaperPairing
