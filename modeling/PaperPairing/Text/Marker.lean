/-!
# Markers

Cutting a text at a marker, and taking a marker off either end.
-/

namespace PaperPairing
namespace Text

variable {α : Type} [DecidableEq α]

/-!
## The first marker

The scan matches the marker one element at a time and never goes back: an
element that does not fit is used up, and the marker is looked for anew behind
it.
-/

/-- How many elements stand before the end of the first marker, when `pending`
is what is still missing of it. -/
def endOfMarker? (marker : List α) : (pending text : List α) -> Option Nat
  | [], _ => some 0
  | _ :: _, [] => none
  | p :: pending, c :: rest =>
      if c = p then (endOfMarker? marker pending rest).map (· + 1)
      else (endOfMarker? marker marker rest).map (· + 1)

def cut? (marker text : List α) : Option (List α × List α) :=
  (endOfMarker? marker marker text).map
    (fun n => (text.take (n - marker.length), text.drop n))

/-!
## Markers at an end
-/

def stripStart? : (marker text : List α) -> Option (List α)
  | [], text => some text
  | _ :: _, [] => none
  | m :: marker, c :: rest => if c = m then stripStart? marker rest else none

def stripEnd? (marker text : List α) : Option (List α) :=
  (stripStart? marker.reverse text.reverse).map List.reverse

theorem stripStart?_append (marker rest : List α) :
    stripStart? marker (marker ++ rest) = some rest := by
  induction marker with
  | nil => rfl
  | cons m marker ih => simpa [stripStart?] using ih

theorem eq_append_of_stripStart? {marker text rest : List α}
    (h : stripStart? marker text = some rest) : text = marker ++ rest := by
  induction marker generalizing text with
  | nil =>
      cases h
      rfl
  | cons m marker ih =>
      cases text with
      | nil => cases h
      | cons c text =>
          simp only [stripStart?] at h
          split at h
          · next hc => rw [hc, ih h, List.cons_append]
          · cases h

theorem stripEnd?_append (text marker : List α) :
    stripEnd? marker (text ++ marker) = some text := by
  simp [stripEnd?, stripStart?_append]

theorem eq_append_of_stripEnd? {marker text rest : List α}
    (h : stripEnd? marker text = some rest) : text = rest ++ marker := by
  rcases Option.map_eq_some_iff.mp h with ⟨front, hfront, rfl⟩
  have := congrArg List.reverse (eq_append_of_stripStart? hfront)
  simpa using this

end Text
end PaperPairing
