/-!
# Pieces of lists

Lists that are walked in steps of more than one element, and the pieces of a
given width that such a walk yields.
-/

namespace PaperPairing
namespace Text

variable {α : Type}

/-- A walk that takes one element and drops any number after it ends. -/
theorem length_drop_lt (x : α) (rest : List α) (n : Nat) :
    (rest.drop n).length < (x :: rest).length := by
  rw [List.length_drop, List.length_cons]
  omega

/-- Pieces of `width` elements; the last one may be shorter. -/
def chunks (width : Nat) : List α -> List (List α)
  | [] => []
  | x :: rest =>
      (x :: rest.take (width - 1)) :: chunks width (rest.drop (width - 1))
termination_by l => l.length
decreasing_by exact length_drop_lt x rest (width - 1)

theorem flatten_chunks (width : Nat) (l : List α) : (chunks width l).flatten = l := by
  fun_induction chunks width l with
  | case1 => rfl
  | case2 x rest ih =>
      rw [List.flatten_cons, ih, List.cons_append, List.take_append_drop]

end Text
end PaperPairing
