import PaperPairing.Json.Value

/-!
# Values from their tokens

The machine that reads values takes the tokens of a value, wherever they stand,
to the state in which that value is complete.
-/

namespace PaperPairing
namespace Json

open Reader

/-!
## First tokens
-/

/-- A value is never announced by the end of an array, so an array that is not
empty is entered through its first item. -/
theorem tokens_eq_cons (v : Json) : exists t ts, tokens v = t :: ts ∧ t ≠ .endArray := by
  cases v with
  | null => exact ⟨_, _, by rw [tokens], by simp⟩
  | bool b => exact ⟨_, _, by rw [tokens], by simp⟩
  | number lexeme => exact ⟨_, _, by rw [tokens], by simp⟩
  | text raw => exact ⟨_, _, by rw [tokens], by simp⟩
  | array items => exact ⟨_, _, by rw [tokens]; rfl, by simp⟩
  | object members => exact ⟨_, _, by rw [tokens]; rfl, by simp⟩

theorem itemTokens_eq_cons (v : Json) (items : List Json) :
    exists t ts, itemTokens (v :: items) = t :: ts ∧ t ≠ .endArray := by
  rcases tokens_eq_cons v with ⟨t, ts, htokens, ht⟩
  cases items with
  | nil => exact ⟨t, ts, by rw [itemTokens, htokens], ht⟩
  | cons w items => exact ⟨t, _, by rw [itemTokens, htokens, List.cons_append], ht⟩

theorem run_firstItem (v : Json) (items : List Json) (stack : List Frame)
    (rest : List Token) :
    run (.firstItem stack) (itemTokens (v :: items) ++ rest) =
      run (.value (.array [] :: stack)) (itemTokens (v :: items) ++ rest) := by
  rcases itemTokens_eq_cons v items with ⟨t, ts, htokens, ht⟩
  have hstep : step (.firstItem stack) t = step (.value (.array [] :: stack)) t := by
    cases t <;> first | rfl | exact absurd rfl ht
  rw [htokens, List.cons_append, run, run, hstep]

theorem mem_memberTokens {members : List (Bytes × Json)} {t : Token}
    (ht : t ∈ memberTokens members) :
    t = .comma ∨ t = .colon ∨ exists m, m ∈ members ∧ (t = .text m.1 ∨ t ∈ tokens m.2) := by
  match members with
  | [] =>
      rw [memberTokens] at ht
      cases ht
  | [m] =>
      rw [memberTokens, List.mem_cons, List.mem_cons] at ht
      rcases ht with ht | ht | ht
      · exact Or.inr (Or.inr ⟨m, List.mem_cons_self, Or.inl ht⟩)
      · exact Or.inr (Or.inl ht)
      · exact Or.inr (Or.inr ⟨m, List.mem_cons_self, Or.inr ht⟩)
  | m :: m' :: members =>
      rw [memberTokens, List.mem_append, List.mem_cons, List.mem_cons, List.mem_cons] at ht
      rcases ht with (ht | ht | ht) | ht | ht
      · exact Or.inr (Or.inr ⟨m, List.mem_cons_self, Or.inl ht⟩)
      · exact Or.inr (Or.inl ht)
      · exact Or.inr (Or.inr ⟨m, List.mem_cons_self, Or.inr ht⟩)
      · exact Or.inl ht
      · rcases mem_memberTokens ht with ht | ht | ⟨n, hn, ht⟩
        · exact Or.inl ht
        · exact Or.inr (Or.inl ht)
        · exact Or.inr (Or.inr ⟨n, List.mem_cons_of_mem m hn, ht⟩)

/-!
## Runs of the machine
-/

mutual

/-- The tokens of a value take the machine from waiting for it to having it. -/
theorem run_tokens (v : Json) (stack : List Frame) (rest : List Token) :
    run (.value stack) (tokens v ++ rest) = run (.complete stack v) rest := by
  match v with
  | .null => rw [tokens]; rfl
  | .bool _ => rw [tokens]; rfl
  | .number _ => rw [tokens]; rfl
  | .text _ => rw [tokens]; rfl
  | .array [] => rw [tokens, itemTokens]; rfl
  | .array (w :: items) =>
      have hitems := run_itemTokens (w :: items) (by simp) [] stack rest
      rw [tokens, List.cons_append, List.cons_append, List.append_assoc]
      show run (.firstItem stack) _ = _
      rw [run_firstItem]
      exact hitems
  | .object [] => rw [tokens, memberTokens]; rfl
  | .object (m :: members) =>
      have hmembers := run_memberTokens (m :: members) (by simp) [] stack rest
      rw [tokens, List.cons_append, List.cons_append, List.append_assoc]
      exact hmembers

theorem run_itemTokens (items : List Json) (hitems : items ≠ []) (done : List Json)
    (stack : List Frame) (rest : List Token) :
    run (.value (.array done :: stack)) (itemTokens items ++ .endArray :: rest) =
      run (.complete stack (.array (done.reverse ++ items))) rest := by
  match items with
  | [] => exact absurd rfl hitems
  | [v] =>
      rw [itemTokens, run_tokens v]
      simp [run, step]
  | v :: w :: items =>
      have htail := run_itemTokens (w :: items) (by simp) (v :: done) stack rest
      rw [itemTokens, List.append_assoc, run_tokens v, List.cons_append, run]
      simpa [step] using htail

theorem run_memberTokens (members : List (Bytes × Json)) (hmembers : members ≠ [])
    (done : List (Bytes × Json)) (stack : List Frame) (rest : List Token) :
    run (.key stack done) (memberTokens members ++ .endObject :: rest) =
      run (.complete stack (.object (done.reverse ++ members))) rest := by
  match members with
  | [] => exact absurd rfl hmembers
  | [(k, v)] =>
      rw [memberTokens]
      show run (.value (.object done k :: stack)) (tokens v ++ _) = _
      rw [run_tokens v]
      simp [run, step]
  | (k, v) :: m :: members =>
      have htail := run_memberTokens (m :: members) (by simp) ((k, v) :: done) stack rest
      rw [memberTokens]
      show run (.value (.object done k :: stack)) ((tokens v ++ _) ++ _) = _
      rw [List.append_assoc, run_tokens v, List.cons_append, run]
      simpa [step] using htail

end

theorem ofTokens?_tokens (v : Json) : ofTokens? (tokens v) = some v := by
  have hrun := run_tokens v [] []
  rw [List.append_nil] at hrun
  rw [ofTokens?, hrun]
  rfl

end Json
end PaperPairing
