import PaperPairing.Proofs.Json.Lexeme
import PaperPairing.Proofs.Json.Value

/-!
# The texts of a value

A text of a value is its tokens in a row, with any blanks before, between and behind
them, and every string and number in a form of its own.  Reading accepts exactly the
texts of values, and from each of them it reads the value.
-/

namespace PaperPairing
namespace Json

/-- Strings and numbers have a form; the other tokens have one spelling. -/
def Token.IsWellFormed : Token -> Prop
  | .number lexeme => IsNumber lexeme
  | .text raw => IsTextBody raw
  | _ => True

def IsBlanks (b : Bytes) : Prop :=
  forall x, x ∈ b -> isBlank x = true

theorem isBlanks_nil : IsBlanks [] := by
  intro x hx
  cases hx

/-- Tokens in a row, with blanks before, between and behind them. -/
inductive Spaced : List Token -> Bytes -> Prop where
  | nil {blanks : Bytes} (hblanks : IsBlanks blanks) : Spaced [] blanks
  | cons {t : Token} {ts : List Token} {blanks rest : Bytes} (hblanks : IsBlanks blanks)
      (ht : t.IsWellFormed) (hrest : Spaced ts rest) :
      Spaced (t :: ts) (blanks ++ (t.spell ++ rest))

def IsTextOf (v : Json) (b : Bytes) : Prop :=
  Spaced (tokens v) b

/-!
## One token
-/

/-- A token is recognised where its spelling stands in front of `rest`. -/
def Token.IsReadBefore (t : Token) (rest : Bytes) : Prop :=
  exists x tail, t.spell = x :: tail ∧ isBlank x = false ∧
    token? x (tail ++ rest) = some (t, tail.length)

/-- A token that is recognised in front of a text is cut off there, and scanning goes on
behind it. -/
theorem scan?_spell_append {t : Token} {rest : Bytes} (ht : t.IsReadBefore rest) :
    scan? (t.spell ++ rest) = (scan? rest).map (t :: ·) := by
  rcases ht with ⟨x, tail, hspell, hblank, htoken⟩
  rw [hspell, List.cons_append, scan?, hblank, htoken]
  simp

theorem head_of_isNumber {lexeme : Bytes} (h : IsNumber lexeme) :
    exists x tail, lexeme = x :: tail ∧ (isDigit x = true ∨ x = 0x2D) := by
  rcases h with ⟨sign, whole, fraction, exponent, hsign, hwhole, -, -, rfl⟩
  rcases hsign with rfl | rfl
  · rcases head_of_isInteger hwhole with ⟨x, tail, rfl, hx⟩
    exact ⟨x, _, rfl, .inl hx⟩
  · exact ⟨0x2D, _, rfl, .inr rfl⟩

theorem token?_of_digit {x : UInt8} (hx : isDigit x = true ∨ x = 0x2D) (rest : Bytes) :
    isBlank x = false ∧ token? x rest =
      (numberLexeme? (x :: rest)).map (fun lexeme => (.number lexeme, lexeme.length - 1)) := by
  have hne : forall y : UInt8, isDigit y = false -> y ≠ 0x2D -> x ≠ y := by
    rintro y hdigit hminus rfl
    rcases hx with hx | hx
    · rw [hdigit] at hx
      cases hx
    · exact hminus hx
  constructor
  · simp [isBlank, hne 0x20 rfl (by decide), hne 0x09 rfl (by decide),
      hne 0x0A rfl (by decide), hne 0x0D rfl (by decide)]
  · rw [token?, if_neg (hne 0x5B rfl (by decide)), if_neg (hne 0x5D rfl (by decide)),
      if_neg (hne 0x7B rfl (by decide)), if_neg (hne 0x7D rfl (by decide)),
      if_neg (hne 0x3A rfl (by decide)), if_neg (hne 0x2C rfl (by decide)),
      if_neg (hne 0x22 rfl (by decide)), if_neg (hne 0x6E rfl (by decide)),
      if_neg (hne 0x74 rfl (by decide)), if_neg (hne 0x66 rfl (by decide))]

theorem isReadBefore_number {lexeme rest : Bytes} (h : IsNumber lexeme)
    (hrest : EndsNumber rest) : (Token.number lexeme).IsReadBefore rest := by
  have hnumber := numberLexeme?_append h hrest
  rcases head_of_isNumber h with ⟨x, tail, rfl, hx⟩
  rcases token?_of_digit hx (tail ++ rest) with ⟨hblank, htoken⟩
  refine ⟨x, tail, rfl, hblank, ?_⟩
  rw [List.cons_append] at hnumber
  rw [htoken, hnumber]
  rfl

theorem isReadBefore_text {raw : Bytes} (h : IsTextBody raw) (rest : Bytes) :
    (Token.text raw).IsReadBefore rest := by
  refine ⟨0x22, raw ++ [0x22], rfl, rfl, ?_⟩
  have hbody : textBody? (raw ++ [0x22] ++ rest) = some raw := by
    rw [List.append_assoc, List.singleton_append]
    exact textBody?_of_isTextBody h rest
  rw [token?]
  simp only [hbody]
  simp

theorem isReadBefore_of_isWellFormed {t : Token} {rest : Bytes} (ht : t.IsWellFormed)
    (hend : forall lexeme, t = .number lexeme -> EndsNumber rest) : t.IsReadBefore rest := by
  cases t with
  | beginArray => exact ⟨_, _, rfl, rfl, rfl⟩
  | endArray => exact ⟨_, _, rfl, rfl, rfl⟩
  | beginObject => exact ⟨_, _, rfl, rfl, rfl⟩
  | endObject => exact ⟨_, _, rfl, rfl, rfl⟩
  | colon => exact ⟨_, _, rfl, rfl, rfl⟩
  | comma => exact ⟨_, _, rfl, rfl, rfl⟩
  | null => exact ⟨_, _, rfl, rfl, rfl⟩
  | bool value => cases value <;> exact ⟨_, _, rfl, rfl, rfl⟩
  | number lexeme => exact isReadBefore_number ht (hend lexeme rfl)
  | text raw => exact isReadBefore_text ht rest

/-- The token that `x` begins is spelt where it was recognised, and `n` bytes of it are
behind `x`. -/
def Token.IsCutFrom (x : UInt8) (rest : Bytes) (t : Token) (n : Nat) : Prop :=
  t.IsWellFormed ∧ x :: rest = t.spell ++ rest.drop n

theorem isCutFrom_of_sign {x y : UInt8} {rest : Bytes} {sign t : Token} {n : Nat}
    (h : some (sign, 0) = some (t, n)) (hx : x = y) (hsign : sign.IsWellFormed)
    (hspell : sign.spell = [y]) : t.IsCutFrom x rest n := by
  cases h
  rw [Token.IsCutFrom, hspell, hx]
  exact ⟨hsign, rfl⟩

theorem isCutFrom_of_literal {x y : UInt8} {rest : Bytes} (word : Bytes) {literal t : Token}
    {n : Nat} (h : (if rest.take word.length = word then some (literal, word.length) else none) =
      some (t, n)) (hx : x = y) (hliteral : literal.IsWellFormed)
    (hspell : literal.spell = y :: word) : t.IsCutFrom x rest n := by
  split at h
  · next htake =>
      cases h
      refine ⟨hliteral, ?_⟩
      conv => lhs; rw [← List.take_append_drop word.length rest, htake]
      rw [hspell, hx, List.cons_append]
  · cases h

theorem isCutFrom_of_text {x : UInt8} {rest : Bytes} {t : Token} {n : Nat} (hx : x = 0x22)
    (h : (textBody? rest).map (fun raw => (Token.text raw, raw.length + 1)) = some (t, n)) :
    t.IsCutFrom x rest n := by
  rcases Option.map_eq_some_iff.mp h with ⟨raw, hraw, heq⟩
  cases heq
  rcases isTextBody_of_textBody? hraw with ⟨hbody, rest', rfl⟩
  refine ⟨hbody, ?_⟩
  have hdrop : (raw ++ 0x22 :: rest').drop (raw.length + 1) = rest' := by
    rw [← List.drop_drop, List.drop_left]
    rfl
  rw [hx, hdrop, Token.spell, List.append_assoc]
  rfl

theorem isCutFrom_of_number {x : UInt8} {rest : Bytes} {t : Token} {n : Nat}
    (h : (numberLexeme? (x :: rest)).map
      (fun lexeme => (Token.number lexeme, lexeme.length - 1)) = some (t, n)) :
    t.IsCutFrom x rest n := by
  rcases Option.map_eq_some_iff.mp h with ⟨lexeme, hlexeme, heq⟩
  cases heq
  rcases isNumber_of_numberLexeme? hlexeme with ⟨hnumber, rest', hrest⟩
  rcases head_of_isNumber hnumber with ⟨y, tail, rfl, -⟩
  cases hrest
  refine ⟨hnumber, ?_⟩
  show x :: (tail ++ rest') = x :: tail ++ (tail ++ rest').drop tail.length
  rw [List.drop_left, List.cons_append]

theorem isCutFrom_of_token? {x : UInt8} {rest : Bytes} {t : Token} {n : Nat}
    (h : token? x rest = some (t, n)) : t.IsCutFrom x rest n := by
  rw [token?] at h
  rcases ite_eq_iff.mp h with ⟨hx, h⟩ | ⟨-, h⟩
  · exact isCutFrom_of_sign h hx trivial rfl
  rcases ite_eq_iff.mp h with ⟨hx, h⟩ | ⟨-, h⟩
  · exact isCutFrom_of_sign h hx trivial rfl
  rcases ite_eq_iff.mp h with ⟨hx, h⟩ | ⟨-, h⟩
  · exact isCutFrom_of_sign h hx trivial rfl
  rcases ite_eq_iff.mp h with ⟨hx, h⟩ | ⟨-, h⟩
  · exact isCutFrom_of_sign h hx trivial rfl
  rcases ite_eq_iff.mp h with ⟨hx, h⟩ | ⟨-, h⟩
  · exact isCutFrom_of_sign h hx trivial rfl
  rcases ite_eq_iff.mp h with ⟨hx, h⟩ | ⟨-, h⟩
  · exact isCutFrom_of_sign h hx trivial rfl
  rcases ite_eq_iff.mp h with ⟨hx, h⟩ | ⟨-, h⟩
  · exact isCutFrom_of_text hx h
  rcases ite_eq_iff.mp h with ⟨hx, h⟩ | ⟨-, h⟩
  · exact isCutFrom_of_literal [0x75, 0x6C, 0x6C] h hx trivial rfl
  rcases ite_eq_iff.mp h with ⟨hx, h⟩ | ⟨-, h⟩
  · exact isCutFrom_of_literal [0x72, 0x75, 0x65] h hx trivial rfl
  rcases ite_eq_iff.mp h with ⟨hx, h⟩ | ⟨-, h⟩
  · exact isCutFrom_of_literal [0x61, 0x6C, 0x73, 0x65] h hx trivial rfl
  exact isCutFrom_of_number h

/-!
## Rows of tokens
-/

theorem scan?_blanks {blanks : Bytes} (h : IsBlanks blanks) (rest : Bytes) :
    scan? (blanks ++ rest) = scan? rest := by
  induction blanks with
  | nil => rfl
  | cons x blanks ih =>
      rw [List.cons_append, scan?, if_pos (h x List.mem_cons_self)]
      exact ih (fun y hy => h y (List.mem_cons_of_mem x hy))

theorem endsNumber_of_isBlank {x : UInt8} (h : isBlank x = true) (rest : Bytes) :
    EndsNumber (x :: rest) := by
  intro y hy
  cases hy
  simp only [isBlank, Bool.or_eq_true, decide_eq_true_eq] at h
  rcases h with ((rfl | rfl) | rfl) | rfl <;> decide

theorem endsNumber_of_blanks {blanks rest : Bytes} (hblanks : IsBlanks blanks)
    (hrest : EndsNumber rest) : EndsNumber (blanks ++ rest) := by
  cases blanks with
  | nil => exact hrest
  | cons x blanks => exact endsNumber_of_isBlank (hblanks x List.mem_cons_self) _

theorem step_complete {stack : List Frame} {v : Json} {t : Token} {r : Reader}
    (h : Reader.step (.complete stack v) t = some r) :
    t = .comma ∨ t = .endArray ∨ t = .endObject := by
  cases t with
  | comma => exact .inl rfl
  | endArray => exact .inr (.inl rfl)
  | endObject => exact .inr (.inr rfl)
  | _ => rcases stack with _ | ⟨_ | _, _⟩ <;> cases h

theorem step_number {r next : Reader} {lexeme : Bytes}
    (h : Reader.step r (.number lexeme) = some next) :
    exists stack v, next = .complete stack v := by
  cases r with
  | value stack =>
      cases h
      exact ⟨_, _, rfl⟩
  | firstItem stack =>
      cases h
      exact ⟨_, _, rfl⟩
  | key stack done => cases done <;> cases h
  | colon stack done k => cases h
  | complete stack v => rcases stack with _ | ⟨_ | _, _⟩ <;> cases h

theorem endsNumber_of_run {stack : List Frame} {v : Json} {ts : List Token} {rest : Bytes}
    {r : Reader} (hrest : Spaced ts rest) (hrun : Reader.run (.complete stack v) ts = some r) :
    EndsNumber rest := by
  cases hrest with
  | nil hblanks =>
      rw [← List.append_nil rest]
      apply endsNumber_of_blanks hblanks
      intro x hx
      cases hx
  | cons hblanks ht hrest =>
      apply endsNumber_of_blanks hblanks
      rw [Reader.run] at hrun
      split at hrun
      · next hstep =>
          intro x hx
          rcases step_complete hstep with rfl | rfl | rfl <;> cases hx <;> decide
      · cases hrun

theorem scan?_of_spaced {ts : List Token} {b : Bytes} {r r' : Reader} (h : Spaced ts b)
    (hrun : Reader.run r ts = some r') : scan? b = some ts := by
  induction h generalizing r with
  | @nil blanks hblanks =>
      rw [← List.append_nil blanks, scan?_blanks hblanks, scan?]
  | @cons t ts blanks rest hblanks ht hrest ih =>
      rw [Reader.run] at hrun
      split at hrun
      · next next hstep =>
          -- A number leaves the machine with a value, and no digit or sign is taken behind it.
          have hend : forall lexeme, t = .number lexeme -> EndsNumber rest := by
            intro lexeme hlexeme
            rw [hlexeme] at hstep
            rcases step_number hstep with ⟨stack, v, hnext⟩
            rw [hnext] at hrun
            exact endsNumber_of_run hrest hrun
          rw [scan?_blanks hblanks, scan?_spell_append (isReadBefore_of_isWellFormed ht hend),
            ih hrun]
          rfl
      · cases hrun

theorem spaced_blank {x : UInt8} (hx : isBlank x = true) {ts : List Token} {b : Bytes}
    (h : Spaced ts b) : Spaced ts (x :: b) := by
  have hcons : forall blanks, IsBlanks blanks -> IsBlanks (x :: blanks) := by
    intro blanks hblanks y hy
    rcases List.mem_cons.mp hy with hy | hy
    · rw [hy]
      exact hx
    · exact hblanks y hy
  cases h with
  | nil hblanks => exact .nil (hcons _ hblanks)
  | cons hblanks ht hrest => exact .cons (hcons _ hblanks) ht hrest

theorem spaced_of_scan? {b : Bytes} {ts : List Token} (h : scan? b = some ts) :
    Spaced ts b := by
  fun_induction scan? b generalizing ts with
  | case1 =>
      cases h
      exact .nil isBlanks_nil
  | case2 x rest hblank ih => exact spaced_blank hblank (ih h)
  | case3 x rest hblank t n htoken ih =>
      rcases Option.map_eq_some_iff.mp h with ⟨ts', hts, rfl⟩
      rcases isCutFrom_of_token? htoken with ⟨ht, hspell⟩
      rw [hspell]
      exact .cons isBlanks_nil ht (ih hts)
  | case4 => cases h

/-!
## What the machine has read
-/

/-- The items of an array or the members of an object that are complete, each with its
comma. -/
def doneItems (done : List Json) : List Token :=
  done.reverse.flatMap (fun v => tokens v ++ [.comma])

def doneMembers (done : List (Bytes × Json)) : List Token :=
  done.reverse.flatMap (fun m => .text m.1 :: .colon :: tokens m.2 ++ [.comma])

def Frame.read : Frame -> List Token
  | .array done => .beginArray :: doneItems done
  | .object done key => .beginObject :: doneMembers done ++ [.text key, .colon]

/-- The tokens of what is still open, from the outermost frame to the innermost. -/
def openTokens (stack : List Frame) : List Token :=
  stack.reverse.flatMap Frame.read

/-- The tokens that have brought the machine where it is. -/
def Reader.read : Reader -> List Token
  | .value stack => openTokens stack
  | .firstItem stack => openTokens stack ++ [.beginArray]
  | .key stack done => openTokens stack ++ .beginObject :: doneMembers done
  | .colon stack done k => openTokens stack ++ .beginObject :: doneMembers done ++ [.text k]
  | .complete stack v => openTokens stack ++ tokens v

theorem openTokens_cons (f : Frame) (stack : List Frame) :
    openTokens (f :: stack) = openTokens stack ++ f.read := by
  simp [openTokens]

theorem doneItems_cons (v : Json) (done : List Json) :
    doneItems (v :: done) = doneItems done ++ (tokens v ++ [.comma]) := by
  simp [doneItems]

theorem doneMembers_cons (m : Bytes × Json) (done : List (Bytes × Json)) :
    doneMembers (m :: done) =
      doneMembers done ++ (.text m.1 :: .colon :: tokens m.2 ++ [.comma]) := by
  simp [doneMembers]

theorem itemTokens_concat (items : List Json) (v : Json) :
    itemTokens (items ++ [v]) = items.flatMap (fun w => tokens w ++ [.comma]) ++ tokens v := by
  match items with
  | [] => rw [List.nil_append, itemTokens]; rfl
  | [w] => simp [itemTokens]
  | w :: u :: items =>
      have htail := itemTokens_concat (u :: items) v
      rw [List.cons_append, List.cons_append, itemTokens, ← List.cons_append, htail]
      simp

theorem memberTokens_concat (members : List (Bytes × Json)) (m : Bytes × Json) :
    memberTokens (members ++ [m]) =
      members.flatMap (fun n => .text n.1 :: .colon :: tokens n.2 ++ [.comma]) ++
        .text m.1 :: .colon :: tokens m.2 := by
  match members with
  | [] => rw [List.nil_append, memberTokens]; rfl
  | [n] => simp [memberTokens]
  | n :: u :: members =>
      have htail := memberTokens_concat (u :: members) m
      rw [List.cons_append, List.cons_append, memberTokens, ← List.cons_append, htail]
      simp

theorem tokens_array (v : Json) (done : List Json) :
    tokens (.array (v :: done).reverse) =
      .beginArray :: (doneItems done ++ tokens v) ++ [.endArray] := by
  rw [tokens, List.reverse_cons, itemTokens_concat, doneItems]

theorem tokens_object (m : Bytes × Json) (done : List (Bytes × Json)) :
    tokens (.object (m :: done).reverse) =
      .beginObject :: (doneMembers done ++ .text m.1 :: .colon :: tokens m.2) ++
        [.endObject] := by
  rw [tokens, List.reverse_cons, memberTokens_concat, doneMembers]

theorem read_begin {stack : List Frame} {t : Token} {r : Reader}
    (h : Reader.begin stack t = some r) : r.read = openTokens stack ++ [t] := by
  unfold Reader.begin at h
  split at h <;> cases h <;> simp [Reader.read, tokens, doneMembers]

/-- A step adds its token to what was read. -/
theorem read_step {r r' : Reader} {t : Token} (h : Reader.step r t = some r') :
    r'.read = r.read ++ [t] := by
  unfold Reader.step at h
  split at h
  · exact read_begin h
  · cases h
    simp [Reader.read, tokens, itemTokens]
  · rw [read_begin h, openTokens_cons]
    simp [Reader.read, Frame.read, doneItems]
  · cases h
    simp [Reader.read]
  · cases h
    simp [Reader.read, tokens, memberTokens, doneMembers]
  · cases h
    simp [Reader.read, openTokens_cons, Frame.read]
  · cases h
    simp [Reader.read, openTokens_cons, Frame.read, doneItems_cons]
  · cases h
    simp only [Reader.read, tokens_array, openTokens_cons, Frame.read, List.append_assoc,
      List.cons_append]
  · cases h
    simp [Reader.read, openTokens_cons, Frame.read, doneMembers_cons]
  · cases h
    rw [Reader.read, tokens_object]
    simp [Reader.read, openTokens_cons, Frame.read]
  · cases h

theorem read_run {r r' : Reader} {ts : List Token} (h : Reader.run r ts = some r') :
    r'.read = r.read ++ ts := by
  induction ts generalizing r with
  | nil =>
      cases h
      rw [List.append_nil]
  | cons t ts ih =>
      rw [Reader.run] at h
      split at h
      · next next hstep =>
          rw [ih h, read_step hstep, List.append_assoc, List.singleton_append]
      · cases h

theorem tokens_of_ofTokens? {ts : List Token} {v : Json} (h : ofTokens? ts = some v) :
    tokens v = ts := by
  rw [ofTokens?] at h
  split at h
  · next w hrun =>
      cases h
      exact read_run hrun
  · cases h

/-!
## Texts
-/

theorem parse?_of_isTextOf {v : Json} {b : Bytes} (h : IsTextOf v b) : parse? b = some v := by
  have hrun := run_tokens v [] []
  rw [List.append_nil] at hrun
  rw [parse?, scan?_of_spaced h hrun]
  exact ofTokens?_tokens v

theorem isTextOf_of_parse? {v : Json} {b : Bytes} (h : parse? b = some v) : IsTextOf v b := by
  rcases Option.bind_eq_some_iff.mp h with ⟨ts, hscan, htokens⟩
  rw [IsTextOf, tokens_of_ofTokens? htokens]
  exact spaced_of_scan? hscan

/-- Exactly the texts of a value are read as this value. -/
theorem parse?_eq_some_iff {v : Json} {b : Bytes} : parse? b = some v ↔ IsTextOf v b :=
  ⟨isTextOf_of_parse?, parse?_of_isTextOf⟩

end Json
end PaperPairing
