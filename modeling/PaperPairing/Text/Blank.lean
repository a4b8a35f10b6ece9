/-!
# White space

The characters with the Unicode property White_Space, and the words and
trimmed forms of a text that it delimits.
-/

namespace PaperPairing
namespace Text

def isBlank (c : Char) : Bool :=
  let n := c.toNat
  (9 ≤ n && n ≤ 13) || n = 0x20 || n = 0x85 || n = 0xA0 || n = 0x1680 ||
    (0x2000 ≤ n && n ≤ 0x200A) || n = 0x2028 || n = 0x2029 || n = 0x202F ||
    n = 0x205F || n = 0x3000

theorem isBlank_of_isWhitespace {c : Char} (h : c.isWhitespace = true) :
    isBlank c = true := by
  simp only [Char.isWhitespace, Bool.or_eq_true, decide_eq_true_eq] at h
  rcases h with ((h | h) | h) | h <;> subst h <;> rfl

def trimLeft (cs : List Char) : List Char :=
  cs.dropWhile isBlank

def trim (cs : List Char) : List Char :=
  (trimLeft (trimLeft cs).reverse).reverse

/-- Cut a text at white space: `current` holds the word being read, backwards. -/
def wordsFrom (current : List Char) : List Char -> List (List Char)
  | [] => if current = [] then [] else [current.reverse]
  | c :: rest =>
      if isBlank c then
        if current = [] then wordsFrom [] rest
        else current.reverse :: wordsFrom [] rest
      else
        wordsFrom (c :: current) rest

def words (cs : List Char) : List (List Char) :=
  wordsFrom [] cs

end Text
end PaperPairing
