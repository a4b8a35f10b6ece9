/-!
# Lines

A line ends at a line feed, and a carriage return right before that belongs to
the line end.  What stands after the last line feed is a line of its own unless
it is empty; a carriage return at its end is part of it.
-/

namespace PaperPairing
namespace Text

def dropReturn (line : List Char) : List Char :=
  if line.getLast? = some '\r' then line.dropLast else line

/-- The lines of a text, `current` being the line read so far, backwards. -/
def linesFrom (current : List Char) : List Char -> List (List Char)
  | [] => if current = [] then [] else [current.reverse]
  | c :: rest =>
      if c = '\n' then dropReturn current.reverse :: linesFrom [] rest
      else linesFrom (c :: current) rest

def lines (cs : List Char) : List (List Char) :=
  linesFrom [] cs

end Text
end PaperPairing
