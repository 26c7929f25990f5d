/-!
# Lines of a text

A text is cut into lines at line feeds.  A carriage return before a line feed
belongs to the cut, and a line feed at the end of the text ends the last line
and starts no other.
-/

namespace RegisterMachine

namespace Text

def linesOf : List Char → List (List Char)
  | [] => []
  | '\n' :: rest => [] :: linesOf rest
  | '\r' :: '\n' :: rest => [] :: linesOf rest
  | character :: rest =>
    match linesOf rest with
    | [] => [[character]]
    | line :: others => (character :: line) :: others

def lines (text : String) : List String :=
  (linesOf text.toList).map String.ofList

end Text

end RegisterMachine
