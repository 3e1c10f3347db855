/-
A sequence cut at every occurrence of an item, as a text is cut at a separator. One without
the separator is one part, and joining the parts with it gives the sequence back.
-/
namespace SystemMap.Text

/-- The parts of a sequence between occurrences of a separator; always at least one. -/
def splitAt {α : Type} [DecidableEq α] (sep : α) : List α → List (List α)
  | [] => [[]]
  | c :: cs =>
    match splitAt sep cs with
    | [] => [[]]
    | part :: parts => if c = sep then [] :: part :: parts else (c :: part) :: parts

end SystemMap.Text
