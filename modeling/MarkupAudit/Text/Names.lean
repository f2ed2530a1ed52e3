/-! Lists of names: in order, and without repetition. -/

namespace MarkupAudit.Text

/-- Puts a name into its place among names in order. -/
def insertName (name : String) : List String → List String
  | [] => [name]
  | other :: names =>
    if name < other then name :: other :: names else other :: insertName name names

/-- The names in order of their code points. -/
def sortNames (names : List String) : List String :=
  names.foldr insertName []

/-- The names in order of first appearance, each once. -/
def distinct (names : List String) : List String :=
  names.foldl (fun seen name => if seen.contains name then seen else seen ++ [name]) []

end MarkupAudit.Text
