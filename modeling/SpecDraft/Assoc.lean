/-!
# Named things

Lists of things under names. The first thing of a name is the one that counts.
-/
set_option autoImplicit false

namespace SpecDraft.Assoc

variable {α : Type}

/-- The names of a list, in order. -/
def names (items : List (String × α)) : List String := items.map Prod.fst

/-- Puts a thing under a name: in place of one that has it, else last. -/
def put : List (String × α) → String → α → List (String × α)
  | [], name, item => [(name, item)]
  | (other, old) :: rest, name, item =>
    if other = name then (other, item) :: rest else (other, old) :: put rest name item

end SpecDraft.Assoc
