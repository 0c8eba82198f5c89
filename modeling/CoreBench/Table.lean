/-!
Small tables with texts as keys, kept as lists. Writing a key again replaces its
value and keeps its place.
-/

namespace CoreBench

abbrev Table (Value : Type) := List (String × Value)

namespace Table

variable {Value : Type}

def get? : Table Value → String → Option Value
  | [], _ => none
  | (other, held) :: rest, key => if other = key then some held else get? rest key

def put : Table Value → String → Value → Table Value
  | [], key, value => [(key, value)]
  | (other, held) :: rest, key, value =>
      if other = key then (key, value) :: rest else (other, held) :: put rest key value

@[simp] theorem get?_put (table : Table Value) (key other : String) (value : Value) :
    (put table key value).get? other = if key = other then some value else table.get? other := by
  induction table with
  | nil => simp [put, get?]
  | cons entry rest ih =>
      obtain ⟨held, old⟩ := entry
      by_cases here : held = key
      · subst here
        by_cases same : held = other <;> simp [put, get?, same]
      · by_cases same : held = other
        · subst same
          simp [put, get?, here, Ne.symm here]
        · simp [put, get?, here, same, ih]

end Table

end CoreBench
