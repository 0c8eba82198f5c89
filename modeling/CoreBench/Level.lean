/-!
One signal line as a simulator reports it: low, high, unknown or floating. The
nine values of `std_logic` fold onto these four. Weak drivers count as strong
ones; uninitialised, weak unknown and don't-care lines are unknown.
-/

namespace CoreBench

inductive Level where
  | low
  | high
  | unknown
  | floating
  deriving DecidableEq, Repr, Inhabited

namespace Level

/-- The characters of a value change dump and of `std_logic`, in either case. -/
def ofChar? (c : Char) : Option Level :=
  if c ∈ ['0', 'l', 'L'] then some .low
  else if c ∈ ['1', 'h', 'H'] then some .high
  else if c ∈ ['x', 'X', 'u', 'U', 'w', 'W', '-'] then some .unknown
  else if c ∈ ['z', 'Z'] then some .floating
  else none

def toChar : Level → Char
  | low => '0'
  | high => '1'
  | unknown => 'X'
  | floating => 'Z'

def isDefinite : Level → Bool
  | low | high => true
  | unknown | floating => false

def toBool? : Level → Option Bool
  | low => some false
  | high => some true
  | unknown | floating => none

def ofBool : Bool → Level
  | false => low
  | true => high

@[simp] theorem ofChar?_toChar (level : Level) : ofChar? level.toChar = some level := by
  cases level <;> decide

@[simp] theorem toBool?_ofBool (bit : Bool) : (ofBool bit).toBool? = some bit := by
  cases bit <;> rfl

@[simp] theorem isDefinite_ofBool (bit : Bool) : (ofBool bit).isDefinite = true := by
  cases bit <;> rfl

end Level

end CoreBench
