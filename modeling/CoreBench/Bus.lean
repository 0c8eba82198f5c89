import CoreBench.Level

/-!
A bundle of signal lines, least significant first. Text shows the most
significant line first. A bus has a value only when every line is definite and
no line above the 64th is high; the driven bits read the same lines with
everything indefinite as zero.
-/

namespace CoreBench

structure Bus where
  levels : List Level
  deriving DecidableEq, Repr, Inhabited

structure NoSuchLine where
  index : Nat
  width : Nat
  deriving DecidableEq, Repr

def NoSuchLine.message (error : NoSuchLine) : String :=
  s!"index {error.index} out of bounds for width {error.width}"

namespace Bus

/-- The number of lines. Kept in 32 bits it is the same number on every bus of fewer
than 2 ^ 32 lines; there is no bound here. -/
def width (bus : Bus) : Nat :=
  bus.levels.length

def filled (width : Nat) (level : Level) : Bus :=
  ⟨List.replicate width level⟩

def get (bus : Bus) (index : Nat) : Except NoSuchLine Level :=
  match bus.levels[index]? with
  | some level => .ok level
  | none => .error ⟨index, bus.width⟩

def set (bus : Bus) (index : Nat) (level : Level) : Except NoSuchLine Bus :=
  if index < bus.width then .ok ⟨bus.levels.set index level⟩
  else .error ⟨index, bus.width⟩

/-- The low `width` bits of `value`. -/
def bitsOf : Nat → Nat → List Level
  | 0, _ => []
  | width + 1, value => Level.ofBool (value % 2 = 1) :: bitsOf width (value / 2)

def ofNat (value width : Nat) : Bus :=
  ⟨bitsOf width value⟩

/-- The sum of the powers of two at the high lines. -/
def sum : List Level → Nat
  | [] => 0
  | level :: levels => (if level = .high then 1 else 0) + 2 * sum levels

def isDefinite (bus : Bus) : Bool :=
  bus.levels.all Level.isDefinite

/-- The number on the bus, if every line is definite and the number fits into
64 bits. -/
def toNat? (bus : Bus) : Option Nat :=
  if bus.isDefinite && (bus.levels.drop 64).all (· == .low) then some (sum bus.levels) else none

/-- The number on the low 64 lines, with indefinite lines as zero. -/
def driven (bus : Bus) : Nat :=
  sum (bus.levels.take 64)

def reverse (bus : Bus) : Bus :=
  ⟨bus.levels.reverse⟩

/-- Cuts off the most significant lines or adds lines at the level `fill`. -/
def resize (bus : Bus) (width : Nat) (fill : Level) : Bus :=
  ⟨bus.levels.take width ++ List.replicate (width - bus.width) fill⟩

/-- Reads a text of levels, most significant first. -/
def ofChars? (cs : List Char) : Option Bus :=
  (cs.reverse.mapM Level.ofChar?).map Bus.mk

def ofText? (text : String) : Option Bus :=
  ofChars? text.toList

def toText (bus : Bus) : String :=
  String.ofList (bus.levels.reverse.map Level.toChar)

instance : ToString Bus :=
  ⟨toText⟩

@[simp] theorem width_filled (width : Nat) (level : Level) : (filled width level).width = width := by
  simp [filled, Bus.width]

@[simp] theorem length_bitsOf (width value : Nat) : (bitsOf width value).length = width := by
  induction width generalizing value with
  | zero => rfl
  | succ width ih => simp [bitsOf, ih]

@[simp] theorem width_ofNat (value width : Nat) : (ofNat value width).width = width := by
  simp [ofNat, Bus.width]

@[simp] theorem width_reverse (bus : Bus) : bus.reverse.width = bus.width := by
  simp [reverse, width]

@[simp] theorem width_resize (bus : Bus) (width : Nat) (fill : Level) :
    (bus.resize width fill).width = width := by
  simp [resize, Bus.width]
  omega

@[simp] theorem reverse_reverse (bus : Bus) : bus.reverse.reverse = bus := by
  simp [reverse]

theorem sum_bitsOf (width value : Nat) : sum (bitsOf width value) = value % 1 <<< width := by
  rw [Nat.one_shiftLeft]
  induction width generalizing value with
  | zero => simp [bitsOf, sum, Nat.mod_one]
  | succ width ih =>
      have split := Nat.mod_mul (x := value) (a := 2) (b := 2 ^ width)
      rw [bitsOf, sum, ih, Nat.pow_succ', split]
      rcases Nat.mod_two_eq_zero_or_one value with even | odd
      · simp [even, Level.ofBool]
      · simp [odd, Level.ofBool]

end Bus

end CoreBench
