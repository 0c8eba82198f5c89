/-!
Bisection of a list in which the elements that pass a test stand in front: how many
of them there are, found by looking at few elements.
-/

namespace CoreBench

variable {α : Type}

/-- Halves the range between a number of elements that pass and one behind which none
does, until they meet. -/
@[semireducible]
def narrow (test : α → Bool) (xs : List α) (low high : Nat) : Nat :=
  if low < high then
    let middle := low + (high - low) / 2
    if xs[middle]?.any test then narrow test xs (middle + 1) high else narrow test xs low middle
  else low
termination_by high - low

/-- How many elements pass, if those that do stand in front. -/
def passing (test : α → Bool) (xs : List α) : Nat :=
  narrow test xs 0 xs.length

theorem narrow_separates (test : α → Bool) (xs : List α)
    (divided : xs.Pairwise fun earlier later => test later → test earlier) (low high : Nat)
    (order : low ≤ high) (inside : high ≤ xs.length)
    (below : ∀ index x, index < low → xs[index]? = some x → test x)
    (above : ∀ index x, high ≤ index → xs[index]? = some x → ¬ test x) :
    (∀ index x, index < narrow test xs low high → xs[index]? = some x → test x) ∧
      ∀ index x, narrow test xs low high ≤ index → xs[index]? = some x → ¬ test x := by
  -- Whatever passes, everything in front of it passes too.
  have carried : ∀ (early late : Nat) (x y : α), early ≤ late →
      xs[early]? = some x → xs[late]? = some y → test y → test x := by
    intro early late x y order first second passes
    obtain ⟨early_inside, rfl⟩ := List.getElem?_eq_some_iff.mp first
    obtain ⟨late_inside, rfl⟩ := List.getElem?_eq_some_iff.mp second
    rcases Nat.lt_or_eq_of_le order with before | rfl
    · exact List.pairwise_iff_getElem.mp divided _ _ early_inside late_inside before passes
    · exact passes
  fun_induction narrow test xs low high with
  | case1 low high room middle passes ih =>
      have bound : middle < xs.length := by omega
      have found : xs[middle]? = some xs[middle] := List.getElem?_eq_getElem bound
      rw [found, Option.any_some] at passes
      apply ih (by omega) inside _ above
      intro index x left present
      exact carried index middle x _ (by omega) present found passes
  | case2 low high room middle fails ih =>
      have bound : middle < xs.length := by omega
      have found : xs[middle]? = some xs[middle] := List.getElem?_eq_getElem bound
      rw [found, Option.any_some] at fails
      apply ih (by omega) (by omega) below
      intro index x right present passes
      exact fails (carried middle index _ x right found present passes)
  | case3 low high done =>
      obtain rfl : low = high := by omega
      exact ⟨below, above⟩

/-- Bisection finds the elements that pass. -/
theorem take_passing (test : α → Bool) (xs : List α)
    (divided : xs.Pairwise fun earlier later => test later → test earlier) :
    xs.take (passing test xs) = xs.filter test := by
  obtain ⟨below, above⟩ :=
    narrow_separates test xs divided 0 xs.length (Nat.zero_le _) (Nat.le_refl _)
      (fun index x left => absurd left (Nat.not_lt_zero index))
      (fun index x right present => by
        rw [List.getElem?_eq_none right] at present
        cases present)
  have front : (xs.take (passing test xs)).filter test = xs.take (passing test xs) := by
    rw [List.filter_eq_self]
    intro x member
    obtain ⟨index, bound, rfl⟩ := List.mem_iff_getElem.mp member
    rw [List.length_take] at bound
    rw [List.getElem_take]
    exact below index _ (Nat.lt_of_lt_of_le bound (Nat.min_le_left _ _))
      (List.getElem?_eq_getElem _)
  have back : (xs.drop (passing test xs)).filter test = [] := by
    rw [List.filter_eq_nil_iff]
    intro x member
    obtain ⟨index, bound, rfl⟩ := List.mem_iff_getElem.mp member
    rw [List.getElem_drop]
    exact above (passing test xs + index) _ (Nat.le_add_right _ _) (List.getElem?_eq_getElem _)
  calc
    xs.take (passing test xs)
      = (xs.take (passing test xs)).filter test ++ (xs.drop (passing test xs)).filter test := by
        rw [front, back, List.append_nil]
    _ = xs.filter test := by rw [← List.filter_append, List.take_append_drop]

end CoreBench
