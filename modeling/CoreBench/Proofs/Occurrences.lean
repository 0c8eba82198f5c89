import CoreBench.Text.Split
import Mathlib.Data.List.Infix

/-!
Where a text occurs in another one. Splitting at a separator leaves pieces without it, and if the
separator cannot overlap with itself there is only one way to divide a text so. What is put in the
place of the separator makes no new occurrence when none can begin or end in it.
-/

namespace CoreBench.Text

theorem not_prefix_of_clean {sep cs : List Char} (clean : ¬ sep <:+: cs) :
    ¬ sep.isPrefixOf cs = true :=
  fun here => clean (List.isPrefixOf_iff_prefix.mp here).isInfix

theorem cut_none_iff (sep cs : List Char) : cut sep cs = none ↔ ¬ sep <:+: cs := by
  induction cs with
  | nil =>
      cases sep with
      | nil => simp [cut]
      | cons c sep => simp [cut]
  | cons c cs ih =>
      by_cases here : sep.isPrefixOf (c :: cs)
      · simp [cut, here, (List.isPrefixOf_iff_prefix.mp here).isInfix]
      · have apart : ¬ sep <+: c :: cs := fun found => here (List.isPrefixOf_iff_prefix.mpr found)
        rw [cut, if_neg here, Option.map_eq_none_iff, ih, List.infix_cons_iff]
        simp [apart]

theorem contains_iff (sep cs : List Char) : contains sep cs = true ↔ sep <:+: cs := by
  rw [contains, Option.isSome_iff_ne_none, ne_eq, cut_none_iff, not_not]

theorem prefix_apart {sep before after : List Char} {c : Char} (outside : c ∉ sep)
    (starts : sep <+: before ++ c :: after) : sep <+: before := by
  induction sep generalizing before with
  | nil => exact List.nil_prefix
  | cons first sep ih =>
      obtain ⟨apart, outside⟩ := List.ne_and_not_mem_of_not_mem_cons outside
      cases before with
      | nil => exact absurd (List.cons_prefix_cons.mp starts).1 apart.symm
      | cons b before =>
          obtain ⟨rfl, inner⟩ := List.cons_prefix_cons.mp starts
          exact List.cons_prefix_cons.mpr ⟨rfl, ih outside inner⟩

/-- An occurrence does not reach over a character that it does not have. -/
theorem infix_apart {sep before after : List Char} {c : Char} (outside : c ∉ sep)
    (found : sep <:+: before ++ c :: after) : sep <:+: before ∨ sep <:+: after := by
  induction before with
  | nil =>
      rcases List.infix_cons_iff.mp found with here | later
      · have starts : sep <+: [] := prefix_apart outside here
        exact .inl starts.isInfix
      · exact .inr later
  | cons b before ih =>
      rcases List.infix_cons_iff.mp found with here | later
      · have starts : sep <+: b :: before := prefix_apart outside here
        exact .inl starts.isInfix
      · exact (ih later).imp_left List.infix_cons

/-- An occurrence cannot begin where its first character does not occur. -/
theorem infix_after {first : Char} {others gap rest : List Char} (absent : first ∉ gap)
    (found : first :: others <:+: gap ++ rest) : first :: others <:+: rest := by
  induction gap with
  | nil => exact found
  | cons c gap ih =>
      obtain ⟨apart, absent⟩ := List.ne_and_not_mem_of_not_mem_cons absent
      rcases List.infix_cons_iff.mp found with here | later
      · exact absurd (List.cons_prefix_cons.mp here).1 apart
      · exact ih absent later

/-- A text in parts between all occurrences of a separator. -/
structure Divides (sep cs : List Char) (pieces : List (List Char)) : Prop where
  nonempty : pieces ≠ []
  joined : sep.intercalate pieces = cs
  clean : ∀ piece ∈ pieces, ¬ sep <:+: piece

theorem Divides.of_cons {sep cs piece next : List Char} {rest : List (List Char)}
    (divides : Divides sep cs (piece :: next :: rest)) :
    ∃ tail, cs = piece ++ (sep ++ tail) ∧ Divides sep tail (next :: rest) := by
  refine ⟨sep.intercalate (next :: rest), ?_, List.cons_ne_nil _ _, rfl, ?_⟩
  · rw [← divides.joined, List.intercalate_cons_cons, List.append_assoc]
  · exact (List.forall_mem_cons.mp divides.clean).2

/-- The first piece of a split starts the text. -/
theorem split_from_head (sep cs piece : List Char) (rest : List (List Char)) (skip : Nat)
    (split : splitFrom sep skip cs = piece :: rest) (nonempty : sep ≠ []) :
    piece <+: cs.drop skip := by
  have whole := intercalate_splitFrom sep cs skip nonempty
  rw [split] at whole
  cases rest with
  | nil => simp [← whole]
  | cons next rest =>
      rw [← whole, List.intercalate_cons_cons, List.append_assoc]
      exact List.prefix_append _ _

theorem split_from_clean (sep cs : List Char) (skip : Nat) (nonempty : sep ≠ []) :
    ∀ piece ∈ splitFrom sep skip cs, ¬ sep <:+: piece := by
  have empty : ¬ sep <:+: [] := by simpa using nonempty
  fun_induction splitFrom sep skip cs with
  | case1 => simpa using nonempty
  | case2 skip _ cs ih => exact ih
  | case3 c cs here ih => exact List.forall_mem_cons.mpr ⟨empty, ih⟩
  | case4 c cs there ih =>
      obtain ⟨piece, rest, split⟩ := List.exists_cons_of_ne_nil (splitFrom_ne_nil sep cs 0)
      have starts := split_from_head sep cs piece rest 0 split nonempty
      rw [split, List.forall_mem_cons] at ih
      rw [split, List.modifyHead_cons, List.forall_mem_cons]
      refine ⟨fun found => ?_, ih.2⟩
      rcases List.infix_cons_iff.mp found with here | later
      · -- The piece starts the text, so what starts the piece would have been found there.
        apply there
        rw [List.isPrefixOf_iff_prefix]
        exact here.trans (List.cons_prefix_cons.mpr ⟨rfl, starts⟩)
      · exact ih.1 later

theorem split_divides (sep cs : List Char) (nonempty : sep ≠ []) :
    Divides sep cs (split sep cs) where
  nonempty := splitFrom_ne_nil sep cs 0
  joined := intercalate_split sep cs nonempty
  clean := split_from_clean sep cs 0 nonempty

theorem split_whole {sep cs : List Char} (clean : ¬ sep <:+: cs) : split sep cs = [cs] := by
  rw [split]
  induction cs with
  | nil => rfl
  | cons c cs ih =>
      rw [splitFrom, if_neg (not_prefix_of_clean clean),
        ih fun found => clean (List.infix_cons found)]
      rfl

theorem split_whole_iff (sep cs : List Char) (nonempty : sep ≠ []) :
    split sep cs = [cs] ↔ ¬ sep <:+: cs := by
  constructor
  · intro whole
    have clean := (split_divides sep cs nonempty).clean
    rw [whole] at clean
    exact clean cs List.mem_cons_self
  · exact split_whole

/-- A separator that occurs stands between two pieces at least. -/
theorem split_many (sep cs : List Char) (nonempty : sep ≠ []) (found : sep <:+: cs) :
    ∃ piece next rest, split sep cs = piece :: next :: rest := by
  have divides := split_divides sep cs nonempty
  cases pieces : split sep cs with
  | nil => exact absurd pieces divides.nonempty
  | cons piece rest =>
      cases rest with
      | cons next rest => exact ⟨piece, next, rest, rfl⟩
      | nil =>
          have joined := divides.joined
          rw [pieces, List.intercalate_singleton] at joined
          rw [joined] at pieces
          exact absurd found ((split_whole_iff sep cs nonempty).mp pieces)

theorem split_from_skip (sep gap rest : List Char) :
    splitFrom sep gap.length (gap ++ rest) = splitFrom sep 0 rest := by
  induction gap with
  | nil => rfl
  | cons c gap ih => exact ih

/-- A separator that ends in a character which it has nowhere else does not overlap with itself. -/
theorem not_prefix_before {front piece tail : List Char} {last : Char} (single : last ∉ front)
    (present : piece ≠ []) (clean : ¬ front ++ [last] <:+: piece) :
    ¬ front ++ [last] <+: piece ++ (front ++ [last] ++ tail) := by
  intro here
  rcases List.prefix_or_prefix_of_prefix here (List.prefix_append piece _) with inside | starts
  · exact clean inside.isInfix
  · obtain ⟨rest, whole⟩ := starts
    rw [← whole, List.prefix_append_right_inj, whole] at here
    rcases List.eq_nil_or_concat' rest with rfl | ⟨inner, final, rfl⟩
    · rw [List.append_nil] at whole
      exact clean (by rw [whole])
    · -- What is left of the separator would have to lie in its front, with the last character.
      rw [← List.append_assoc] at whole
      obtain ⟨parts, rfl⟩ := List.append_singleton_inj.mp whole
      have short : (inner ++ [final]).length ≤ front.length := by
        have := List.length_pos_of_ne_nil present
        simp only [← parts, List.length_append, List.length_singleton]
        omega
      have early := List.prefix_of_prefix_length_le here (by
        rw [List.append_assoc]
        exact List.prefix_append front _) short
      exact single (early.subset (List.mem_append_right inner List.mem_cons_self))

/-- The first piece of a division is the first piece of the split. -/
theorem split_append {front piece tail : List Char} {last : Char} (single : last ∉ front)
    (clean : ¬ front ++ [last] <:+: piece) :
    split (front ++ [last]) (piece ++ (front ++ [last] ++ tail)) =
      piece :: split (front ++ [last]) tail := by
  rw [split, split]
  induction piece with
  | nil =>
      obtain ⟨first, others, whole⟩ :=
        List.exists_cons_of_ne_nil (show front ++ [last] ≠ [] by simp)
      have here : (first :: others).isPrefixOf (first :: (others ++ tail)) = true :=
        List.isPrefixOf_iff_prefix.mpr ⟨tail, rfl⟩
      rw [whole, List.nil_append, List.cons_append, splitFrom, if_pos here, List.length_cons,
        Nat.add_sub_cancel, split_from_skip]
  | cons c piece ih =>
      have there : ¬ front ++ [last] <+: c :: piece ++ (front ++ [last] ++ tail) :=
        not_prefix_before single (List.cons_ne_nil c piece) clean
      rw [List.cons_append, ← List.isPrefixOf_iff_prefix] at there
      rw [List.cons_append, splitFrom, if_neg there, ih fun found => clean (List.infix_cons found)]
      rfl

/-- There is one way to divide a text at such a separator. -/
theorem Divides.eq_split {front cs : List Char} {last : Char} {pieces : List (List Char)}
    (divides : Divides (front ++ [last]) cs pieces) (single : last ∉ front) :
    pieces = split (front ++ [last]) cs := by
  induction pieces generalizing cs with
  | nil => exact absurd rfl divides.nonempty
  | cons piece rest ih =>
      have clean := (List.forall_mem_cons.mp divides.clean).1
      cases rest with
      | nil =>
          rw [← divides.joined, List.intercalate_singleton, split_whole clean]
      | cons next rest =>
          obtain ⟨tail, rfl, later⟩ := divides.of_cons
          rw [split_append single clean, ih later]

/-- Between pieces without the separator, a text that it can neither begin in nor reach over makes
no occurrence of it. -/
theorem intercalate_clean {first c : Char} {others inner : List Char} {pieces : List (List Char)}
    (outside : c ∉ first :: others) (absent : first ∉ inner)
    (clean : ∀ piece ∈ pieces, ¬ first :: others <:+: piece) :
    ¬ first :: others <:+: (c :: inner).intercalate pieces := by
  induction pieces with
  | nil => simp
  | cons piece rest ih =>
      obtain ⟨here, later⟩ := List.forall_mem_cons.mp clean
      cases rest with
      | nil => rwa [List.intercalate_singleton]
      | cons next rest =>
          intro found
          rw [List.intercalate_cons_cons, List.append_assoc, List.cons_append] at found
          rcases infix_apart outside found with inside | beyond
          · exact here inside
          · exact ih later (infix_after absent beyond)

end CoreBench.Text
