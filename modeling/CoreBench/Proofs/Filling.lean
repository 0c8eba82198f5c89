import CoreBench.Proofs.Images
import CoreBench.Proofs.Occurrences

/-!
Filling a template. The image stands in the place of every marker and the rest of the template is
kept. An image has no hash, with which a marker begins, and it begins with a tab, over which no
marker reaches, so a template that was filled has no place for another image.
-/

namespace CoreBench.Image

theorem fill_error_iff (template image : String) :
    fill template image = .error {} ↔ ¬ marker <:+: template.toList := by
  rw [← Text.contains_iff]
  by_cases present : Text.contains marker template.toList
  · simp [fill, present]
  · simp [fill, present]

theorem fill_present {template : String} (image : String) (present : marker <:+: template.toList) :
    fill template image =
      .ok (String.ofList (image.toList.intercalate (Text.split marker template.toList))) := by
  rw [fill, if_pos ((Text.contains_iff _ _).mpr present), Text.replace_eq_intercalate]

/-- The last letter of the marker is its only one of that kind, so markers do not overlap. -/
theorem divides_marker_iff (cs : List Char) (pieces : List (List Char)) :
    Text.Divides marker cs pieces ↔ pieces = Text.split marker cs := by
  have ends : marker = "##DATAARRA".toList ++ ['Y'] := by decide
  constructor
  · intro divides
    rw [ends] at divides ⊢
    exact divides.eq_split (by decide)
  · rintro rfl
    exact Text.split_divides marker cs (by decide)

theorem render_chars (arch : Arch) (code : List UInt8) :
    ∃ inner, (render arch code).toList = '\t' :: inner ∧ '#' ∉ inner := by
  have absent : '#' ∉ (render arch code).toList := by
    rw [render_ended, Text.ended, List.mem_flatMap]
    rintro ⟨line, member, inside⟩
    rcases List.mem_append.mp inside with letter | feed
    · exact layout_absent _ _ '#' (by decide) (by decide) line member letter
    · exact absurd (List.mem_singleton.mp feed) (by decide)
  have starts : ∃ inner, (render arch code).toList = '\t' :: inner := by
    rw [render_ended]
    cases words arch.byteOrder (max arch.instrBytes 1) code with
    | nil => exact ⟨_, rfl⟩
    | cons word words =>
        rw [layout, List.mapIdx_cons]
        exact ⟨_, rfl⟩
  obtain ⟨inner, whole⟩ := starts
  rw [whole] at absent
  exact ⟨inner, whole, (List.ne_and_not_mem_of_not_mem_cons absent).2⟩

/-- Filling fails only without a marker, divides the template in the one way there is, and leaves
no marker. -/
theorem fill_render (arch : Arch) (code : List UInt8) (template : String) :
    let image := render arch code
    (fill template image = .error {} ↔ ¬ marker <:+: template.toList) ∧
    (marker <:+: template.toList → ∃ filled pieces,
      fill template image = .ok filled ∧
      (∀ others, Text.Divides marker template.toList others ↔ others = pieces) ∧
      filled.toList = image.toList.intercalate pieces ∧
      ¬ marker <:+: filled.toList ∧
      ∀ again, fill filled again = .error {}) := by
  intro image
  refine ⟨fill_error_iff template image, fun present => ?_⟩
  have divides := (divides_marker_iff template.toList _).mpr rfl
  have filled : ¬ marker <:+: image.toList.intercalate (Text.split marker template.toList) := by
    -- No marker begins in the image, and one that begins before it ends before its tab.
    obtain ⟨inner, whole, absent⟩ := render_chars arch code
    have begins : marker = '#' :: "#DATAARRAY".toList := by decide
    have clean := divides.clean
    rw [begins] at clean ⊢
    rw [whole]
    exact Text.intercalate_clean (by decide) absent clean
  refine ⟨_, _, fill_present image present, divides_marker_iff template.toList, ?_, ?_, ?_⟩
  · rw [String.toList_ofList]
  · rwa [String.toList_ofList]
  · intro again
    rw [fill_error_iff, String.toList_ofList]
    exact filled

/-- Adjacent markers behind a stray hash, and most of another one. -/
def crowded : String := "x###DATAARRAY##DATAARRAY##DATAARRA"

theorem crowded_filled :
    marker <:+: crowded.toList ∧
      (∃ filled, fill crowded (render {} []) = .ok filled ∧
        filled.toList = "x#".toList ++ (render {} []).toList ++ (render {} []).toList ++
          "##DATAARRA".toList ∧
        fill filled "again" = .error {}) ∧
      fill "##DATAARRA" (render {} []) = .error {} := by
  have present : marker <:+: crowded.toList := by decide
  obtain ⟨filled, pieces, outcome, divides, joined, _, refused⟩ :=
    (fill_render {} [] crowded).2 present
  have parts : pieces = ["x#".toList, [], "##DATAARRA".toList] :=
    ((divides _).mp ⟨by decide, by decide, by decide⟩).symm
  refine ⟨present, ⟨filled, outcome, ?_, refused "again"⟩, ?_⟩
  · rw [joined, parts]
    simp [List.intercalate]
  · exact (fill_render {} [] "##DATAARRA").1.mpr (by decide)

end CoreBench.Image
