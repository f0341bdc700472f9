import ApiSections.Proofs.Document.Boundary
import ApiSections.Proofs.Text.Fence

/-!
Regions and blocks of code. A region is meant to end outside every block, but the scan for its end
takes any fence for the end of the block that is open.
-/

namespace ApiSections.Document

open Text

theorem isFenceLine_eq (line : List Char) : isFenceLine line = (fence? line).isSome :=
  (isSome_fence? line).symm

/-- A region that ends before its text does ends in front of a line, and outside all blocks of code
exactly if an even number of fences above that line stand in a block of the other kind. -/
theorem headingBoundary_outside_iff {text : List Char} {start : Nat} {maxLevel : Int}
    (found : headingBoundary text start maxLevel < text.length) :
    let passed := lines ((text.drop start).take (headingBoundary text start maxLevel - start))
    (∃ line after, lines (text.drop start) = passed ++ line :: after) ∧
      (openBlock none passed = none ↔ strays none passed % 2 = 0) := by
  intro passed
  rcases headingBoundary_cases text start maxLevel with ends | last
  · obtain ⟨before, line, after, split, place, _, _, even⟩ := ends
    have same : passed = before := by
      have whole := flatten_lines (text.drop start)
      rw [split, List.flatten_append] at whole
      simp only [passed]
      rw [place, Nat.add_sub_cancel_left, ← whole, List.take_left, lines_of_prefix_rows split]
    rw [funext isFenceLine_eq] at even
    rw [same]
    exact ⟨⟨line, after, split⟩, openBlock_eq_none_iff even⟩
  · omega

/-- With two stray fences the heading inside the block is passed over. -/
theorem headingBoundary_outside_paired :
    let text := "```\n~~~\n~~~\n# a\n```\n# b\n".toList
    let passed := lines ((text.drop 0).take (headingBoundary text 0 2 - 0))
    headingBoundary text 0 2 = 20 ∧ strays none passed = 2 ∧ openBlock none passed = none := by
  intro text passed
  have place : headingBoundary text 0 2 = 20 := by decide +kernel
  have count : strays none passed = 2 := by decide +kernel
  have inside : headingBoundary text 0 2 < text.length := by
    rw [place]
    decide
  refine ⟨place, count, (headingBoundary_outside_iff inside).2.mpr ?_⟩
  rw [count]

/-- A stray fence lets a heading inside a block end the region. -/
theorem headingBoundary_inside :
    let text := "```\n~~~\n# x\n```\n".toList
    let passed := lines ((text.drop 0).take (headingBoundary text 0 2 - 0))
    headingBoundary text 0 2 = 8 ∧ text.length = 16 ∧ openBlock none passed = some .backQuotes := by
  decide +kernel

end ApiSections.Document
