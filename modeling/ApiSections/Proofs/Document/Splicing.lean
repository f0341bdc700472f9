import ApiSections.Document.Splice
import ApiSections.Proofs.Document.Scan

/-!
Regions lie one after the other in their text, so replacing them from the last to the first puts
the pieces between them and their replacements side by side.
-/

namespace ApiSections.Document

open Text

theorem boundaryAfter_le (level : Int) (fenced : Bool) (rows : List (List Char)) :
    boundaryAfter level fenced rows ≤ rows.flatten.length := by
  induction rows generalizing fenced with
  | nil => simp [boundaryAfter]
  | cons row rows ih =>
    rw [boundaryAfter, List.flatten_cons, List.length_append]
    have open_ := ih (!fenced)
    have same := ih fenced
    split
    · omega
    · split <;> omega

theorem headingBoundary_le (text : List Char) (start : Nat) (level : Int) :
    headingBoundary text start level ≤ text.length := by
  have bound := boundaryAfter_le level false (lines (text.drop start))
  rw [flatten_lines, List.length_drop] at bound
  rw [headingBoundary]
  omega

theorem headingBoundary_bounds {text : List Char} {start : Nat} (inside : start ≤ text.length)
    (level : Int) : start ≤ headingBoundary text start level ∧
      headingBoundary text start level ≤ text.length := by
  refine ⟨?_, headingBoundary_le text start level⟩
  rw [headingBoundary, Nat.min_eq_left inside]
  omega

/-- Regions in order from `offset` on, none empty and none past `limit`. -/
def Spaced (limit : Nat) : Nat → List Region → Prop
  | offset, [] => offset ≤ limit
  | offset, region :: rest =>
    offset ≤ region.start ∧ region.start < region.stop ∧ Spaced limit region.stop rest

theorem Spaced.offset_le {limit offset : Nat} {regions : List Region}
    (spaced : Spaced limit offset regions) : offset ≤ limit := by
  induction regions generalizing offset with
  | nil => exact spaced
  | cons region regions ih =>
    obtain ⟨after, some, rest⟩ := spaced
    have := ih rest
    omega

theorem Spaced.lower {limit offset lower : Nat} {regions : List Region}
    (spaced : Spaced limit offset regions) (below : lower ≤ offset) :
    Spaced limit lower regions := by
  cases regions with
  | nil => exact Nat.le_trans below spaced
  | cons region regions => exact ⟨Nat.le_trans below spaced.1, spaced.2⟩

theorem Spaced.bounds {limit offset : Nat} {regions : List Region}
    (spaced : Spaced limit offset regions) :
    ∀ region ∈ regions, offset ≤ region.start ∧ region.start < region.stop ∧
      region.stop ≤ limit := by
  induction regions generalizing offset with
  | nil => simp
  | cons first regions ih =>
    obtain ⟨after, some, rest⟩ := spaced
    intro region member
    rcases List.mem_cons.mp member with rfl | member
    · exact ⟨after, some, rest.offset_le⟩
    · have later := ih rest region member
      omega

theorem regionsOf_spaced {phrase rest text : List Char} {offset : Nat} {hits : List (Nat × Match)}
    (scan : Scan phrase offset rest hits) (whole : offset + rest.length = text.length) :
    Spaced text.length offset (regionsOf text hits) := by
  induction scan with
  | done _ => exact Nat.le.intro whole
  | @miss offset line rest hits full _ _ ih =>
    rw [List.length_append] at whole
    exact (ih (by omega)).lower (by omega)
  | @hit offset _ lead above marker rest found hits _ reads _ ih =>
    have count : found.length + rest.length = text.length - offset := by
      rw [← whole, reads.whole, List.length_append, ← reads.length_eq]
      omega
    have positive := reads.length_pos
    have bounds := @headingBoundary_bounds text (offset + found.length) (by omega)
      (found.hashes.getD defaultLevel : Nat)
    have later := ih (by omega)
    cases hits with
    | nil =>
      refine ⟨Nat.le_refl _, ?_, bounds.2⟩
      simp only [regionOf, List.head?_nil, Option.map_none]
      omega
    | cons next hits =>
      obtain ⟨start, marked⟩ := next
      obtain ⟨after, some, spaced⟩ := later
      simp only [regionOf] at after
      refine ⟨Nat.le_refl _, ?_, ?_, some, spaced⟩
      · simp only [regionOf, List.head?_cons, Option.map_some]
        omega
      · simp only [regionOf, List.head?_cons, Option.map_some]
        omega

theorem findMarkers_spaced (text phrase : List Char) :
    Spaced text.length 0 (findMarkers text phrase) :=
  regionsOf_spaced (scan_matchesFrom phrase text 0) (Nat.zero_add _)

/-- The text from `offset` on with each region replaced, read from left to right. -/
def assemble (text : List Char) : Nat → List (Region × List Char) → List Char
  | offset, [] => text.drop offset
  | offset, (region, fragment) :: rest =>
    (text.drop offset).take (region.start - offset) ++ region.replacement fragment ++
      assemble text region.stop rest

theorem replaceRegion_assembled {text : List Char} {offset : Nat} {region : Region}
    (after : offset ≤ region.start) (some : region.start < region.stop)
    (inside : region.stop ≤ text.length) (fragment behind : List Char) :
    replaceRegion (text.take region.stop ++ behind) region fragment =
      text.take offset ++ ((text.drop offset).take (region.start - offset) ++
        region.replacement fragment ++ behind) := by
  have size : (text.take region.stop).length = region.stop := by
    rw [List.length_take]
    omega
  have front : (text.take region.stop ++ behind).take region.start = text.take region.start := by
    rw [List.take_append_of_le_length (by omega), List.take_take, Nat.min_eq_left (by omega)]
  have back : (text.take region.stop ++ behind).drop region.stop = behind := by
    rw [List.drop_append_of_le_length (by omega), List.drop_eq_nil_of_le (by omega),
      List.nil_append]
  have between : text.take offset ++ (text.drop offset).take (region.start - offset) =
      text.take region.start := by
    rw [← List.take_add]
    congr 1
    omega
  rw [replaceRegion, front, back, ← between]
  simp only [List.append_assoc]

section Monadic

variable {m : Type → Type} [Monad m] [LawfulMonad m]

theorem replaceEach_append (render : Region → m (List Char)) (first second : List Region)
    (text : List Char) :
    replaceEach render (first ++ second) text =
      replaceEach render first text >>= replaceEach render second := by
  induction first generalizing text with
  | nil => simp [replaceEach]
  | cons region first ih => simp [replaceEach, ih]

theorem replaceEach_reverse (render : Region → m (List Char)) {text : List Char} {offset : Nat}
    {regions : List Region} (spaced : Spaced text.length offset regions) :
    replaceEach render regions.reverse text =
      (fun fragments => text.take offset ++ assemble text offset (regions.zip fragments.reverse)) <$>
        regions.reverse.mapM render := by
  induction regions generalizing offset with
  | nil => simp [replaceEach, assemble]
  | cons region regions ih =>
    -- The first region is replaced last, in a text that is assembled behind it.
    obtain ⟨after, some, rest⟩ := spaced
    rw [List.reverse_cons, replaceEach_append, ih rest, List.mapM_append]
    simp only [List.mapM_cons, List.mapM_nil, replaceEach, map_eq_pure_bind, bind_assoc, pure_bind,
      replaceRegion_assembled after some rest.offset_le, List.reverse_append,
      List.reverse_singleton, List.singleton_append, List.zip_cons_cons, assemble]

/-- All fragments are asked for, the last one first, and their text is then assembled. -/
theorem spliceAll_eq (render : Region → m (List Char)) (text phrase : List Char) :
    spliceAll text phrase render =
      (fun fragments => ⟨assemble text 0 ((findMarkers text phrase).zip fragments.reverse),
        findMarkers text phrase⟩) <$> (findMarkers text phrase).reverse.mapM render := by
  simp only [spliceAll, replaceEach_reverse render (findMarkers_spaced text phrase),
    List.take_zero, List.nil_append, map_eq_pure_bind, bind_assoc, pure_bind]

theorem spliceAll_pure (fragment : Region → List Char) (text phrase : List Char) :
    spliceAll text phrase (fun region => (pure (fragment region) : m (List Char))) =
      pure ⟨assemble text 0 ((findMarkers text phrase).zip ((findMarkers text phrase).map fragment)),
        findMarkers text phrase⟩ := by
  rw [spliceAll_eq, List.mapM_pure, map_pure, List.map_reverse, List.reverse_reverse]

end Monadic

end ApiSections.Document
