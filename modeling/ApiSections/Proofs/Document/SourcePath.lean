import ApiSections.Document.Marker
import Mathlib.Data.List.TakeWhile

/-!
The source path of a marker, said without the scan. It is closed by marks and a line feed, or it ends
at a line feed behind which no longer path is found.
-/

namespace ApiSections.Document

section LastNewline

variable {text kept rest : List Char} {c : Char}

theorem upToLastNewline_cons (c : Char) (text : List Char) : upToLastNewline (c :: text) =
    ((upToLastNewline text).map (c :: ·)).or
      (if text.head? = some '\n' then some [c] else none) := by
  rw [upToLastNewline.eq_def]
  dsimp only
  cases upToLastNewline text with
  | some kept => rfl
  | none =>
    cases text with
    | nil => rfl
    | cons d text => by_cases feed : d = '\n' <;> simp [feed]

theorem upToLastNewline_eq_none_iff : upToLastNewline (c :: text) = none ↔ '\n' ∉ text := by
  induction text generalizing c with
  | nil => simp [upToLastNewline]
  | cons d text ih =>
    rw [upToLastNewline_cons, Option.or_eq_none_iff, Option.map_eq_none_iff, ih]
    by_cases feed : d = '\n'
    · simp [feed]
    · simp [feed, Ne.symm feed]

theorem upToLastNewline_append (left : kept ≠ []) (free : '\n' ∉ rest) :
    upToLastNewline (kept ++ '\n' :: rest) = some kept := by
  induction kept with
  | nil => exact absurd rfl left
  | cons c kept ih =>
    rw [List.cons_append, upToLastNewline_cons]
    cases kept with
    | nil => simp [upToLastNewline_eq_none_iff.mpr free]
    | cons d kept => rw [ih (List.cons_ne_nil d kept), Option.map_some, Option.some_or]

theorem upToLastNewline_eq_some_iff : upToLastNewline text = some kept ↔
    kept ≠ [] ∧ ∃ rest, text = kept ++ '\n' :: rest ∧ '\n' ∉ rest := by
  constructor
  · intro found
    induction text generalizing kept with
    | nil => simp [upToLastNewline] at found
    | cons c text ih =>
      rw [upToLastNewline_cons] at found
      cases inner : upToLastNewline text with
      | some longer =>
        obtain ⟨_, rest, rfl, free⟩ := ih inner
        simp only [inner, Option.map_some, Option.some_or, Option.some.injEq] at found
        subst found
        exact ⟨List.cons_ne_nil _ _, rest, rfl, free⟩
      | none =>
        -- The last line feed stands directly behind the first character.
        simp only [inner, Option.map_none, Option.none_or, Option.ite_none_right_eq_some] at found
        obtain ⟨feed, same⟩ := found
        obtain ⟨rest, rfl⟩ := List.head?_eq_some_iff.mp feed
        cases same
        exact ⟨List.cons_ne_nil _ _, rest, rfl, upToLastNewline_eq_none_iff.mp inner⟩
  · rintro ⟨left, rest, rfl, free⟩
    exact upToLastNewline_append left free

end LastNewline

/-- What follows an unclosed path keeps it from running on: there is no further line feed, or on the
next line a mark has something else behind it. -/
def Parted (rest : List Char) : Prop :=
  '\n' ∉ rest ∨ ∃ front mark next back, rest = front ++ mark :: next :: back ∧ '\n' ∉ front ∧
    endsPath mark = true ∧ endsPath next = false ∧ next ≠ '\n'

theorem not_parted_newline (rest : List Char) : ¬ Parted ('\n' :: rest) := by
  rintro (free | ⟨front, mark, next, back, cut, free, ends, _⟩)
  · simp at free
  · cases front with
    | nil =>
      obtain ⟨rfl, _⟩ := List.cons.inj cut
      exact absurd ends (by decide)
    | cons c front =>
      obtain ⟨rfl, _⟩ := List.cons.inj cut
      simp at free

theorem ne_newline_of_endsPath {c : Char} (ends : endsPath c = true) : c ≠ '\n' := by
  rintro rfl
  exact absurd ends (by decide)

theorem endsPath_of_dropWhile {text back : List Char} {c : Char}
    (cut : text.dropWhile (!endsPath ·) = c :: back) : endsPath c = true := by
  have head := List.head?_dropWhile_not (!endsPath ·) text
  simpa [cut] using head

theorem not_endsPath_of_dropWhile {text back : List Char} {c : Char}
    (cut : text.dropWhile endsPath = c :: back) : endsPath c = false := by
  have head := List.head?_dropWhile_not endsPath text
  simpa [cut] using head

theorem not_endsPath_of_takeWhile {text : List Char} :
    ∀ c ∈ text.takeWhile (!endsPath ·), endsPath c = false := by
  intro c member
  simpa using List.mem_takeWhile_imp member

/-- The marks that the scan passes over behind a path. -/
def marksAfter (rest : List Char) : List Char :=
  (rest.dropWhile (!endsPath ·)).takeWhile endsPath

/-- What the scan finds behind the path and its marks. -/
def behindMarks (rest : List Char) : List Char :=
  (rest.dropWhile (!endsPath ·)).dropWhile endsPath

theorem split_at_marks (rest : List Char) :
    rest = rest.takeWhile (!endsPath ·) ++ (marksAfter rest ++ behindMarks rest) := by
  rw [marksAfter, behindMarks, List.takeWhile_append_dropWhile, List.takeWhile_append_dropWhile]

theorem endsPath_of_marksAfter {rest : List Char} : ∀ c ∈ marksAfter rest, endsPath c = true :=
  fun _ member => List.mem_takeWhile_imp member

theorem marksAfter_ne_nil {rest back : List Char} {c : Char} (behind : behindMarks rest = c :: back) :
    marksAfter rest ≠ [] := by
  intro none
  have whole : rest.dropWhile (!endsPath ·) = c :: back := by
    rw [← List.takeWhile_append_dropWhile (p := endsPath) (l := rest.dropWhile (!endsPath ·))]
    exact congrArg₂ _ none behind
  have ends := endsPath_of_dropWhile whole
  rw [not_endsPath_of_dropWhile behind] at ends
  cases ends

theorem takeWhile_append_stop {p : Char → Bool} {c : Char} (stops : p c = false)
    (front back : List Char) : (front ++ c :: back).takeWhile p = front.takeWhile p := by
  induction front with
  | nil => simp [stops]
  | cons d front ih => by_cases goes : p d <;> simp [goes, ih]

theorem dropWhile_append_stop {p : Char → Bool} {c : Char} (stops : p c = false)
    (front back : List Char) : (front ++ c :: back).dropWhile p = front.dropWhile p ++ c :: back := by
  induction front with
  | nil => simp [stops]
  | cons d front ih => by_cases goes : p d <;> simp [goes, ih]

/-- In terms of the scan: its path ends on the next line, and behind the marks the line goes on. -/
theorem parted_iff (rest : List Char) : Parted rest ↔
    '\n' ∉ rest.takeWhile (!endsPath ·) ∧ (behindMarks rest).head? ≠ some '\n' := by
  have whole := split_at_marks rest
  constructor
  · rintro (free | ⟨front, mark, next, back, cut, free, ends, other, unlike⟩)
    · rw [whole] at free
      simp only [List.mem_append, not_or] at free
      refine ⟨free.1, fun feed => free.2.2 (List.mem_of_head? feed)⟩
    · have stops : (!endsPath mark) = false := by simp [ends]
      have path := takeWhile_append_stop (p := (!endsPath ·)) stops front (next :: back)
      have marks := dropWhile_append_stop (p := (!endsPath ·)) stops front (next :: back)
      have behind : behindMarks rest =
          (front.dropWhile (!endsPath ·) ++ [mark]).dropWhile endsPath ++ next :: back := by
        rw [behindMarks, cut, marks, ← dropWhile_append_stop other]
        simp
      refine ⟨?_, ?_⟩
      · rw [cut, path]
        exact fun feed => free (List.takeWhile_subset _ feed)
      · rw [behind]
        intro feed
        cases left : (front.dropWhile (!endsPath ·) ++ [mark]).dropWhile endsPath with
        | nil => simp [left, unlike] at feed
        | cons c more =>
          have member : c ∈ front.dropWhile (!endsPath ·) ++ [mark] :=
            (List.dropWhile_suffix endsPath).subset (by rw [left]; exact List.mem_cons_self)
          simp only [left, List.cons_append, List.head?_cons, Option.some.injEq] at feed
          subst feed
          rcases List.mem_append.mp member with member | member
          · exact free ((List.dropWhile_suffix _).subset member)
          · exact ne_newline_of_endsPath ends (List.mem_singleton.mp member).symm
  · rintro ⟨free, head⟩
    cases behind : behindMarks rest with
    | nil =>
      left
      rw [whole, behind, List.append_nil, List.mem_append, not_or]
      exact ⟨free, fun feed => ne_newline_of_endsPath (endsPath_of_marksAfter _ feed) rfl⟩
    | cons next back =>
      right
      obtain ⟨front, mark, marks⟩ := List.eq_nil_or_concat (marksAfter rest) |>.resolve_left
        (marksAfter_ne_nil behind)
      have ends : ∀ c ∈ front ++ [mark], endsPath c = true := by
        rw [← List.concat_eq_append, ← marks]
        exact endsPath_of_marksAfter
      refine ⟨rest.takeWhile (!endsPath ·) ++ front, mark, next, back, ?_, ?_, ends mark (by simp),
        not_endsPath_of_dropWhile behind, ?_⟩
      · rw [behind, marks] at whole
        simpa using whole
      · simp only [List.mem_append, not_or]
        exact ⟨free, fun feed => ne_newline_of_endsPath (ends _ (by simp [feed])) rfl⟩
      · simpa [behind] using head

theorem takeWhile_path {front : List Char} (path : ∀ c ∈ front, endsPath c = false)
    (rest : List Char) :
    (front ++ rest).takeWhile (!endsPath ·) = front ++ rest.takeWhile (!endsPath ·) :=
  List.takeWhile_append_of_pos fun c member => by simp [path c member]

theorem dropWhile_path {front : List Char} (path : ∀ c ∈ front, endsPath c = false)
    (rest : List Char) :
    (front ++ rest).dropWhile (!endsPath ·) = rest.dropWhile (!endsPath ·) :=
  List.dropWhile_append_of_pos fun c member => by simp [path c member]

section SourcePath

variable {text source : List Char} {taken : Nat}

theorem sourcePath_of_marked {marks rest : List Char} (left : source ≠ [])
    (path : ∀ c ∈ source, endsPath c = false) (ends : ∀ c ∈ marks, endsPath c = true)
    (parted : marks = [] → Parted rest) :
    sourcePath (source ++ marks ++ '\n' :: rest) =
      some (source, source.length + marks.length + 1) := by
  have feed : endsPath '\n' = false := by decide
  simp only [List.append_assoc, sourcePath, takeWhile_path path, dropWhile_path path]
  cases marks with
  | nil =>
    -- The path runs on into the rest, and its last line feed is the one behind the source.
    obtain ⟨free, head⟩ := (parted_iff rest).mp (parted rfl)
    rw [behindMarks] at head
    simp only [List.nil_append, List.length_nil, Nat.add_zero, List.takeWhile_cons,
      List.dropWhile_cons, feed, Bool.not_false, ↓reduceIte]
    split
    · simp at *
    · rename_i next _
      simp [next] at head
    · simp [upToLastNewline_append left free]
  | cons mark marks =>
    have mark_ends := ends mark List.mem_cons_self
    have path_ends : (mark :: marks ++ '\n' :: rest).takeWhile (!endsPath ·) = [] ∧
        (mark :: marks ++ '\n' :: rest).dropWhile (!endsPath ·) = mark :: marks ++ '\n' :: rest := by
      simp [mark_ends]
    have closing : (mark :: marks ++ '\n' :: rest).takeWhile endsPath = mark :: marks ∧
        (mark :: marks ++ '\n' :: rest).dropWhile endsPath = '\n' :: rest := by
      rw [List.takeWhile_append_of_pos ends, List.dropWhile_append_of_pos ends]
      simp [feed]
    simp only [path_ends, closing, List.append_nil]

/-- A source path is read exactly where one stands that marks close, or that the rest does not let
run on. -/
theorem sourcePath_eq_some_iff : sourcePath text = some (source, taken) ↔
    source ≠ [] ∧ (∀ c ∈ source, endsPath c = false) ∧ ∃ marks rest,
      text = source ++ marks ++ '\n' :: rest ∧ (∀ c ∈ marks, endsPath c = true) ∧
      (marks = [] → Parted rest) ∧ taken = source.length + marks.length + 1 := by
  constructor
  · intro found
    have whole := split_at_marks text
    simp only [sourcePath] at found
    split at found
    · cases found
    · rename_i rest next some
      cases found
      rw [behindMarks, next] at whole
      refine ⟨some, not_endsPath_of_takeWhile, marksAfter text, rest, ?_, endsPath_of_marksAfter,
        ?_, rfl⟩
      · rw [List.append_assoc]
        exact whole
      · exact fun none => absurd none (marksAfter_ne_nil next)
    · rename_i other
      obtain ⟨kept, short, same⟩ := Option.map_eq_some_iff.mp found
      cases same
      obtain ⟨left, rest, cut, free⟩ := upToLastNewline_eq_some_iff.mp short
      have path : ∀ c ∈ source ++ ['\n'], endsPath c = false := by
        intro c member
        apply @not_endsPath_of_takeWhile text
        rw [cut]
        simp only [List.mem_append, List.mem_cons, List.not_mem_nil, or_false] at member ⊢
        exact member.imp_right .inl
      have split : text = source ++ ['\n'] ++ (rest ++ (marksAfter text ++ behindMarks text)) := by
        rw [cut] at whole
        simpa using whole
      refine ⟨left, fun c member => path c (List.mem_append_left _ member), [],
        rest ++ (marksAfter text ++ behindMarks text), by simpa using split, by simp, fun _ => ?_,
        rfl⟩
      -- The run into the rest stops where it stopped in the whole text.
      generalize rest ++ (marksAfter text ++ behindMarks text) = beyond at split
      have run : rest = beyond.takeWhile (!endsPath ·) := by
        have whole := takeWhile_path path beyond
        rw [← split, cut, List.append_assoc, List.append_cancel_left_eq] at whole
        exact (List.cons.inj whole).2
      have behind : behindMarks text = behindMarks beyond := by
        rw [behindMarks, split, dropWhile_path path, behindMarks]
      rw [parted_iff, ← behind, ← run]
      refine ⟨free, fun feed => ?_⟩
      obtain ⟨more, next⟩ := List.head?_eq_some_iff.mp feed
      exact other _ next
  · rintro ⟨left, path, marks, rest, rfl, ends, parted, rfl⟩
    exact sourcePath_of_marked left path ends parted

end SourcePath

end ApiSections.Document
