import ApiSections.Text.Blank
import ApiSections.Text.Lines
import ApiSections.Text.Word
import Mathlib.Data.List.DropRight

namespace ApiSections.Text

section Pieces

variable {mark : Char} {piece : List Char}

theorem splitAt_eq_splitOn (mark : Char) (text : List Char) :
    splitAt mark text = text.splitOn mark := by
  induction text with
  | nil => rfl
  | cons c text ih =>
    rw [List.splitOn_eq_splitOnP] at ih ⊢
    rw [splitAt, ih, List.splitOnP_cons_eq_if_modifyHead]
    by_cases same : c = mark
    · simp [same]
    · cases pieces : List.splitOnP (· == mark) text with
      | nil => exact absurd pieces (List.splitOnP_ne_nil _ _)
      | cons first pieces => simp [same]

theorem joinWith_eq_intercalate (mark : Char) (pieces : List (List Char)) :
    joinWith mark pieces = [mark].intercalate pieces := by
  fun_induction joinWith mark pieces with
  | case1 => rfl
  | case2 piece => simp
  | case3 piece pieces left ih =>
    cases pieces with
    | nil => exact absurd rfl left
    | cons next pieces =>
      rw [ih, List.intercalate_cons_cons, List.append_assoc, List.singleton_append]

@[simp] theorem joinWith_splitAt (mark : Char) (text : List Char) :
    joinWith mark (splitAt mark text) = text := by
  rw [joinWith_eq_intercalate, splitAt_eq_splitOn, List.intercalate_splitOn]

theorem joinWith_append {first second : List (List Char)} (first_left : first ≠ [])
    (second_left : second ≠ []) :
    joinWith mark (first ++ second) = joinWith mark first ++ mark :: joinWith mark second := by
  fun_induction joinWith mark first with
  | case1 => exact absurd rfl first_left
  | case2 piece =>
    rw [List.singleton_append, joinWith]
    exact second_left
  | case3 piece pieces left ih =>
    have more : pieces ++ second ≠ [] := by simp [second_left]
    rw [List.cons_append, joinWith, ih left, List.append_assoc, List.cons_append]
    exact more

theorem splitAt_of_free (free : mark ∉ piece) : splitAt mark piece = [piece] := by
  rw [splitAt_eq_splitOn, List.splitOn_eq_singleton free]

theorem splitAt_append (free : mark ∉ piece) (rest : List Char) :
    splitAt mark (piece ++ mark :: rest) = piece :: splitAt mark rest := by
  have inside : ∀ c ∈ piece, (c == mark) = false := by
    intro c member
    exact beq_false_of_ne fun same => free (same ▸ member)
  rw [splitAt_eq_splitOn, splitAt_eq_splitOn, List.splitOn_eq_splitOnP, List.splitOn_eq_splitOnP,
    List.splitOnP_append_cons_of_forall_mem inside mark (by simp)]

/-- Pieces that each have a mark behind them, and a last one that has none. -/
theorem splitAt_ended {pieces : List (List Char)} (free : ∀ piece ∈ pieces, mark ∉ piece)
    {last : List Char} (last_free : mark ∉ last) :
    splitAt mark (pieces.flatMap (· ++ [mark]) ++ last) = pieces ++ [last] := by
  induction pieces with
  | nil => exact splitAt_of_free last_free
  | cons piece pieces ih =>
    have rest := ih fun piece member => free piece (List.mem_cons_of_mem _ member)
    have first := splitAt_append (free piece List.mem_cons_self)
      (pieces.flatMap (· ++ [mark]) ++ last)
    rw [rest] at first
    simpa using first

theorem splitAt_joinWith {pieces : List (List Char)} (free : ∀ piece ∈ pieces, mark ∉ piece)
    (left : pieces ≠ []) : splitAt mark (joinWith mark pieces) = pieces := by
  fun_induction joinWith mark pieces with
  | case1 => exact absurd rfl left
  | case2 piece => exact splitAt_of_free (free piece List.mem_cons_self)
  | case3 piece pieces more ih =>
    rw [splitAt_append (free piece List.mem_cons_self),
      ih (fun other member => free other (List.mem_cons_of_mem _ member)) more]

theorem free_of_mem_splitAt {text : List Char} (member : piece ∈ splitAt mark text) :
    mark ∉ piece := by
  induction text generalizing piece with
  | nil => simp_all [splitAt]
  | cons c text ih =>
    rw [splitAt] at member
    split at member
    · rcases List.mem_cons.mp member with rfl | member
      · simp
      · exact ih member
    · rename_i other
      cases pieces : splitAt mark text with
      | nil =>
        rw [pieces] at member
        rw [List.mem_singleton.mp member]
        simpa using Ne.symm other
      | cons first pieces =>
        rw [pieces] at member ih
        rcases List.mem_cons.mp member with rfl | member
        · simpa [Ne.symm other] using ih List.mem_cons_self
        · exact ih (List.mem_cons_of_mem _ member)

end Pieces

section Blanks

variable {blanks : List Char}

theorem dropTail_eq_rdropWhile (p : Char → Bool) (text : List Char) :
    dropTail p text = text.rdropWhile p := by
  induction text with
  | nil => rfl
  | cons c text ih =>
    rw [dropTail, ih]
    by_cases all : ∀ d ∈ text, p d = true
    · rw [List.rdropWhile_eq_nil_iff.mpr all]
      have whole : (c :: text).rdropWhile p = [c].rdropWhile p := by
        rw [List.rdropWhile, List.rdropWhile, List.reverse_cons,
          List.dropWhile_append_of_pos (by simpa using all)]
        rfl
      rw [whole, List.rdropWhile_singleton]
    · have left : text.rdropWhile p ≠ [] := fun none => all (List.rdropWhile_eq_nil_iff.mp none)
      have whole : (c :: text).rdropWhile p = c :: text.rdropWhile p := by
        have some_left : text.reverse.dropWhile p ≠ [] := by simpa [List.rdropWhile] using left
        rw [List.rdropWhile, List.rdropWhile, List.reverse_cons, List.dropWhile_append,
          if_neg (by simpa using some_left), List.reverse_append]
        rfl
      rw [whole]
      cases kept : text.rdropWhile p with
      | nil => exact absurd kept left
      | cons d kept => rfl

theorem trimLeft_append (blank : ∀ c ∈ blanks, isBlank c = true) (text : List Char) :
    trimLeft (blanks ++ text) = trimLeft text := List.dropWhile_append_of_pos blank

theorem trimRight_append (blank : ∀ c ∈ blanks, isBlank c = true) (text : List Char) :
    trimRight (text ++ blanks) = trimRight text := by
  have reversed : ∀ c ∈ blanks.reverse, isBlank c = true := by simpa using blank
  rw [trimRight, trimRight, dropTail_eq_rdropWhile, dropTail_eq_rdropWhile, List.rdropWhile,
    List.reverse_append, List.dropWhile_append_of_pos reversed, List.rdropWhile]

theorem trimRight_blank (blank : ∀ c ∈ blanks, isBlank c = true) : trimRight blanks = [] := by
  rw [trimRight, dropTail_eq_rdropWhile, List.rdropWhile_eq_nil_iff.mpr blank]

theorem trimRight_of_ink {back : List Char} (ink : ∀ c ∈ back, isBlank c = false) (left : back ≠ [])
    (front : List Char) : trimRight (front ++ back) = front ++ back := by
  rw [trimRight, dropTail_eq_rdropWhile, List.rdropWhile_eq_self_iff]
  intro some_text blank
  rw [List.getLast_append_of_ne_nil _ left, ink _ (List.getLast_mem left)] at blank
  cases blank

theorem trimRight_append_ink {c : Char} (ink : isBlank c = false) (front back : List Char) :
    trimRight (front ++ c :: back) = front ++ c :: trimRight back := by
  induction front with
  | nil =>
    rw [List.nil_append, List.nil_append, trimRight, dropTail]
    cases kept : dropTail isBlank back with
    | nil => simp [trimRight, kept, ink]
    | cons d rest => simp [trimRight, kept]
  | cons d front ih =>
    rw [trimRight] at ih
    rw [List.cons_append, trimRight, dropTail, ih]
    cases front <;> rfl

theorem trimRight_prefix (text : List Char) : trimRight text <+: text := by
  rw [trimRight, dropTail_eq_rdropWhile]
  exact List.rdropWhile_prefix isBlank text

theorem head?_of_trimRight {c : Char} {text : List Char} (first : (trimRight text).head? = some c) :
    text.head? = some c := by
  obtain ⟨back, whole⟩ := trimRight_prefix text
  rw [← whole, List.head?_append, first, Option.some_or]

theorem trim_framed {front back : List Char} (before : ∀ c ∈ front, isBlank c = true)
    (after : ∀ c ∈ back, isBlank c = true) (text : List Char) :
    trim (front ++ text ++ back) = trim text := by
  rw [trim, List.append_assoc, trimLeft_append before, trim]
  by_cases blank : ∀ c ∈ text, isBlank c = true
  · have none : ∀ rest, trimLeft (text ++ rest) = trimLeft rest := trimLeft_append blank
    have text_none : trimLeft text = [] := by simpa [trimLeft] using blank
    have back_none : trimLeft back = [] := by simpa [trimLeft] using after
    rw [none, text_none, back_none]
  · have some_left : text.dropWhile isBlank ≠ [] := by simpa using blank
    rw [trimLeft, List.dropWhile_append, if_neg (by simpa using some_left), trimRight_append after,
      trimLeft]

theorem joinWith_nil_cons {mark : Char} (blank : isBlank mark = true) (pieces : List (List Char)) :
    ∃ gap, (∀ c ∈ gap, isBlank c = true) ∧
      joinWith mark ([] :: pieces) = gap ++ joinWith mark pieces := by
  cases pieces with
  | nil => exact ⟨[], by simp, rfl⟩
  | cons piece pieces => exact ⟨[mark], by simpa using blank, rfl⟩

theorem joinWith_concat_nil {mark : Char} (blank : isBlank mark = true) (pieces : List (List Char)) :
    ∃ gap, (∀ c ∈ gap, isBlank c = true) ∧
      joinWith mark (pieces ++ [[]]) = joinWith mark pieces ++ gap := by
  by_cases none : pieces = []
  · exact ⟨[], by simp, by rw [none]; rfl⟩
  · refine ⟨[mark], by simpa using blank, ?_⟩
    rw [joinWith_append none (by simp), joinWith]

/-- How many characters of a text are not blank. -/
def inkCount (text : List Char) : Nat := text.countP fun c => !isBlank c

theorem inkCount_append (first second : List Char) :
    inkCount (first ++ second) = inkCount first + inkCount second := List.countP_append

theorem inkCount_pos {c : Char} {text : List Char} (member : c ∈ text) (ink : isBlank c = false) :
    0 < inkCount text := List.countP_pos_iff.mpr ⟨c, member, by simp [ink]⟩

theorem inkCount_trimLeft (text : List Char) : inkCount (trimLeft text) = inkCount text := by
  induction text with
  | nil => rfl
  | cons c text ih =>
    by_cases blank : isBlank c = true
    · have step : trimLeft (c :: text) = trimLeft text := by simp [trimLeft, blank]
      rw [step, ih]
      simp [inkCount, blank]
    · have step : trimLeft (c :: text) = c :: text := by simp [trimLeft, blank]
      rw [step]

theorem inkCount_trimRight (text : List Char) : inkCount (trimRight text) = inkCount text := by
  rw [trimRight]
  induction text with
  | nil => rfl
  | cons c text ih =>
    simp only [inkCount, List.countP_cons] at ih ⊢
    rw [dropTail]
    cases kept : dropTail isBlank text with
    | nil =>
      rw [kept, List.countP_nil] at ih
      rw [← ih]
      by_cases blank : isBlank c = true <;> simp [blank]
    | cons d rest =>
      rw [kept] at ih
      rw [List.countP_cons, ih]

theorem inkCount_trim (text : List Char) : inkCount (trim text) = inkCount text := by
  rw [trim, inkCount_trimRight, inkCount_trimLeft]

theorem inkCount_joinWith {mark : Char} (blank : isBlank mark = true) (pieces : List (List Char)) :
    inkCount (joinWith mark pieces) = inkCount pieces.flatten := by
  fun_induction joinWith mark pieces with
  | case1 => rfl
  | case2 piece => simp
  | case3 piece pieces _ ih =>
    have gap : inkCount (mark :: joinWith mark pieces) = inkCount (joinWith mark pieces) := by
      simp [inkCount, blank]
    rw [inkCount_append, gap, ih, List.flatten_cons, inkCount_append]

theorem trimLeft_suffix (front text : List Char) : trimLeft text <:+ trimLeft (front ++ text) := by
  rw [trimLeft, trimLeft, List.dropWhile_append]
  split
  · exact List.suffix_rfl
  · exact (List.dropWhile_suffix isBlank).trans (List.suffix_append _ _)

theorem trimLeft_prefix_append (text back : List Char) : trimLeft text <+: trimLeft (text ++ back) := by
  rw [trimLeft, trimLeft, List.dropWhile_append]
  split
  · rename_i empty
    rw [List.isEmpty_iff.mp empty]
    exact List.nil_prefix
  · exact List.prefix_append _ _

theorem trimRight_eq_reverse (text : List Char) :
    trimRight text = (trimLeft text.reverse).reverse := dropTail_eq_rdropWhile isBlank text

theorem trimRight_suffix (front text : List Char) :
    trimRight text <:+ trimRight (front ++ text) := by
  rw [trimRight_eq_reverse, trimRight_eq_reverse, List.reverse_append, List.reverse_suffix]
  exact trimLeft_prefix_append _ _

theorem trimRight_prefix_append (text back : List Char) :
    trimRight text <+: trimRight (text ++ back) := by
  rw [trimRight_eq_reverse, trimRight_eq_reverse, List.reverse_append, List.reverse_prefix]
  exact trimLeft_suffix _ _

/-- Trimming a text keeps what trimming a part of it keeps. -/
theorem trim_kept (front text back : List Char) :
    trim text <:+: trim (front ++ (text ++ back)) := by
  obtain ⟨before, left⟩ := trimLeft_suffix front (text ++ back)
  obtain ⟨after, right⟩ := trimLeft_prefix_append text back
  rw [trim, trim, ← left, ← right, ← List.append_assoc]
  exact (trimRight_suffix before (trimLeft text)).isInfix.trans (trimRight_prefix_append _ after).isInfix

theorem joinWith_kept (mark : Char) (front middle back : List (List Char)) :
    trim (joinWith mark middle) <:+: trim (joinWith mark (front ++ (middle ++ back))) := by
  by_cases none : middle = []
  · rw [none]
    exact List.nil_infix
  · obtain ⟨before, left⟩ : ∃ before, joinWith mark (front ++ (middle ++ back)) =
        before ++ joinWith mark (middle ++ back) := by
      by_cases first : front = []
      · exact ⟨[], by rw [first]; rfl⟩
      · exact ⟨_, by rw [joinWith_append first (by simp [none]), List.append_cons]⟩
    obtain ⟨after, right⟩ : ∃ after, joinWith mark (middle ++ back) =
        joinWith mark middle ++ after := by
      by_cases last : back = []
      · exact ⟨[], by rw [last, List.append_nil, List.append_nil]⟩
      · exact ⟨_, joinWith_append none last⟩
    rw [left, right]
    exact trim_kept before _ after

/-- The code points of the blanks. -/
def blankCodes : List Nat :=
  List.range' 9 5 ++ List.range' 28 5 ++ List.range' 0x2000 11 ++
    [0x85, 0xA0, 0x1680, 0x2028, 0x2029, 0x202F, 0x205F, 0x3000]

theorem toNat_mem_blankCodes {c : Char} (blank : isBlank c = true) : c.toNat ∈ blankCodes := by
  simp only [isBlank, Bool.or_eq_true, Bool.and_eq_true, decide_eq_true_eq, beq_iff_eq] at blank
  simp only [blankCodes, List.mem_append, List.mem_range'_1, List.mem_cons, List.not_mem_nil, or_false]
  omega

theorem not_isBlank_of_isWord {c : Char} (word : isWord c = true) : isBlank c = false := by
  have none : ∀ code ∈ blankCodes, isWord (Char.ofNat code) = false := by decide +kernel
  by_contra blank
  have code := none c.toNat (toNat_mem_blankCodes (by simpa using blank))
  rw [Char.ofNat_toNat, word] at code
  cases code

end Blanks

end ApiSections.Text
