import ApiSections.Proofs.Text.Pieces
import ApiSections.Syntax.Scanner
import ApiSections.TypeText.Callable

/-!
Types as a reader takes them apart. Only what stands outside of brackets and quotes tells how a type
is put together: an arrow or the question mark of a condition binds loosest, then a bar, then an
ampersand, then a word in front, and a pair of brackets behind binds tightest.
-/

namespace ApiSections.TypeText

open Text (trim trimLeft isBlank)

def isQuote (c : Char) : Bool := c == '"' || c == '\'' || c == '`'

/-- Where a reader is between two characters. -/
inductive Spot where
  | plain
  | behindEquals
  | quoted (quote : Char)
  | escaped (quote : Char)
  deriving DecidableEq

namespace Spot

/-- Whether a character is read for itself: not in quotes, and not as part of an arrow. -/
def takes (spot : Spot) (c : Char) : Bool :=
  match spot with
  | plain => true
  | behindEquals => c != '>'
  | quoted _ | escaped _ => false

def next (spot : Spot) (c : Char) : Spot :=
  match spot with
  | quoted quote => if c == '\\' then escaped quote else if c == quote then plain else quoted quote
  | escaped quote => quoted quote
  | plain | behindEquals =>
    if spot.takes c && isQuote c then quoted c else if c == '=' then behindEquals else plain

def opens (spot : Spot) (c : Char) : Bool := spot.takes c && isOpener c

def closes (spot : Spot) (c : Char) : Bool := spot.takes c && isCloser c

/-- The brackets that are open behind a character. -/
def depth (spot : Spot) (open_ : Nat) (c : Char) : Nat :=
  if spot.opens c then open_ + 1 else if spot.closes c then open_ - 1 else open_

/-- Whether a character, or the end of an arrow, stands in view. -/
def shows (spot : Spot) (c : Char) : Bool :=
  match spot with
  | plain => !isOpener c && !isCloser c && !isQuote c
  | behindEquals => c == '>' || (!isOpener c && !isCloser c && !isQuote c)
  | quoted _ | escaped _ => false

end Spot

/-- The characters of a text, each with whether it stands outside of brackets and quotes. -/
def marks : Nat → Spot → List Char → List (Char × Bool)
  | _, _, [] => []
  | open_, spot, c :: rest =>
    (c, open_ == 0 && spot.shows c) :: marks (spot.depth open_ c) (spot.next c) rest

/-- Brackets and quotes that are opened are closed, and no others. -/
def closed : Nat → Spot → List Char → Bool
  | open_, spot, [] => open_ == 0 && spot == .plain
  | open_, spot, c :: rest =>
    !(spot.closes c && open_ == 0) && closed (spot.depth open_ c) (spot.next c) rest

def outer (text : List Char) : List (Char × Bool) := marks 0 .plain text

def hasOuter (p : Char → Bool) (text : List Char) : Bool :=
  (outer text).any fun (c, isOuter) => isOuter && p c

/-- Whether a type is that of a function or a condition. -/
def isLoose (text : List Char) : Bool := hasOuter (fun c => c == '>' || c == '?') text

def isBar (mark : Char × Bool) : Bool := mark.2 && mark.1 == '|'

/-- The pieces between bars, without the blanks around them. -/
def pieces (marked : List (Char × Bool)) : List (List Char) :=
  (marked.splitOnP isBar).map fun piece => trim (piece.map (·.1))

/-- The types that a type is the union of; any type but a union is its only one. -/
def alternatives (text : List Char) : List (List Char) :=
  if isLoose text then [trim text] else pieces (outer text)

def operators : List (List Char) :=
  ["keyof".toList, "unique".toList, "readonly".toList, "infer".toList]

def hasOperator (text : List Char) : Bool := operators.contains (Syntax.wordAt (trimLeft text))

/-- Whether brackets behind a type belong to the whole of it. -/
def isTight (text : List Char) : Bool :=
  !isLoose text && !hasOuter (fun c => c == '|' || c == '&') text && !hasOperator text

/-- The type that a type is the array of, as it is written. -/
def element? (text : List Char) : Option (List Char) :=
  let rest := text.dropLast.dropLast
  if isTight text && "[]".toList.isSuffixOf text && rest.any (!isBlank ·) then some rest else none

/-- A type on its own, with something in it. -/
def Readable (text : List Char) : Prop :=
  closed 0 .plain text = true ∧ text.any (!isBlank ·) = true

instance (text : List Char) : Decidable (Readable text) := inferInstanceAs (Decidable (_ ∧ _))

/-- A type is the union of others. -/
def IsUnionOf (text : List Char) (parts : List (List Char)) : Prop :=
  alternatives text = parts.flatMap alternatives

/-- A type is the array of another one, which may stand in parentheses. -/
def IsArray (text inner : List Char) : Prop :=
  element? text = some inner ∨
    closed 0 .plain inner = true ∧ element? text = some ('(' :: inner ++ [')'])

/-- A type is the array of the union of others. -/
def IsArrayOf (text : List Char) (parts : List (List Char)) : Prop :=
  ∃ inner, IsArray text inner ∧ IsUnionOf inner parts

section Scan

variable {open_ : Nat} {spot : Spot} {text : List Char}

theorem closed_nil (whole : closed open_ spot [] = true) : open_ = 0 ∧ spot = .plain := by
  simpa [closed] using whole

theorem closed_cons {c : Char} (whole : closed open_ spot (c :: text) = true) :
    (!(spot.closes c && open_ == 0)) = true ∧
      closed (spot.depth open_ c) (spot.next c) text = true := by
  rwa [closed, Bool.and_eq_true] at whole

/-- With more brackets around it, a closed text is read in the same way. -/
theorem depth_add {c : Char} (kept : (!(spot.closes c && open_ == 0)) = true) (around : Nat) :
    spot.depth (open_ + around) c = spot.depth open_ c + around := by
  unfold Spot.depth
  by_cases opens : spot.opens c = true
  · rw [if_pos opens, if_pos opens]
    omega
  · rw [if_neg opens, if_neg opens]
    by_cases closes : spot.closes c = true
    · have some_open : open_ ≠ 0 := by simpa [closes] using kept
      rw [if_pos closes, if_pos closes]
      omega
    · rw [if_neg closes, if_neg closes]

/-- Behind a closed text a reader is where it was, whatever is open around it. -/
theorem marks_append (whole : closed open_ spot text = true) (around : Nat) (rest : List Char) :
    marks (open_ + around) spot (text ++ rest) =
      marks (open_ + around) spot text ++ marks around .plain rest := by
  induction text generalizing open_ spot with
  | nil =>
    obtain ⟨rfl, rfl⟩ := closed_nil whole
    rw [Nat.zero_add]
    rfl
  | cons c text ih =>
    obtain ⟨kept, whole⟩ := closed_cons whole
    rw [List.cons_append, marks, marks, List.cons_append, depth_add kept, ih whole]

theorem closed_append (whole : closed open_ spot text = true) (around : Nat) (rest : List Char) :
    closed (open_ + around) spot (text ++ rest) = closed around .plain rest := by
  induction text generalizing open_ spot with
  | nil =>
    obtain ⟨rfl, rfl⟩ := closed_nil whole
    rw [Nat.zero_add]
    rfl
  | cons c text ih =>
    obtain ⟨kept, whole⟩ := closed_cons whole
    have kept_inside : (!(spot.closes c && open_ + around == 0)) = true := by
      simp only [Bool.not_eq_true', Bool.and_eq_false_iff, beq_eq_false_iff_ne] at kept ⊢
      exact kept.imp_right fun some_open => by omega
    rw [List.cons_append, closed, depth_add kept, ih whole, kept_inside, Bool.true_and]

/-- Nothing inside of brackets is outside of them. -/
theorem marks_inside (whole : closed open_ spot text = true) :
    marks (open_ + 1) spot text = text.map fun c => (c, false) := by
  induction text generalizing open_ spot with
  | nil => rfl
  | cons c text ih =>
    obtain ⟨kept, whole⟩ := closed_cons whole
    rw [marks, depth_add kept, ih whole]
    rfl

theorem outer_append (whole : closed 0 .plain text = true) (rest : List Char) :
    outer (text ++ rest) = outer text ++ outer rest := marks_append whole 0 rest

theorem hasOuter_append (p : Char → Bool) (whole : closed 0 .plain text = true)
    (rest : List Char) : hasOuter p (text ++ rest) = (hasOuter p text || hasOuter p rest) := by
  rw [hasOuter, outer_append whole, List.any_append]
  rfl

end Scan

section Unions

variable {text first second : List Char} {types : List (List Char)}

theorem alternatives_of_tied (tied : isLoose text = false) :
    alternatives text = pieces (outer text) := by
  rw [alternatives, tied]
  rfl

theorem alternatives_of_loose (loose : isLoose text = true) : alternatives text = [trim text] := by
  rw [alternatives, loose]
  rfl

theorem length_alternatives_pos (text : List Char) : 0 < (alternatives text).length := by
  cases loose : isLoose text with
  | true =>
    rw [alternatives_of_loose loose]
    exact Nat.zero_lt_one
  | false =>
    have some_piece := List.splitOnP_ne_nil isBar (outer text)
    rw [alternatives_of_tied loose, pieces, List.length_map]
    exact List.length_pos_of_ne_nil some_piece

theorem isBlank_space : ∀ c ∈ [' '], isBlank c = true := by
  intro c member
  rw [List.mem_singleton.mp member]
  rfl

theorem trim_cons_space (text : List Char) : trim (' ' :: text) = trim text := by
  have none : ∀ c ∈ ([] : List Char), isBlank c = true := by simp
  have framed := Text.trim_framed isBlank_space none text
  rwa [List.append_nil] at framed

theorem trim_append_space (text : List Char) : trim (text ++ [' ']) = trim text := by
  have none : ∀ c ∈ ([] : List Char), isBlank c = true := by simp
  exact Text.trim_framed none isBlank_space text

theorem pieces_cons_space (marked : List (Char × Bool)) :
    pieces ((' ', true) :: marked) = pieces marked := by
  have plain : isBar (' ', true) = false := by decide
  rw [pieces, pieces, List.splitOnP_cons_eq_if_modifyHead, plain]
  cases List.splitOnP isBar marked with
  | nil => rfl
  | cons piece rest => simp [trim_cons_space]

/-- What is no separator goes to the last piece. -/
theorem splitOnP_concat {α : Type} {p : α → Bool} {x : α} (plain : p x = false) (xs : List α) :
    List.Forall₂ (fun long short => long = short ∨ long = short ++ [x])
      ((xs ++ [x]).splitOnP p) (xs.splitOnP p) := by
  induction xs with
  | nil =>
    rw [List.nil_append, List.splitOnP_cons_eq_if_modifyHead, plain, List.splitOnP_nil]
    exact .cons (.inr rfl) .nil
  | cons y ys ih =>
    rw [List.cons_append, List.splitOnP_cons_eq_if_modifyHead, List.splitOnP_cons_eq_if_modifyHead]
    split
    · exact .cons (.inl rfl) ih
    · generalize (ys ++ [x]).splitOnP p = long at ih
      generalize ys.splitOnP p = short at ih
      cases ih with
      | nil => exact .nil
      | cons head tail =>
        refine .cons ?_ tail
        rcases head with same | more
        · exact .inl (by rw [same])
        · exact .inr (by rw [more, List.cons_append])

theorem pieces_append_space (marked : List (Char × Bool)) :
    pieces (marked ++ [(' ', true)]) = pieces marked := by
  have plain : isBar (' ', true) = false := by decide
  have ends := splitOnP_concat plain marked
  unfold pieces
  generalize (marked ++ [(' ', true)]).splitOnP isBar = long at ends
  generalize marked.splitOnP isBar = short at ends
  induction ends with
  | nil => rfl
  | cons head _ ih =>
    rw [List.map_cons, List.map_cons, ih]
    rcases head with same | more
    · rw [same]
    · rw [more, List.map_append]
      exact congrArg (· :: _) (trim_append_space _)

theorem outer_bar (text : List Char) :
    outer (" | ".toList ++ text) = (' ', true) :: ('|', true) :: (' ', true) :: outer text := rfl

theorem isLoose_bar (whole : closed 0 .plain first = true) (second : List Char) :
    isLoose (first ++ (" | ".toList ++ second)) = (isLoose first || isLoose second) := by
  rw [isLoose, hasOuter_append _ whole, hasOuter, hasOuter, outer_bar]
  rfl

/-- The alternatives on both sides of a bar are those of the whole, unless one side reaches over the
bar. -/
theorem alternatives_bar (whole : closed 0 .plain first = true) (left : isLoose first = false)
    (right : isLoose second = false) :
    alternatives (first ++ (" | ".toList ++ second)) =
      alternatives first ++ alternatives second := by
  have tied : isLoose (first ++ (" | ".toList ++ second)) = false := by
    rw [isLoose_bar whole, left, right]
    rfl
  have bar : isBar ('|', true) = true := by decide
  -- The blanks beside the bar go to the pieces next to it, which are trimmed.
  have split : outer first ++ (' ', true) :: ('|', true) :: (' ', true) :: outer second =
      (outer first ++ [(' ', true)]) ++ ('|', true) :: ((' ', true) :: outer second) := by simp
  rw [alternatives_of_tied tied, alternatives_of_tied left, alternatives_of_tied right,
    outer_append whole, outer_bar, split, pieces, List.splitOnP_append_cons _ _ bar, List.map_append]
  change pieces (outer first ++ [(' ', true)]) ++ pieces ((' ', true) :: outer second) = _
  rw [pieces_append_space, pieces_cons_space]

def union (types : List (List Char)) : List Char := " | ".toList.intercalate types

theorem union_cons {rest : List (List Char)} (more : rest ≠ []) :
    union (text :: rest) = text ++ (" | ".toList ++ union rest) := by
  rw [union, List.intercalate_cons_of_ne_nil more, List.append_assoc]
  rfl

theorem closed_union (whole : ∀ type ∈ types, closed 0 .plain type = true) :
    closed 0 .plain (union types) = true := by
  induction types with
  | nil => rfl
  | cons type rest ih =>
    have here := whole type List.mem_cons_self
    have later := ih fun other member => whole other (List.mem_cons_of_mem _ member)
    cases rest with
    | nil =>
      rw [union, List.intercalate_singleton]
      exact here
    | cons second rest =>
      rw [union_cons (List.cons_ne_nil _ _)]
      exact (closed_append here 0 _).trans later

theorem isLoose_union (whole : ∀ type ∈ types, closed 0 .plain type = true) :
    isLoose (union types) = types.any isLoose := by
  induction types with
  | nil => rfl
  | cons type rest ih =>
    have here := whole type List.mem_cons_self
    have later := ih fun other member => whole other (List.mem_cons_of_mem _ member)
    cases rest with
    | nil => rw [union, List.intercalate_singleton, List.any_cons, List.any_nil, Bool.or_false]
    | cons second rest =>
      rw [union_cons (List.cons_ne_nil _ _), isLoose_bar here, later]
      rfl

theorem alternatives_union (some_type : types ≠ [])
    (whole : ∀ type ∈ types, closed 0 .plain type = true)
    (tied : ∀ type ∈ types, isLoose type = false) :
    alternatives (union types) = types.flatMap alternatives := by
  induction types with
  | nil => exact absurd rfl some_type
  | cons type rest ih =>
    cases rest with
    | nil => rw [union, List.intercalate_singleton, List.flatMap_cons, List.flatMap_nil,
        List.append_nil]
    | cons second rest =>
      have later := ih (List.cons_ne_nil _ _)
        (fun other member => whole other (List.mem_cons_of_mem _ member))
        (fun other member => tied other (List.mem_cons_of_mem _ member))
      have rest_tied : isLoose (union (second :: rest)) = false := by
        rw [isLoose_union fun other member => whole other (List.mem_cons_of_mem _ member),
          List.any_eq_false]
        intro other member
        rw [tied other (List.mem_cons_of_mem _ member)]
        exact Bool.false_ne_true
      rw [union_cons (List.cons_ne_nil _ _), alternatives_bar (whole type List.mem_cons_self)
        (tied type List.mem_cons_self) rest_tied, later]
      rfl

theorem length_le_flatMap (types : List (List Char)) :
    types.length ≤ (types.flatMap alternatives).length := by
  induction types with
  | nil => exact Nat.le_refl _
  | cons type rest ih =>
    have here := length_alternatives_pos type
    rw [List.flatMap_cons, List.length_append, List.length_cons]
    omega

/-- Types with bars between them are their union if no one of several reaches over a bar. -/
theorem isUnionOf_union_iff (some_type : types ≠ [])
    (whole : ∀ type ∈ types, closed 0 .plain type = true) :
    IsUnionOf (union types) types ↔ types.length = 1 ∨ ∀ type ∈ types, isLoose type = false := by
  constructor
  · intro reads
    by_cases loose : types.any isLoose = true
    · -- One loose type makes the whole loose, and so a single alternative.
      left
      have whole_loose : isLoose (union types) = true := by rw [isLoose_union whole, loose]
      have count := congrArg List.length reads
      have more := length_le_flatMap types
      have positive := List.length_pos_of_ne_nil some_type
      rw [alternatives_of_loose whole_loose, List.length_singleton] at count
      omega
    · right
      intro type member
      rw [List.any_eq_true] at loose
      exact Bool.eq_false_iff.mpr fun found => loose ⟨type, member, found⟩
  · rintro (single | tied)
    · obtain ⟨type, rfl⟩ := List.length_eq_one_iff.mp single
      rw [IsUnionOf, union, List.intercalate_singleton, List.flatMap_cons, List.flatMap_nil,
        List.append_nil]
    · exact alternatives_union some_type whole tied

example : alternatives "Map<A | B> | '|'|C".toList =
    ["Map<A | B>".toList, "'|'".toList, "C".toList] := by decide

end Unions

section Arrays

variable {text : List Char} {types : List (List Char)}

theorem outer_brackets : outer "[]".toList = [('[', false), (']', false)] := rfl

theorem hasOuter_brackets (p : Char → Bool) (whole : closed 0 .plain text = true) :
    hasOuter p (text ++ "[]".toList) = hasOuter p text := by
  rw [hasOuter_append p whole, hasOuter, hasOuter, outer_brackets]
  simp

theorem nameLength_brackets {c : Char} (rest : List Char) :
    Syntax.nameLength (c :: rest ++ "[]".toList) = Syntax.nameLength (c :: rest) := by
  have bracket : Syntax.isNamePart '[' = false := by decide
  have stops : (rest ++ "[]".toList).takeWhile Syntax.isNamePart =
      rest.takeWhile Syntax.isNamePart := by
    rw [List.takeWhile_append]
    split
    · rename_i all
      have same : rest.takeWhile Syntax.isNamePart = rest :=
        (List.takeWhile_prefix _).eq_of_length all
      rw [same]
      simp [bracket]
    · rfl
  rw [List.cons_append, Syntax.nameLength, Syntax.nameLength, stops]

theorem wordAt_brackets (some_text : text ≠ []) :
    Syntax.wordAt (text ++ "[]".toList) = Syntax.wordAt text := by
  obtain ⟨c, rest, rfl⟩ := List.exists_cons_of_ne_nil some_text
  rw [Syntax.wordAt, Syntax.wordAt, nameLength_brackets]
  apply List.take_append_of_le_length
  rw [Syntax.nameLength]
  have shorter := (List.takeWhile_prefix Syntax.isNamePart (l := rest)).length_le
  split
  · rw [Option.getD_some, List.length_cons]
    omega
  · exact Nat.zero_le _

theorem hasOperator_brackets (ink : text.any (!isBlank ·) = true) :
    hasOperator (text ++ "[]".toList) = hasOperator text := by
  have left : trimLeft text ≠ [] := by
    intro none
    simp only [trimLeft, List.dropWhile_eq_nil_iff] at none
    obtain ⟨c, member, seen⟩ := List.any_eq_true.mp ink
    simp [none c member] at seen
  have moved : trimLeft (text ++ "[]".toList) = trimLeft text ++ "[]".toList := by
    have kept : ¬ (text.dropWhile isBlank).isEmpty = true := by
      rw [List.isEmpty_iff]
      exact left
    rw [trimLeft, List.dropWhile_append, if_neg kept]
    rfl
  rw [hasOperator, hasOperator, moved, wordAt_brackets left]

theorem isTight_brackets (readable : Readable text) :
    isTight (text ++ "[]".toList) = isTight text := by
  obtain ⟨whole, ink⟩ := readable
  rw [isTight, isTight, isLoose, isLoose, hasOuter_brackets _ whole, hasOuter_brackets _ whole,
    hasOperator_brackets ink]

/-- Brackets behind a type make an array of it if they belong to the whole of it. -/
theorem element?_brackets (readable : Readable text) :
    element? (text ++ "[]".toList) = if isTight text then some text else none := by
  have ended : "[]".toList.isSuffixOf (text ++ "[]".toList) = true :=
    List.isSuffixOf_iff_suffix.mpr (List.suffix_append _ _)
  have rest : (text ++ "[]".toList).dropLast.dropLast = text := by simp
  rw [element?, isTight_brackets readable, ended, rest, readable.2]
  simp

theorem outer_parentheses (whole : closed 0 .plain text = true) :
    outer ('(' :: text ++ [')']) = ('(', false) :: (text.map fun c => (c, false)) ++ [(')', false)] := by
  have behind : marks 1 .plain (text ++ [')']) = marks 1 .plain text ++ [(')', false)] :=
    marks_append whole 1 [')']
  have inside : marks 1 .plain text = text.map fun c => (c, false) := marks_inside whole
  rw [outer, List.cons_append, marks]
  change ('(', false) :: marks 1 .plain (text ++ [')']) = _
  rw [behind, inside]
  rfl

theorem readable_parentheses (whole : closed 0 .plain text = true) :
    Readable ('(' :: text ++ [')']) := by
  refine ⟨?_, rfl⟩
  rw [List.cons_append, closed]
  exact closed_append whole 1 [')']

theorem hasOuter_parentheses (p : Char → Bool) (whole : closed 0 .plain text = true) :
    hasOuter p ('(' :: text ++ [')']) = false := by
  rw [hasOuter, outer_parentheses whole]
  simp

theorem isTight_parentheses (whole : closed 0 .plain text = true) :
    isTight ('(' :: text ++ [')']) = true := by
  have wordless : hasOperator ('(' :: text ++ [')']) = false := by
    have start : trimLeft ('(' :: text ++ [')']) = '(' :: text ++ [')'] := rfl
    rw [hasOperator, start]
    rfl
  rw [isTight, isLoose, hasOuter_parentheses _ whole, hasOuter_parentheses _ whole, wordless]
  rfl

theorem length_alternatives_parentheses (whole : closed 0 .plain text = true) :
    (alternatives ('(' :: text ++ [')'])).length = 1 := by
  have tied : isLoose ('(' :: text ++ [')']) = false := hasOuter_parentheses _ whole
  have barless : ∀ mark ∈ outer ('(' :: text ++ [')']), isBar mark = false := by
    intro mark member
    have none := hasOuter_parentheses (· == '|') whole
    rw [hasOuter, List.any_eq_false] at none
    exact Bool.eq_false_iff.mpr (none mark member)
  rw [alternatives_of_tied tied, pieces, List.splitOnP_eq_singleton barless]
  rfl

theorem isUnionOf_self (text : List Char) : IsUnionOf text [text] := by
  rw [IsUnionOf, List.flatMap_cons, List.flatMap_nil, List.append_nil]

theorem isArrayOf_brackets_iff (readable : Readable text) :
    IsArrayOf (text ++ "[]".toList) [text] ↔ isTight text = true := by
  simp only [IsArrayOf, IsArray, element?_brackets readable]
  constructor
  · rintro ⟨inner, found, _⟩
    by_cases tight : isTight text = true
    · exact tight
    · rw [if_neg tight] at found
      rcases found with found | ⟨_, found⟩
      · cases found
      · cases found
  · intro tight
    rw [if_pos tight]
    exact ⟨text, .inl rfl, isUnionOf_self text⟩

example : element? "Map<keyof A, B | C>[]".toList = some "Map<keyof A, B | C>".toList ∧
    element? "keyof A[]".toList = none := by decide

theorem isArrayOf_parentheses_iff (some_type : types ≠ [])
    (whole : ∀ type ∈ types, closed 0 .plain type = true) :
    IsArrayOf ('(' :: union types ++ [')'] ++ "[]".toList) types ↔ IsUnionOf (union types) types := by
  have whole_union := closed_union whole
  simp only [IsArrayOf, IsArray, element?_brackets (readable_parentheses whole_union),
    if_pos (isTight_parentheses whole_union)]
  constructor
  · rintro ⟨inner, same | ⟨_, same⟩, reads⟩
    · -- The parentheses hide every bar, so there is one alternative, and one type.
      rw [← Option.some.inj same] at reads
      have count := congrArg List.length reads
      have more := length_le_flatMap types
      have positive := List.length_pos_of_ne_nil some_type
      rw [length_alternatives_parentheses whole_union] at count
      exact (isUnionOf_union_iff some_type whole).mpr (.inl (by omega))
    · have inner_eq : union types = inner := by simpa using same
      rw [inner_eq]
      exact reads
  · intro reads
    exact ⟨union types, .inr ⟨whole_union, rfl⟩, reads⟩

end Arrays

end ApiSections.TypeText
