import ApiSections.Proofs.Comment.Place

/-!
Type expressions and defaults on the line of a tag. The brackets in them are only counted, but where
they come in pairs the count returns to nothing at the bracket that closes the first one. So a tag
does not depend on the type expression in front of what it says, nor the name of a parameter on the
default behind it.
-/

namespace ApiSections.Comment

open Text

section Balance

variable {opener closer : Char} {text : List Char}

/-- Text in which the brackets of one kind come in pairs. -/
inductive Balanced (opener closer : Char) : List Char → Prop
  | plain {text : List Char} (no_opener : opener ∉ text) (no_closer : closer ∉ text) :
      Balanced opener closer text
  | nested {inside : List Char} (balanced : Balanced opener closer inside) :
      Balanced opener closer (opener :: (inside ++ [closer]))
  | append {first second : List Char} (left : Balanced opener closer first)
      (right : Balanced opener closer second) : Balanced opener closer (first ++ second)

/-- What a search for a closing bracket finds if it passes over some text first. -/
def passing (text : List Char) (found : Option (List Char × List Char)) :
    Option (List Char × List Char) :=
  found.map fun (inside, after) => (text ++ inside, after)

theorem passing_append (first second : List Char) (found : Option (List Char × List Char)) :
    passing (first ++ second) found = passing first (passing second found) := by
  simp [passing, Function.comp_def]

theorem afterClosing_other {c : Char} (no_opener : opener ≠ c) (no_closer : closer ≠ c)
    (depth : Nat) (rest : List Char) :
    afterClosing opener closer depth (c :: rest) =
      passing [c] (afterClosing opener closer depth rest) := by
  simp [afterClosing, passing, no_opener.symm, no_closer.symm]

theorem afterClosing_opener (apart : opener ≠ closer) (depth : Nat) (rest : List Char) :
    afterClosing opener closer depth (opener :: rest) =
      passing [opener] (afterClosing opener closer (depth + 1) rest) := by
  simp [afterClosing, passing, apart]

theorem afterClosing_closer (apart : opener ≠ closer) (depth : Nat) (rest : List Char) :
    afterClosing opener closer (depth + 2) (closer :: rest) =
      passing [closer] (afterClosing opener closer (depth + 1) rest) := by
  simp [afterClosing, passing, apart.symm]

theorem afterClosing_last (apart : opener ≠ closer) (rest : List Char) :
    afterClosing opener closer 1 (closer :: rest) = some ([], rest) := by
  simp [afterClosing, apart.symm]

theorem Balanced.passed (balanced : Balanced opener closer text) (apart : opener ≠ closer)
    (depth : Nat) (rest : List Char) :
    afterClosing opener closer (depth + 1) (text ++ rest) =
      passing text (afterClosing opener closer (depth + 1) rest) := by
  induction balanced generalizing depth rest with
  | @plain text no_opener no_closer =>
    induction text with
    | nil => simp [passing]
    | cons c text ih =>
      rw [List.mem_cons, not_or] at no_opener no_closer
      rw [List.cons_append, afterClosing_other no_opener.1 no_closer.1,
        ih no_opener.2 no_closer.2, ← passing_append, List.singleton_append]
  | @nested inside _ ih =>
    -- The inside stands one level deeper, so its closer is not the one that is looked for.
    rw [List.cons_append, List.append_assoc, List.singleton_append, afterClosing_opener apart, ih,
      afterClosing_closer apart, ← passing_append, ← passing_append, List.singleton_append,
      List.cons_append]
  | @append first second _ _ left right =>
    rw [List.append_assoc, left, right, passing_append]

/-- The search ends at the closer that belongs to the bracket in front of a balanced text. -/
theorem Balanced.closed (balanced : Balanced opener closer text) (apart : opener ≠ closer)
    (rest : List Char) :
    afterClosing opener closer 1 (text ++ closer :: rest) = some (text, rest) := by
  rw [balanced.passed apart 0, Nat.zero_add, afterClosing_last apart]
  simp [passing]

end Balance

section Parts

variable {type name value rest : List Char}

def typePart (type : List Char) : List Char := ' ' :: '{' :: (type ++ ['}'])

def optionalPart (name value : List Char) : List Char :=
  ' ' :: '[' :: (name ++ '=' :: (value ++ [']']))

/-- What may follow the name of a tag, or a type expression, on its line. -/
structure Follows (rest : List Char) : Prop where
  single : '\n' ∉ rest
  apart : ∀ c ∈ rest.head?, isBlank c = true
  untyped : (trimLeft rest).head? ≠ some '{'

structure IsParameterName (name : List Char) : Prop where
  left : name ≠ []
  ink : ∀ c ∈ name, isBlank c = false
  no_bracket : '[' ∉ name ∧ ']' ∉ name
  no_equals : '=' ∉ name

/-- The text of a tag by its lines, the first of them without what the tag is about. -/
def textOf (lines : List (List Char)) : String := String.ofList (trim (joinWith '\n' lines))

theorem Follows.ends (follows : Follows rest) : ∀ c ∈ rest.head?, isTagChar c = false := by
  intro c first
  have blank := follows.apart c first
  by_contra inside
  rw [isTagChar_ink (by simpa using inside)] at blank
  cases blank

theorem ends_typePart (type rest : List Char) :
    ∀ c ∈ (typePart type ++ rest).head?, isTagChar c = false := by
  intro c first
  obtain rfl : ' ' = c := Option.some.inj first
  decide

theorem skipType_typePart (balanced : Balanced '{' '}' type) (rest : List Char) :
    skipType (typePart type ++ rest) = rest := by
  have start : trimLeft (typePart type ++ rest) = '{' :: (type ++ '}' :: rest) := by
    rw [typePart, List.cons_append, List.cons_append, List.append_assoc]
    rfl
  rw [skipType, start]
  simp only [balanced.closed (by decide), Option.map_some, Option.getD_some]

theorem skipType_untyped (untyped : (trimLeft rest).head? ≠ some '{') : skipType rest = rest := by
  rw [skipType]
  split
  · rename_i inside start
    exact absurd (congrArg List.head? start) untyped
  · rfl

theorem Follows.skipType_trimRight (follows : Follows rest) :
    skipType (trimRight rest) = trimRight rest := by
  apply skipType_untyped
  intro brace
  apply follows.untyped
  -- A brace that comes first in what is kept of the line comes first in the line.
  obtain ⟨back, whole⟩ := trimRight_prefix rest
  obtain ⟨more, left⟩ := trimLeft_prefix_append (trimRight rest) back
  rw [whole] at left
  rw [← left, List.head?_append, brace, Option.some_or]

theorem tagOf_of_skipType {first other : List Char}
    (takes : namesSomething (canonicalName (String.ofList name)) = true ∨
      isTyped (canonicalName (String.ofList name)) = true)
    (same : skipType first = skipType other) (lines : List (List Char)) :
    tagOf name (first :: lines) = tagOf name (other :: lines) := by
  simp only [tagOf, List.headD_cons, List.tail_cons]
  by_cases names : namesSomething (canonicalName (String.ofList name)) = true
  · simp only [names, if_true, splitIdentifier, same]
  · simp only [takes.resolve_left names, if_neg names, if_true, same]

theorem IsParameterName.trim_eq (named : IsParameterName name) : trim name = name := by
  have start : trimLeft name = name := by
    cases name with
    | nil => rfl
    | cons c rest => simp [trimLeft, named.ink c List.mem_cons_self]
  rw [trim, start]
  simpa using trimRight_of_ink named.ink named.left []

theorem splitIdentifier_optionalPart (balanced : Balanced '{' '}' type)
    (named : IsParameterName name) (closed : Balanced '[' ']' value) (rest : List Char) :
    splitIdentifier "param" (typePart type ++ (optionalPart name value ++ rest)) =
      (some name, rest) := by
  have start : trimLeft (optionalPart name value ++ rest) =
      '[' :: ((name ++ '=' :: value) ++ ']' :: rest) := by
    simp only [optionalPart, List.cons_append, List.append_assoc, List.nil_append]
    rfl
  -- The default comes with its own brackets, so the entry is balanced as a whole.
  have entry : Balanced '[' ']' (name ++ '=' :: value) := by
    have sign : Balanced '[' ']' ['='] := .plain (by decide) (by decide)
    exact (Balanced.plain named.no_bracket.1 named.no_bracket.2).append (sign.append closed)
  have before : ∀ c ∈ name, (c != '=') = true := by
    intro c member
    rw [bne_iff_ne]
    rintro rfl
    exact named.no_equals member
  have cut : (name ++ '=' :: value).takeWhile (· != '=') = name := by
    rw [List.takeWhile_append_of_pos before]
    simp
  have some_left : name.isEmpty = false := by simpa using named.left
  rw [splitIdentifier, skipType_typePart balanced, start]
  simp only [if_true, entry.closed (by decide), cut, named.trim_eq, some_left, Bool.false_eq_true,
    if_false]

theorem tagOf_optionalPart (balanced : Balanced '{' '}' type) (named : IsParameterName name)
    (closed : Balanced '[' ']' value) (rest : List Char) (lines : List (List Char)) :
    tagOf "param".toList ((typePart type ++ (optionalPart name value ++ rest)) :: lines) =
      ⟨"param", some (String.ofList name), textOf (rest :: lines)⟩ := by
  have canonical : canonicalName (String.ofList "param".toList) = "param" := rfl
  have names : namesSomething "param" = true := rfl
  simp only [tagOf, canonical, names, if_true, List.headD_cons, List.tail_cons,
    splitIdentifier_optionalPart balanced named closed, Option.map_some, textOf]

end Parts

section Texts

theorem textOf_spaced (first : List Char) (lines : List (List Char)) :
    textOf ((' ' :: first) :: lines) = textOf (first :: lines) := by
  have space : joinWith '\n' ((' ' :: first) :: lines) = ' ' :: joinWith '\n' (first :: lines) := by
    cases lines <;> rfl
  rw [textOf, textOf, space]
  rfl

theorem textOf_trimRight_spaced (first : List Char) (lines : List (List Char)) :
    textOf (trimRight (' ' :: first) :: lines) = textOf (trimRight first :: lines) := by
  by_cases empty : trimRight first = []
  · have none : trimRight (' ' :: first) = [] := by
      rw [trimRight] at empty ⊢
      rw [dropTail, empty]
      rfl
    rw [none, empty]
  · have kept : trimRight (' ' :: first) = ' ' :: trimRight first := by
      obtain ⟨c, more, left⟩ := List.exists_cons_of_ne_nil empty
      rw [left]
      rw [trimRight] at left ⊢
      rw [dropTail, left]
    rw [kept, textOf_spaced]

end Texts

section Comments

variable {type rest : List Char}

theorem Place.read_typePart (place : Place) (balanced : Balanced '{' '}' type)
    (single : '\n' ∉ type) {name : List Char} (named : isTagName name = true)
    (takes : namesSomething (canonicalName (String.ofList name)) = true ∨
      isTyped (canonicalName (String.ofList name)) = true) (follows : Follows rest) :
    read (place.comment ('@' :: (name ++ (typePart type ++ rest)))) =
      place.doc (tagOf name (trimRight rest :: place.continuation)) := by
  have line : '\n' ∉ typePart type ++ rest := by simp [typePart, single, follows.single]
  have trimmed : trimRight (typePart type ++ rest) = typePart type ++ trimRight rest := by
    have brace : isBlank '}' = false := by decide
    simpa [typePart] using trimRight_append_ink brace (' ' :: '{' :: type) rest
  have same : skipType (typePart type ++ trimRight rest) = skipType (trimRight rest) := by
    rw [skipType_typePart balanced, follows.skipType_trimRight]
  rw [place.read_comment named (ends_typePart type rest) line, trimmed,
    tagOf_of_skipType takes same]

theorem Place.read_optionalPart (place : Place) (balanced : Balanced '{' '}' type)
    {name value text : List Char} (named : IsParameterName name) (closed : Balanced '[' ']' value)
    (single : '\n' ∉ typePart type ++ (optionalPart name value ++ ' ' :: text)) :
    read (place.comment
        ('@' :: ("param".toList ++ (typePart type ++ (optionalPart name value ++ ' ' :: text))))) =
      place.doc
        ⟨"param", some (String.ofList name), textOf (trimRight text :: place.continuation)⟩ := by
  have trimmed : trimRight (typePart type ++ (optionalPart name value ++ ' ' :: text)) =
      typePart type ++ (optionalPart name value ++ trimRight (' ' :: text)) := by
    have bracket : isBlank ']' = false := by decide
    have cut := trimRight_append_ink bracket
      (typePart type ++ ' ' :: '[' :: (name ++ '=' :: value)) (' ' :: text)
    simpa [optionalPart] using cut
  rw [place.read_comment (by decide) (ends_typePart type _) single, trimmed,
    tagOf_optionalPart balanced named closed, textOf_trimRight_spaced]

/-- A type expression leaves a tag as it is without one, anywhere in a comment. Behind one, a
parameter has the name in front of its default and the text behind that, whatever lines continue
it. -/
theorem tag_undisturbed (place : Place) (balanced : Balanced '{' '}' type) :
    ('\n' ∉ type → ∀ tag ∈ ["param", "template", "returns", "throws"], ∀ rest, Follows rest →
      let entry := tagOf tag.toList (trimRight rest :: place.continuation)
      read (place.comment ('@' :: (tag.toList ++ (typePart type ++ rest)))) = place.doc entry ∧
        read (place.comment ('@' :: (tag.toList ++ rest))) = place.doc entry) ∧
    ∀ name value text, IsParameterName name → Balanced '[' ']' value →
      let first := typePart type ++ (optionalPart name value ++ ' ' :: text)
      (∀ lines, tagOf "param".toList (first :: lines) =
        ⟨"param", some (String.ofList name), textOf (text :: lines)⟩) ∧
      ('\n' ∉ first → read (place.comment ('@' :: ("param".toList ++ first))) = place.doc
        ⟨"param", some (String.ofList name), textOf (trimRight text :: place.continuation)⟩) := by
  constructor
  · intro single tag known rest follows
    have kinds : ∀ tag ∈ ["param", "template", "returns", "throws"], isTagName tag.toList = true ∧
        (namesSomething (canonicalName (String.ofList tag.toList)) = true ∨
          isTyped (canonicalName (String.ofList tag.toList)) = true) := by decide
    obtain ⟨named, takes⟩ := kinds tag known
    exact ⟨place.read_typePart balanced single named takes follows,
      place.read_comment named follows.ends follows.single⟩
  · intro name value text named closed first
    refine ⟨fun lines => ?_, place.read_optionalPart balanced named closed⟩
    rw [tagOf_optionalPart balanced named closed, textOf_spaced]

/-- Braces in braces and brackets in brackets, below fenced code that shows another tag. -/
theorem tag_undisturbed_nested :
    let type := "Row<\x7ba: \x7bb: x\x7d\x7d>[]".toList
    let value := "[[1], [2, [3]]]".toList
    Balanced '{' '}' type ∧ Balanced '[' ']' value ∧
      read ("/**\n * ```\n * @dec\n * ```\n" ++
          " * @throws \x7bRow<\x7ba: \x7bb: x\x7d\x7d>[]\x7d if none\n * @returns n\n */") =
        read "/**\n * ```\n * @dec\n * ```\n * @throws if none\n * @returns n\n */" ∧
      read ("/**\n * ```\n * @dec\n * ```\n" ++
          " * @param \x7bRow<\x7ba: \x7bb: x\x7d\x7d>[]\x7d [rows=[[1], [2, [3]]]] all\n" ++
          " * @returns n\n */") =
        ⟨"```\n@dec\n```", [⟨"param", some "rows", "all"⟩, ⟨"returns", none, "n"⟩]⟩ := by
  intro type value
  have type_balanced : Balanced '{' '}' type := by
    have plain : ∀ text, '{' ∉ text ∧ '}' ∉ text → Balanced '{' '}' text := fun _ free =>
      .plain free.1 free.2
    have inner := (plain "b: x".toList (by decide)).nested
    have outer := ((plain "a: ".toList (by decide)).append inner).nested
    exact (plain "Row<".toList (by decide)).append (outer.append (plain ">[]".toList (by decide)))
  have value_balanced : Balanced '[' ']' value := by
    have plain : ∀ text, '[' ∉ text ∧ ']' ∉ text → Balanced '[' ']' text := fun _ free =>
      .plain free.1 free.2
    have one := (plain "1".toList (by decide)).nested
    have three := (plain "3".toList (by decide)).nested
    have two := ((plain "2, ".toList (by decide)).append three).nested
    exact (one.append ((plain ", ".toList (by decide)).append two)).nested
  have blank : ∀ c ∈ [' '], isBlank c = true := List.forall_mem_singleton.mpr (by decide)
  let place : Place := {
    above := ["", " * ```", " * @dec", " * ```"].map String.toList
    margin := [' ', '*', ' ']
    below := [" * @returns n", " "].map String.toList
    single := by decide
    clear := .starred (by simp) blank blank
    outside := by decide }
  have follows : Follows " if none".toList := by
    refine ⟨by decide, ?_, by decide⟩
    rintro c ⟨⟩
    decide
  have named : IsParameterName "rows".toList := by
    refine ⟨by decide, ?_, by decide, by decide⟩
    have ink : "rows".toList.all (fun c => !isBlank c) = true := by decide
    simpa using ink
  obtain ⟨types, defaults⟩ := tag_undisturbed place type_balanced
  have thrown := types (by decide) "throws" (by decide) " if none".toList follows
  have given := (defaults "rows".toList value "all".toList named value_balanced).2 (by decide)
  exact ⟨type_balanced, value_balanced, thrown.1.trans thrown.2.symm, given⟩

end Comments

end ApiSections.Comment
