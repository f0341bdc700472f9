import ApiSections.Comment.Read
import ApiSections.Proofs.Text.Pieces

/-!
Reading undoes layout. A doc comment is laid out as lines, each line gets a margin, and what is read
from the block is the doc comment again, however the lines are framed.
-/

namespace ApiSections.Comment

open Text

section Framing

/-- What stands around one line of a block: the blanks in front of its star, the blanks behind it and
whether a carriage return comes before the line feed. -/
structure Frame where
  indent : List Char
  trailing : List Char
  carriage : Bool
  indent_blank : ∀ c ∈ indent, isBlank c = true ∧ c ≠ '\n'
  trailing_blank : ∀ c ∈ trailing, isBlank c = true ∧ c ≠ '\n'

/-- The blanks at the end of a line, up to its line feed. -/
def Frame.padding (frame : Frame) : List Char :=
  if frame.carriage then frame.trailing ++ ['\r'] else frame.trailing

def Frame.around (frame : Frame) (line : List Char) : List Char :=
  frame.indent ++ '*' :: ' ' :: line ++ frame.padding

/-- A block of framed lines. The outer frame pads the line of the opening delimiter and indents the
line of the closing one. -/
def block (outer : Frame) (content : List (Frame × List Char)) : List Char :=
  let framed := content.map fun entry => entry.1.around entry.2
  "/**".toList ++ (outer.padding ++ '\n' :: (framed.flatMap (· ++ ['\n']) ++ outer.indent)) ++
    "*/".toList

theorem Frame.padding_blank (frame : Frame) :
    ∀ c ∈ frame.padding, isBlank c = true ∧ c ≠ '\n' := by
  rw [padding]
  split
  · intro c member
    rcases List.mem_append.mp member with member | member
    · exact frame.trailing_blank c member
    · rw [List.mem_singleton.mp member]
      decide
  · exact frame.trailing_blank

variable {blanks : List Char}

theorem free_of_blank (blank : ∀ c ∈ blanks, isBlank c = true ∧ c ≠ '\n') : '\n' ∉ blanks :=
  fun feed => (blank _ feed).2 rfl

theorem Frame.around_free (frame : Frame) {line : List Char} (free : '\n' ∉ line) :
    '\n' ∉ frame.around line := by
  have margin := free_of_blank frame.indent_blank
  have end_ := free_of_blank frame.padding_blank
  simp [around, margin, end_, free]

theorem dropMargin_around (frame : Frame) (line : List Char) :
    dropMargin (frame.around line) = line ++ frame.padding := by
  have star : trimLeft (frame.around line) = '*' :: ' ' :: (line ++ frame.padding) := by
    have blank := fun c member => (frame.indent_blank c member).1
    rw [Frame.around, List.append_assoc, trimLeft_append blank]
    rfl
  rw [dropMargin, star]
  rfl

theorem dropMargin_blank (blank : ∀ c ∈ blanks, isBlank c = true) : dropMargin blanks = blanks := by
  have none : trimLeft blanks = [] := by simpa [trimLeft] using blank
  rw [dropMargin, none]

theorem dropSpace_blank (blank : ∀ c ∈ blanks, isBlank c = true) :
    ∀ c ∈ dropSpace blanks, isBlank c = true := by
  rw [dropSpace.eq_def]
  split
  · exact fun c member => blank c (List.mem_cons_of_mem _ member)
  · exact blank

theorem body_delimited (inside : List Char) :
    body ("/**".toList ++ inside ++ "*/".toList) = inside := by
  have size : ("/**".toList ++ inside ++ "*/".toList).length - 5 = inside.length := by
    have front : "/**".toList.length = 3 := rfl
    have back : "*/".toList.length = 2 := rfl
    rw [List.length_append, List.length_append, front, back]
    omega
  rw [body, size, List.append_assoc]
  exact List.take_left

/-- The content lines of a block are its lines as they were before they got a margin, with an empty
line for each delimiter. -/
theorem contentLines_block (outer : Frame) {content : List (Frame × List Char)}
    (free : ∀ entry ∈ content, '\n' ∉ entry.2)
    (trimmed : ∀ entry ∈ content, trimRight entry.2 = entry.2) :
    contentLines (block outer content) = [] :: (content.map (·.2) ++ [[]]) := by
  have opening : trimRight (dropSpace outer.padding) = [] :=
    trimRight_blank (dropSpace_blank fun c member => (outer.padding_blank c member).1)
  have closing : trimRight (dropMargin outer.indent) = [] := by
    have blank := fun c member => (outer.indent_blank c member).1
    rw [dropMargin_blank blank, trimRight_blank blank]
  have line_eq : ∀ entry ∈ content,
      trimRight (dropMargin (entry.1.around entry.2)) = entry.2 := by
    intro entry member
    have blank := fun c inside => (entry.1.padding_blank c inside).1
    rw [dropMargin_around, trimRight_append blank, trimmed entry member]
  have framed_free : ∀ line ∈ content.map fun entry => entry.1.around entry.2, '\n' ∉ line := by
    intro line member
    obtain ⟨entry, inside, rfl⟩ := List.mem_map.mp member
    exact entry.1.around_free (free entry inside)
  simp only [contentLines, block, body_delimited, splitAt_append (free_of_blank outer.padding_blank),
    splitAt_ended framed_free (free_of_blank outer.indent_blank), List.map_append, List.map_map,
    List.map_cons, List.map_nil, opening, closing]
  congr 2
  exact List.map_congr_left line_eq

end Framing

section Parts

/-- Whether fenced code is open behind some lines. -/
def oddFences (lines : List (List Char)) : Bool := lines.countP isFence % 2 == 1

theorem oddFences_cons (line : List Char) (lines : List (List Char)) :
    oddFences (line :: lines) = (isFence line ^^ oddFences lines) := by
  simp only [oddFences, List.countP_cons]
  cases isFence line <;> grind

/-- Lines in which no tag starts, and behind which no fenced code is left open. -/
structure Plain (lines : List (List Char)) : Prop where
  even : lines.countP isFence % 2 = 0
  untagged : ∀ i (inside : i < lines.length),
    (lines.take i).countP isFence % 2 = 0 → tagLine? lines[i] = none

/-- Lines without a tag outside fenced code are kept as they are, whatever follows. -/
theorem sections_untagged (fenced : Bool) (lines rest : List (List Char))
    (untagged : ∀ before line after, lines = before ++ line :: after →
      (fenced ^^ oddFences before) = false → tagLine? line = none) :
    sections fenced (lines ++ rest) =
      (lines ++ (sections (fenced ^^ oddFences lines) rest).1,
        (sections (fenced ^^ oddFences lines) rest).2) := by
  induction lines generalizing fenced with
  | nil => simp [oddFences]
  | cons line lines ih =>
    have state : (if isFence line then !fenced else fenced) = (fenced ^^ isFence line) := by
      cases isFence line <;> simp
    have here : (if fenced then none else tagLine? line) = none := by
      cases fenced with
      | true => rfl
      | false => exact untagged [] line lines rfl rfl
    have later := ih (fenced ^^ isFence line) fun before next after split outside =>
      untagged (line :: before) next after (by rw [split]; rfl)
        (by rw [oddFences_cons, ← Bool.xor_assoc]; exact outside)
    rw [List.cons_append, sections, state, later]
    simp only [here, oddFences_cons, ← Bool.xor_assoc, List.cons_append]

theorem Plain.sections_append {lines : List (List Char)} (plain : Plain lines)
    (rest : List (List Char)) :
    sections false (lines ++ rest) = (lines ++ (sections false rest).1, (sections false rest).2) := by
  have whole := sections_untagged false lines rest fun before line after split outside => by
    subst split
    have here := plain.untagged before.length (by simp)
    rw [List.take_left] at here
    simpa [oddFences] using here (by simpa [oddFences] using outside)
  have closed : oddFences lines = false := by simp [oddFences, plain.even]
  rwa [closed] at whole

theorem sections_tag {line name first : List Char} (tag : tagLine? line = some (name, first))
    (open_ : isFence line = false) (rest : List (List Char)) :
    sections false (line :: rest) =
      ([], (name, first :: (sections false rest).1) :: (sections false rest).2) := by
  rw [sections, open_]
  simp only [Bool.false_eq_true, if_false, tag]

theorem sections_nil_cons (rest : List (List Char)) :
    sections false ([] :: rest) = ([] :: (sections false rest).1, (sections false rest).2) := rfl

end Parts

section Canonical

/-- A text without blanks around it or at the end of a line, and without anything that reads as a
tag. -/
structure CanonicalText (text : List Char) : Prop where
  trimmed : trim text = text
  ends_trimmed : ∀ line ∈ splitAt '\n' text, trimRight line = line
  plain : Plain (splitAt '\n' text)

def isTagName : List Char → Bool
  | [] => false
  | c :: rest => c.isAlpha && rest.all isTagChar

def aliases : List String := ["return", "arg", "argument", "exception", "typeParam"]

/-- What a tag called `name` can be about: no blank or comma, and no bracket that opens a type or an
optional parameter. -/
def isIdentifier (name : String) : List Char → Bool
  | [] => false
  | c :: rest => (c :: rest).all isNameChar && c != '{' && !(name == "param" && c == '[')

structure CanonicalTag (tag : Tag) : Prop where
  named : isTagName tag.name.toList = true
  unaliased : tag.name ∉ aliases
  identified : ∀ identifier ∈ tag.identifier,
    namesSomething tag.name = true ∧ isIdentifier tag.name identifier.toList = true
  text : CanonicalText tag.text.toList

structure Canonical (doc : DocComment) : Prop where
  summary : CanonicalText doc.summary.toList
  tags : ∀ tag ∈ doc.tags, CanonicalTag tag

/-- The lines of a text; an empty text may have an empty line or none. -/
def TextLines (text : List Char) (lines : List (List Char)) : Prop :=
  lines = splitAt '\n' text ∨ text = [] ∧ lines = []

/-- What follows the name on the line of a tag. -/
def identifierPart (tag : Tag) : List Char :=
  match tag.identifier with
  | none => []
  | some identifier => ' ' :: identifier.toList

/-- The line that starts a tag. -/
def tagHead (tag : Tag) : List Char := '@' :: (tag.name.toList ++ identifierPart tag)

def TagLines (tag : Tag) (lines : List (List Char)) : Prop :=
  ∃ text, TextLines tag.text.toList text ∧ lines = tagHead tag :: text

/-- The content lines of a doc comment: those of its summary, then those of each tag. -/
def Layout (doc : DocComment) (lines : List (List Char)) : Prop :=
  ∃ summary tags, TextLines doc.summary.toList summary ∧ List.Forall₂ TagLines doc.tags tags ∧
    lines = summary ++ tags.flatten

end Canonical

section Texts

variable {text : List Char} {lines : List (List Char)}

theorem TextLines.join (laid : TextLines text lines) : joinWith '\n' lines = text := by
  rcases laid with rfl | ⟨rfl, rfl⟩
  · exact joinWith_splitAt '\n' text
  · rfl

theorem TextLines.plain (laid : TextLines text lines) (canonical : CanonicalText text) :
    Plain lines := by
  rcases laid with rfl | ⟨rfl, rfl⟩
  · exact canonical.plain
  · exact ⟨rfl, by simp⟩

theorem TextLines.line (laid : TextLines text lines) (canonical : CanonicalText text) :
    ∀ line ∈ lines, '\n' ∉ line ∧ trimRight line = line := by
  rcases laid with rfl | ⟨rfl, rfl⟩
  · exact fun line member => ⟨free_of_mem_splitAt member, canonical.ends_trimmed line member⟩
  · simp

/-- What reading makes of the lines of a text, with the empty lines around it that the delimiters or
the line of a tag leave behind. -/
theorem TextLines.trim_join (laid : TextLines text lines) (canonical : CanonicalText text)
    {pad : List (List Char)} (padding : pad = [] ∨ pad = [[]]) :
    trim (joinWith '\n' ([] :: (lines ++ pad))) = text := by
  obtain ⟨front, before, opened⟩ := @joinWith_nil_cons '\n' (by decide) (lines ++ pad)
  obtain ⟨back, after, closed⟩ : ∃ back, (∀ c ∈ back, isBlank c = true) ∧
      joinWith '\n' (lines ++ pad) = text ++ back := by
    rcases padding with rfl | rfl
    · exact ⟨[], by simp, by simpa using laid.join⟩
    · rw [← laid.join]
      exact joinWith_concat_nil (by decide) lines
  rw [opened, closed, ← List.append_assoc, trim_framed before after, canonical.trimmed]

end Texts

section Tags

variable {tag : Tag}

theorem isTagChar_ink {c : Char} (inside : isTagChar c = true) : isBlank c = false := by
  simp only [isTagChar, Bool.or_eq_true, beq_iff_eq] at inside
  rcases inside with word | rfl
  · exact not_isBlank_of_isWord word
  · decide

theorem isTagChar_of_isAlpha {c : Char} (letter : c.isAlpha = true) : isTagChar c = true := by
  simp [isTagChar, isWord, Char.isAlphanum, letter]

theorem isTagName.split {name : List Char} (named : isTagName name = true) :
    ∃ c rest, name = c :: rest ∧ c.isAlpha = true ∧ ∀ d ∈ rest, isTagChar d = true := by
  cases name with
  | nil => cases named
  | cons c rest =>
    simp only [isTagName, Bool.and_eq_true, List.all_eq_true] at named
    exact ⟨c, rest, rfl, named⟩

theorem isTagName.ink {name : List Char} (named : isTagName name = true) :
    ∀ c ∈ name, isBlank c = false := by
  obtain ⟨c, rest, rfl, letter, inside⟩ := isTagName.split named
  intro d member
  rcases List.mem_cons.mp member with rfl | member
  · exact isTagChar_ink (isTagChar_of_isAlpha letter)
  · exact isTagChar_ink (inside d member)

theorem isIdentifier.split {name : String} {identifier : List Char}
    (known : isIdentifier name identifier = true) :
    ∃ c rest, identifier = c :: rest ∧ (∀ d ∈ c :: rest, isNameChar d = true) ∧ c ≠ '{' ∧
      (name = "param" → c ≠ '[') := by
  cases identifier with
  | nil => cases known
  | cons c rest =>
    simp only [isIdentifier, Bool.and_eq_true, List.all_eq_true, bne_iff_ne, Bool.not_eq_true',
      Bool.and_eq_false_iff, beq_eq_false_iff_ne] at known
    exact ⟨c, rest, rfl, known.1.1, known.1.2, fun same => known.2.resolve_left (· same)⟩

theorem isNameChar_ink {c : Char} (inside : isNameChar c = true) : isBlank c = false := by
  simp only [isNameChar, Bool.and_eq_true, Bool.not_eq_true'] at inside
  exact inside.1

theorem ink_ne_newline {c : Char} (ink : isBlank c = false) : c ≠ '\n' := by
  rintro rfl
  exact absurd ink (by decide)

theorem tagLine?_named {blanks name rest : List Char} (blank : ∀ c ∈ blanks, isBlank c = true)
    (named : isTagName name = true) (ends : ∀ c ∈ rest.head?, isTagChar c = false) :
    tagLine? (blanks ++ '@' :: (name ++ rest)) = some (name, rest) := by
  obtain ⟨c, more, rfl, letter, inside⟩ := isTagName.split named
  have start : trimLeft (blanks ++ '@' :: (c :: more ++ rest)) = '@' :: c :: (more ++ rest) := by
    rw [trimLeft_append blank]
    rfl
  have stops : rest.takeWhile isTagChar = [] ∧ rest.dropWhile isTagChar = rest := by
    cases rest with
    | nil => exact ⟨rfl, rfl⟩
    | cons d rest => simp [ends d rfl]
  simp only [tagLine?, start, letter, if_true, List.takeWhile_append_of_pos inside,
    List.dropWhile_append_of_pos inside, stops, List.append_nil]

theorem tagLine?_tagHead (canonical : CanonicalTag tag) :
    tagLine? (tagHead tag) = some (tag.name.toList, identifierPart tag) := by
  -- The name ends with the line or at the space in front of the identifier.
  have ends : ∀ c ∈ (identifierPart tag).head?, isTagChar c = false := by
    rw [identifierPart]
    split
    · simp
    · have space : isTagChar ' ' = false := by decide
      simpa using space
  exact @tagLine?_named [] tag.name.toList (identifierPart tag) (by simp) canonical.named ends

theorem tagHead_line (canonical : CanonicalTag tag) :
    '\n' ∉ tagHead tag ∧ trimRight (tagHead tag) = tagHead tag := by
  have ink := isTagName.ink canonical.named
  have free : '\n' ∉ tag.name.toList := fun feed => ink_ne_newline (ink _ feed) rfl
  obtain ⟨c, rest, name, _⟩ := isTagName.split canonical.named
  rw [tagHead, identifierPart]
  split
  · refine ⟨by simpa using free, ?_⟩
    rw [List.append_nil]
    exact trimRight_of_ink ink (by simp [name]) ['@']
  · rename_i identifier some_identifier
    obtain ⟨d, more, same, inside, _⟩ :=
      isIdentifier.split (canonical.identified identifier some_identifier).2
    have known : ∀ e ∈ identifier.toList, isBlank e = false := by
      rw [same]
      exact fun e member => isNameChar_ink (inside e member)
    have known_free : '\n' ∉ identifier.toList := fun feed => ink_ne_newline (known _ feed) rfl
    refine ⟨by simp [free, known_free], ?_⟩
    have whole : '@' :: (tag.name.toList ++ ' ' :: identifier.toList) =
        ('@' :: tag.name.toList ++ [' ']) ++ identifier.toList := by simp
    rw [whole, trimRight_of_ink known (by simp [same])]

theorem splitIdentifier_identifierPart (canonical : CanonicalTag tag) :
    splitIdentifier tag.name (identifierPart tag) = (tag.identifier.map String.toList, []) := by
  rw [identifierPart]
  cases some_identifier : tag.identifier with
  | none => rfl
  | some identifier =>
    obtain ⟨c, rest, same, inside, no_type, no_bracket⟩ :=
      isIdentifier.split (canonical.identified identifier some_identifier).2
    have ink : isBlank c = false := isNameChar_ink (inside c List.mem_cons_self)
    have start : trimLeft (' ' :: c :: rest) = c :: rest := by
      have space : isBlank ' ' = true := by decide
      simp [trimLeft, space, ink]
    have untyped : skipType (' ' :: c :: rest) = ' ' :: c :: rest := by
      rw [skipType, start]
      split
      · rename_i opened
        exact absurd (List.cons.inj opened).1 no_type
      · rfl
    have tail : ∀ d ∈ rest, isNameChar d = true := fun d member =>
      inside d (List.mem_cons_of_mem _ member)
    have ended : skipNames [] = [] := by
      rw [skipNames]
      rfl
    have whole := List.takeWhile_eq_self_iff.mpr tail
    have nothing := List.dropWhile_eq_nil_iff.mpr tail
    simp only [same, splitIdentifier, untyped, start, Option.map_some]
    split
    · rename_i none
      cases none
    · rename_i opened
      obtain ⟨rfl, rfl⟩ := List.cons.inj opened
      rw [if_neg fun param => no_bracket param rfl, whole, nothing, ended]
    · rename_i split
      obtain ⟨rfl, rfl⟩ := List.cons.inj split
      rw [if_pos (inside c List.mem_cons_self), whole, nothing, ended]

theorem canonicalName_of_unaliased {name : String} (unaliased : name ∉ aliases) :
    canonicalName name = name := by
  simp only [aliases, List.mem_cons, List.not_mem_nil, or_false, not_or] at unaliased
  rw [canonicalName.eq_def]
  split <;> simp_all

/-- A tag is read from its own lines. -/
theorem tagOf_laid (canonical : CanonicalTag tag) {lines pad : List (List Char)}
    (laid : TextLines tag.text.toList lines) (padding : pad = [] ∨ pad = [[]]) :
    tagOf tag.name.toList (identifierPart tag :: (lines ++ pad)) = tag := by
  have name : canonicalName (String.ofList tag.name.toList) = tag.name := by
    rw [String.ofList_toList, canonicalName_of_unaliased canonical.unaliased]
  have text := laid.trim_join canonical.text padding
  have first : (if namesSomething tag.name then splitIdentifier tag.name (identifierPart tag)
      else if isTyped tag.name then (none, skipType (identifierPart tag))
      else (none, identifierPart tag)) = (tag.identifier.map String.toList, []) := by
    by_cases names : namesSomething tag.name = true
    · rw [if_pos names, splitIdentifier_identifierPart canonical]
    · have unnamed : tag.identifier = none := by
        rw [Option.eq_none_iff_forall_not_mem]
        exact fun identifier member => names (canonical.identified identifier member).1
      have empty : identifierPart tag = [] := by rw [identifierPart, unnamed]
      rw [if_neg names, empty, unnamed]
      split <;> rfl
  simp only [tagOf, name, List.headD_cons, List.tail_cons, first, text, Option.map_map]
  obtain ⟨_, identifier, _⟩ := tag
  cases identifier <;> simp

end Tags

section Reading

/-- The lines of the tags are cut where each tag starts; the empty line of the closing delimiter goes
to the last of them, or in front of them if there is none. -/
theorem sections_tags {tags : List Tag} {entries : List (List (List Char))}
    (laid : List.Forall₂ TagLines tags entries) (canonical : ∀ tag ∈ tags, CanonicalTag tag) :
    ∃ pad groups, sections false (entries.flatten ++ [[]]) = (pad, groups) ∧
      (pad = [] ∨ pad = [[]]) ∧ groups.map (fun (name, lines) => tagOf name lines) = tags := by
  induction laid with
  | nil => exact ⟨[[]], [], rfl, .inr rfl, rfl⟩
  | @cons tag entry tags entries here _ ih =>
    -- The lines up to the next tag are plain, so the tags behind them are cut as if they came first.
    obtain ⟨text, lines, rfl⟩ := here
    have head := canonical tag List.mem_cons_self
    obtain ⟨pad, groups, cut, padding, read⟩ :=
      ih fun other member => canonical other (List.mem_cons_of_mem _ member)
    have plain := (lines.plain head.text).sections_append (entries.flatten ++ [[]])
    have unfenced : isFence (tagHead tag) = false := rfl
    rw [cut] at plain
    refine ⟨[], (tag.name.toList, identifierPart tag :: (text ++ pad)) :: groups, ?_, .inl rfl, ?_⟩
    · rw [List.flatten_cons, List.cons_append, List.cons_append, List.append_assoc,
        sections_tag (tagLine?_tagHead head) unfenced, plain]
    · simp only [List.map_cons, tagOf_laid head lines padding, read]

theorem tags_line {tags : List Tag} {entries : List (List (List Char))}
    (laid : List.Forall₂ TagLines tags entries) (canonical : ∀ tag ∈ tags, CanonicalTag tag) :
    ∀ line ∈ entries.flatten, '\n' ∉ line ∧ trimRight line = line := by
  induction laid with
  | nil => simp
  | @cons tag entry tags entries here _ ih =>
    obtain ⟨text, lines, rfl⟩ := here
    have head := canonical tag List.mem_cons_self
    intro line member
    rw [List.flatten_cons, List.cons_append, List.mem_cons, List.mem_append] at member
    rcases member with rfl | member | member
    · exact tagHead_line head
    · exact lines.line head.text line member
    · exact ih (fun other among => canonical other (List.mem_cons_of_mem _ among)) line member

theorem Layout.line {doc : DocComment} {lines : List (List Char)} (laid : Layout doc lines)
    (canonical : Canonical doc) : ∀ line ∈ lines, '\n' ∉ line ∧ trimRight line = line := by
  obtain ⟨summary, entries, text, tags, rfl⟩ := laid
  intro line member
  rcases List.mem_append.mp member with member | member
  · exact text.line canonical.summary line member
  · exact tags_line tags canonical.tags line member

/-- Reading a block gives the doc comment whose lines were framed in it. -/
theorem read_block {doc : DocComment} (canonical : Canonical doc) (outer : Frame)
    {content : List (Frame × List Char)} (laid : Layout doc (content.map (·.2))) :
    read (String.ofList (block outer content)) = doc := by
  have line : ∀ entry ∈ content, '\n' ∉ entry.2 ∧ trimRight entry.2 = entry.2 :=
    fun entry member => laid.line canonical entry.2 (List.mem_map_of_mem member)
  have lines := contentLines_block outer (fun entry member => (line entry member).1)
    fun entry member => (line entry member).2
  obtain ⟨summary, entries, text, tags, split⟩ := laid
  obtain ⟨pad, groups, cut, padding, read_tags⟩ := sections_tags tags canonical.tags
  have plain := (text.plain canonical.summary).sections_append (entries.flatten ++ [[]])
  rw [cut] at plain
  rw [split, List.append_assoc] at lines
  simp only [read, String.toList_ofList, lines, sections_nil_cons, plain,
    text.trim_join canonical.summary padding, read_tags, String.ofList_toList]

/-- A bullet, a tag in fenced code, an indented line and an empty text survive tabs, trailing blanks
and line endings of both kinds. -/
theorem read_block_mixed :
    let doc : DocComment :=
      ⟨"* A.\n```\n@b\n```", [⟨"param", some "c", "D.\n  E."⟩, ⟨"returns", none, ""⟩]⟩
    let text :=
      "/** \r\n\t* * A. \r\n * ```\n * @b\n * ```\n * @param c\n * D.\n *   E.\n\t* @returns \r\n\t*/"
    Canonical doc ∧ read text = doc := by
  intro doc text
  have canonical : Canonical doc := by
    refine ⟨⟨by decide +kernel, by decide +kernel, by decide +kernel, by decide +kernel⟩, ?_⟩
    intro tag member
    simp only [doc, List.mem_cons, List.not_mem_nil, or_false] at member
    rcases member with rfl | rfl
    · exact ⟨by decide, by decide, by decide, by decide +kernel, by decide +kernel, by decide +kernel,
        by decide +kernel⟩
    · exact ⟨by decide, by decide, by decide, by decide +kernel, by decide +kernel, by decide +kernel,
        by decide +kernel⟩
  let plain : Frame := ⟨[' '], [], false, List.forall_mem_singleton.mpr (by decide),
    List.forall_mem_nil _⟩
  let wide : Frame := ⟨['\t'], [' '], true, List.forall_mem_singleton.mpr (by decide),
    List.forall_mem_singleton.mpr (by decide)⟩
  let content : List (Frame × List Char) := [(wide, "* A.".toList), (plain, "```".toList),
    (plain, "@b".toList), (plain, "```".toList), (plain, "@param c".toList), (plain, "D.".toList),
    (plain, "  E.".toList), (wide, "@returns".toList)]
  have laid : Layout doc (content.map (·.2)) :=
    ⟨_, _, .inl rfl, .cons ⟨_, .inl rfl, rfl⟩ (.cons ⟨[], .inr ⟨rfl, rfl⟩, rfl⟩ .nil),
      by decide +kernel⟩
  have framed : text.toList = block wide content := by decide +kernel
  rw [← @String.ofList_toList text, framed]
  exact ⟨canonical, read_block canonical wide laid⟩

end Reading

end ApiSections.Comment
