import ApiSections.Proofs.Comment.Layout
import ApiSections.Proofs.Text.Fence

/-!
Blocks of code in the text of a tag. Whether the tags behind a block are found depends on the fences
that are read in it: a fence behind the name of the tag is missed, and tildes between back quotes are
taken for the end of the block.
-/

namespace ApiSections.Comment

open Text

/-- A tag by its lines. -/
structure Entry where
  line : List Char
  name : List Char
  /-- What follows the name on the line of the tag. -/
  first : List Char
  below : List (List Char)
  named : tagLine? line = some (name, first)

def Entry.lines (entry : Entry) : List (List Char) := entry.line :: entry.below

def Entry.tag (entry : Entry) : Tag := tagOf entry.name (entry.first :: entry.below)

/-- The identifier and the text that stand on the line of a tag. -/
def Entry.parts (entry : Entry) : Option (List Char) × List Char :=
  let canonical := canonicalName (String.ofList entry.name)
  if namesSomething canonical then splitIdentifier canonical entry.first
  else if isTyped canonical then (none, skipType entry.first)
  else (none, entry.first)

/-- Where a block of code opens: beside the name of its tag, or with a line of its own. -/
inductive Opening where
  | beside
  | below (between : List (List Char)) (fence : List Char)

def Opening.lines : Opening → List (List Char)
  | .beside => []
  | .below between fence => between ++ [fence]

structure Code where
  opening : Opening
  inside : List (List Char)
  close : List Char
  behind : List (List Char)

def Bare (lines : List (List Char)) : Prop :=
  ∀ line ∈ lines, fence? line = none ∧ tagLine? line = none

/-- A tag has one block of code, from back quotes to the next back quotes. -/
structure Code.Within (code : Code) (entry : Entry) : Prop where
  below : entry.below = code.opening.lines ++ (code.inside ++ code.close :: code.behind)
  opened : match code.opening with
    | .beside => fence? entry.parts.2 = some .backQuotes
    | .below between fence => Bare between ∧ fence? fence = some .backQuotes
  inside : ∀ line ∈ code.inside, fence? line ≠ some .backQuotes
  closed : fence? code.close = some .backQuotes
  behind : Bare code.behind

/-- The lines of a block, fences included. -/
def Code.block (code : Code) (entry : Entry) : List (List Char) :=
  let opening := match code.opening with
    | .beside => entry.parts.2
    | .below _ fence => fence
  opening :: (code.inside ++ [code.close])

/-- How many fences are taken amiss in front of a line of the block: the one beside the name of the
tag, and the tildes in the lines `before`. -/
def Opening.amiss : Opening → List (List Char) → Nat
  | .beside, before => 1 + before.countP (fence? · = some .tildes)
  | .below _ _, before => before.countP (fence? · = some .tildes)

/-- Wherever it matters, at a line of the block that looks like a tag and at its end, an even number
of fences has been taken amiss. -/
def Code.Recognized (code : Code) : Prop :=
  (∀ before line after, code.inside = before ++ line :: after → tagLine? line ≠ none →
    code.opening.amiss before % 2 = 0) ∧ code.opening.amiss code.inside % 2 = 0

section Lines

variable {line : List Char}

theorem isFence_eq (line : List Char) : isFence line = (fence? line).isSome :=
  (isSome_fence? line).symm

theorem tagLine?_start (tagged : tagLine? line ≠ none) : ∃ rest, trimLeft line = '@' :: rest := by
  rw [tagLine?] at tagged
  split at tagged
  · rename_i c rest start
    exact ⟨c :: rest, start⟩
  · exact absurd rfl tagged

theorem fence?_of_tagLine? (tagged : tagLine? line ≠ none) : fence? line = none := by
  obtain ⟨rest, start⟩ := tagLine?_start tagged
  rw [fence?, start]
  rfl

theorem tagLine?_of_fence? {fence : Fence} (found : fence? line = some fence) :
    tagLine? line = none := by
  by_contra tagged
  rw [fence?_of_tagLine? tagged] at found
  cases found

theorem Entry.unfenced (entry : Entry) : isFence entry.line = false := by
  rw [isFence_eq, fence?_of_tagLine? (by simp [entry.named])]
  rfl

theorem inkCount_of_tagLine? (tagged : tagLine? line ≠ none) : 0 < inkCount line := by
  obtain ⟨rest, start⟩ := tagLine?_start tagged
  rw [← inkCount_trimLeft, start]
  exact inkCount_pos List.mem_cons_self (by decide)

theorem oddFences_append (first second : List (List Char)) :
    oddFences (first ++ second) = (oddFences first ^^ oddFences second) := by
  induction first with
  | nil => simp [oddFences]
  | cons line first ih => rw [List.cons_append, oddFences_cons, oddFences_cons, ih, Bool.xor_assoc]

theorem oddFences_of_bare {lines : List (List Char)} (bare : Bare lines) :
    oddFences lines = false := by
  have none : lines.countP isFence = 0 := by
    rw [List.countP_eq_zero]
    intro line member
    rw [isFence_eq, (bare line member).1]
    simp
  simp [oddFences, none]

end Lines

section Sections

theorem sections_prefix (fenced : Bool) (lines : List (List Char)) :
    (sections fenced lines).1 <+: lines := by
  induction lines generalizing fenced with
  | nil => exact List.prefix_rfl
  | cons line lines ih =>
    rw [sections]
    cases if fenced then none else tagLine? line with
    | none => exact List.cons_prefix_cons.mpr ⟨rfl, ih _⟩
    | some pair => exact List.nil_prefix

/-- A tag outside of fenced code ends what stands above it, and the lines below it are cut on their
own. -/
theorem sections_append_tag (fenced : Bool) {above : List (List Char)} {line name first : List Char}
    (named : tagLine? line = some (name, first)) (outside : (fenced ^^ oddFences above) = false)
    (below : List (List Char)) :
    sections fenced (above ++ line :: below) =
      ((sections fenced above).1, (sections fenced above).2 ++
        (name, first :: (sections false below).1) :: (sections false below).2) := by
  induction above generalizing fenced with
  | nil =>
    have open_ : fenced = false := by simpa [oddFences] using outside
    have unfenced : isFence line = false := by
      rw [isFence_eq, fence?_of_tagLine? (by simp [named])]
      rfl
    rw [List.nil_append, open_, sections_tag named unfenced]
    rfl
  | cons row above ih =>
    have state : (if isFence row then !fenced else fenced) = (fenced ^^ isFence row) := by
      cases isFence row <;> simp
    have later := ih (fenced ^^ isFence row) (by rwa [Bool.xor_assoc, ← oddFences_cons])
    rw [List.cons_append, sections, sections, state, later]
    cases if fenced then none else tagLine? row with
    | none => rfl
    | some pair => rfl

theorem sections_cut (fenced : Bool) {before : List (List Char)} {line : List Char}
    (tagged : tagLine? line ≠ none) (outside : (fenced ^^ oddFences before) = false)
    (after : List (List Char)) : (sections fenced (before ++ line :: after)).1 <+: before := by
  obtain ⟨pair, named⟩ := Option.ne_none_iff_exists'.mp tagged
  rw [sections_append_tag fenced named outside]
  exact sections_prefix fenced before

theorem sections_of_untagged (fenced : Bool) {lines : List (List Char)}
    (untagged : ∀ line ∈ lines, tagLine? line = none) (rest : List (List Char)) :
    sections fenced (lines ++ rest) =
      (lines ++ (sections (fenced ^^ oddFences lines) rest).1,
        (sections (fenced ^^ oddFences lines) rest).2) := by
  apply sections_untagged
  intro before line after split _
  exact untagged line (by simp [split])

theorem sections_fenced (line : List Char) (rest : List (List Char)) :
    ∃ more, (sections true (line :: rest)).1 = line :: more := ⟨_, rfl⟩

theorem sections_entries {entries : List Entry} (plain : ∀ entry ∈ entries, Plain entry.below) :
    sections false (entries.flatMap Entry.lines) =
      ([], entries.map fun entry => (entry.name, entry.first :: entry.below)) := by
  induction entries with
  | nil => rfl
  | cons entry entries ih =>
    have later := ih fun other member => plain other (List.mem_cons_of_mem _ member)
    have here := (plain entry List.mem_cons_self).sections_append (entries.flatMap Entry.lines)
    rw [later, List.append_nil] at here
    rw [List.flatMap_cons, Entry.lines, List.cons_append, sections_tag entry.named entry.unfenced, here]
    rfl

end Sections

section Reading

variable {code : Code} {entry : Entry}

theorem Code.Within.untagged_opening (within : code.Within entry) :
    ∀ line ∈ code.opening.lines, tagLine? line = none := by
  have opened := within.opened
  cases place : code.opening with
  | beside => simp [Opening.lines]
  | below between fence =>
    rw [place] at opened
    intro line member
    rcases List.mem_append.mp member with member | member
    · exact (opened.1 line member).2
    · rw [List.mem_singleton.mp member]
      exact tagLine?_of_fence? opened.2

theorem Code.Within.oddFences_opening (within : code.Within entry) :
    oddFences code.opening.lines = match code.opening with
      | .beside => false
      | .below _ _ => true := by
  have opened := within.opened
  cases place : code.opening with
  | beside => rfl
  | below between fence =>
    rw [place] at opened
    have here : isFence fence = true := by rw [isFence_eq, opened.2]; rfl
    rw [Opening.lines, oddFences_append, oddFences_of_bare opened.1, oddFences_cons, here]
    rfl

/-- The lines of a block are read as code exactly where an even number of fences is taken amiss. -/
theorem Code.Within.fenced_eq (within : code.Within entry) {before after : List (List Char)}
    (split : code.inside = before ++ after) :
    (oddFences code.opening.lines ^^ oddFences before) =
      decide (code.opening.amiss before % 2 = 0) := by
  have count : before.countP isFence = before.countP (fence? · = some .tildes) := by
    apply List.countP_congr
    intro line member
    have other := within.inside line (by simp [split, member])
    rw [isFence_eq]
    cases kind : fence? line with
    | none => simp
    | some fence => cases fence <;> simp_all
  rw [within.oddFences_opening, oddFences, count]
  cases code.opening <;> grind [Opening.amiss]

/-- A tag with a block whose lines are all read into it keeps them. Whether the next line can start a
tag then depends on the fences. -/
theorem Code.Within.sections_below (within : code.Within entry)
    (untagged : ∀ before line after, code.inside = before ++ line :: after → tagLine? line ≠ none →
      code.opening.amiss before % 2 = 0) (rest : List (List Char)) :
    let fenced := !decide (code.opening.amiss code.inside % 2 = 0)
    sections false (entry.below ++ rest) =
      (entry.below ++ (sections fenced rest).1, (sections fenced rest).2) := by
  intro fenced
  have opening := sections_of_untagged false within.untagged_opening
    (code.inside ++ (code.close :: code.behind ++ rest))
  have inside := sections_untagged (oddFences code.opening.lines) code.inside
    (code.close :: code.behind ++ rest) fun before line after split outside => by
      rw [within.fenced_eq split, decide_eq_false_iff_not] at outside
      by_contra tagged
      exact outside (untagged before line after split tagged)
  have bare : ∀ line ∈ code.close :: code.behind, tagLine? line = none := by
    intro line member
    rcases List.mem_cons.mp member with rfl | member
    · exact tagLine?_of_fence? within.closed
    · exact (within.behind line member).2
  have odd : oddFences (code.close :: code.behind) = true := by
    have fence : isFence code.close = true := by rw [isFence_eq, within.closed]; rfl
    rw [oddFences_cons, fence, oddFences_of_bare within.behind]
    rfl
  rw [within.below, List.append_assoc, List.append_assoc, opening, Bool.false_xor, inside,
    within.fenced_eq (List.append_nil _).symm, sections_of_untagged _ bare, odd, Bool.xor_true]
  simp only [List.append_assoc, fenced]

/-- The lines of a tag with code are cut off behind it if the code is recognized. Otherwise the tag
gets fewer lines, up to one that looks like a tag, or more, with the next tag among them. -/
theorem Code.Within.sections_cases (within : code.Within entry) {others : List Entry}
    (plain : ∀ other ∈ others, Plain other.below) (followed : others ≠ []) :
    code.Recognized ∧ sections false (entry.below ++ others.flatMap Entry.lines) =
        (entry.below, others.map fun other => (other.name, other.first :: other.below)) ∨
      ¬ code.Recognized ∧
        inkCount (sections false (entry.below ++ others.flatMap Entry.lines)).1.flatten ≠
          inkCount entry.below.flatten := by
  by_cases untagged : ∀ before line after, code.inside = before ++ line :: after →
      tagLine? line ≠ none → code.opening.amiss before % 2 = 0
  · have kept := within.sections_below untagged (others.flatMap Entry.lines)
    by_cases closed : code.opening.amiss code.inside % 2 = 0
    · left
      refine ⟨⟨untagged, closed⟩, ?_⟩
      simp only [closed, decide_true, Bool.not_true, sections_entries plain, List.append_nil] at kept
      exact kept
    · right
      refine ⟨fun recognized => closed recognized.2, ?_⟩
      -- The block is still open for the scan, so the line of the next tag is taken too.
      obtain ⟨next, others, rfl⟩ := List.exists_cons_of_ne_nil followed
      have ink : 0 < inkCount next.line := inkCount_of_tagLine? (by simp [next.named])
      obtain ⟨more, taken⟩ := sections_fenced next.line (next.below ++ others.flatMap Entry.lines)
      simp only [closed, decide_false, Bool.not_false, List.flatMap_cons, Entry.lines,
        List.cons_append, taken] at kept
      simp only [List.flatMap_cons, Entry.lines, List.cons_append, kept, List.flatten_append,
        List.flatten_cons, inkCount_append]
      omega
  · right
    refine ⟨fun recognized => untagged recognized.1, ?_⟩
    simp only [not_forall] at untagged
    obtain ⟨before, line, after, split, tagged, odd⟩ := untagged
    -- A tag starts at `line` at the latest.
    have ink := inkCount_of_tagLine? tagged
    have outside := within.fenced_eq split
    rw [decide_eq_false odd] at outside
    have whole : entry.below ++ others.flatMap Entry.lines =
        code.opening.lines ++ (before ++ line ::
          (after ++ (code.close :: code.behind ++ others.flatMap Entry.lines))) := by
      rw [within.below, split]
      simp
    obtain ⟨rest, cut⟩ := sections_cut _ tagged outside
      (after ++ (code.close :: code.behind ++ others.flatMap Entry.lines))
    have count := congrArg (fun rows => inkCount rows.flatten) cut
    rw [whole, sections_of_untagged false within.untagged_opening, Bool.false_xor, within.below,
      split]
    simp only [List.flatten_append, List.flatten_cons, inkCount_append] at count ⊢
    omega

theorem Entry.text_eq (entry : Entry) (lines : List (List Char)) :
    (tagOf entry.name (entry.first :: lines)).text.toList =
      trim (joinWith '\n' (entry.parts.2 :: lines)) := by
  simp [tagOf, Entry.parts]

theorem Entry.inkCount_eq (entry : Entry) (lines : List (List Char)) :
    inkCount (tagOf entry.name (entry.first :: lines)).text.toList =
      inkCount entry.parts.2 + inkCount lines.flatten := by
  rw [entry.text_eq, inkCount_trim, inkCount_joinWith (by decide), List.flatten_cons,
    inkCount_append]

theorem Code.Within.block_kept (within : code.Within entry) :
    trim (joinWith '\n' (code.block entry)) <:+: entry.tag.text.toList := by
  rw [Entry.tag, entry.text_eq, within.below, Code.block]
  cases code.opening with
  | beside =>
    have whole := joinWith_kept '\n' [] (entry.parts.2 :: (code.inside ++ [code.close])) code.behind
    simpa [Opening.lines] using whole
  | below between fence =>
    have whole := joinWith_kept '\n' (entry.parts.2 :: between)
      (fence :: (code.inside ++ [code.close])) code.behind
    simpa [Opening.lines] using whole

theorem tags_read {comment : String} {lead rest : List (List Char)} (lead_plain : Plain lead)
    (content : contentLines comment.toList = lead ++ (entry.line :: rest)) :
    (read comment).tags = tagOf entry.name (entry.first :: (sections false rest).1) ::
      (sections false rest).2.map fun (name, lines) => tagOf name lines := by
  simp only [read, content, lead_plain.sections_append, sections_tag entry.named entry.unfenced,
    List.map_cons]

/-- A tag with a block of code and the tags behind it are read from their own lines exactly if the
block is recognized: no fence beside the name of the tag, unless tildes make up for it. The lines of
the tag have the whole block in them. -/
theorem tags_read_iff {comment : String} {lead : List (List Char)} {others : List Entry}
    (content : contentLines comment.toList = lead ++ (entry :: others).flatMap Entry.lines)
    (lead_plain : Plain lead) (within : code.Within entry)
    (plain : ∀ other ∈ others, Plain other.below) (followed : others ≠ []) :
    ((read comment).tags = (entry :: others).map Entry.tag ↔ code.Recognized) ∧
      trim (joinWith '\n' (code.block entry)) <:+: entry.tag.text.toList := by
  refine ⟨?_, within.block_kept⟩
  rw [List.flatMap_cons, Entry.lines, List.cons_append] at content
  rw [tags_read lead_plain content]
  rcases within.sections_cases plain followed with ⟨recognized, cut⟩ | ⟨unrecognized, other⟩
  · rw [cut]
    simp only [List.map_map, recognized, iff_true]
    rfl
  · -- The text of a tag is trimmed, so other lines need not give another text. But the count of
    -- what is not blank in them is kept.
    simp only [unrecognized, iff_false]
    intro same
    apply other
    have text := congrArg (fun tag => inkCount tag.text.toList) (List.cons.inj same).1
    simp only [Entry.tag, entry.inkCount_eq] at text
    omega

/-- Two lines of tildes between back quotes make up for each other. -/
theorem tags_read_paired :
    let comment := "/**\n * @example\n * ```ts\n * @dec()\n * ~~~\n * ~~~\n * ```\n * @returns x\n */"
    let entry : Entry := {
      line := "@example".toList
      name := "example".toList
      first := []
      below := ["```ts", "@dec()", "~~~", "~~~", "```"].map String.toList
      named := by decide }
    let other : Entry := {
      line := "@returns x".toList
      name := "returns".toList
      first := " x".toList
      below := [[]]
      named := by decide }
    (read comment).tags = [entry, other].map Entry.tag := by
  intro comment entry other
  let code : Code := {
    opening := .below [] "```ts".toList
    inside := ["@dec()", "~~~", "~~~"].map String.toList
    close := "```".toList
    behind := [] }
  have within : code.Within entry :=
    { below := rfl
      opened := ⟨by simp [Bare], by decide⟩
      inside := by decide
      closed := by decide
      behind := by simp [Bare, code] }
  have plain : Plain other.below := ⟨by decide, by decide⟩
  have recognized : code.Recognized := by
    refine ⟨?_, by decide⟩
    intro before line after split tagged
    cases before with
    | nil => rfl
    | cons first before =>
      have quiet : ∀ row ∈ code.inside.tail, tagLine? row = none := by decide
      exact absurd (quiet line (by simp [split])) tagged
  have content : contentLines comment.toList = [[]] ++ [entry, other].flatMap Entry.lines := by
    decide +kernel
  exact (tags_read_iff content ⟨by decide, by decide⟩ within (by simpa using plain)
    (by simp)).1.mpr recognized

/-- A fence beside the name of a tag is missed: code is read as a tag, and the next tag as code. -/
theorem tags_read_beside :
    let comment := "/**\n * @example ```ts\n * @dec()\n * ```\n * @returns x\n */"
    let entry : Entry := {
      line := "@example ```ts".toList
      name := "example".toList
      first := " ```ts".toList
      below := ["@dec()", "```"].map String.toList
      named := by decide }
    let other : Entry := {
      line := "@returns x".toList
      name := "returns".toList
      first := " x".toList
      below := [[]]
      named := by decide }
    contentLines comment.toList = [[]] ++ [entry, other].flatMap Entry.lines ∧
      Code.Within ⟨.beside, ["@dec()".toList], "```".toList, []⟩ entry ∧
      [entry, other].map Entry.tag =
        [⟨"example", none, "```ts\n@dec()\n```"⟩, ⟨"returns", none, "x"⟩] ∧
      (read comment).tags =
        [⟨"example", none, "```ts"⟩, ⟨"dec", none, "()\n```\n@returns x"⟩] := by
  refine ⟨by decide +kernel, ?_, by decide +kernel, by decide +kernel⟩
  exact ⟨rfl, by decide, by decide, by decide, by simp [Bare]⟩

end Reading

end ApiSections.Comment
