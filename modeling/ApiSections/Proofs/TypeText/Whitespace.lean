import ApiSections.Proofs.Text.Pieces
import ApiSections.Proofs.TypeText.Quoting
import ApiSections.Syntax.Source
import ApiSections.TypeText.Print

/-!
A printed type does not show how the type was laid out. Two trees with the same leaves of which the same
neighbours touch are printed alike, since of two pieces that are kept the later one stands behind a gap
if anything was dropped between them. What is printed is one line if every leaf is.
-/

namespace ApiSections.TypeText

open Syntax (Node Kind)

section Trees

/-- Whether a node is a leaf; a literal counts as one. -/
def isLeaf (kind : Kind) (children : List Node) : Bool := children.isEmpty || isAtomic kind

mutual

/-- The leaves of a tree, in order. -/
def leaves : Node → List Node
  | .mk kind field span text children =>
    if isLeaf kind children then [.mk kind field span text children] else leavesIn children

def leavesIn : List Node → List Node
  | [] => []
  | node :: rest => leaves node ++ leavesIn rest

end

mutual

/-- Whether two trees have one shape, the same kinds and the same texts at their leaves. -/
def sameTree : Node → Node → Bool
  | .mk kind _ _ text children, .mk kind' _ _ text' children' =>
    kind == kind' && (!isLeaf kind children || text == text') && sameTrees children children'

def sameTrees : List Node → List Node → Bool
  | [], [] => true
  | node :: rest, node' :: rest' => sameTree node node' && sameTrees rest rest'
  | _, _ => false

end

mutual

/-- Whether each node begins with its first leaf and ends with its last one. -/
def spansLeaves : Node → Bool
  | .mk kind _ span _ children =>
    isLeaf kind children ||
      (leavesIn children).head?.map (·.start) == some span.start &&
        (leavesIn children).getLast?.map (·.stop) == some span.stop && spanLeaves children

def spanLeaves : List Node → Bool
  | [] => true
  | node :: rest => spansLeaves node && spanLeaves rest

end

/-- A tree in a source: its leaves stand one behind the other, none of them is empty, and a node takes
up the room of its leaves. -/
structure InSource (node : Node) : Prop where
  spans : spansLeaves node = true
  ordered : (leaves node).Pairwise fun before after => before.stop ≤ after.start
  filled : ∀ leaf ∈ leaves node, leaf.start < leaf.stop ∧ leaf.text ≠ ""

instance (node : Node) : Decidable (InSource node) :=
  decidable_of_iff (spansLeaves node = true ∧
    ((leaves node).Pairwise fun before after => before.stop ≤ after.start) ∧
      ∀ leaf ∈ leaves node, leaf.start < leaf.stop ∧ leaf.text ≠ "")
    ⟨fun ⟨spans, ordered, filled⟩ => ⟨spans, ordered, filled⟩,
      fun ⟨spans, ordered, filled⟩ => ⟨spans, ordered, filled⟩⟩

/-- Which neighbours among some leaves touch. -/
def touching : List Node → List Bool
  | before :: after :: rest => (before.stop == after.start) :: touching (after :: rest)
  | _ => []

end Trees

section Pieces

variable {kind : Kind} {field : Option Syntax.Field} {span : Syntax.Span} {text : String}
  {children : List Node} {inLiteral : Bool}

/-- What is printed for a leaf, if anything. -/
def leafText? (inLiteral : Bool) (kind : Kind) (text : String) : Option String :=
  if kind == .comment then none
  else if isObjectType kind then some (objectText [])
  else if kind == .stringLiteral && inLiteral then some (String.ofList (stringLiteral text.toList))
  else if text.isEmpty then none
  else some text

theorem isAtomic_of_isObjectType (object : isObjectType kind = true) : isAtomic kind = false := by
  rw [isObjectType, Bool.or_eq_true, beq_iff_eq, beq_iff_eq] at object
  rcases object with rfl | rfl
  · rfl
  · rfl

theorem tokens_leaf (leaf : isLeaf kind children = true) :
    tokens inLiteral (.mk kind field span text children) =
      (leafText? inLiteral kind text).toList.map (⟨span.start, span.stop, ·⟩) := by
  rw [tokens, leafText?]
  split
  · rfl
  · split
    · rename_i object
      have childless : children = [] := by
        rw [isLeaf, Bool.or_eq_true] at leaf
        rcases leaf with empty | atomic
        · exact List.isEmpty_iff.mp empty
        · rw [isAtomic_of_isObjectType object] at atomic
          cases atomic
      rw [childless]
      rfl
    · split
      · rfl
      · rw [isLeaf] at leaf
        rw [leaf, if_pos rfl]
        split
        · rfl
        · rfl

theorem tokens_inner (inner : ¬ isLeaf kind children = true) :
    tokens inLiteral (.mk kind field span text children) =
      if kind == .comment then []
      else if isObjectType kind then [⟨span.start, span.stop, objectText (memberTexts children)⟩]
      else tokensOfAll (kind == .literalType) children := by
  have other : (kind == .stringLiteral) = false := by
    rw [beq_eq_false_iff_ne]
    rintro rfl
    exact inner (Bool.or_true _)
  rw [isLeaf] at inner
  rw [tokens, other, Bool.false_and, if_neg Bool.false_ne_true, if_neg inner]

end Pieces

section Joining

/-- The space in front of a piece that is kept. -/
def spaceBetween (previous : Option Token) (token : Token) : String :=
  match previous with
  | some before => if isSpaced before token then " " else ""
  | none => ""

theorem joinAfter_cons (previous : Option Token) (token : Token) (rest : List Token) :
    joinAfter previous (token :: rest) =
      if isTrailingComma token rest.head? || isLeadingJoint previous token then
        joinAfter previous rest
      else spaceBetween previous token ++ token.text ++ joinAfter (some token) rest := by
  conv_lhs => unfold joinAfter
  rfl

end Joining

section Gaps

/-- Two pairs of things between which there is a gap in both layouts or in neither. -/
def SameGap {α : Type} (start stop : α → Nat) (before after : α × α) : Prop :=
  stop before.1 < start after.1 ↔ stop before.2 < start after.2

/-- The pieces of two layouts, in pairs. -/
structure Paired (pairs : List (Token × Token)) : Prop where
  texts : ∀ pair ∈ pairs, pair.1.text = pair.2.text
  gaps : pairs.Pairwise (SameGap Token.start Token.stop)

theorem Paired.tail {pair : Token × Token} {pairs : List (Token × Token)}
    (paired : Paired (pair :: pairs)) : Paired pairs where
  texts := fun other member => paired.texts other (List.mem_cons_of_mem _ member)
  gaps := (List.pairwise_cons.mp paired.gaps).2

theorem isTrailingComma_congr {token token' : Token} {following following' : Option Token}
    (same : token.text = token'.text) (next : following.map (·.text) = following'.map (·.text)) :
    isTrailingComma token following = isTrailingComma token' following' := by
  cases following <;> cases following' <;> simp_all [isTrailingComma]

theorem isLeadingJoint_congr {token token' : Token} {previous previous' : Option Token}
    (same : token.text = token'.text) (last : previous.map (·.text) = previous'.map (·.text)) :
    isLeadingJoint previous token = isLeadingJoint previous' token' := by
  cases previous <;> cases previous' <;> simp_all [isLeadingJoint]

theorem isSpaced_congr {before before' token token' : Token} (last : before.text = before'.text)
    (same : token.text = token'.text)
    (gap : SameGap Token.start Token.stop (before, before') (token, token')) :
    isSpaced before token = isSpaced before' token' := by
  have gap : decide (before.stop < token.start) = decide (before'.stop < token'.start) :=
    decide_eq_decide.mpr gap
  rw [isSpaced, isSpaced, last, same, gap]

theorem spaceBetween_congr {previous : Option (Token × Token)} {pair : Token × Token}
    (same : pair.1.text = pair.2.text) (last : ∀ before ∈ previous, before.1.text = before.2.text ∧
      SameGap Token.start Token.stop before pair) :
    spaceBetween (previous.map (·.1)) pair.1 = spaceBetween (previous.map (·.2)) pair.2 := by
  cases previous with
  | none => rfl
  | some before =>
    obtain ⟨text, gap⟩ := last before rfl
    simp only [Option.map_some, spaceBetween, isSpaced_congr text same gap]

/-- What is kept of two layouts, and where a space stands in it, is the same. -/
theorem joinAfter_paired {pairs : List (Token × Token)} (paired : Paired pairs) :
    ∀ {previous : Option (Token × Token)}, (∀ before ∈ previous, before.1.text = before.2.text ∧
      ∀ later ∈ pairs, SameGap Token.start Token.stop before later) →
    joinAfter (previous.map (·.1)) (pairs.map (·.1)) =
      joinAfter (previous.map (·.2)) (pairs.map (·.2)) := by
  induction pairs with
  | nil => exact fun _ => rfl
  | cons pair pairs ih =>
    intro previous last
    have text := paired.texts pair List.mem_cons_self
    have next : (pairs.map (·.1)).head?.map (·.text) = (pairs.map (·.2)).head?.map (·.text) := by
      cases pairs with
      | nil => rfl
      | cons after pairs => simp [paired.texts after (by simp)]
    have before : (previous.map (·.1)).map (·.text) = (previous.map (·.2)).map (·.text) := by
      cases previous with
      | none => rfl
      | some before => simp [(last before rfl).1]
    have space := spaceBetween_congr text fun before member =>
      ⟨(last before member).1, (last before member).2 pair List.mem_cons_self⟩
    have skipped := ih paired.tail fun before member =>
      ⟨(last before member).1, fun later among => (last before member).2 later
        (List.mem_cons_of_mem _ among)⟩
    have kept : joinAfter (some pair.1) (pairs.map (·.1)) = joinAfter (some pair.2) (pairs.map (·.2)) := by
      apply @ih paired.tail (some pair)
      rintro _ ⟨⟩
      exact ⟨text, (List.pairwise_cons.mp paired.gaps).1⟩
    rw [List.map_cons, List.map_cons, joinAfter_cons, joinAfter_cons,
      isTrailingComma_congr text next, isLeadingJoint_congr text before, space, text, skipped, kept]

/-- Two leaves that are no neighbours have a gap between them in every layout. -/
theorem sameGap_leaves {first second : List Node} (touch : touching first = touching second)
    (ordered : first.Pairwise fun before after => before.stop ≤ after.start)
    (ordered' : second.Pairwise fun before after => before.stop ≤ after.start)
    (filled : ∀ leaf ∈ first, leaf.start < leaf.stop) (filled' : ∀ leaf ∈ second, leaf.start < leaf.stop) :
    (first.zip second).Pairwise (SameGap Node.start Node.stop) := by
  induction first generalizing second with
  | nil => exact .nil
  | cons before first ih =>
    cases second with
    | nil => exact .nil
    | cons before' second =>
      obtain ⟨behind, ordered⟩ := List.pairwise_cons.mp ordered
      obtain ⟨behind', ordered'⟩ := List.pairwise_cons.mp ordered'
      have filled := fun leaf member => filled leaf (List.mem_cons_of_mem _ member)
      have filled' := fun leaf member => filled' leaf (List.mem_cons_of_mem _ member)
      rw [List.zip_cons_cons, List.pairwise_cons]
      cases first with
      | nil => exact ⟨by simp, .nil⟩
      | cons next first =>
        cases second with
        | nil => exact ⟨by simp, .nil⟩
        | cons next' second =>
          injection touch with touch rest
          refine ⟨?_, ih rest ordered ordered' filled filled'⟩
          rintro ⟨after, after'⟩ member
          have here := behind next List.mem_cons_self
          have here' := behind' next' List.mem_cons_self
          rcases List.mem_cons.mp member with same | member
          · injection same with same same'
            subst same same'
            have touch : before.stop = after.start ↔ before'.stop = after'.start := by
              simpa using touch
            simp only [SameGap]
            omega
          · have later := (List.pairwise_cons.mp ordered).1 after (List.of_mem_zip member).1
            have later' := (List.pairwise_cons.mp ordered').1 after' (List.of_mem_zip member).2
            have width := filled next List.mem_cons_self
            have width' := filled' next' List.mem_cons_self
            simp only [SameGap]
            omega

/-- Pairs of pieces that begin and end with leaves of such pairs. -/
structure Covers (places : List (Node × Node)) (pairs : List (Token × Token)) : Prop where
  paired : Paired pairs
  starts : ∀ pair ∈ pairs, ∃ place ∈ places,
    pair.1.start = place.1.start ∧ pair.2.start = place.2.start
  stops : ∀ pair ∈ pairs, ∃ place ∈ places, pair.1.stop = place.1.stop ∧ pair.2.stop = place.2.stop

namespace Covers

variable {places others : List (Node × Node)} {pairs more : List (Token × Token)}

theorem nil (places : List (Node × Node)) : Covers places [] where
  paired := ⟨by simp, .nil⟩
  starts := by simp
  stops := by simp

theorem single {pair : Token × Token} {opening closing : Node × Node} (text : pair.1.text = pair.2.text)
    (opens : opening ∈ places)
    (starts : pair.1.start = opening.1.start ∧ pair.2.start = opening.2.start)
    (closes : closing ∈ places) (stops : pair.1.stop = closing.1.stop ∧ pair.2.stop = closing.2.stop) :
    Covers places [pair] where
  paired := ⟨by simpa using text, List.pairwise_singleton _ _⟩
  starts := by simpa using ⟨_, _, opens, starts⟩
  stops := by simpa using ⟨_, _, closes, stops⟩

theorem append (gaps : (places ++ others).Pairwise (SameGap Node.start Node.stop))
    (first : Covers places pairs) (second : Covers others more) :
    Covers (places ++ others) (pairs ++ more) where
  paired := by
    refine ⟨List.forall_mem_append.mpr ⟨first.paired.texts, second.paired.texts⟩, ?_⟩
    refine List.pairwise_append.mpr ⟨first.paired.gaps, second.paired.gaps, ?_⟩
    intro before here after there
    obtain ⟨last, among, stop, stop'⟩ := first.stops before here
    obtain ⟨next, among', start, start'⟩ := second.starts after there
    have gap := (List.pairwise_append.mp gaps).2.2 last among next among'
    simp only [SameGap] at gap ⊢
    rw [stop, stop', start, start', gap]
  starts := by
    intro pair member
    rcases List.mem_append.mp member with member | member
    · obtain ⟨place, among, same⟩ := first.starts pair member
      exact ⟨place, List.mem_append_left _ among, same⟩
    · obtain ⟨place, among, same⟩ := second.starts pair member
      exact ⟨place, List.mem_append_right _ among, same⟩
  stops := by
    intro pair member
    rcases List.mem_append.mp member with member | member
    · obtain ⟨place, among, same⟩ := first.stops pair member
      exact ⟨place, List.mem_append_left _ among, same⟩
    · obtain ⟨place, among, same⟩ := second.stops pair member
      exact ⟨place, List.mem_append_right _ among, same⟩

end Covers

/-- Pieces of two layouts that correspond to each other. -/
def Corresponds (places : List (Node × Node)) (first second : List Token) : Prop :=
  ∃ pairs, Covers places pairs ∧ first = pairs.map (·.1) ∧ second = pairs.map (·.2)

theorem Corresponds.join_eq {places : List (Node × Node)} {first second : List Token}
    (corresponds : Corresponds places first second) : join first = join second := by
  obtain ⟨pairs, covers, rfl, rfl⟩ := corresponds
  exact @joinAfter_paired pairs covers.paired none (by simp)

end Gaps

section Layouts

theorem isLeaf_congr {children children' : List Node} (same : sameTrees children children' = true)
    (kind : Kind) : isLeaf kind children = isLeaf kind children' := by
  cases children <;> cases children' <;> first | rfl | cases same

theorem kind_eq {first second : Node} (same : sameTree first second = true) :
    first.kind = second.kind := by
  obtain ⟨kind, _, _, _, _⟩ := first
  obtain ⟨kind', _, _, _, _⟩ := second
  simp only [sameTree, Bool.and_eq_true, beq_iff_eq] at same
  exact same.1.1

mutual

theorem length_leaves : ∀ {first second : Node}, sameTree first second = true →
    (leaves first).length = (leaves second).length
  | .mk kind _ _ _ children, .mk kind' _ _ _ children', same => by
    simp only [sameTree, Bool.and_eq_true, beq_iff_eq] at same
    obtain ⟨⟨rfl, _⟩, same⟩ := same
    rw [leaves, leaves, isLeaf_congr same]
    split
    · rfl
    · exact length_leavesIn same

theorem length_leavesIn : ∀ {first second : List Node}, sameTrees first second = true →
    (leavesIn first).length = (leavesIn second).length
  | [], [], _ => rfl
  | node :: rest, node' :: rest', same => by
    rw [sameTrees, Bool.and_eq_true] at same
    rw [leavesIn, leavesIn, List.length_append, List.length_append, length_leaves same.1,
      length_leavesIn same.2]
  | [], _ :: _, same => by cases same
  | _ :: _, [], same => by cases same

end

/-- The piece of a node as a whole begins with its first leaf and ends with its last one. -/
theorem covers_whole {span span' : Syntax.Span} {inside inside' : List Node} {text text' : String}
    (same : text = text') (length : inside.length = inside'.length)
    (starts : inside.head?.map (·.start) = some span.start)
    (starts' : inside'.head?.map (·.start) = some span'.start)
    (stops : inside.getLast?.map (·.stop) = some span.stop)
    (stops' : inside'.getLast?.map (·.stop) = some span'.stop) :
    Covers (inside.zip inside') [(⟨span.start, span.stop, text⟩, ⟨span'.start, span'.stop, text'⟩)] := by
  obtain ⟨opening, first, start⟩ := Option.map_eq_some_iff.mp starts
  obtain ⟨opening', first', start'⟩ := Option.map_eq_some_iff.mp starts'
  obtain ⟨closing, last, stop⟩ := Option.map_eq_some_iff.mp stops
  obtain ⟨closing', last', stop'⟩ := Option.map_eq_some_iff.mp stops'
  have opens : (opening, opening') ∈ inside.zip inside' := by
    obtain ⟨rest, rfl⟩ := List.head?_eq_some_iff.mp first
    obtain ⟨rest', rfl⟩ := List.head?_eq_some_iff.mp first'
    exact List.mem_cons_self
  have closes : (closing, closing') ∈ inside.zip inside' := by
    obtain ⟨front, rfl⟩ := List.getLast?_eq_some_iff.mp last
    obtain ⟨front', rfl⟩ := List.getLast?_eq_some_iff.mp last'
    rw [List.zip_append (by simpa using length)]
    exact List.mem_append_right _ List.mem_cons_self
  exact .single same opens ⟨start.symm, start'.symm⟩ closes ⟨stop.symm, stop'.symm⟩

mutual

theorem corresponds_tokens (inLiteral : Bool) : ∀ {first second : Node},
    sameTree first second = true → spansLeaves first = true → spansLeaves second = true →
    ((leaves first).zip (leaves second)).Pairwise (SameGap Node.start Node.stop) →
    Corresponds ((leaves first).zip (leaves second)) (tokens inLiteral first) (tokens inLiteral second)
  | .mk kind field span text children, .mk kind' field' span' text' children', same, spans, spans',
      gaps => by
    simp only [sameTree, Bool.and_eq_true, beq_iff_eq] at same
    obtain ⟨⟨rfl, texts⟩, same⟩ := same
    have alike := isLeaf_congr same kind
    by_cases leaf : isLeaf kind children = true
    · have text_eq : text = text' := by simpa [leaf] using texts
      subst text_eq
      rw [leaves, leaves, if_pos leaf, if_pos (alike ▸ leaf), tokens_leaf leaf,
        tokens_leaf (alike ▸ leaf)]
      cases leafText? inLiteral kind text with
      | none => exact ⟨[], .nil _, rfl, rfl⟩
      | some shown => exact ⟨[_], covers_whole rfl rfl rfl rfl rfl rfl, rfl, rfl⟩
    · have inner := alike ▸ leaf
      rw [leaves, leaves, if_neg leaf, if_neg inner] at gaps ⊢
      rw [spansLeaves, Bool.eq_false_iff.mpr leaf, Bool.false_or] at spans
      rw [spansLeaves, Bool.eq_false_iff.mpr inner, Bool.false_or] at spans'
      simp only [Bool.and_eq_true, beq_iff_eq] at spans spans'
      obtain ⟨⟨starts, stops⟩, spans⟩ := spans
      obtain ⟨⟨starts', stops'⟩, spans'⟩ := spans'
      rw [tokens_inner leaf, tokens_inner inner]
      split
      · exact ⟨[], .nil _, rfl, rfl⟩
      · split
        · have members := congrArg objectText (memberTexts_congr same spans spans' gaps)
          exact ⟨[_], covers_whole members (length_leavesIn same) starts starts' stops stops', rfl, rfl⟩
        · exact corresponds_tokensOfAll _ same spans spans' gaps

theorem corresponds_tokensOfAll (inLiteral : Bool) : ∀ {first second : List Node},
    sameTrees first second = true → spanLeaves first = true → spanLeaves second = true →
    ((leavesIn first).zip (leavesIn second)).Pairwise (SameGap Node.start Node.stop) →
    Corresponds ((leavesIn first).zip (leavesIn second)) (tokensOfAll inLiteral first)
      (tokensOfAll inLiteral second)
  | [], [], _, _, _, _ => ⟨[], .nil _, rfl, rfl⟩
  | node :: rest, node' :: rest', same, spans, spans', gaps => by
    rw [sameTrees, Bool.and_eq_true] at same
    rw [spanLeaves, Bool.and_eq_true] at spans spans'
    rw [leavesIn, leavesIn, List.zip_append (length_leaves same.1)] at gaps ⊢
    obtain ⟨here, there, _⟩ := List.pairwise_append.mp gaps
    obtain ⟨pairs, covers, first, second⟩ :=
      corresponds_tokens inLiteral same.1 spans.1 spans'.1 here
    obtain ⟨more, covers', first', second'⟩ :=
      corresponds_tokensOfAll inLiteral same.2 spans.2 spans'.2 there
    refine ⟨pairs ++ more, covers.append gaps covers', ?_, ?_⟩
    · rw [tokensOfAll, first, first', List.map_append]
    · rw [tokensOfAll, second, second', List.map_append]
  | [], _ :: _, same, _, _, _ => by cases same
  | _ :: _, [], same, _, _, _ => by cases same

theorem memberTexts_congr : ∀ {first second : List Node}, sameTrees first second = true →
    spanLeaves first = true → spanLeaves second = true →
    ((leavesIn first).zip (leavesIn second)).Pairwise (SameGap Node.start Node.stop) →
    memberTexts first = memberTexts second
  | [], [], _, _, _, _ => rfl
  | node :: rest, node' :: rest', same, spans, spans', gaps => by
    rw [sameTrees, Bool.and_eq_true] at same
    rw [spanLeaves, Bool.and_eq_true] at spans spans'
    rw [leavesIn, leavesIn, List.zip_append (length_leaves same.1)] at gaps
    obtain ⟨here, there, _⟩ := List.pairwise_append.mp gaps
    have printed := (corresponds_tokens false same.1 spans.1 spans'.1 here).join_eq
    have later := memberTexts_congr same.2 spans.2 spans'.2 there
    have kind := kind_eq same.1
    have named : node.isNamed = node'.isNamed := by rw [Node.isNamed, Node.isNamed, kind]
    have comment : node.isComment = node'.isComment := by rw [Node.isComment, Node.isComment, kind]
    rw [memberTexts, memberTexts, printed, later, named, comment]
  | [], _ :: _, same, _, _, _ => by cases same
  | _ :: _, [], same, _, _, _ => by cases same

end

end Layouts

section Lines

/-- A text on one line without blanks around it. -/
structure Tidy (text : String) : Prop where
  line : '\n' ∉ text.toList
  opens : ∀ c ∈ text.toList.head?, Text.isBlank c = false
  closes : ∀ c ∈ text.toList.getLast?, Text.isBlank c = false

theorem tidy_iff {text : String} : Tidy text ↔ '\n' ∉ text.toList ∧
    text.toList.head?.all (!Text.isBlank ·) = true ∧
    text.toList.getLast?.all (!Text.isBlank ·) = true := by
  simp only [Option.all_eq_true, Bool.not_eq_true']
  exact ⟨fun ⟨line, opens, closes⟩ => ⟨line, opens, closes⟩,
    fun ⟨line, opens, closes⟩ => ⟨line, opens, closes⟩⟩

instance (text : String) : Decidable (Tidy text) := decidable_of_iff _ tidy_iff.symm

/-- A text between two that are not blank at their outer ends. -/
theorem Tidy.enclosed {opening closing : Char} {inner : List Char} (opens : Text.isBlank opening = false)
    (closes : Text.isBlank closing = false) (line : '\n' ∉ inner) :
    Tidy (String.ofList (opening :: (inner ++ [closing]))) := by
  have feed : Text.isBlank '\n' = true := by decide
  refine ⟨?_, ?_, ?_⟩
  · rw [String.toList_ofList]
    simp only [List.mem_cons, List.mem_append, List.not_mem_nil, or_false, not_or]
    refine ⟨?_, line, ?_⟩
    · rintro rfl
      rw [feed] at opens
      cases opens
    · rintro rfl
      rw [feed] at closes
      cases closes
  · simpa using opens
  · rw [String.toList_ofList, ← List.cons_append, List.getLast?_concat]
    simpa using closes

theorem tidy_stringLiteral {text : String} (tidy : Tidy text) (some_text : text ≠ "") :
    Tidy (String.ofList (stringLiteral text.toList)) ∧
      String.ofList (stringLiteral text.toList) ≠ "" := by
  have raw : Tidy (String.ofList text.toList) ∧ String.ofList text.toList ≠ "" := by
    rw [String.ofList_toList]
    exact ⟨tidy, some_text⟩
  have requoted (body : List Char) (line : '\n' ∉ body) :
      Tidy (String.ofList ('"' :: escapeDoubleQuotes body ++ ['"'])) ∧
        String.ofList ('"' :: escapeDoubleQuotes body ++ ['"']) ≠ "" := by
    refine ⟨?_, by simp⟩
    exact .enclosed (by decide) (by decide) (not_mem_escapeDoubleQuotes line (by decide))
  unfold stringLiteral
  split
  · assumption
  · assumption
  · rename_i quote rest short written
    have line : '\n' ∉ rest.dropLast := by
      intro member
      apply tidy.line
      rw [written]
      exact List.mem_cons_of_mem _ ((List.dropLast_sublist rest).subset member)
    dsimp only
    split
    · exact raw
    · apply requoted
      split
      · exact not_mem_bareSingleQuotes line
      · exact line

/-- What is joined from tidy pieces is on one line and does not end with a blank. It starts with one only
behind another piece. -/
theorem tidy_joinAfter {pieces : List Token}
    (each : ∀ token ∈ pieces, Tidy token.text ∧ token.text ≠ "") (previous : Option Token) :
    '\n' ∉ (joinAfter previous pieces).toList ∧
      (previous = none → ∀ c ∈ (joinAfter previous pieces).toList.head?, Text.isBlank c = false) ∧
      ∀ c ∈ (joinAfter previous pieces).toList.getLast?, Text.isBlank c = false := by
  induction pieces generalizing previous with
  | nil => simp [joinAfter]
  | cons token pieces ih =>
    have later := ih fun other member => each other (List.mem_cons_of_mem _ member)
    obtain ⟨tidy, some_text⟩ := each token List.mem_cons_self
    rw [joinAfter_cons]
    split
    · exact later previous
    · obtain ⟨line, _, closes⟩ := later (some token)
      have space : (spaceBetween previous token).toList = [' '] ∨
          (spaceBetween previous token).toList = [] := by
        unfold spaceBetween
        split
        · split
          · exact .inl rfl
          · exact .inr rfl
        · exact .inr rfl
      have ink : token.text.toList ≠ [] := by simpa using some_text
      simp only [String.toList_append]
      refine ⟨?_, ?_, ?_⟩
      · have free : '\n' ∉ (spaceBetween previous token).toList := by
          rcases space with same | same
          · simp [same]
          · simp [same]
        simp only [List.mem_append, not_or]
        exact ⟨⟨free, tidy.line⟩, line⟩
      · rintro rfl
        have start : (spaceBetween none token).toList = [] := rfl
        rw [start, List.nil_append, List.head?_append_of_ne_nil _ ink]
        exact tidy.opens
      · rw [List.getLast?_append]
        cases last : (joinAfter (some token) pieces).toList.getLast? with
        | some c => simpa [last] using closes
        | none =>
          rw [Option.none_or, List.getLast?_append_of_ne_nil _ ink]
          exact tidy.closes

theorem tidy_join {pieces : List Token} (each : ∀ token ∈ pieces, Tidy token.text ∧ token.text ≠ "") :
    Tidy (join pieces) := by
  obtain ⟨line, opens, closes⟩ := tidy_joinAfter each none
  exact ⟨line, opens rfl, closes⟩

theorem tidy_withoutEnding {text : String} (tidy : Tidy text) : Tidy (withoutEnding text) := by
  have front : (withoutEnding text).toList <+: text.toList := by
    rw [withoutEnding, String.toList_ofList, Text.trimRight, Text.dropTail_eq_rdropWhile,
      Text.dropTail_eq_rdropWhile]
    exact (List.rdropWhile_prefix _ _).trans (List.rdropWhile_prefix _ _)
  refine ⟨fun member => tidy.line (front.subset member), ?_, ?_⟩
  · intro c first
    obtain ⟨rest, same⟩ := List.head?_eq_some_iff.mp first
    obtain ⟨more, whole⟩ := front
    apply tidy.opens
    rw [← whole, same]
    rfl
  · intro c last
    rw [withoutEnding, String.toList_ofList, Text.trimRight, Text.dropTail_eq_rdropWhile] at last
    have left : List.rdropWhile Text.isBlank (Text.dropTail isEnding text.toList) ≠ [] := by
      intro none
      rw [none] at last
      cases last
    have ink := List.rdropWhile_last_not _ _ left
    rw [List.getLast?_eq_some_getLast left, Option.mem_some_iff] at last
    rw [← last]
    exact Bool.eq_false_iff.mpr ink

theorem not_mem_intercalate {c : Char} {separator : List Char} {texts : List (List Char)}
    (free : c ∉ separator) (each : ∀ text ∈ texts, c ∉ text) : c ∉ separator.intercalate texts := by
  induction texts with
  | nil => simp
  | cons text texts ih =>
    have later := ih fun other member => each other (List.mem_cons_of_mem _ member)
    have here := each text List.mem_cons_self
    cases texts with
    | nil => simpa using here
    | cons next texts =>
      rw [List.intercalate_cons_cons]
      simp only [List.mem_append, not_or]
      exact ⟨⟨here, free⟩, later⟩

theorem tidy_objectText {members : List String} (each : ∀ text ∈ members, Tidy text) :
    Tidy (objectText members) ∧ objectText members ≠ "" := by
  rw [objectText]
  split
  · decide
  · have whole : "\x7b " ++ String.intercalate "; " members ++ "; \x7d" = String.ofList ('\x7b' ::
        (' ' :: ("; ".toList.intercalate (members.map String.toList) ++ "; ".toList) ++ ['\x7d'])) := by
      apply String.toList_inj.mp
      simp [String.toList_intercalate]
    have line : '\n' ∉ ' ' :: ("; ".toList.intercalate (members.map String.toList) ++ "; ".toList) := by
      have inner : '\n' ∉ "; ".toList.intercalate (members.map String.toList) := by
        apply not_mem_intercalate (by decide)
        intro text member
        obtain ⟨shown, among, rfl⟩ := List.mem_map.mp member
        exact (each shown among).line
      simpa using inner
    rw [whole]
    exact ⟨.enclosed (by decide) (by decide) line, by simp⟩

theorem tidy_leafText {inLiteral : Bool} {kind : Kind} {text shown : String} (tidy : Tidy text)
    (some_text : text ≠ "") (found : leafText? inLiteral kind text = some shown) :
    Tidy shown ∧ shown ≠ "" := by
  unfold leafText? at found
  split at found
  · cases found
  · split at found
    · cases found
      exact tidy_objectText (by simp)
    · split at found
      · cases found
        exact tidy_stringLiteral tidy some_text
      · split at found
        · cases found
        · cases found
          exact ⟨tidy, some_text⟩

mutual

theorem tidy_tokens (inLiteral : Bool) : ∀ {node : Node},
    (∀ leaf ∈ leaves node, Tidy leaf.text ∧ leaf.text ≠ "") →
    ∀ token ∈ tokens inLiteral node, Tidy token.text ∧ token.text ≠ ""
  | .mk kind field span text children, each, token, member => by
    by_cases leaf : isLeaf kind children = true
    · rw [leaves, if_pos leaf] at each
      obtain ⟨tidy, some_text⟩ := each _ List.mem_cons_self
      rw [tokens_leaf leaf] at member
      obtain ⟨shown, found, rfl⟩ := List.mem_map.mp member
      exact tidy_leafText tidy some_text (Option.mem_toList.mp found)
    · rw [leaves, if_neg leaf] at each
      rw [tokens_inner leaf] at member
      split at member
      · cases member
      · split at member
        · rw [List.mem_singleton.mp member]
          exact tidy_objectText (tidy_memberTexts each)
        · exact tidy_tokensOfAll _ each token member

theorem tidy_tokensOfAll (inLiteral : Bool) : ∀ {nodes : List Node},
    (∀ leaf ∈ leavesIn nodes, Tidy leaf.text ∧ leaf.text ≠ "") →
    ∀ token ∈ tokensOfAll inLiteral nodes, Tidy token.text ∧ token.text ≠ ""
  | [], _, _, member => nomatch member
  | node :: rest, each, token, member => by
    rw [leavesIn, List.forall_mem_append] at each
    rw [tokensOfAll] at member
    rcases List.mem_append.mp member with member | member
    · exact tidy_tokens inLiteral each.1 token member
    · exact tidy_tokensOfAll inLiteral each.2 token member

theorem tidy_memberTexts : ∀ {nodes : List Node},
    (∀ leaf ∈ leavesIn nodes, Tidy leaf.text ∧ leaf.text ≠ "") → ∀ text ∈ memberTexts nodes, Tidy text
  | [], _, _, member => nomatch member
  | node :: rest, each, text, member => by
    rw [leavesIn, List.forall_mem_append] at each
    rw [memberTexts] at member
    split at member
    · rcases List.mem_cons.mp member with rfl | member
      · exact tidy_withoutEnding (tidy_join (tidy_tokens false each.1))
      · exact tidy_memberTexts each.2 text member
    · exact tidy_memberTexts each.2 text member

end

end Lines

/-- Two trees with the same leaves, of which the same neighbours touch, are printed alike. If no leaf runs
over a line or has blanks around it, neither does what is printed. -/
theorem print_ignores_layout {first second : Node} (same : sameTree first second = true)
    (placed : InSource first) (placed' : InSource second)
    (touch : touching (leaves first) = touching (leaves second)) :
    print first = print second ∧
      ((∀ leaf ∈ leaves first, Tidy leaf.text) → Tidy (print first)) := by
  constructor
  · have gaps := sameGap_leaves touch placed.ordered placed'.ordered
      (fun leaf member => (placed.filled leaf member).1)
      (fun leaf member => (placed'.filled leaf member).1)
    exact (corresponds_tokens false same placed.spans placed'.spans gaps).join_eq
  · intro tidy
    apply tidy_join
    exact tidy_tokens false fun leaf member => ⟨tidy leaf member, (placed.filled leaf member).2⟩

/-- A type on one line and over several, with a comment, a bar in front and a comma behind. -/
theorem print_ignores_layout_multiline :
    let line := "| A<B , C> /* D */ | \x7b a: 'x', \x7d"
    let lines := "\n|\n A<B\n, C>\n\n/* D */\n|\t\x7b\n  a:\n'x',\n\x7d"
    ∃ first second, Syntax.parseType? .plain line = some first ∧
      Syntax.parseType? .plain lines = some second ∧ sameTree first second = true ∧
      InSource first ∧ InSource second ∧ touching (leaves first) = touching (leaves second) ∧
      (∀ leaf ∈ leaves first, Tidy leaf.text) ∧ print first = "A<B, C> | \x7b a: \"x\"; \x7d" ∧
      print second = print first ∧ Tidy (print first) := by
  intro line lines
  have facts : ((Syntax.parseType? .plain line).bind fun first =>
      (Syntax.parseType? .plain lines).map fun second =>
        (sameTree first second, decide (InSource first), decide (InSource second),
          decide (touching (leaves first) = touching (leaves second)),
          decide (∀ leaf ∈ leaves first, Tidy leaf.text), print first)) =
      some (true, true, true, true, true, "A<B, C> | \x7b a: \"x\"; \x7d") := by decide +kernel
  obtain ⟨first, parsed, facts⟩ := Option.bind_eq_some_iff.mp facts
  obtain ⟨second, parsed', facts⟩ := Option.map_eq_some_iff.mp facts
  simp only [Prod.mk.injEq, decide_eq_true_eq] at facts
  obtain ⟨same, placed, placed', touch, tidy, printed⟩ := facts
  obtain ⟨equal, line⟩ := print_ignores_layout same placed placed' touch
  exact ⟨first, second, parsed, parsed', same, placed, placed', touch, tidy, printed, equal.symm,
    line tidy⟩

end ApiSections.TypeText
