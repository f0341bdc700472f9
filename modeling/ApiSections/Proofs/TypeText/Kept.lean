import ApiSections.Proofs.TypeText.Whitespace
import Mathlib.Data.List.Sort

/-!
Joining the pieces of a type loses none but idle marks: commas at the end of a list, and bars or ampersands
in front of the first type. Whether a mark is idle depends on the piece behind it as it stands in the source
and on the piece before it that was kept last, so the places that are kept are determined from left to
right.
-/

namespace ApiSections.TypeText

section Marks

variable (tokens : List Token)

/-- The piece that was kept last in front of a place. -/
def lastKept (kept : List Nat) (place : Nat) : Option Token :=
  (kept.filter (· < place)).getLast?.bind (tokens[·]?)

/-- A comma that is the last piece, or has a closing bracket directly behind it. -/
def IsIdleComma (place : Nat) : Prop :=
  (tokens[place]?.map (·.text) = some ",") ∧
    ∀ next ∈ tokens[place + 1]?, next.text ∈ [")", "]", ">", "\x7d"]

/-- A bar or an ampersand before which nothing is kept, or at last something that opens a type. -/
def IsIdleJoint (kept : List Nat) (place : Nat) : Prop :=
  (tokens[place]?.map (·.text) = some "|" ∨ tokens[place]?.map (·.text) = some "&") ∧
    ∀ before ∈ lastKept tokens kept place, before.text ∈ ["(", "<", "[", ":", "=", ","]

def piecesAt (places : List Nat) : List Token := places.filterMap (tokens[·]?)

/-- The places below a limit that are kept, in order: all but the idle ones. -/
structure KeptBelow (limit : Nat) (kept : List Nat) : Prop where
  ascending : kept.Pairwise (· < ·)
  mem_iff : ∀ place, place ∈ kept ↔
    place < limit ∧ ¬ IsIdleComma tokens place ∧ ¬ IsIdleJoint tokens kept place

end Marks

section Spaces

/-- Whether a space parts two pieces of which one is kept right after the other. -/
def NeedsSpace (before token : Token) : Prop :=
  (before.text = "," ∧ token.text ∉ [")", "]", ">", "\x7d"]) ∨
    (before.text ≠ "," ∧ before.text ∉ ["(", "[", "<"] ∧ token.text ∉ [")", "]", ">", ",", ";"] ∧
      before.stop < token.start)

/-- In front of each piece there is a space or none: none at the start, and one where two need it. -/
structure Spacing (pieces : List Token) (spaces : List Bool) : Prop where
  length_eq : spaces.length = pieces.length
  first : ∀ space ∈ spaces.head?, space = false
  between : ∀ place before token, pieces[place]? = some before → pieces[place + 1]? = some token →
    (spaces[place + 1]? = some true ↔ NeedsSpace before token)

/-- The text of some pieces with the spaces in front of them. -/
def spacedText (spaces : List Bool) (pieces : List Token) : String :=
  String.join (List.zipWith (fun space piece => (if space then " " else "") ++ piece.text) spaces pieces)

theorem isSpaced_iff {before token : Token} : isSpaced before token = true ↔ NeedsSpace before token := by
  rw [isSpaced, NeedsSpace]
  by_cases comma : before.text = ","
  · simp [comma, closers]
  · rw [if_neg (by simpa using comma)]
    simp only [comma, ne_eq, not_false_eq_true, false_and, false_or, true_and]
    split
    · rename_i tied
      rw [Bool.or_eq_true, List.contains_iff_mem, List.contains_iff_mem] at tied
      refine iff_of_false Bool.false_ne_true ?_
      rintro ⟨opening, closing, _⟩
      exact tied.elim opening closing
    · rename_i free
      rw [Bool.or_eq_true, List.contains_iff_mem, List.contains_iff_mem, not_or] at free
      rw [decide_eq_true_eq]
      constructor
      · intro gap
        exact ⟨free.1, free.2, gap⟩
      · intro parted
        exact parted.2.2

def spacesAfter : Option Token → List Token → List Bool
  | _, [] => []
  | previous, token :: rest => previous.any (isSpaced · token) :: spacesAfter (some token) rest

theorem length_spacesAfter (previous : Option Token) (pieces : List Token) :
    (spacesAfter previous pieces).length = pieces.length := by
  induction pieces generalizing previous with
  | nil => rfl
  | cons token pieces ih => rw [spacesAfter, List.length_cons, List.length_cons, ih]

theorem getElem?_spacesAfter {previous : Option Token} {pieces : List Token} {place : Nat}
    {before token : Token} (last : pieces[place]? = some before)
    (next : pieces[place + 1]? = some token) :
    (spacesAfter previous pieces)[place + 1]? = some (isSpaced before token) := by
  induction pieces generalizing previous place with
  | nil => cases last
  | cons piece pieces ih =>
    rw [spacesAfter, List.getElem?_cons_succ]
    rw [List.getElem?_cons_succ] at next
    cases place with
    | zero =>
      rw [List.getElem?_cons_zero, Option.some.injEq] at last
      rw [← List.head?_eq_getElem?] at next
      obtain ⟨rest, rfl⟩ := List.head?_eq_some_iff.mp next
      rw [last]
      rfl
    | succ place =>
      rw [List.getElem?_cons_succ] at last
      exact ih last next

theorem spacing_spacesAfter (pieces : List Token) : Spacing pieces (spacesAfter none pieces) where
  length_eq := length_spacesAfter none pieces
  first := by
    cases pieces with
    | nil => simp [spacesAfter]
    | cons token pieces => simp [spacesAfter]
  between := by
    intro place before token last next
    rw [getElem?_spacesAfter last next, Option.some.injEq]
    exact isSpaced_iff

theorem spacedText_cons (previous : Option Token) (token : Token) (pieces : List Token) :
    spacedText (spacesAfter previous (token :: pieces)) (token :: pieces) =
      spaceBetween previous token ++ token.text ++ spacedText (spacesAfter (some token) pieces) pieces := by
  have space : (if previous.any (isSpaced · token) then " " else "") = spaceBetween previous token := by
    cases previous with
    | none => rfl
    | some before => rfl
  rw [spacesAfter, spacedText, List.zipWith_cons_cons, String.join_cons, space]
  rfl

end Spaces

section Keeping

variable {tokens : List Token} {kept more : List Nat} {limit place : Nat} {token : Token}

theorem KeptBelow.lt (below : KeptBelow tokens limit kept) (member : place ∈ kept) : place < limit :=
  ((below.mem_iff place).mp member).1

theorem lastKept_of_lt (low : ∀ other ∈ kept, other < limit) :
    lastKept tokens kept limit = kept.getLast?.bind (tokens[·]?) := by
  have all : kept.filter (· < limit) = kept := List.filter_eq_self.mpr (by simpa using low)
  rw [lastKept, all]

theorem isIdleJoint_append (behind : ∀ other ∈ more, place ≤ other) :
    IsIdleJoint tokens (kept ++ more) place ↔ IsIdleJoint tokens kept place := by
  have none : more.filter (· < place) = [] := List.filter_eq_nil_iff.mpr (by simpa using behind)
  rw [IsIdleJoint, IsIdleJoint, lastKept, lastKept, List.filter_append, none, List.append_nil]

theorem KeptBelow.drop (below : KeptBelow tokens limit kept)
    (idle : IsIdleComma tokens limit ∨ IsIdleJoint tokens kept limit) :
    KeptBelow tokens (limit + 1) kept where
  ascending := below.ascending
  mem_iff := by
    intro place
    rw [below.mem_iff]
    constructor
    · rintro ⟨low, comma, joint⟩
      exact ⟨by omega, comma, joint⟩
    · rintro ⟨low, comma, joint⟩
      have other : place ≠ limit := by
        rintro rfl
        exact idle.elim comma joint
      exact ⟨by omega, comma, joint⟩

theorem KeptBelow.keep (below : KeptBelow tokens limit kept) (comma : ¬ IsIdleComma tokens limit)
    (joint : ¬ IsIdleJoint tokens kept limit) : KeptBelow tokens (limit + 1) (kept ++ [limit]) where
  ascending := by
    refine List.pairwise_append.mpr ⟨below.ascending, List.pairwise_singleton _ _, ?_⟩
    intro place member other here
    rw [List.mem_singleton.mp here]
    exact below.lt member
  mem_iff := by
    intro place
    rw [List.mem_append, List.mem_singleton, below.mem_iff]
    by_cases low : place ≤ limit
    · rw [isIdleJoint_append (by simpa using low)]
      constructor
      · rintro (⟨inside, rest⟩ | rfl)
        · exact ⟨by omega, rest⟩
        · exact ⟨by omega, comma, joint⟩
      · rintro ⟨_, rest⟩
        by_cases same : place = limit
        · exact .inr same
        · exact .inl ⟨by omega, rest⟩
    · constructor
      · rintro (⟨inside, _⟩ | same)
        · omega
        · omega
      · rintro ⟨inside, _⟩
        omega

theorem KeptBelow.unique {other : List Nat} (first : KeptBelow tokens limit kept)
    (second : KeptBelow tokens limit other) : kept = other := by
  refine first.ascending.eq_of_mem_iff second.ascending fun place => ?_
  induction place using Nat.strong_induction_on with
  | _ place ih =>
    -- A place depends only on those that are kept in front of it.
    have front : kept.filter (· < place) = other.filter (· < place) := by
      apply (first.ascending.filter _).eq_of_mem_iff (second.ascending.filter _)
      intro earlier
      rw [List.mem_filter, List.mem_filter, decide_eq_true_eq]
      exact and_congr_left (ih earlier)
    rw [first.mem_iff, second.mem_iff, IsIdleJoint, IsIdleJoint, lastKept, lastKept, front]

theorem isTrailingComma_iff {done rest : List Token} :
    isTrailingComma token rest.head? = true ↔ IsIdleComma (done ++ token :: rest) done.length := by
  have here : (done ++ token :: rest)[done.length]? = some token := by simp
  have next : (done ++ token :: rest)[done.length + 1]? = rest.head? := by
    rw [List.getElem?_append_right (by omega), Nat.add_sub_cancel_left, List.getElem?_cons_succ,
      List.head?_eq_getElem?]
  rw [isTrailingComma.eq_def, IsIdleComma, here, next, Bool.and_eq_true, beq_iff_eq, Option.map_some,
    Option.some.injEq]
  cases rest.head? with
  | none => simp
  | some after => simp [closers]

theorem isLeadingJoint_iff (here : tokens[place]? = some token) :
    isLeadingJoint (lastKept tokens kept place) token = true ↔ IsIdleJoint tokens kept place := by
  rw [isLeadingJoint.eq_def, IsIdleJoint, here, Bool.and_eq_true, Bool.or_eq_true, beq_iff_eq, beq_iff_eq,
    Option.map_some, Option.some.injEq, Option.some.injEq]
  cases lastKept tokens kept place with
  | none => simp
  | some before => simp

theorem exists_keptBelow {done rest : List Token} {previous : Option Token} (split : tokens = done ++ rest)
    (below : KeptBelow tokens done.length kept) (last : lastKept tokens kept done.length = previous) :
    ∃ more, KeptBelow tokens tokens.length (kept ++ more) ∧ joinAfter previous rest =
      spacedText (spacesAfter previous (piecesAt tokens more)) (piecesAt tokens more) := by
  -- The loop has passed `done`, of which it keeps `kept`; `previous` is the last piece of these.
  induction rest generalizing done kept previous with
  | nil =>
    refine ⟨[], ?_, rfl⟩
    rw [List.append_nil] at split ⊢
    rwa [← split] at below
  | cons token rest ih =>
    have here : tokens[done.length]? = some token := by simp [split]
    have longer : tokens = (done ++ [token]) ++ rest := by simp [split]
    have length : (done ++ [token]).length = done.length + 1 := List.length_append
    have comma : isTrailingComma token rest.head? = true ↔ IsIdleComma tokens done.length := by
      rw [split]
      exact isTrailingComma_iff
    have joint : isLeadingJoint previous token = true ↔ IsIdleJoint tokens kept done.length := by
      rw [← last]
      exact isLeadingJoint_iff here
    rw [joinAfter_cons]
    split
    · rename_i idle
      rw [Bool.or_eq_true, comma, joint] at idle
      have dropped := below.drop idle
      rw [← length] at dropped
      apply ih longer dropped
      rw [lastKept_of_lt fun _ => dropped.lt, ← lastKept_of_lt fun _ => below.lt]
      exact last
    · rename_i needed
      rw [Bool.or_eq_true, comma, joint, not_or] at needed
      have added := below.keep needed.1 needed.2
      rw [← length] at added
      have next : lastKept tokens (kept ++ [done.length]) (done ++ [token]).length = some token := by
        rw [lastKept_of_lt fun _ => added.lt, List.getLast?_concat, Option.bind_some, here]
      obtain ⟨more, all, text⟩ := ih longer added next
      have pieces : piecesAt tokens (done.length :: more) = token :: piecesAt tokens more :=
        List.filterMap_cons_some here
      refine ⟨done.length :: more, ?_, ?_⟩
      · rwa [List.append_assoc] at all
      · rw [pieces, spacedText_cons, text]

/-- What is joined are the pieces at the places that are kept, in order, with the spaces that they
need. -/
theorem join_keeps (tokens : List Token) :
    ∃ kept spaces, KeptBelow tokens tokens.length kept ∧
      (∀ other, KeptBelow tokens tokens.length other → other = kept) ∧
      Spacing (piecesAt tokens kept) spaces ∧
      join tokens = spacedText spaces (piecesAt tokens kept) := by
  have start : KeptBelow tokens ([] : List Token).length [] := by
    refine ⟨.nil, fun place => iff_of_false List.not_mem_nil ?_⟩
    rintro ⟨low, _⟩
    exact Nat.not_lt_zero place low
  obtain ⟨kept, below, text⟩ := exists_keptBelow (List.nil_append tokens).symm start rfl
  rw [List.nil_append] at below
  refine ⟨kept, spacesAfter none (piecesAt tokens kept), below, fun other same => same.unique below,
    spacing_spacesAfter _, ?_⟩
  rw [join]
  exact text

end Keeping

end ApiSections.TypeText
