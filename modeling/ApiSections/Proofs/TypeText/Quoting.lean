import ApiSections.Proofs.TypeText.Reading
import ApiSections.TypeText.Literal

/-!
String literals and the strings that they denote. A literal is read character by character, a backslash
together with the character behind it. A literal that is put into double quotes denotes the same string
unless it was in other quotes and held a double quote behind a backslash: that backslash then stands
behind another one, and the quote is bare.
-/

namespace ApiSections.TypeText

/-- A character between the quotes of a literal: as it stands, or behind a backslash. -/
inductive Written where
  | plain (c : Char)
  | escaped (c : Char)
  deriving DecidableEq

/-- The characters between the quotes of a literal, unless the last backslash has none to go with. -/
def written? : List Char → Option (List Written)
  | [] => some []
  | '\\' :: c :: rest => (written? rest).map (.escaped c :: ·)
  | c :: rest => if c = '\\' then none else (written? rest).map (.plain c :: ·)

/-- What a backslash and the character behind it stand for. Quotes stand for themselves. -/
structure Escapes where
  meaning : Char → List Char
  single : meaning '\'' = ['\'']
  double : meaning '"' = ['"']

namespace Escapes

/-- The escapes of the language: some letters stand for control characters, a broken line for
nothing. -/
def standard : Escapes where
  meaning c :=
    match c with
    | 'b' => ['\x08']
    | 't' => ['\t']
    | 'n' => ['\n']
    | 'v' => ['\x0b']
    | 'f' => ['\x0c']
    | 'r' => ['\r']
    | '0' => ['\x00']
    | '\n' => []
    | c => [c]
  single := rfl
  double := rfl

def value (escapes : Escapes) : Written → List Char
  | .plain c => [c]
  | .escaped c => escapes.meaning c

end Escapes

/-- Whether characters start a substitution somewhere. -/
def substitutes : List Written → Bool
  | .plain '$' :: .plain '{' :: _ => true
  | _ :: rest => substitutes rest
  | [] => false

/-- Whether such characters can stand between two quotes on one line. -/
def isEnclosed (quote : Char) (inside : List Written) : Bool :=
  inside.all (fun w => w != .plain quote && w != .plain '\n' && w != .plain '\r') &&
    !(quote == '`' && substitutes inside)

/-- The characters of a literal in such quotes, if it is well formed. -/
def inside? (quote : Char) : List Char → Option (List Written)
  | [] => none
  | first :: rest =>
    if isQuote quote ∧ first = quote ∧ rest.getLast? = some quote then
      (written? rest.dropLast).filter (isEnclosed quote)
    else none

/-- The string that a literal in such quotes denotes, if it is well formed. -/
def denoted? (escapes : Escapes) (quote : Char) (literal : List Char) : Option (List Char) :=
  (inside? quote literal).map (·.flatMap escapes.value)

section Requoting

variable {quote c : Char} {body rest : List Char} {inside : List Written}

theorem written?_plain (other : c ≠ '\\') :
    written? (c :: rest) = (written? rest).map (.plain c :: ·) := by
  have whole : written? (c :: rest) =
      if c = '\\' then none else (written? rest).map (.plain c :: ·) := by
    apply written?.eq_3
    intro _ _ same
    exact absurd same other
  rw [whole, if_neg other]

/-- A single quote that needs its backslash no longer. -/
def Written.bare : Written → Written
  | .escaped '\'' => .plain '\''
  | w => w

/-- A character between double quotes; a double quote gets a backslash, also behind another one. -/
def Written.requoted : Written → List Written
  | .plain '"' => [.escaped '"']
  | .escaped '"' => [.escaped '\\', .plain '"']
  | w => [w]

theorem escapeDoubleQuotes_plain (other : c ≠ '"') :
    escapeDoubleQuotes (c :: rest) = c :: escapeDoubleQuotes rest :=
  escapeDoubleQuotes.eq_3 c rest fun same => other same

theorem not_mem_escapeDoubleQuotes (free : c ∉ body) (other : c ≠ '\\') :
    c ∉ escapeDoubleQuotes body := by
  fun_induction escapeDoubleQuotes body with
  | case1 => exact free
  | case2 rest ih => simp_all
  | case3 d rest _ ih => simp_all

/-- A double quote behind a backslash gets another one, with which the first one then goes. -/
theorem written?_escapeDoubleQuotes (read : written? body = some inside) :
    written? (escapeDoubleQuotes body) = some (inside.flatMap Written.requoted) := by
  fun_induction written? body generalizing inside with
  | case1 =>
    cases read
    rfl
  | case2 c rest ih =>
    obtain ⟨later, here, rfl⟩ := Option.map_eq_some_iff.mp read
    rw [escapeDoubleQuotes_plain (by decide), List.flatMap_cons]
    by_cases quote : c = '"'
    · subst quote
      rw [escapeDoubleQuotes, written?, written?_plain (by decide), ih here]
      rfl
    · have kept : Written.requoted (.escaped c) = [.escaped c] := by
        unfold Written.requoted
        split <;> simp_all
      rw [escapeDoubleQuotes_plain quote, written?, ih here, kept]
      rfl
  | case3 => cases read
  | case4 c rest _ other ih =>
    obtain ⟨later, here, rfl⟩ := Option.map_eq_some_iff.mp read
    rw [List.flatMap_cons]
    by_cases quote : c = '"'
    · subst quote
      rw [escapeDoubleQuotes, written?, ih here]
      rfl
    · have kept : Written.requoted (.plain c) = [.plain c] := by
        unfold Written.requoted
        split <;> simp_all
      rw [escapeDoubleQuotes_plain quote, written?_plain other, ih here, kept]
      rfl

theorem bareSingleQuotes_other (other : c = '\\' → rest.head? ≠ some '\'') :
    bareSingleQuotes (c :: rest) = c :: bareSingleQuotes rest := by
  apply bareSingleQuotes.eq_2
  rintro later rfl rfl
  exact other rfl rfl

theorem not_mem_bareSingleQuotes (free : c ∉ body) :
    c ∉ bareSingleQuotes body := by
  fun_induction bareSingleQuotes body with
  | case1 rest ih => simp_all
  | case2 d rest _ ih => simp_all
  | case3 => exact free

/-- Every single quote stands behind a backslash of its own, so none is taken for the one of the
character in front. -/
theorem written?_bareSingleQuotes (read : written? body = some inside)
    (free : .plain '\'' ∉ inside) :
    written? (bareSingleQuotes body) = some (inside.map Written.bare) := by
  fun_induction written? body generalizing inside with
  | case1 =>
    cases read
    rfl
  | case2 c rest ih =>
    obtain ⟨later, here, rfl⟩ := Option.map_eq_some_iff.mp read
    have below := ih here (List.not_mem_of_not_mem_cons free)
    by_cases quote : c = '\''
    · subst quote
      rw [bareSingleQuotes, written?_plain (by decide), below]
      rfl
    · have apart : rest.head? ≠ some '\'' := by
        intro starts
        obtain ⟨others, rfl⟩ := List.head?_eq_some_iff.mp starts
        rw [written?_plain (by decide)] at here
        obtain ⟨_, _, rfl⟩ := Option.map_eq_some_iff.mp here
        simp at free
      have kept : Written.bare (.escaped c) = .escaped c := by
        unfold Written.bare
        split <;> simp_all
      rw [bareSingleQuotes_other (fun _ => by simpa using quote), bareSingleQuotes_other fun _ => apart,
        written?, below, List.map_cons, kept]
      rfl
  | case3 => cases read
  | case4 c rest _ other ih =>
    obtain ⟨later, here, rfl⟩ := Option.map_eq_some_iff.mp read
    rw [bareSingleQuotes_other fun same => absurd same other, written?_plain other,
      ih here (List.not_mem_of_not_mem_cons free)]
    rfl

end Requoting

section Literals

variable {quote : Char} {literal body : List Char} {inside : List Written}

theorem inside?_quoted (is : isQuote quote = true) (body : List Char) :
    inside? quote (quote :: (body ++ [quote])) = (written? body).filter (isEnclosed quote) := by
  rw [inside?, if_pos ⟨is, rfl, List.getLast?_concat⟩, List.dropLast_concat]

theorem inside?_eq_some_iff : inside? quote literal = some inside ↔
    isQuote quote = true ∧ ∃ body, literal = quote :: (body ++ [quote]) ∧
      written? body = some inside ∧ isEnclosed quote inside = true := by
  constructor
  · intro read
    unfold inside? at read
    split at read
    · cases read
    · split at read
      · rename_i first rest quoted
        obtain ⟨is, rfl, ends⟩ := quoted
        obtain ⟨body, rfl⟩ := List.getLast?_eq_some_iff.mp ends
        rw [List.dropLast_concat] at read
        exact ⟨is, body, rfl, Option.filter_eq_some_iff.mp read⟩
      · cases read
  · rintro ⟨is, body, rfl, read, enclosed⟩
    rw [inside?_quoted is]
    exact Option.filter_eq_some_iff.mpr ⟨read, enclosed⟩

/-- A text in quotes of one kind. -/
def IsQuoted (text : List Char) : Prop :=
  ∃ quote body, isQuote quote = true ∧ text = quote :: (body ++ [quote])

theorem stringLiteral_cons (quote : Char) (body : List Char) :
    stringLiteral (quote :: (body ++ [quote])) =
      if quote = '"' then quote :: (body ++ [quote])
      else '"' :: (escapeDoubleQuotes (if quote = '\'' then bareSingleQuotes body else body) ++
        ['"']) := by
  obtain ⟨d, rest, same⟩ : ∃ d rest, body ++ [quote] = d :: rest :=
    List.exists_cons_of_ne_nil (by simp)
  have inner : (d :: rest).dropLast = body := by rw [← same, List.dropLast_concat]
  rw [same, ← inner]
  rfl

/-- A character on its way out of such quotes. -/
def Written.out (quote : Char) (w : Written) : Written := if quote = '\'' then w.bare else w

/-- The characters of a literal in other quotes, between double quotes. -/
def requotedFrom (quote : Char) (inside : List Written) : List Written :=
  (inside.map (Written.out quote)).flatMap Written.requoted

theorem written?_out (read : written? body = some inside) (enclosed : isEnclosed quote inside = true) :
    written? (if quote = '\'' then bareSingleQuotes body else body) =
      some (inside.map (Written.out quote)) := by
  by_cases single : quote = '\''
  · subst single
    have free : .plain '\'' ∉ inside := by
      intro member
      simp only [isEnclosed, Bool.and_eq_true, List.all_eq_true, bne_iff_ne] at enclosed
      exact (enclosed.1 _ member).1.1 rfl
    exact written?_bareSingleQuotes read free
  · have same : Written.out quote = id := by
      funext w
      exact if_neg single
    rw [if_neg single, same, List.map_id]
    exact read

theorem inside?_stringLiteral (other : quote ≠ '"') (formed : inside? quote literal = some inside) :
    inside? '"' (stringLiteral literal) =
      (some (requotedFrom quote inside)).filter (isEnclosed '"') := by
  obtain ⟨is, body, rfl, read, enclosed⟩ := inside?_eq_some_iff.mp formed
  rw [stringLiteral_cons, if_neg other, inside?_quoted rfl,
    written?_escapeDoubleQuotes (written?_out read enclosed)]
  rfl

/-- A character that can stand on a line between double quotes. -/
def Written.fits (w : Written) : Bool := w != .plain '"' && w != .plain '\n' && w != .plain '\r'

theorem isEnclosed_double (inside : List Written) :
    isEnclosed '"' inside = inside.all Written.fits := by
  have none : ('"' == '`') = false := by decide
  rw [isEnclosed, none, Bool.false_and, Bool.not_false, Bool.and_true]
  rfl

theorem all_fits_requoted {w : Written} (line : w ≠ .plain '\n') (line' : w ≠ .plain '\r') :
    w.requoted.all Written.fits = true ↔ w ≠ .escaped '"' := by
  unfold Written.requoted
  split
  · simp [Written.fits]
  · simp [Written.fits]
  · rename_i other other'
    simp only [Written.fits, List.all_cons, List.all_nil, Bool.and_true, Bool.and_eq_true, bne_iff_ne]
    exact ⟨fun _ => other', fun _ => ⟨⟨other, line⟩, line'⟩⟩

theorem value_requoted (escapes : Escapes) {w : Written} (other : w ≠ .escaped '"') :
    w.requoted.flatMap escapes.value = escapes.value w := by
  unfold Written.requoted
  split
  · simp [Escapes.value, escapes.double]
  · exact absurd rfl other
  · simp

theorem value_out (escapes : Escapes) (quote : Char) (w : Written) :
    escapes.value (w.out quote) = escapes.value w := by
  unfold Written.out Written.bare
  split
  · split
    · exact escapes.single.symm
    · rfl
  · rfl

/-- Characters other than a single quote stay as they are. -/
theorem out_eq_iff {w : Written} {c : Char} (other : '\'' ≠ c) :
    (w.out quote = .escaped c ↔ w = .escaped c) ∧ (w.out quote = .plain c ↔ w = .plain c) := by
  unfold Written.out Written.bare
  split
  · split
    · simp [other]
    · simp
  · simp

theorem escaped_mem_out_iff (quote : Char) (inside : List Written) :
    .escaped '"' ∈ inside.map (Written.out quote) ↔ .escaped '"' ∈ inside := by
  have kept (w : Written) : w.out quote = .escaped '"' ↔ w = .escaped '"' :=
    (out_eq_iff (by decide)).1
  simp only [List.mem_map, kept, exists_eq_right]

/-- Of the characters between double quotes, only one that was a double quote behind a backslash is not
well formed. -/
theorem isEnclosed_requotedFrom (enclosed : isEnclosed quote inside = true) :
    isEnclosed '"' (requotedFrom quote inside) = true ↔ .escaped '"' ∉ inside := by
  have line : ∀ w ∈ inside.map (Written.out quote), w ≠ .plain '\n' ∧ w ≠ .plain '\r' := by
    simp only [isEnclosed, Bool.and_eq_true, List.all_eq_true, bne_iff_ne] at enclosed
    intro w member
    obtain ⟨source, among, rfl⟩ := List.mem_map.mp member
    obtain ⟨⟨_, line⟩, line'⟩ := enclosed.1 source among
    exact ⟨mt (out_eq_iff (by decide)).2.mp line, mt (out_eq_iff (by decide)).2.mp line'⟩
  rw [isEnclosed_double, requotedFrom, List.all_flatMap, List.all_eq_true,
    ← escaped_mem_out_iff quote]
  constructor
  · intro each member
    cases each _ member
  · intro free w member
    rw [all_fits_requoted (line w member).1 (line w member).2]
    rintro rfl
    exact free member

theorem value_requotedFrom (escapes : Escapes) (quote : Char) (free : .escaped '"' ∉ inside) :
    (requotedFrom quote inside).flatMap escapes.value = inside.flatMap escapes.value := by
  rw [requotedFrom, List.flatMap_assoc, List.flatMap_map]
  apply List.flatMap_congr
  intro w member
  have other : w.out quote ≠ .escaped '"' := by
    rw [Ne, (out_eq_iff (by decide)).1]
    rintro rfl
    exact free member
  rw [value_requoted escapes other, value_out]

end Literals

/-- A literal that is put into double quotes is a well-formed literal for the same string if it was in
double quotes or held no double quote behind a backslash, and otherwise is not well formed. -/
theorem stringLiteral_denotes_iff (escapes : Escapes) {quote : Char} {literal : List Char}
    {inside : List Written} (formed : inside? quote literal = some inside) :
    (denoted? escapes '"' (stringLiteral literal) = denoted? escapes quote literal ↔
      quote = '"' ∨ .escaped '"' ∉ inside) ∧
    (denoted? escapes '"' (stringLiteral literal) = none ↔ quote ≠ '"' ∧ .escaped '"' ∈ inside) := by
  have own : denoted? escapes quote literal = some (inside.flatMap escapes.value) := by
    rw [denoted?, formed]
    rfl
  by_cases double : quote = '"'
  · subst double
    have kept : stringLiteral literal = literal := by
      obtain ⟨_, body, rfl, _, _⟩ := inside?_eq_some_iff.mp formed
      rw [stringLiteral_cons, if_pos rfl]
    rw [kept, own]
    simp
  · have moved : denoted? escapes '"' (stringLiteral literal) =
        ((some (requotedFrom quote inside)).filter (isEnclosed '"')).map (·.flatMap escapes.value) := by
      rw [denoted?, inside?_stringLiteral double formed]
    obtain ⟨_, _, _, _, enclosed⟩ := inside?_eq_some_iff.mp formed
    have whole := isEnclosed_requotedFrom enclosed
    by_cases free : .escaped '"' ∉ inside
    · rw [Option.filter_some_pos (whole.mpr free), Option.map_some, value_requotedFrom escapes quote free]
        at moved
      rw [moved, own]
      simp [double, free]
    · have broken := Bool.eq_false_iff.mpr (mt whole.mp free)
      rw [Option.filter_some_neg broken, Option.map_none] at moved
      rw [moved, own]
      simpa [double] using free

/-- A literal with a single quote behind a backslash, bare double quotes and a pair of backslashes. -/
theorem stringLiteral_denotes_mixed :
    let literal := "'it\\'s \"a\" \\\\'".toList
    ∃ inside, inside? '\'' literal = some inside ∧ .escaped '"' ∉ inside ∧
      denoted? .standard '\'' literal = some "it's \"a\" \\".toList ∧
      stringLiteral literal = "\"it's \\\"a\\\" \\\\\"".toList ∧
      denoted? .standard '"' (stringLiteral literal) = denoted? .standard '\'' literal := by
  intro literal
  have free : ((inside? '\'' literal).map fun inside => decide (.escaped '"' ∈ inside)) = some false := by
    decide
  obtain ⟨inside, formed, free⟩ := Option.map_eq_some_iff.mp free
  have free : .escaped '"' ∉ inside := of_decide_eq_false free
  exact ⟨inside, formed, free, by decide, by decide,
    (stringLiteral_denotes_iff .standard formed).1.mpr (.inr free)⟩

/-- A double quote behind a backslash, in single quotes. -/
theorem stringLiteral_bares_quote :
    let literal := "'\\\"'".toList
    denoted? .standard '\'' literal = some ['"'] ∧
      stringLiteral literal = "\"\\\\\"\"".toList ∧ inside? '"' (stringLiteral literal) = none ∧
      denoted? .standard '"' (stringLiteral literal) ≠ denoted? .standard '\'' literal := by
  decide

end ApiSections.TypeText
