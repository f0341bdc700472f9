import ApiSections.Proofs.Display.ConstAccess
import ApiSections.Proofs.Fragment.Bodies
import ApiSections.Proofs.TypeText.Arrow
import ApiSections.Proofs.TypeText.Quoting

/-!
Strings as constants. A string literal is shown in double quotes, and a union of string literals with
bars between them; neither the quotes nor the bars matter to a scan for arrows, which therefore sees
the characters of the strings themselves.
-/

namespace ApiSections.TypeText

open Syntax (Node)

/-- Two texts that a scan for arrows does not tell apart. -/
structure Alike (first second : List Char) : Prop where
  arrows : ∀ depth, hasOuterArrow depth first = hasOuterArrow depth second
  level : surplus first = surplus second

namespace Alike

variable {first second third fourth : List Char} {c : Char}

theorem refl (text : List Char) : Alike text text := ⟨fun _ => rfl, rfl⟩

theorem trans (left : Alike first second) (right : Alike second third) : Alike first third :=
  ⟨fun depth => (left.arrows depth).trans (right.arrows depth), left.level.trans right.level⟩

theorem symm (alike : Alike first second) : Alike second first :=
  ⟨fun depth => (alike.arrows depth).symm, alike.level.symm⟩

theorem cons (alike : Alike first second) (plain : IsPlain c first) (plain' : IsPlain c second) :
    Alike (c :: first) (c :: second) := by
  constructor
  · intro depth
    rw [hasOuterArrow_cons plain, hasOuterArrow_cons plain', alike.arrows]
  · rw [surplus_cons plain, surplus_cons plain', alike.level]

theorem arrow (alike : Alike first second) : Alike ('=' :: '>' :: first) ('=' :: '>' :: second) := by
  constructor
  · intro depth
    rw [hasOuterArrow, hasOuterArrow, alike.arrows]
  · rw [surplus, surplus, alike.level]

theorem append (left : Alike first second) (right : Alike third fourth) (apart : Apart first third)
    (apart' : Apart second fourth) : Alike (first ++ third) (second ++ fourth) := by
  constructor
  · intro depth
    rw [hasOuterArrow_append apart, hasOuterArrow_append apart', left.arrows, left.level, right.arrows]
  · rw [surplus_append apart, surplus_append apart', left.level, right.level]

theorem of_isQuiet (quiet : isQuiet first = true) : Alike first [] := by
  constructor
  · exact fun depth => hasOuterArrow_of_isQuiet quiet
  · exact surplus_of_balanced (balanced_of_isQuiet quiet)

theorem quiet_append (quiet : isQuiet first = true) (text : List Char) : Alike (first ++ text) text :=
  append (of_isQuiet quiet) (refl text) (apart_of_isQuiet quiet) (.inl (by simp))

theorem quiet_cons (quiet : isQuiet [c] = true) (text : List Char) : Alike (c :: text) text :=
  quiet_append quiet text

theorem append_quiet (quiet : isQuiet second = true) (starts : second.head? ≠ some '>') :
    Alike (first ++ second) first := by
  have alike := append (refl first) (of_isQuiet quiet) (.inr starts) (.inr (by simp))
  rwa [List.append_nil] at alike

theorem hasLevelArrow_iff (alike : Alike first second) (depth : Int) :
    HasLevelArrow depth first ↔ HasLevelArrow depth second := by
  rw [← hasOuterArrow_iff, ← hasOuterArrow_iff, alike.arrows]

end Alike

section Literals

variable {text : List Char} {c : Char}

theorem head?_escapeDoubleQuotes : (escapeDoubleQuotes text).head? = some '>' ↔
    text.head? = some '>' := by
  fun_cases escapeDoubleQuotes text with
  | case1 => rfl
  | case2 rest => simp
  | case3 c rest other => simp

theorem alike_escapeDoubleQuotes (text : List Char) : Alike (escapeDoubleQuotes text) text := by
  induction text using scan_induction with
  | nil => exact .refl []
  | arrow rest ih => exact ih.arrow
  | plain c rest plain ih =>
    by_cases quote : c = '"'
    · subst quote
      have left : Alike ('\\' :: '"' :: escapeDoubleQuotes rest) (escapeDoubleQuotes rest) :=
        (Alike.quiet_cons rfl _).trans (.quiet_cons rfl _)
      have right : Alike ('"' :: rest) rest := .quiet_cons rfl _
      exact (left.trans ih).trans right.symm
    · have kept : escapeDoubleQuotes (c :: rest) = c :: escapeDoubleQuotes rest :=
        escapeDoubleQuotes.eq_3 c rest fun same => quote same
      have plain' : IsPlain c (escapeDoubleQuotes rest) := by
        rwa [IsPlain, head?_escapeDoubleQuotes]
      rw [kept]
      exact ih.cons plain' plain

theorem head?_bareSingleQuotes : (bareSingleQuotes text).head? = some '>' ↔
    text.head? = some '>' := by
  fun_cases bareSingleQuotes text with
  | case1 rest => simp
  | case2 c rest other => simp
  | case3 => rfl

theorem alike_bareSingleQuotes (text : List Char) : Alike (bareSingleQuotes text) text := by
  induction text using scan_induction with
  | nil => exact .refl []
  | arrow rest ih => exact ih.arrow
  | plain c rest plain ih =>
    by_cases escaped : c = '\\' ∧ rest.head? = some '\''
    · obtain ⟨rfl, follows⟩ := escaped
      obtain ⟨rest, rfl⟩ := List.head?_eq_some_iff.mp follows
      have right : Alike ('\\' :: '\'' :: rest) ('\'' :: rest) := .quiet_cons rfl _
      exact ih.trans right.symm
    · have kept : bareSingleQuotes (c :: rest) = c :: bareSingleQuotes rest := by
        apply bareSingleQuotes.eq_2
        rintro rest rfl rfl
        exact escaped ⟨rfl, rfl⟩
      have plain' : IsPlain c (bareSingleQuotes rest) := by
        rwa [IsPlain, head?_bareSingleQuotes]
      rw [kept]
      exact ih.cons plain' plain

theorem isQuiet_of_isQuote (quote : isQuote c = true) : isQuiet [c] = true := by
  simp only [isQuote, Bool.or_eq_true, beq_iff_eq] at quote
  rcases quote with (rfl | rfl) | rfl
  · rfl
  · rfl
  · rfl

theorem alike_quoted (quote : isQuote c = true) (body : List Char) :
    Alike (c :: (body ++ [c])) body := by
  have quiet := isQuiet_of_isQuote quote
  have starts : [c].head? ≠ some '>' := by
    rintro same
    cases same
    cases quote
  exact (Alike.quiet_cons quiet _).trans (.append_quiet quiet starts)

theorem IsQuoted.apart (quoted : IsQuoted text) (rest : List Char) : Apart text rest := by
  obtain ⟨quote, body, isQuote, rfl⟩ := quoted
  left
  rw [← List.cons_append, List.getLast?_concat]
  rintro same
  cases same
  cases isQuote

/-- The literal type of a string is in double quotes. -/
theorem IsQuoted.stringLiteral_eq (quoted : IsQuoted text) :
    ∃ body, stringLiteral text = '"' :: (body ++ ['"']) ∧ Alike body text := by
  obtain ⟨quote, body, isQuote, rfl⟩ := quoted
  have alike := (alike_quoted isQuote body).symm
  rw [stringLiteral_cons]
  by_cases double : quote = '"'
  · rw [if_pos double]
    subst double
    exact ⟨body, rfl, alike⟩
  · rw [if_neg double]
    refine ⟨_, rfl, (alike_escapeDoubleQuotes _).trans ?_⟩
    split
    · exact (alike_bareSingleQuotes body).trans alike
    · exact alike

theorem IsQuoted.isQuoted_stringLiteral (quoted : IsQuoted text) : IsQuoted (stringLiteral text) := by
  obtain ⟨body, same, _⟩ := quoted.stringLiteral_eq
  exact ⟨'"', body, rfl, same⟩

theorem IsQuoted.alike_stringLiteral (quoted : IsQuoted text) : Alike (stringLiteral text) text := by
  obtain ⟨body, same, alike⟩ := quoted.stringLiteral_eq
  rw [same]
  exact (alike_quoted rfl body).trans alike

theorem IsQuoted.head?_stringLiteral (quoted : IsQuoted text) :
    (stringLiteral text).head? = some '"' := by
  obtain ⟨body, same, _⟩ := quoted.stringLiteral_eq
  rw [same]
  rfl

end Literals

section Unions

/-- A bar between types. -/
def isJoint (node : Node) : Bool := node.isToken "|" && node.children.isEmpty

/-- The string that is the only part of a literal type. -/
def stringIn? : List Node → Option (List Char)
  | [child] => if child.kind == .stringLiteral then some child.text.toList else none
  | _ => none

mutual

/-- The strings of a type that is a string literal or a union of such types, as they are written. -/
def stringsOf? : Node → Option (List (List Char))
  | .mk kind _ _ _ children =>
    if kind == .literalType then (stringIn? children).map ([·])
    else if kind == .unionType && !children.isEmpty then stringsOfAll? children
    else none

def stringsOfAll? : List Node → Option (List (List Char))
  | [] => some []
  | node :: rest =>
    if node.isComment || isJoint node then stringsOfAll? rest
    else (stringsOf? node).bind fun first => (stringsOfAll? rest).map (first ++ ·)

end

/-- Pieces that are bars and string literals. -/
inductive Spells : List Token → List (List Char) → Prop where
  | nil : Spells [] []
  | bar {token : Token} {pieces : List Token} {strings : List (List Char)} (text : token.text = "|")
      (rest : Spells pieces strings) : Spells (token :: pieces) strings
  | literal {token : Token} {string : List Char} {pieces : List Token} {strings : List (List Char)}
      (text : token.text = String.ofList (stringLiteral string)) (rest : Spells pieces strings) :
      Spells (token :: pieces) (string :: strings)

theorem Spells.append {first second : List Token} {left right : List (List Char)}
    (start : Spells first left) (rest : Spells second right) :
    Spells (first ++ second) (left ++ right) := by
  induction start with
  | nil => exact rest
  | bar text _ ih => exact .bar text ih
  | literal text _ ih => exact .literal text ih

theorem spells_of_stringIn? {children : List Node} {string : List Char}
    (found : stringIn? children = some string) : Spells (tokensOfAll true children) [string] := by
  unfold stringIn? at found
  split at found
  · rename_i child
    obtain ⟨kind, field, span, text, children⟩ := child
    by_cases isString : kind = .stringLiteral
    · subst isString
      cases found
      exact .literal rfl .nil
    · simp [Node.kind, isString] at found
  · cases found

theorem spells_of_isComment {node : Node} (comment : node.isComment = true) :
    Spells (tokens false node) [] := by
  obtain ⟨kind, field, span, text, children⟩ := node
  rw [tokens]
  exact if_pos (c := (kind == .comment) = true) comment ▸ .nil

theorem spells_of_isJoint {node : Node} (joint : isJoint node = true) :
    Spells (tokens false node) [] := by
  obtain ⟨kind, field, span, text, children⟩ := node
  simp only [isJoint, Node.isToken, Node.kind, Node.text, Node.children, Bool.and_eq_true,
    beq_iff_eq, List.isEmpty_iff] at joint
  obtain ⟨⟨rfl, rfl⟩, rfl⟩ := joint
  exact .bar rfl .nil

mutual

theorem spells_tokens : (node : Node) → {strings : List (List Char)} →
    stringsOf? node = some strings → Spells (tokens false node) strings
  | .mk kind field span text children, strings, found => by
    unfold stringsOf? at found
    by_cases literal : kind = .literalType
    · subst literal
      obtain ⟨string, only, rfl⟩ := Option.map_eq_some_iff.mp found
      have inner : tokens false (.mk .literalType field span text children) =
          tokensOfAll true children := by
        cases children with
        | nil => cases only
        | cons child rest => rfl
      rw [inner]
      exact spells_of_stringIn? only
    · rw [if_neg (by simpa using literal)] at found
      split at found
      · rename_i union
        rw [Bool.and_eq_true, beq_iff_eq] at union
        obtain ⟨rfl, some_child⟩ := union
        have inner : tokens false (.mk .unionType field span text children) =
            tokensOfAll false children := by
          cases children with
          | nil => cases some_child
          | cons child rest => rfl
        rw [inner]
        exact spells_tokensOfAll children found
      · cases found

theorem spells_tokensOfAll : (nodes : List Node) → {strings : List (List Char)} →
    stringsOfAll? nodes = some strings → Spells (tokensOfAll false nodes) strings
  | [], strings, found => by
    cases found
    exact .nil
  | node :: rest, strings, found => by
    rw [stringsOfAll?] at found
    rw [tokensOfAll]
    split at found
    · rename_i skipped
      have later := spells_tokensOfAll rest found
      rcases Bool.or_eq_true_iff.mp skipped with comment | joint
      · exact (spells_of_isComment comment).append later
      · exact (spells_of_isJoint joint).append later
    · obtain ⟨first, here, found⟩ := Option.bind_eq_some_iff.mp found
      obtain ⟨others, there, rfl⟩ := Option.map_eq_some_iff.mp found
      exact (spells_tokens node here).append (spells_tokensOfAll rest there)

end

section Joined

variable {token : Token} {previous : Option Token} {pieces : List Token} {string : List Char}
  {strings : List (List Char)}

theorem ne_of_literal (text : token.text = String.ofList (stringLiteral string))
    (quoted : IsQuoted string) (mark : String) (other : mark.toList.head? ≠ some '"') :
    token.text ≠ mark := by
  rintro rfl
  rw [text, String.toList_ofList] at other
  exact other quoted.head?_stringLiteral

theorem joinAfter_leading (joint : isLeadingJoint previous token = true) :
    joinAfter previous (token :: pieces) = joinAfter previous pieces := by
  conv_lhs => unfold joinAfter
  rw [joint, Bool.or_true, if_pos rfl]

theorem joinAfter_kept (comma : isTrailingComma token pieces.head? = false)
    (joint : isLeadingJoint previous token = false) :
    ∃ space : String, (previous = none → space = "") ∧ isQuiet space.toList = true ∧
      (joinAfter previous (token :: pieces)).toList =
        space.toList ++ (token.text.toList ++ (joinAfter (some token) pieces).toList) := by
  conv in joinAfter previous (token :: pieces) => unfold joinAfter
  rw [comma, joint]
  cases previous with
  | none => exact ⟨"", fun _ => rfl, rfl, by simp⟩
  | some before =>
    by_cases spaced : isSpaced before token = true
    · exact ⟨" ", by simp, rfl, by simp [spaced]⟩
    · exact ⟨"", by simp, rfl, by simp [spaced]⟩

/-- A string literal is kept wherever it stands. -/
theorem joinAfter_literal (text : token.text = String.ofList (stringLiteral string))
    (quoted : IsQuoted string) (previous : Option Token) (pieces : List Token) :
    ∃ space : String, (previous = none → space = "") ∧ isQuiet space.toList = true ∧
      (joinAfter previous (token :: pieces)).toList =
        space.toList ++ (stringLiteral string ++ (joinAfter (some token) pieces).toList) := by
  have comma : isTrailingComma token pieces.head? = false := by
    simp [isTrailingComma, ne_of_literal text quoted "," (by decide)]
  have joint : isLeadingJoint previous token = false := by
    simp [isLeadingJoint, ne_of_literal text quoted "|" (by decide),
      ne_of_literal text quoted "&" (by decide)]
  have kept := joinAfter_kept comma joint
  rwa [text, String.toList_ofList] at kept

/-- What is shown for some strings is, to a scan for arrows, what is written for them. -/
theorem Spells.alike (spells : Spells pieces strings) (quoted : ∀ string ∈ strings, IsQuoted string)
    (previous : Option Token) : Alike (joinAfter previous pieces).toList strings.flatten := by
  -- The piece in front decides about spaces and leading bars only, which are quiet.
  induction spells generalizing previous with
  | nil => exact .refl []
  | @bar token pieces strings text rest ih =>
    by_cases joint : isLeadingJoint previous token = true
    · rw [joinAfter_leading joint]
      exact ih quoted previous
    · have comma : isTrailingComma token pieces.head? = false := by simp [isTrailingComma, text]
      obtain ⟨space, _, quiet, same⟩ := joinAfter_kept comma (by simpa using joint)
      rw [same, text]
      have bar : isQuiet "|".toList = true := rfl
      exact (Alike.quiet_append quiet _).trans ((Alike.quiet_append bar _).trans (ih quoted _))
  | @literal token string pieces strings text rest ih =>
    have here := quoted string List.mem_cons_self
    have later := ih (fun other member => quoted other (List.mem_cons_of_mem _ member)) (some token)
    obtain ⟨space, _, quiet, same⟩ := joinAfter_literal text here previous pieces
    rw [same, List.flatten_cons]
    exact (Alike.quiet_append quiet _).trans (here.alike_stringLiteral.append later
      (here.isQuoted_stringLiteral.apart _) (here.apart _))

theorem Spells.head? (spells : Spells pieces strings) (some_string : strings ≠ [])
    (quoted : ∀ string ∈ strings, IsQuoted string) :
    (joinAfter none pieces).toList.head? = some '"' := by
  induction spells with
  | nil => exact absurd rfl some_string
  | @bar token pieces strings text rest ih =>
    have joint : isLeadingJoint none token = true := by simp [isLeadingJoint, text]
    rw [joinAfter_leading joint]
    exact ih some_string quoted
  | @literal token string pieces strings text rest ih =>
    have here := quoted string List.mem_cons_self
    obtain ⟨space, first, _, same⟩ := joinAfter_literal text here none pieces
    rw [same, first rfl]
    simp [here.head?_stringLiteral]

end Joined

/-- Quoted strings with an arrow outside of brackets have an arrow in one of them. -/
theorem exists_arrow_of_hasOuterArrow {strings : List (List Char)} {depth : Int}
    (quoted : ∀ string ∈ strings, IsQuoted string)
    (shown : hasOuterArrow depth strings.flatten = true) :
    ∃ string ∈ strings, "=>".toList <:+: string := by
  induction strings generalizing depth with
  | nil => cases shown
  | cons string rest ih =>
    have here := quoted string List.mem_cons_self
    rw [List.flatten_cons, hasOuterArrow_append (here.apart _), Bool.or_eq_true] at shown
    rcases shown with first | later
    · obtain ⟨before, after, same, _⟩ := hasOuterArrow_iff.mp first
      exact ⟨string, List.mem_cons_self, before, after, by simp [same]⟩
    · obtain ⟨other, member, arrow⟩ :=
        ih (fun other member => quoted other (List.mem_cons_of_mem _ member)) later
      exact ⟨other, List.mem_cons_of_mem _ member, arrow⟩

end Unions

end ApiSections.TypeText

namespace ApiSections.Fragment

open Syntax (Node unwrap)
open TypeText (IsQuoted HasLevelArrow stringsOf?)
open Display (typeAt)

/-- A constant that starts as a string, or that is declared to be one of some strings. -/
inductive HoldsStrings : Shape → List (List Char) → Prop where
  | literal {statement : VariableStatement} {initializer string : Node}
      (keyword : statement.keyword = .constKeyword) (found : unwrap initializer = some string)
      (kind : string.kind = .stringLiteral ∨
        string.kind = .templateString ∧ Display.hasSubstitution string = false) :
      HoldsStrings (.variable statement none (some initializer)) [string.text.toList]
  | union {statement : VariableStatement} {type : Node} {initializer : Option Node}
      {strings : List (List Char)} (keyword : statement.keyword = .constKeyword)
      (found : stringsOf? type = some strings) (some_string : strings ≠ []) :
      HoldsStrings (.variable statement (some type) initializer) strings

section Strings

variable {declaration : Declaration} {strings : List (List Char)}

theorem HoldsStrings.classify {type : String} (holds : HoldsStrings declaration.shape strings)
    (starts : type.toList.head? = some '"') :
    (classify declaration (some type) = .function ↔ TypeText.isCallable type = true) ∧
      (classify declaration (some type) = .constant ↔ ¬ TypeText.isCallable type = true) := by
  have notClass : isClassType (some type) = false := isClassType_of_head (by decide) starts
  generalize shape : declaration.shape = written at holds
  cases holds with
  | literal keyword => exact classify_const shape keyword notClass
  | union keyword => exact classify_const shape keyword notClass

theorem typeAt_string {statement : VariableStatement} {initializer string : Node} (symbol : Symbol)
    (shape : declaration.shape = .variable statement none (some initializer))
    (keyword : statement.keyword = .constKeyword) (found : unwrap initializer = some string)
    (kind : string.kind = .stringLiteral ∨
      string.kind = .templateString ∧ Display.hasSubstitution string = false) :
    typeAt symbol declaration =
      pure (.ok (String.ofList (TypeText.stringLiteral string.text.toList))) := by
  have simple : Display.simpleType? string ⟨true, false⟩ =
      some (.ok (String.ofList (TypeText.stringLiteral string.text.toList))) := by
    unfold Display.simpleType?
    rcases kind with kind | ⟨kind, whole⟩
    · rw [kind]
      rfl
    · rw [kind, whole]
      rfl
  rw [typeAt, Display.declarationType, Display.maxDepth,
    Display.declarationFrom_variable shape (by simp [Display.Context.empty]), keyword,
    Display.inferBy_eq, Display.expressionBy, found]
  dsimp only
  rw [beq_self_eq_true, simple]
  rfl

theorem typeAt_annotated {statement : VariableStatement} {type : Node} {initializer : Option Node}
    (symbol : Symbol) (shape : declaration.shape = .variable statement (some type) initializer) :
    typeAt symbol declaration = pure (.ok (TypeText.print type)) := by
  rw [typeAt, Display.declarationType, Display.maxDepth, Display.declarationFrom,
    if_neg (by simp [Display.Context.empty]), Display.declarationBy, shape]
  rfl

theorem HoldsStrings.typeAt (holds : HoldsStrings declaration.shape strings)
    (quoted : ∀ string ∈ strings, IsQuoted string) (symbol : Symbol) :
    ∃ type : String, typeAt symbol declaration = pure (.ok type) ∧
      type.toList.head? = some '"' ∧ TypeText.Alike type.toList strings.flatten := by
  generalize shape : declaration.shape = written at holds
  cases holds with
  | @literal statement initializer string keyword found kind =>
    have here := quoted _ (List.mem_singleton.mpr rfl)
    refine ⟨_, typeAt_string symbol shape keyword found kind, ?_, ?_⟩
    · rw [String.toList_ofList]
      exact here.head?_stringLiteral
    · rw [String.toList_ofList, List.flatten_singleton]
      exact here.alike_stringLiteral
  | @union statement type initializer strings keyword found some_string =>
    have spells := TypeText.spells_tokens type found
    exact ⟨_, typeAt_annotated symbol shape, spells.head? some_string quoted, spells.alike quoted none⟩

/-- A constant that holds strings is a constant unless an arrow in one of them stands outside of all
brackets, counted through the strings as they are written; then it is a function. -/
theorem strings_constant_iff (symbol : Symbol) (holds : HoldsStrings declaration.shape strings)
    (quoted : ∀ string ∈ strings, IsQuoted string) :
    ∃ type, typeAt symbol declaration = pure (.ok type) ∧
      (TypeText.isCallable type = true ↔ HasLevelArrow 0 strings.flatten) ∧
      (classify declaration (some type) = .constant ↔ ¬ HasLevelArrow 0 strings.flatten) ∧
      (classify declaration (some type) = .function ↔ HasLevelArrow 0 strings.flatten) ∧
      ((∀ string ∈ strings, ¬ "=>".toList <:+: string) →
        classify declaration (some type) = .constant) := by
  obtain ⟨type, shown, starts, alike⟩ := holds.typeAt quoted symbol
  have callable : TypeText.isCallable type = true ↔ HasLevelArrow 0 strings.flatten :=
    (TypeText.isCallable_iff_of_head (by decide) (by decide) starts).trans (alike.hasLevelArrow_iff 0)
  obtain ⟨function, constant⟩ := holds.classify starts
  refine ⟨type, shown, callable, ?_, function.trans callable, ?_⟩
  · rw [constant, callable]
  · intro none
    rw [constant, callable, ← TypeText.hasOuterArrow_iff]
    intro arrow
    obtain ⟨string, member, inside⟩ := TypeText.exists_arrow_of_hasOuterArrow quoted arrow
    exact none string member inside

end Strings

/-- The declaration of a name in a module. -/
def declared? (workspace : Workspace) (path : Path) (name : String) : Option (Symbol × Declaration) :=
  ((workspace.module? path).bind (·.local? name)).bind fun symbol =>
    symbol.primary?.map fun declaration => (symbol, declaration)

/-- The strings that a constant is declared to be one of. -/
def unionOf? (shape : Shape) : Option (List (List Char)) :=
  match shape with
  | .variable statement (some type) _ =>
    if statement.keyword = .constKeyword then stringsOf? type else none
  | _ => none

theorem holdsStrings_of_unionOf? {shape : Shape} {strings : List (List Char)}
    (found : unionOf? shape = some strings) (some_string : strings ≠ []) :
    HoldsStrings shape strings := by
  unfold unionOf? at found
  split at found
  · split at found
    · rename_i keyword
      exact .union keyword found some_string
    · cases found
  · cases found

/-- A union in which a bracket of one string hides the arrow of the next one. -/
theorem strings_constant_hidden :
    let source := "const x:'('|'=>'=y"
    let tree : FileTree := ⟨Path.ofString "/w", [], [(["w", "a"], Text.encode source)]⟩
    let workspace : Workspace := ⟨tree, none, fun _ => .failed "not found"⟩
    ∃ symbol x, declared? workspace (Path.ofString "a") "x" = some (symbol, x) ∧
      HoldsStrings x.shape ["'('".toList, "'=>'".toList] ∧
      ∃ type, typeAt symbol x = pure (.ok type) ∧ TypeText.isCallable type = false ∧
        classify x (some type) = .constant := by
  intro source tree workspace
  have facts : ((declared? workspace (Path.ofString "a") "x").bind (unionOf? ·.2.shape)) =
      some ["'('".toList, "'=>'".toList] := by decide +kernel
  obtain ⟨⟨symbol, x⟩, found, written⟩ := Option.bind_eq_some_iff.mp facts
  have holds : HoldsStrings x.shape ["'('".toList, "'=>'".toList] :=
    holdsStrings_of_unionOf? written (by simp)
  have quoted : ∀ string ∈ ["'('".toList, "'=>'".toList], IsQuoted string := by
    intro string member
    simp only [List.mem_cons, List.not_mem_nil, or_false] at member
    rcases member with rfl | rfl
    · exact ⟨'\'', ['('], rfl, rfl⟩
    · exact ⟨'\'', ['=', '>'], rfl, rfl⟩
  obtain ⟨type, shown, callable, constant, _⟩ := strings_constant_iff symbol holds quoted
  have hidden : ¬ HasLevelArrow 0 ["'('".toList, "'=>'".toList].flatten := by decide
  refine ⟨symbol, x, found, holds, type, shown, ?_, constant.mpr hidden⟩
  rwa [Bool.eq_false_iff, Ne, callable]

/-- An arrow between quotes. -/
theorem strings_constant_arrow :
    let source := "const x='=>'"
    let tree : FileTree := ⟨Path.ofString "/w", [], [(["w", "a"], Text.encode source)]⟩
    let workspace : Workspace := ⟨tree, none, fun _ => .failed "not found"⟩
    ∃ symbol x statement string,
      Display.assigned? workspace (Path.ofString "a") "x" = some (symbol, x, statement, string) ∧
      statement.keyword = .constKeyword ∧ string.kind = .stringLiteral ∧ string.text = "'=>'" ∧
      Work.answer workspace (typeAt symbol x) = .ok (.ok "\"=>\"") ∧
      classify x (some "\"=>\"") = .function := by
  intro source tree workspace
  have facts : ((Display.assigned? workspace (Path.ofString "a") "x").map fun found =>
      (found.2.2.1.keyword, found.2.2.2.kind, found.2.2.2.text,
        (Work.answer workspace (typeAt found.1 found.2.1)).toOption.bind (·.toOption),
        classify found.2.1 (some "\"=>\""))) =
      some (.constKeyword, .stringLiteral, "'=>'", some "\"=>\"", .function) := by
    decide +kernel
  obtain ⟨⟨symbol, x, statement, string⟩, found, facts⟩ := Option.map_eq_some_iff.mp facts
  simp only [Prod.mk.injEq] at facts
  obtain ⟨keyword, kind, text, shown, function⟩ := facts
  obtain ⟨outcome, ended, type⟩ := Option.bind_eq_some_iff.mp shown
  refine ⟨symbol, x, statement, string, found, keyword, kind, text, ?_, function⟩
  rw [eq_ok_of_toOption ended, eq_ok_of_toOption type]

end ApiSections.Fragment
