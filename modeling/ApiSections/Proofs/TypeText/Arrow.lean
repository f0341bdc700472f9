import ApiSections.Proofs.Text.Pieces
import ApiSections.Syntax.Scanner
import ApiSections.TypeText.Callable

/-!
Arrows outside of brackets. An arrow is told by the brackets in front of it alone: it is an outer one
where as many have been closed as opened. So the parts of a text can be scanned one by one, and text
with balanced brackets leaves the depth as it was.
-/

namespace ApiSections.TypeText

open Text (trim trimLeft trimRight isBlank)

/-- What a character does to the number of open brackets. -/
def turn (c : Char) : Int := if isOpener c then 1 else if isCloser c then -1 else 0

/-- How many brackets a text opens more than it closes; the head of an arrow closes none. -/
def surplus : List Char → Int
  | [] => 0
  | '=' :: '>' :: rest => surplus rest
  | c :: rest => turn c + surplus rest

/-- Some arrow has as many brackets closed as opened in front of it, with `depth` open at the start. -/
def HasLevelArrow (depth : Int) (text : List Char) : Prop :=
  ∃ before after, text = before ++ '=' :: '>' :: after ∧ depth + surplus before = 0

/-- Every bracket that is closed was opened before, and every one that is opened is closed; `open_`
brackets are open at the start. -/
def balanced (open_ : Nat) : List Char → Bool
  | [] => open_ == 0
  | '=' :: '>' :: rest => balanced open_ rest
  | c :: rest =>
    if isOpener c then balanced (open_ + 1) rest
    else if isCloser c then open_ != 0 && balanced (open_ - 1) rest
    else balanced open_ rest

def Balanced (text : String) : Prop := balanced 0 text.toList = true

instance (text : String) : Decidable (Balanced text) := inferInstanceAs (Decidable (_ = _))

section Scan

variable {depth : Int} {open_ around : Nat} {c : Char} {text first second : List Char}

/-- A character that does not start an arrow. -/
def IsPlain (c : Char) (rest : List Char) : Prop := ¬ (c = '=' ∧ rest.head? = some '>')

/-- Texts are scanned by arrows and single characters. -/
theorem scan_induction {motive : List Char → Prop} (nil : motive [])
    (arrow : ∀ rest, motive rest → motive ('=' :: '>' :: rest))
    (plain : ∀ c rest, IsPlain c rest → motive rest → motive (c :: rest)) (text : List Char) :
    motive text := by
  fun_induction surplus text with
  | case1 => exact nil
  | case2 rest ih => exact arrow rest ih
  | case3 c rest notArrow ih =>
    refine plain c rest ?_ ih
    rintro ⟨rfl, follows⟩
    obtain ⟨rest, rfl⟩ := List.head?_eq_some_iff.mp follows
    exact notArrow rest rfl rfl

theorem hasOuterArrow_cons (plain : IsPlain c text) :
    hasOuterArrow depth (c :: text) = hasOuterArrow (depth + turn c) text := by
  have step : hasOuterArrow depth (c :: text) = hasOuterArrow
      (if isOpener c then depth + 1 else if isCloser c then depth - 1 else depth) text := by
    apply hasOuterArrow.eq_3
    rintro rest rfl rfl
    exact plain ⟨rfl, rfl⟩
  rw [step, turn]
  split
  · rfl
  · split
    · rfl
    · rw [Int.add_zero]

theorem surplus_cons (plain : IsPlain c text) : surplus (c :: text) = turn c + surplus text := by
  apply surplus.eq_3
  rintro rest rfl rfl
  exact plain ⟨rfl, rfl⟩

theorem balanced_cons (plain : IsPlain c text) :
    balanced open_ (c :: text) =
      (decide (0 ≤ open_ + turn c) && balanced (open_ + turn c).toNat text) := by
  have step : balanced open_ (c :: text) =
      if isOpener c then balanced (open_ + 1) text
      else if isCloser c then open_ != 0 && balanced (open_ - 1) text
      else balanced open_ text := by
    apply balanced.eq_3
    rintro rest rfl rfl
    exact plain ⟨rfl, rfl⟩
  rw [step, turn]
  split
  · have kept : 0 ≤ (open_ : Int) + 1 := by omega
    rw [decide_eq_true kept, Bool.true_and]
    rfl
  · split
    · cases open_ with
      | zero => rfl
      | succ open_ =>
        have lower : ((open_ + 1 : Nat) : Int) + -1 = open_ := by omega
        rw [lower]
        simp
    · simp

/-- Two texts do not make an arrow where they meet. -/
def Apart (first second : List Char) : Prop :=
  first.getLast? ≠ some '=' ∨ second.head? ≠ some '>'

theorem Apart.tail (apart : Apart (c :: first) second) : Apart first second := by
  cases first with
  | nil => exact .inl nofun
  | cons d first => simpa [Apart, List.getLast?_cons_cons] using apart

theorem Apart.isPlain (apart : Apart (c :: first) second) (plain : IsPlain c first) :
    IsPlain c (first ++ second) := by
  cases first with
  | cons d first => exact plain
  | nil =>
    rintro ⟨rfl, follows⟩
    rcases apart with ended | starts
    · exact ended rfl
    · exact starts follows

/-- The scan of a text goes on in the next one with the brackets that are still open. -/
theorem hasOuterArrow_append (apart : Apart first second) :
    hasOuterArrow depth (first ++ second) =
      (hasOuterArrow depth first || hasOuterArrow (depth + surplus first) second) := by
  induction first using scan_induction generalizing depth with
  | nil => simp [surplus, hasOuterArrow]
  | arrow rest ih =>
    rw [List.cons_append, List.cons_append, hasOuterArrow, ih apart.tail.tail, surplus, hasOuterArrow,
      Bool.or_assoc]
  | plain c rest plain ih =>
    rw [List.cons_append, hasOuterArrow_cons (apart.isPlain plain), hasOuterArrow_cons plain,
      surplus_cons plain, ih apart.tail, Int.add_assoc]

theorem surplus_append (apart : Apart first second) :
    surplus (first ++ second) = surplus first + surplus second := by
  induction first using scan_induction with
  | nil => simp [surplus]
  | arrow rest ih =>
    rw [List.cons_append, List.cons_append, surplus, ih apart.tail.tail, surplus]
  | plain c rest plain ih =>
    rw [List.cons_append, surplus_cons (apart.isPlain plain), surplus_cons plain, ih apart.tail,
      Int.add_assoc]

theorem hasOuterArrow_iff : hasOuterArrow depth text = true ↔ HasLevelArrow depth text := by
  constructor
  · induction text using scan_induction generalizing depth with
    | nil => exact nofun
    | arrow rest ih =>
      intro found
      rw [hasOuterArrow, Bool.or_eq_true, beq_iff_eq] at found
      rcases found with level | later
      · exact ⟨[], rest, rfl, by rw [level]; rfl⟩
      · obtain ⟨before, after, rfl, level⟩ := ih later
        exact ⟨'=' :: '>' :: before, after, rfl, level⟩
    | plain c rest plain ih =>
      intro found
      rw [hasOuterArrow_cons plain] at found
      obtain ⟨before, after, rfl, level⟩ := ih found
      have plain_before : IsPlain c before := by
        cases before with
        | nil => rintro ⟨_, follows⟩; cases follows
        | cons d before => exact plain
      refine ⟨c :: before, after, rfl, ?_⟩
      rw [surplus_cons plain_before]
      omega
  · rintro ⟨before, after, rfl, level⟩
    have apart : Apart before ('=' :: '>' :: after) := .inr (by simp)
    rw [hasOuterArrow_append apart, level]
    simp [hasOuterArrow]

instance : Decidable (HasLevelArrow depth text) := decidable_of_iff _ hasOuterArrow_iff

/-- Text with balanced brackets closes what is open in front of it. -/
theorem surplus_of_balanced (whole : balanced open_ text = true) : surplus text = -open_ := by
  induction text using scan_induction generalizing open_ with
  | nil =>
    have none : open_ = 0 := by simpa [balanced] using whole
    rw [none]
    rfl
  | arrow rest ih => exact ih whole
  | plain c rest plain ih =>
    rw [balanced_cons plain, Bool.and_eq_true, decide_eq_true_eq] at whole
    have later := ih whole.2
    rw [surplus_cons plain]
    omega

/-- Behind a balanced text as many brackets are open as in front of it. -/
theorem balanced_append_inside (whole : balanced open_ first = true) (apart : Apart first second) :
    balanced (open_ + around) (first ++ second) = balanced around second := by
  induction first using scan_induction generalizing open_ with
  | nil =>
    have none : open_ = 0 := by simpa [balanced] using whole
    rw [none, Nat.zero_add]
    rfl
  | arrow rest ih => exact ih whole apart.tail.tail
  | plain c rest plain ih =>
    rw [balanced_cons plain, Bool.and_eq_true, decide_eq_true_eq] at whole
    have kept : (0 : Int) ≤ (open_ + around : Nat) + turn c := by omega
    have same : (((open_ + around : Nat) : Int) + turn c).toNat =
        ((open_ : Int) + turn c).toNat + around := by omega
    rw [List.cons_append, balanced_cons (apart.isPlain plain), decide_eq_true kept, same,
      ih whole.2 apart.tail, Bool.true_and]

theorem balanced_append (whole : balanced 0 first = true) (apart : Apart first second) :
    balanced 0 (first ++ second) = balanced 0 second := by
  have later : balanced (0 + 0) (first ++ second) = balanced 0 second :=
    balanced_append_inside whole apart
  exact later

/-- Inside of further brackets no arrow of a balanced text is an outer one. -/
theorem hasOuterArrow_inside (whole : balanced open_ text = true) {around : Int}
    (some_open : 0 < around) : hasOuterArrow (open_ + around) text = false := by
  induction text using scan_induction generalizing open_ with
  | nil => rfl
  | arrow rest ih =>
    have deep : ((open_ : Int) + around == 0) = false := by
      rw [beq_eq_false_iff_ne]
      omega
    rw [hasOuterArrow, deep, ih whole]
    rfl
  | plain c rest plain ih =>
    rw [balanced_cons plain, Bool.and_eq_true, decide_eq_true_eq] at whole
    have later := ih whole.2
    have same : (open_ : Int) + around + turn c = ((open_ + turn c).toNat : Int) + around := by omega
    rw [hasOuterArrow_cons plain, same, later]

/-- No character of a text takes part in an arrow or is a bracket. -/
def isQuiet (text : List Char) : Bool := text.all fun c => c != '=' && !isOpener c && !isCloser c

theorem balanced_of_isQuiet (quiet : isQuiet text = true) : balanced 0 text = true := by
  induction text with
  | nil => rfl
  | cons c text ih =>
    obtain ⟨here, later⟩ := Bool.and_eq_true_iff.mp quiet
    simp only [Bool.and_eq_true, bne_iff_ne, Bool.not_eq_true'] at here
    have plain : IsPlain c text := fun starts => here.1.1 starts.1
    have still : turn c = 0 := by simp [turn, here.1.2, here.2]
    rw [balanced_cons plain, still]
    exact ih later

theorem apart_of_isQuiet (quiet : isQuiet first = true) : Apart first second := by
  left
  intro ended
  have member : '=' ∈ first := List.mem_of_getLast? ended
  have none := List.all_eq_true.mp quiet '=' member
  cases none

theorem apart_isQuiet (quiet : isQuiet (c :: second) = true) (rest : List Char) :
    Apart first (c :: second ++ rest) := by
  right
  rintro same
  cases same
  cases quiet

/-- Balanced texts stay so where they are put together with quiet ones between them. -/
theorem balanced_intercalate {texts : List (List Char)} (quiet : isQuiet (c :: second) = true)
    (whole : ∀ text ∈ texts, balanced 0 text = true) :
    balanced 0 ((c :: second).intercalate texts) = true := by
  induction texts with
  | nil => rfl
  | cons text rest ih =>
    have here := whole text List.mem_cons_self
    have later := ih fun other member => whole other (List.mem_cons_of_mem _ member)
    cases rest with
    | nil =>
      rw [List.intercalate_singleton]
      exact here
    | cons next rest =>
      rw [List.intercalate_cons_cons, List.append_assoc, balanced_append here (apart_isQuiet quiet _),
        balanced_append (balanced_of_isQuiet quiet) (apart_of_isQuiet quiet)]
      exact later

theorem hasOuterArrow_of_isQuiet (quiet : isQuiet text = true) : hasOuterArrow depth text = false := by
  rw [Bool.eq_false_iff, Ne, hasOuterArrow_iff]
  rintro ⟨before, after, rfl, _⟩
  have none := List.all_eq_true.mp quiet '=' (by simp)
  cases none

theorem hasOuterArrow_quiet_append (quiet : isQuiet first = true) :
    hasOuterArrow depth (first ++ second) = hasOuterArrow depth second := by
  have level : surplus first = 0 := surplus_of_balanced (balanced_of_isQuiet quiet)
  rw [hasOuterArrow_append (apart_of_isQuiet quiet), hasOuterArrow_of_isQuiet quiet, level,
    Bool.false_or, Int.add_zero]

theorem hasOuterArrow_append_quiet (quiet : isQuiet second = true) (apart : Apart first second) :
    hasOuterArrow depth (first ++ second) = hasOuterArrow depth first := by
  rw [hasOuterArrow_append apart, hasOuterArrow_of_isQuiet quiet, Bool.or_false]

end Scan

section Trimmed

variable {depth : Int} {text : List Char}

theorem isQuiet_of_forall {p : Char → Bool} (all : ∀ c ∈ text, p c = true)
    (none : ("=([\x7b<)]\x7d>".toList.all fun mark => !p mark) = true) : isQuiet text = true := by
  apply List.all_eq_true.mpr
  intro c member
  have ne : c ∉ "=([\x7b<)]\x7d>".toList := by
    intro among
    have silent := List.all_eq_true.mp none c among
    rw [all c member] at silent
    cases silent
  simp [isOpener, isCloser] at ne ⊢
  tauto

theorem isQuiet_of_blank (blank : ∀ c ∈ text, isBlank c = true) : isQuiet text = true :=
  isQuiet_of_forall blank (by decide)

theorem exists_trim (text : List Char) : ∃ front back, (∀ c ∈ front, isBlank c = true) ∧
    (∀ c ∈ back, isBlank c = true) ∧ text = front ++ (trim text ++ back) := by
  refine ⟨text.takeWhile isBlank, ((trimLeft text).reverse.takeWhile isBlank).reverse, ?_, ?_, ?_⟩
  · exact fun c member => List.mem_takeWhile_imp member
  · exact fun c member => List.mem_takeWhile_imp (List.mem_reverse.mp member)
  · simp only [trim, Text.trimRight_eq_reverse, ← List.reverse_append, trimLeft,
      List.takeWhile_append_dropWhile, List.reverse_reverse]

theorem hasOuterArrow_trim (depth : Int) (text : List Char) :
    hasOuterArrow depth (trim text) = hasOuterArrow depth text := by
  obtain ⟨front, back, before, after, split⟩ := exists_trim text
  have apart : Apart (trim text) back := by
    right
    intro starts
    have blank := after '>' (List.mem_of_mem_head? starts)
    cases blank
  conv_rhs => rw [split]
  rw [hasOuterArrow_quiet_append (isQuiet_of_blank before),
    hasOuterArrow_append_quiet (isQuiet_of_blank after) apart]

/-- The front of a text stays if it starts and ends with something to see. -/
theorem prefix_trim {c : Char} {lead text : List Char} (ink : isBlank c = false)
    (ended : trimRight (c :: lead) = c :: lead) (starts : c :: lead <+: text) :
    c :: lead <+: trim text := by
  obtain ⟨rest, rfl⟩ := starts
  have kept : trimLeft (c :: lead ++ rest) = c :: lead ++ rest := by simp [trimLeft, ink]
  have front := Text.trimRight_prefix_append (c :: lead) rest
  rwa [ended, ← kept] at front

end Trimmed

section Callable

variable {type : String}

theorem isCallable_of_signatures (starts : "\x7b (".toList <+: type.toList) :
    isCallable type = true := by
  have front : "\x7b (".toList <+: trim type.toList := prefix_trim (by decide) (by decide) starts
  rw [isCallable, List.isPrefixOf_iff_prefix.mpr front]
  rfl

/-- A type that does not start like a list of signatures is callable by its arrows only. -/
theorem isCallable_iff_of_lead {c : Char} {lead : List Char} (ink : isBlank c = false)
    (ended : trimRight (c :: lead) = c :: lead) (starts : c :: lead <+: type.toList)
    (shorter : ¬ c :: lead <+: "\x7b (".toList) (longer : ¬ "\x7b (".toList <+: c :: lead) :
    isCallable type = true ↔ HasLevelArrow 0 type.toList := by
  have front := prefix_trim ink ended starts
  have other : "\x7b (".toList.isPrefixOf (trim type.toList) = false := by
    rw [Bool.eq_false_iff, Ne, List.isPrefixOf_iff_prefix]
    intro signatures
    rcases List.prefix_or_prefix_of_prefix front signatures with inner | inner
    · exact shorter inner
    · exact longer inner
  rw [isCallable, other, Bool.false_or, hasOuterArrow_trim, hasOuterArrow_iff]

theorem isCallable_iff_of_head {c : Char} (ink : isBlank c = false) (other : c ≠ '\x7b')
    (starts : type.toList.head? = some c) :
    isCallable type = true ↔ HasLevelArrow 0 type.toList := by
  obtain ⟨rest, same⟩ := List.head?_eq_some_iff.mp starts
  have front : [c] <+: type.toList := by
    rw [same]
    exact ⟨rest, rfl⟩
  refine isCallable_iff_of_lead ink ?_ front ?_ ?_
  · simp [trimRight, Text.dropTail, ink]
  · simpa using other
  · intro inner
    have shorter := inner.length_le
    simp at shorter

theorem isCallable_of_hasLevelArrow (level : HasLevelArrow 0 type.toList) : isCallable type = true := by
  rw [isCallable, hasOuterArrow_trim, hasOuterArrow_iff.mpr level, Bool.or_true]

end Callable

section Balance

variable {text : List Char}

/-- Brackets around balanced text hide its arrows. -/
theorem hasOuterArrow_enclosed {opening closing : Char} {rest : List Char}
    (opens : isOpener opening = true) (closes : turn closing = -1) (whole : balanced 0 text = true)
    (apart : Apart text (closing :: rest)) (other : closing ≠ '=') :
    hasOuterArrow 0 (opening :: (text ++ closing :: rest)) = hasOuterArrow 0 rest := by
  have plain : IsPlain opening (text ++ closing :: rest) := by
    rintro ⟨rfl, _⟩
    cases opens
  have plain_closing : IsPlain closing rest := fun starts => other starts.1
  have deeper : (0 : Int) + turn opening = 1 := by simp [turn, opens]
  have inside : hasOuterArrow 1 text = false := hasOuterArrow_inside whole Int.one_pos
  have level : surplus text = 0 := surplus_of_balanced whole
  rw [hasOuterArrow_cons plain, deeper, hasOuterArrow_append apart, inside, level,
    hasOuterArrow_cons plain_closing, closes]
  rfl

theorem balanced_parentheses (whole : balanced 0 text = true) :
    balanced 0 ('(' :: (text ++ [')'])) = true := by
  have plain : IsPlain '(' (text ++ [')']) := nofun
  have inside : balanced (0 + 1) (text ++ [')']) = balanced 1 [')'] :=
    balanced_append_inside whole (.inr (by simp))
  rw [balanced_cons plain]
  exact inside

theorem hasOuterArrow_angled (whole : balanced 0 text = true) :
    hasOuterArrow 0 ('<' :: (text ++ ['>'])) = false := by
  by_cases ended : text.getLast? = some '='
  · -- The last character makes an arrow with the bracket, which is left open.
    obtain ⟨front, rfl⟩ := List.getLast?_eq_some_iff.mp ended
    have apart (rest : List Char) : Apart front ('=' :: rest) := .inr (by simp)
    have inside : hasOuterArrow 1 (front ++ ['=']) = false := hasOuterArrow_inside whole Int.one_pos
    have level : surplus (front ++ ['=']) = 0 := surplus_of_balanced whole
    rw [hasOuterArrow_append (apart []), Bool.or_eq_false_iff] at inside
    rw [surplus_append (apart [])] at level
    have same : surplus front = 0 := by simpa [surplus, turn, isOpener, isCloser] using level
    have plain : IsPlain '<' (front ++ ['='] ++ ['>']) := nofun
    rw [hasOuterArrow_cons plain, List.append_assoc]
    change hasOuterArrow 1 (front ++ '=' :: ['>']) = false
    rw [hasOuterArrow_append (apart ['>']), inside.1, same]
    rfl
  · exact hasOuterArrow_enclosed rfl rfl whole (.inl ended) (by decide)

/-- The brackets of an array type of so many dimensions. -/
def dimensions (count : Nat) : String := String.join (List.replicate count "[]")

theorem hasOuterArrow_dimensions (count : Nat) : hasOuterArrow 0 (dimensions count).toList = false := by
  induction count with
  | zero => rfl
  | succ count ih =>
    have more : (dimensions (count + 1)).toList = '[' :: ([] ++ ']' :: (dimensions count).toList) := by
      simp [dimensions, List.replicate_succ]
    rw [more, hasOuterArrow_enclosed rfl rfl rfl (.inl (by simp)) (by decide), ih]

def IsName (text : String) : Prop := Syntax.nameLength text.toList = some text.toList.length

instance (text : String) : Decidable (IsName text) := inferInstanceAs (Decidable (_ = _))

theorem exists_head_of_isName {name : String} (is : IsName name) :
    ∃ c, name.toList.head? = some c ∧ ∀ d ∈ name.toList, Syntax.isNamePart d = true := by
  rw [IsName] at is
  cases same : name.toList with
  | nil => rw [same] at is; cases is
  | cons c rest =>
    rw [same, Syntax.nameLength] at is
    by_cases starts : Syntax.isNameStart c = true
    · rw [if_pos starts, Option.some.injEq, List.length_cons] at is
      have all : (rest.takeWhile Syntax.isNamePart).length = rest.length := by omega
      have whole : rest.takeWhile Syntax.isNamePart = rest :=
        (List.takeWhile_prefix _).eq_of_length all
      refine ⟨c, rfl, ?_⟩
      intro d member
      rcases List.mem_cons.mp member with rfl | member
      · exact (Bool.and_eq_true_iff.mp starts).1
      · exact List.takeWhile_eq_self_iff.mp whole d member
    · rw [if_neg starts] at is
      cases is

theorem isBlank_of_isNamePart {c : Char} (part : Syntax.isNamePart c = true) : isBlank c = false := by
  simp only [Syntax.isNamePart, Syntax.isGap, Bool.and_eq_true, Bool.not_eq_true',
    Bool.or_eq_false_iff, Bool.and_eq_false_iff, decide_eq_true_eq, decide_eq_false_iff_not,
    beq_eq_false_iff_ne] at part
  simp only [isBlank, Bool.or_eq_false_iff, Bool.and_eq_false_iff, decide_eq_false_iff_not,
    beq_eq_false_iff_ne]
  omega

end Balance

/-- An arrow behind balanced text makes a callable type. Balanced text in parentheses or brackets, also
as the element type of an array, and balanced arguments of a name make none. -/
theorem isCallable_of_balanced {text : String} (whole : Balanced text) :
    (∀ rest, isCallable (text ++ " => " ++ rest) = true) ∧
    (∀ count, isCallable ("(" ++ text ++ ")" ++ dimensions count) = false ∧
      isCallable ("[" ++ text ++ "]" ++ dimensions count) = false) ∧
    ∀ name, IsName name → isCallable (name ++ "<" ++ text ++ ">") = false := by
  have uncallable {type : String} {c : Char} (starts : type.toList.head? = some c)
      (ink : isBlank c = false) (other : c ≠ '\x7b') (hidden : hasOuterArrow 0 type.toList = false) :
      isCallable type = false := by
    rw [Bool.eq_false_iff, Ne, isCallable_iff_of_head ink other starts, ← hasOuterArrow_iff, hidden]
    exact Bool.false_ne_true
  refine ⟨fun rest => ?_, fun count => ⟨?_, ?_⟩, fun name is => ?_⟩
  · apply isCallable_of_hasLevelArrow
    refine ⟨text.toList ++ [' '], ' ' :: rest.toList, by simp, ?_⟩
    have level : surplus text.toList = 0 := surplus_of_balanced whole
    rw [surplus_append (.inr (by simp)), level]
    rfl
  · apply uncallable (c := '(') (by simp) (by decide) (by decide)
    have same : ("(" ++ text ++ ")" ++ dimensions count).toList =
        '(' :: (text.toList ++ ')' :: (dimensions count).toList) := by simp
    rw [same, hasOuterArrow_enclosed rfl rfl whole (.inr (by simp)) (by decide)]
    exact hasOuterArrow_dimensions count
  · apply uncallable (c := '[') (by simp) (by decide) (by decide)
    have same : ("[" ++ text ++ "]" ++ dimensions count).toList =
        '[' :: (text.toList ++ ']' :: (dimensions count).toList) := by simp
    rw [same, hasOuterArrow_enclosed rfl rfl whole (.inr (by simp)) (by decide)]
    exact hasOuterArrow_dimensions count
  · obtain ⟨c, starts, parts⟩ := exists_head_of_isName is
    have part : Syntax.isNamePart c = true := parts c (List.mem_of_mem_head? starts)
    have same : (name ++ "<" ++ text ++ ">").toList =
        name.toList ++ '<' :: (text.toList ++ ['>']) := by simp
    refine uncallable (c := c) ?_ (isBlank_of_isNamePart part) ?_ ?_
    · rw [same, List.head?_append, starts]
      rfl
    · rintro rfl
      cases part
    · rw [same, hasOuterArrow_quiet_append (isQuiet_of_forall parts (by decide))]
      exact hasOuterArrow_angled whole

theorem isCallable_of_balanced_nested :
    Balanced "(a: Map<string, () => void>, b?: [x=])" ∧ IsName "Promise" ∧
      isCallable "(a: Map<string, () => void>, b?: [x=]) => \x7b" = true ∧
      isCallable "((a: Map<string, () => void>, b?: [x=]))[][]" = false ∧
      isCallable "Promise<(a: Map<string, () => void>, b?: [x=])>" = false := by
  have whole : Balanced "(a: Map<string, () => void>, b?: [x=])" := by decide
  have name : IsName "Promise" := by decide
  obtain ⟨arrow, enclosed, arguments⟩ := isCallable_of_balanced whole
  exact ⟨whole, name, arrow "\x7b", (enclosed 2).1, arguments "Promise" name⟩

end ApiSections.TypeText
