import ApiSections.Proofs.Syntax.Laid
import ApiSections.Syntax.Rule

/-!
Rules that give their nodes in order, from where they start to where they go on. What is put together
from such rules is one again.
-/

namespace ApiSections.Syntax

theorem Cursor.le_offset_step (cursor : Cursor) : cursor.offset ≤ cursor.step.offset := by
  unfold step
  split
  · exact Nat.le_refl _
  · exact Nat.le_succ _

theorem Cursor.le_offset_advance (cursor : Cursor) (count : Nat) :
    cursor.offset ≤ (cursor.advance count).offset := by
  induction count generalizing cursor with
  | zero => exact Nat.le_refl _
  | succ count ih => exact Nat.le_trans cursor.le_offset_step (ih cursor.step)

theorem Cursor.offset_lt_advance {cursor : Cursor} {c : Char} {rest : List Char}
    (text : cursor.rest = c :: rest) (count : Nat) :
    cursor.offset < (cursor.advance (count + 1)).offset := by
  have moves : cursor.step.offset = cursor.offset + 1 := by rw [step, text]
  have more := cursor.step.le_offset_advance count
  rw [advance]
  omega

/-- A kind of nodes that are not in braces of their own. -/
class Plain (isBraced : Bool) : Prop where
  none : isBraced = false

instance : Plain false := ⟨rfl⟩

section Nodes

variable {kind : Kind} {cursor next : Cursor} {nodes : List Node}

theorem laid_leafAt [plain : Plain kind.isBraced] (cursor : Cursor) (count : Nat) :
    Laid cursor.offset (leafAt kind cursor count).2.offset [(leafAt kind cursor count).1] := by
  have neat : (leafAt kind cursor count).1.Neat := by
    rw [Node.neat_iff]
    refine ⟨?_, fun braced => absurd (plain.none.symm.trans braced) Bool.false_ne_true⟩
    exact laid_nil (cursor.le_offset_advance count)
  exact laid_singleton neat

theorem laid_gapFrom (fuel : Nat) (cursor : Cursor) :
    Laid cursor.offset (gapFrom fuel cursor).2.offset (gapFrom fuel cursor).1 := by
  induction fuel generalizing cursor with
  | zero => exact laid_nil (Nat.le_refl _)
  | succ fuel ih =>
    rw [gapFrom]
    split
    · exact laid_nil (Nat.le_refl _)
    · split
      · exact (ih cursor.step).from cursor.le_offset_step
      · split
        · exact (laid_leafAt cursor _).append (ih _)
        · exact laid_nil (Nat.le_refl _)

theorem laid_gap (cursor : Cursor) : Laid cursor.offset (gap cursor).2.offset (gap cursor).1 :=
  laid_gapFrom _ cursor

theorem isComment_gapFrom (fuel : Nat) (cursor : Cursor) :
    ∀ node ∈ (gapFrom fuel cursor).1, node.isComment := by
  induction fuel generalizing cursor with
  | zero => exact fun _ member => nomatch member
  | succ fuel ih =>
    rw [gapFrom]
    split
    · exact fun _ member => nomatch member
    · split
      · exact ih cursor.step
      · split
        · exact List.forall_mem_cons.mpr ⟨rfl, ih _⟩
        · exact fun _ member => nomatch member

theorem isComment_gap (cursor : Cursor) : ∀ node ∈ (gap cursor).1, node.isComment :=
  isComment_gapFrom _ cursor

theorem laid_setRole {start stop : Nat} {field : Field} (laid : Laid start stop nodes) :
    Laid start stop (Rule.setRole field nodes) := by
  induction nodes generalizing start with
  | nil => exact laid
  | cons node rest ih =>
    rw [Laid] at laid
    obtain ⟨before, neat, laid⟩ := laid
    have rest := ih laid
    rw [Rule.setRole, List.map_cons, Laid]
    split
    · exact ⟨before, neat, rest⟩
    · cases node
      exact ⟨before, neat, rest⟩

/-- Nodes in a parent that needs no brace, or has one. -/
theorem laid_enclose (laid : Laid cursor.offset next.offset nodes)
    (opens : kind.isBraced = true → Opens (nodes.dropWhile (·.isComment))) :
    Laid cursor.offset next.offset (Rule.enclose kind cursor nodes next) := by
  have whole := laid
  rw [← List.takeWhile_append_dropWhile (p := (·.isComment)) (l := nodes)] at whole
  obtain ⟨middle, comments, inside⟩ := whole.split
  rw [Rule.enclose]
  apply comments.append
  generalize nodes.dropWhile (·.isComment) = children at inside opens
  cases children with
  | nil =>
    rw [Laid, Laid]
    refine ⟨inside.le, ?_, Nat.le_refl _⟩
    rw [Node.neat_iff]
    exact ⟨laid_nil (Nat.le_refl _), opens⟩
  | cons first rest =>
    have later : middle ≤ first.start := by
      rw [Laid] at inside
      exact inside.1
    rw [Laid, Laid]
    refine ⟨later, ?_, Nat.le_refl _⟩
    rw [Node.neat_iff]
    refine ⟨?_, opens⟩
    change Laid first.start next.offset (first :: rest)
    rw [Laid] at inside ⊢
    exact ⟨Nat.le_refl _, inside.2⟩

theorem laid_lineEndFrom {inExpression : Bool} {fuel : Nat} {start : Nat} {last : Cursor}
    (laid : Laid start last.offset nodes) (behind : last.offset ≤ cursor.offset)
    {others : List Node}
    (found : lineEndFrom inExpression fuel nodes last cursor = some (others, next)) :
    Laid start next.offset others := by
  induction fuel generalizing nodes last cursor with
  | zero => cases found
  | succ fuel ih =>
    rw [lineEndFrom] at found
    split at found
    · cases found
      exact laid
    · cases found
      exact laid
    · split at found
      · cases found
        exact laid
      · cases found
    · split at found
      · exact ih laid (Nat.le_trans behind cursor.le_offset_step) found
      · split at found
        · exact ih (laid.append ((laid_leafAt cursor _).from behind)) (Nat.le_refl _) found
        · cases found

end Nodes

namespace Rule

/-- A rule whose nodes are in order. -/
class Orderly (rule : Rule) : Prop where
  laid : ∀ {cursor next : Cursor} {nodes : List Node}, rule cursor = some (nodes, next) →
    Laid cursor.offset next.offset nodes

class AllOrderly (rules : List Rule) : Prop where
  each : ∀ rule ∈ rules, rule.Orderly

class Extending (extensions : List Extension) : Prop where
  each : ∀ extension ∈ extensions, extension.kind.isBraced = false ∧ extension.rest.Orderly

/-- Rules whose nodes start with a token of their own. -/
class Opening (rule : Rule) : Prop where
  opens : ∀ {cursor next : Cursor} {nodes : List Node}, rule cursor = some (nodes, next) →
    Opens (nodes.dropWhile (·.isComment))

section Orderly

variable {rule other : Rule} {rules : List Rule} {kind : Kind}

instance : AllOrderly [] := ⟨fun _ member => nomatch member⟩

instance [here : rule.Orderly] [below : AllOrderly rules] : AllOrderly (rule :: rules) :=
  ⟨List.forall_mem_cons.mpr ⟨here, below.each⟩⟩

instance : Extending [] := ⟨fun _ member => nomatch member⟩

instance {role : Option Field} {extensions : List Extension} [plain : Plain kind.isBraced]
    [here : rule.Orderly] [below : Extending extensions] :
    Extending (⟨kind, role, rule⟩ :: extensions) :=
  ⟨List.forall_mem_cons.mpr ⟨⟨plain.none, here⟩, below.each⟩⟩

instance {first second : List Extension} [here : Extending first] [there : Extending second] :
    Extending (first ++ second) :=
  ⟨List.forall_mem_append.mpr ⟨here.each, there.each⟩⟩

instance {condition : Prop} [Decidable condition] {first second : List Extension}
    [Extending first] [Extending second] : Extending (if condition then first else second) := by
  split
  · infer_instance
  · infer_instance

instance : nothing.Orderly := ⟨fun found => by cases found; exact laid_nil (Nat.le_refl _)⟩

instance : fail.Orderly := ⟨fun found => nomatch found⟩

instance {condition : Prop} [Decidable condition] [rule.Orderly] [other.Orderly] :
    (if condition then rule else other).Orderly := by
  split
  · infer_instance
  · infer_instance

instance {measure : List Char → Option Nat} [Plain kind.isBraced] : (leaf kind measure).Orderly where
  laid {cursor next nodes} found := by
    rw [leaf] at found
    dsimp only at found
    split at found
    · cases found
      exact (laid_gap cursor).append (laid_leafAt _ _)
    · cases found

instance {measure : List Char → Option Nat} [Plain kind.isBraced] :
    (adjacent kind measure).Orderly where
  laid {cursor next nodes} found := by
    rw [adjacent] at found
    split at found
    · cases found
      exact laid_leafAt _ _
    · cases found

instance (expected : String) : (word expected).Orderly :=
  inferInstanceAs (leaf .token _).Orderly

instance (expected : String) : (mark expected).Orderly :=
  inferInstanceAs (leaf .token _).Orderly

instance (expected : String) : (glyph expected).Orderly :=
  inferInstanceAs (leaf .token _).Orderly

theorem laid_seq {rules : List Rule} (each : ∀ rule ∈ rules, rule.Orderly) {cursor next : Cursor}
    {nodes : List Node} (found : seq rules cursor = some (nodes, next)) :
    Laid cursor.offset next.offset nodes := by
  induction rules generalizing cursor nodes with
  | nil =>
    cases found
    exact laid_nil (Nat.le_refl _)
  | cons rule rules ih =>
    rw [seq] at found
    split at found
    · cases found
    · rename_i first
      split at found
      · cases found
      · rename_i rest
        cases found
        exact ((each rule List.mem_cons_self).laid first).append
          (ih (fun other member => each other (List.mem_cons_of_mem _ member)) rest)

instance [all : AllOrderly rules] : (seq rules).Orderly := ⟨laid_seq all.each⟩

theorem laid_choice {rules : List Rule} (each : ∀ rule ∈ rules, rule.Orderly) {cursor next : Cursor}
    {nodes : List Node} (found : choice rules cursor = some (nodes, next)) :
    Laid cursor.offset next.offset nodes := by
  induction rules with
  | nil => cases found
  | cons rule rules ih =>
    rw [choice] at found
    split at found
    · rename_i first
      cases found
      exact (each rule List.mem_cons_self).laid first
    · exact ih (fun other member => each other (List.mem_cons_of_mem _ member)) found

instance [all : AllOrderly rules] : (choice rules).Orderly := ⟨laid_choice all.each⟩

instance [here : rule.Orderly] : (maybe rule).Orderly where
  laid {cursor next nodes} found := by
    rw [maybe] at found
    split at found
    · rename_i applied
      cases found
      exact here.laid applied
    · cases found
      exact laid_nil (Nat.le_refl _)

instance {condition : List Char → Bool} [here : rule.Orderly] :
    (whenAhead condition rule).Orderly where
  laid {cursor next nodes} found := by
    rw [whenAhead] at found
    split at found
    · exact here.laid found
    · cases found

instance {condition : List Char → Bool} [here : rule.Orderly] :
    (followedBy rule condition).Orderly where
  laid {cursor next nodes} found := by
    rw [followedBy] at found
    split at found
    · rename_i applied
      split at found
      · cases found
        exact here.laid applied
      · cases found
    · cases found

theorem laid_manyFrom [here : rule.Orderly] {fuel : Nat} {cursor next : Cursor} {nodes : List Node}
    (found : manyFrom rule fuel cursor = some (nodes, next)) :
    Laid cursor.offset next.offset nodes := by
  induction fuel generalizing cursor nodes with
  | zero =>
    cases found
    exact laid_nil (Nat.le_refl _)
  | succ fuel ih =>
    rw [manyFrom] at found
    split at found
    · cases found
      exact laid_nil (Nat.le_refl _)
    · rename_i first
      split at found
      · cases found
        exact laid_nil (Nat.le_refl _)
      · split at found
        · cases found
          exact here.laid first
        · rename_i rest
          cases found
          exact (here.laid first).append (ih rest)

instance [rule.Orderly] : (many rule).Orderly := ⟨laid_manyFrom⟩

instance [rule.Orderly] [other.Orderly] : (separated rule other).Orderly :=
  inferInstanceAs (seq _).Orderly

instance {kindOf : List Node → Kind} [here : rule.Orderly]
    [plain : ∀ nodes, Plain (kindOf nodes).isBraced] : (nodeBy kindOf rule).Orderly where
  laid {cursor next nodes} found := by
    rw [nodeBy] at found
    split at found
    · rename_i inside _ applied
      cases found
      exact laid_enclose (here.laid applied) fun braced =>
        absurd ((plain inside).none.symm.trans braced) Bool.false_ne_true
    · cases found

instance [rule.Orderly] [Plain kind.isBraced] : (node kind rule).Orderly :=
  inferInstanceAs (nodeBy _ _).Orderly

/-- A node in braces. -/
theorem orderly_node [here : rule.Orderly] [opening : rule.Opening] : (node kind rule).Orderly where
  laid {cursor next nodes} found := by
    rw [node, nodeBy] at found
    split at found
    · rename_i applied
      cases found
      exact laid_enclose (here.laid applied) fun _ => opening.opens applied
    · cases found

instance [here : rule.Orderly] [there : other.Orderly] [plain : Plain kind.isBraced] :
    (joined kind rule other).Orderly where
  laid {cursor next nodes} found := by
    rw [joined] at found
    split at found
    · cases found
    · rename_i first
      have more : (many (seq [other, rule])).Orderly := inferInstance
      split at found
      · cases found
        exact here.laid first
      · cases found
        exact here.laid first
      · rename_i rest
        cases found
        exact laid_enclose ((here.laid first).append (more.laid rest)) fun braced =>
          absurd (plain.none.symm.trans braced) Bool.false_ne_true

instance {field : Field} [here : rule.Orderly] : (role field rule).Orderly where
  laid {cursor next nodes} found := by
    rw [role] at found
    split at found
    · rename_i applied
      cases found
      exact laid_setRole (here.laid applied)
    · cases found

theorem laid_extendFrom {extensions : List Extension} [all : Extending extensions]
    {start cursor next : Cursor} {fuel : Nat} {nodes others : List Node}
    (laid : Laid start.offset cursor.offset nodes)
    (found : extendFrom extensions start fuel nodes cursor = some (others, next)) :
    Laid start.offset next.offset others := by
  induction fuel generalizing nodes cursor with
  | zero =>
    cases found
    exact laid
  | succ fuel ih =>
    rw [extendFrom] at found
    dsimp only at found
    split at found
    · rename_i extended
      obtain ⟨extension, member, applied⟩ := List.exists_of_findSome?_eq_some extended
      obtain ⟨plain, orderly⟩ := all.each extension member
      split at applied
      · rename_i rest
        cases applied
        refine ih (laid_enclose (Laid.append ?_ (orderly.laid rest)) fun braced =>
          absurd (plain.symm.trans braced) Bool.false_ne_true) found
        split
        · exact laid_setRole laid
        · exact laid
      · cases applied
    · cases found
      exact laid

instance {extensions : List Extension} [here : rule.Orderly] [Extending extensions] :
    (chain rule extensions).Orderly where
  laid {cursor next nodes} found := by
    rw [chain] at found
    split at found
    · rename_i first
      exact laid_extendFrom (here.laid first) found
    · cases found

instance (inExpression : Bool) : (lineEnd inExpression).Orderly where
  laid found := laid_lineEndFrom (laid_nil (Nat.le_refl _)) (Nat.le_refl _) found

instance (inExpression : Bool) : (semicolon inExpression).Orderly :=
  inferInstanceAs (choice _).Orderly

instance {inExpression endsAtLine : Bool} [here : rule.Orderly] :
    (onLine inExpression endsAtLine rule).Orderly where
  laid {cursor next nodes} found := by
    rw [onLine] at found
    split at found
    · cases found
    · exact here.laid found

/-- A rule opens with a mark. -/
theorem opening_seq_mark {expected : String} (written : expected.toList ≠ []) :
    (seq (mark expected :: rules)).Opening where
  opens {cursor next nodes} found := by
    rw [seq] at found
    split at found
    · cases found
    · rename_i first
      split at found
      · cases found
      · cases found
        rw [mark, leaf] at first
        dsimp only at first
        split at first
        · rename_i measured
          cases first
          split at measured
          · rename_i same
            cases measured
            cases text : (gap cursor).2.rest with
            | nil =>
              rw [text] at same
              exact absurd same.symm written
            | cons c rest =>
              have long : expected.length ≠ 0 := by
                rw [← String.length_toList]
                exact mt List.length_eq_zero_iff.mp written
              obtain ⟨count, same⟩ := Nat.exists_eq_succ_of_ne_zero long
              rw [List.append_assoc, List.dropWhile_append_of_pos (isComment_gap cursor), same]
              exact ⟨_, _, rfl, rfl, rfl, Cursor.offset_lt_advance text count⟩
          · cases measured
        · cases first

end Orderly

end Rule

end ApiSections.Syntax
