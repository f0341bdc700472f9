import ApiSections.Text.Blank

/-!
Blocks of code between fences of two kinds. Counting all fences alike tells whether a block is open
only where no fence stands inside a block of the other kind, or an even number of them does.
-/

namespace ApiSections.Text

inductive Fence where
  | backQuotes
  | tildes
  deriving DecidableEq, Repr

/-- The fence that a line starts with, behind any blanks. -/
def fence? (line : List Char) : Option Fence :=
  if "```".toList.isPrefixOf (trimLeft line) then some .backQuotes
  else if "~~~".toList.isPrefixOf (trimLeft line) then some .tildes
  else none

theorem isSome_fence? (line : List Char) : (fence? line).isSome =
    ("```".toList.isPrefixOf (trimLeft line) || "~~~".toList.isPrefixOf (trimLeft line)) := by
  rw [fence?]
  cases "```".toList.isPrefixOf (trimLeft line) with
  | true => rfl
  | false => cases "~~~".toList.isPrefixOf (trimLeft line) <;> rfl

/-- The block that is open behind a line. Only a fence of its own kind closes it. -/
def blockBehind (block : Option Fence) (line : List Char) : Option Fence :=
  match block with
  | none => fence? line
  | some kind => if fence? line = some kind then none else some kind

def openBlock (block : Option Fence) (rows : List (List Char)) : Option Fence :=
  rows.foldl blockBehind block

/-- A fence inside a block of the other kind. -/
def isStray (block : Option Fence) (line : List Char) : Bool :=
  match block, fence? line with
  | some kind, some fence => fence != kind
  | _, _ => false

def strays : Option Fence → List (List Char) → Nat
  | _, [] => 0
  | block, row :: rows => (isStray block row).toNat + strays (blockBehind block row) rows

theorem blockBehind_parity (block : Option Fence) (line : List Char) :
    ((fence? line).isSome.toNat + (isStray block line).toNat + block.isSome.toNat +
      (blockBehind block line).isSome.toNat) % 2 = 0 := by
  cases block with
  | none => cases found : fence? line <;> simp [isStray, blockBehind, found]
  | some kind =>
    cases found : fence? line with
    | none => simp [isStray, blockBehind, found]
    | some fence =>
      by_cases same : fence = kind
      · simp [isStray, blockBehind, found, same]
      · have other : (fence != kind) = true := by simpa using same
        simp [isStray, blockBehind, found, same, other]

/-- Every fence opens a block, closes one or stands astray inside one. -/
theorem openBlock_parity (block : Option Fence) (rows : List (List Char)) :
    (rows.countP (fun row => (fence? row).isSome) + strays block rows + block.isSome.toNat +
      (openBlock block rows).isSome.toNat) % 2 = 0 := by
  induction rows generalizing block with
  | nil =>
    simp only [List.countP_nil, strays, openBlock, List.foldl_nil]
    omega
  | cons row rows ih =>
    have here := blockBehind_parity block row
    have later := ih (blockBehind block row)
    have count : (row :: rows).countP (fun row => (fence? row).isSome) =
        rows.countP (fun row => (fence? row).isSome) + (fence? row).isSome.toNat := by
      rw [List.countP_cons]
      cases (fence? row).isSome <;> rfl
    have rest : openBlock block (row :: rows) = openBlock (blockBehind block row) rows := rfl
    rw [count, strays, rest]
    omega

theorem openBlock_eq_none_iff {rows : List (List Char)}
    (even : rows.countP (fun row => (fence? row).isSome) % 2 = 0) :
    openBlock none rows = none ↔ strays none rows % 2 = 0 := by
  have parity := openBlock_parity none rows
  cases block : openBlock none rows with
  | none =>
    simp only [block, Option.isSome_none, Bool.toNat_false] at parity
    simp only [true_iff]
    omega
  | some kind =>
    simp only [block, Option.isSome_none, Option.isSome_some, Bool.toNat_false,
      Bool.toNat_true] at parity
    simp only [reduceCtorEq, false_iff]
    omega

end ApiSections.Text
