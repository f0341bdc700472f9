namespace ApiSections.Text

/-- White space in the widest sense: it includes the four separator controls, the next-line control
and every space and line separator of other scripts, but no zero-width mark. -/
def isBlank (c : Char) : Bool :=
  let code := c.toNat
  (9 ≤ code && code ≤ 13) || (28 ≤ code && code ≤ 32) || code == 0x85 || code == 0xA0 ||
    code == 0x1680 || (0x2000 ≤ code && code ≤ 0x200A) || code == 0x2028 || code == 0x2029 ||
    code == 0x202F || code == 0x205F || code == 0x3000

theorem length_dropWhile_le (p : Char → Bool) (text : List Char) :
    (text.dropWhile p).length ≤ text.length := by
  induction text with
  | nil => simp
  | cons c rest ih =>
    simp only [List.dropWhile_cons]
    split
    · simp only [List.length_cons]; omega
    · simp

def trimLeft (text : List Char) : List Char := text.dropWhile isBlank

theorem length_trimLeft_le (text : List Char) : (trimLeft text).length ≤ text.length :=
  length_dropWhile_le isBlank text

/-- Drops the longest tail that `p` accepts. -/
def dropTail (p : Char → Bool) : List Char → List Char
  | [] => []
  | c :: rest =>
    match dropTail p rest with
    | [] => if p c then [] else [c]
    | kept => c :: kept

def trimRight (text : List Char) : List Char := dropTail isBlank text

def trim (text : List Char) : List Char := trimRight (trimLeft text)

/-- The maximal runs of characters that are not blank. -/
def wordsAux : List Char → List Char → List (List Char)
  | [], [] => []
  | current, [] => [current.reverse]
  | current, c :: rest =>
    if isBlank c then
      if current.isEmpty then wordsAux [] rest else current.reverse :: wordsAux [] rest
    else wordsAux (c :: current) rest

def words (text : List Char) : List (List Char) := wordsAux [] text

/-- The words of `text`, one space apart. -/
def squeeze (text : String) : String :=
  String.intercalate " " ((words text.toList).map String.ofList)

end ApiSections.Text
