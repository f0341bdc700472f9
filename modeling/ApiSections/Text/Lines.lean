namespace ApiSections.Text

/-- The pieces between the occurrences of `mark`; there is always at least one. -/
def splitAt (mark : Char) : List Char → List (List Char)
  | [] => [[]]
  | c :: rest =>
    if c = mark then [] :: splitAt mark rest
    else match splitAt mark rest with
      | [] => [[c]]
      | piece :: pieces => (c :: piece) :: pieces

/-- The pieces with one `mark` between neighbours. -/
def joinWith (mark : Char) : List (List Char) → List Char
  | [] => []
  | [piece] => piece
  | piece :: pieces => piece ++ mark :: joinWith mark pieces

/-- A line with its line feed, if it has one, and what follows it. -/
def takeLine : List Char → List Char × List Char
  | [] => ([], [])
  | c :: rest =>
    if c = '\n' then ([c], rest)
    else
      let (line, after) := takeLine rest
      (c :: line, after)

theorem takeLine_length_le (text : List Char) : (takeLine text).2.length ≤ text.length := by
  induction text with
  | nil => simp [takeLine]
  | cons c rest ih =>
    simp only [takeLine]
    split
    · simp
    · simp only [List.length_cons]; omega

/-- The lines of a text, each with its line feed; only the last one may lack it. -/
def lines : List Char → List (List Char)
  | [] => []
  | c :: rest =>
    if c = '\n' then [c] :: lines rest
    else (c :: (takeLine rest).1) :: lines (takeLine rest).2
termination_by text => text.length
decreasing_by
  · simp
  · have := takeLine_length_le rest
    simp only [List.length_cons]; omega

/-- The characters at which the output of a tool is cut into lines. -/
def isLineBreak (c : Char) : Bool :=
  let code := c.toNat
  (10 ≤ code && code ≤ 13) || (28 ≤ code && code ≤ 30) || code == 0x85 || code == 0x2028 ||
    code == 0x2029

/-- Line endings of every convention become a line feed. -/
def unifyNewlines : List Char → List Char
  | [] => []
  | '\r' :: '\n' :: rest => '\n' :: unifyNewlines rest
  | '\r' :: rest => '\n' :: unifyNewlines rest
  | c :: rest => c :: unifyNewlines rest

end ApiSections.Text
