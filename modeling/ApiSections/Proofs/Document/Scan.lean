import ApiSections.Proofs.Document.Reading

namespace ApiSections.Document

open Text

namespace Match.Reads

variable {phrase text lead above marker rest : List Char} {found : Match}

theorem marker_split (reads : found.Reads phrase text lead above marker rest) :
    ∃ body, marker = phrase ++ body ++ ['\n'] := by
  obtain ⟨body, after, same, count⟩ := reading?_split reads.marker_read
  refine ⟨body, ?_⟩
  have cut : phrase ++ body ++ '\n' :: after = phrase ++ body ++ ['\n'] ++ after := by simp
  rw [cut] at same
  exact (List.append_inj same count).1

theorem marker_ends (reads : found.Reads phrase text lead above marker rest) :
    marker.getLast? = some '\n' := by
  obtain ⟨body, rfl⟩ := reads.marker_split
  simp

theorem taken_ends (reads : found.Reads phrase text lead above marker rest) :
    EndsLine (lead ++ (above ++ marker)) := by
  rw [← List.append_assoc]
  exact EndsLine.of_getLast? _ reads.marker_ends

theorem length_eq (reads : found.Reads phrase text lead above marker rest) :
    found.length = (lead ++ (above ++ marker)).length := by
  rw [Match.length, reads.lead_length, reads.body, ← List.length_append]

theorem length_pos (reads : found.Reads phrase text lead above marker rest) : 0 < found.length := by
  have := reads.above_line.length_pos
  rw [reads.length_eq]
  simp only [List.length_append]
  omega

theorem whole (reads : found.Reads phrase text lead above marker rest) :
    text = lead ++ (above ++ marker) ++ rest := by
  rw [reads.split]
  simp only [List.append_assoc]

end Match.Reads

/-- A skipped stretch that ends with a line feed leaves the scan at the start of a line. -/
theorem matchesFrom_skip (phrase body rest : List Char) (offset : Nat) (atLineStart : Bool) :
    matchesFrom phrase offset (body.length + 1) atLineStart (body ++ '\n' :: rest) =
      matchesFrom phrase (offset + (body.length + 1)) 0 true rest := by
  induction body generalizing offset atLineStart with
  | nil => simp [matchesFrom]
  | cons c body ih =>
    rw [List.cons_append, List.length_cons, matchesFrom, ih]
    congr 1
    omega

theorem matchAt?_inside (phrase text : List Char) :
    matchAt? phrase false text =
      (marking? phrase text).map fun marking => { hashes := none, lead := 0, marking } := by
  simp [matchAt?]

theorem marking?_of_matchAt? {phrase text : List Char} {atLineStart : Bool}
    (none : matchAt? phrase atLineStart text = none) : marking? phrase text = .none := by
  simp only [matchAt?] at none
  split at none
  · cases none
  · exact Option.map_eq_none_iff.mp none

theorem reading?_of_marking? {phrase above below : List Char} (full : IsLine above)
    (none : marking? phrase (above ++ below) = none) : reading? phrase below = .none := by
  rw [marking?_of_isLine full] at none
  exact Option.map_eq_none_iff.mp none

theorem matchesFrom_inside {phrase line rest : List Char} (full : IsLine line)
    (unread : reading? phrase rest = none) (offset : Nat) :
    matchesFrom phrase offset 0 false (line ++ rest) =
      matchesFrom phrase (offset + line.length) 0 true rest := by
  have here : matchAt? phrase false (line ++ rest) = none := by
    rw [matchAt?_inside, marking?_of_isLine full, unread]
    rfl
  obtain ⟨body, free, rfl⟩ := full
  induction body generalizing offset with
  | nil =>
    rw [List.nil_append, List.cons_append] at here ⊢
    rw [matchesFrom, here]
    rfl
  | cons c body ih =>
    have feed : (c == '\n') = false := by
      have : c ≠ '\n' := fun same => free (by simp [same])
      simpa using this
    have tail : '\n' ∉ body := fun member => free (List.mem_cons_of_mem _ member)
    have next : matchAt? phrase false (body ++ ['\n'] ++ rest) = none := by
      rw [matchAt?_inside, marking?_of_isLine ⟨body, tail, rfl⟩, unread]
      rfl
    rw [List.cons_append, List.cons_append] at here ⊢
    rw [matchesFrom, here]
    simp only [feed]
    rw [ih (offset + 1) tail next, List.length_cons]
    congr 1
    omega

theorem matchesFrom_miss {phrase line rest : List Char} (full : IsLine line)
    (none : matchAt? phrase true (line ++ rest) = none) (offset : Nat) :
    matchesFrom phrase offset 0 true (line ++ rest) =
      matchesFrom phrase (offset + line.length) 0 true rest := by
  have unread := reading?_of_marking? full (marking?_of_matchAt? none)
  cases line with
  | nil => exact absurd rfl full.ne_nil
  | cons c line =>
    rw [List.cons_append] at none ⊢
    rw [matchesFrom, none]
    by_cases empty : line = []
    · subst empty
      obtain ⟨body, _, same⟩ := full
      have feed : c = '\n' := by
        have last := congrArg List.getLast? same
        simpa using last
      simp [feed]
    · have tail : IsLine line := @IsLine.of_append [c] line full empty
      have other : (c == '\n') = false := by
        obtain ⟨body, free, same⟩ := full
        cases body with
        | nil =>
          simp only [List.nil_append, List.cons.injEq] at same
          exact absurd same.2 empty
        | cons d body =>
          simp only [List.cons_append, List.cons.injEq] at same
          have : c ≠ '\n' := fun feed => free (by simp [← same.1, feed])
          simpa using this
      simp only [other, matchesFrom_inside tail unread, List.length_cons]
      congr 1
      omega

theorem matchesFrom_hit {phrase text lead above marker rest : List Char} {found : Match}
    (here : matchAt? phrase true text = some found)
    (reads : found.Reads phrase text lead above marker rest) (offset : Nat) :
    matchesFrom phrase offset 0 true text =
      (offset, found) :: matchesFrom phrase (offset + found.length) 0 true rest := by
  obtain ⟨body, ended⟩ := reads.marker_split
  have count := reads.length_eq
  cases front : lead ++ (above ++ (phrase ++ body)) with
  | nil =>
    have := reads.above_line.ne_nil
    simp [this] at front
  | cons c front' =>
    have cut : text = c :: (front' ++ '\n' :: rest) := by
      have joined : lead ++ (above ++ marker) = (c :: front') ++ ['\n'] := by
        rw [ended, ← front]
        simp only [List.append_assoc]
      rw [reads.whole, joined]
      simp
    have size : found.length = front'.length + 2 := by
      rw [count, ended, ← List.append_assoc above, ← List.append_assoc lead, front]
      simp
    rw [cut] at here ⊢
    rw [matchesFrom, here]
    simp only [size]
    rw [show front'.length + 2 - 1 = front'.length + 1 by omega, matchesFrom_skip]
    congr 2
    omega

theorem matchAt?_of_open {phrase text : List Char} (free : '\n' ∉ text) (atLineStart : Bool) :
    matchAt? phrase atLineStart text = none := by
  cases here : matchAt? phrase atLineStart text with
  | none => rfl
  | some found =>
    obtain ⟨lead, above, marker, rest, reads⟩ := matchAt?_reads here
    have feed := List.mem_of_getLast? reads.marker_ends
    exact absurd (by rw [reads.split]; simp [feed]) free

theorem matchesFrom_open {phrase text : List Char} (free : '\n' ∉ text) (offset : Nat)
    (atLineStart : Bool) : matchesFrom phrase offset 0 atLineStart text = [] := by
  induction text generalizing offset atLineStart with
  | nil => simp [matchesFrom]
  | cons c text ih =>
    rw [matchesFrom, matchAt?_of_open free]
    exact ih (fun member => free (List.mem_cons_of_mem _ member)) _ _

/-- A scan from the start of a line: a line is passed over, or a match takes whole lines. -/
inductive Scan (phrase : List Char) : Nat → List Char → List (Nat × Match) → Prop where
  | done {offset : Nat} {text : List Char} : '\n' ∉ text → Scan phrase offset text []
  | miss {offset : Nat} {line rest : List Char} {hits : List (Nat × Match)} :
      IsLine line → matchAt? phrase true (line ++ rest) = none →
      Scan phrase (offset + line.length) rest hits → Scan phrase offset (line ++ rest) hits
  | hit {offset : Nat} {text lead above marker rest : List Char} {found : Match}
      {hits : List (Nat × Match)} :
      matchAt? phrase true text = some found →
      found.Reads phrase text lead above marker rest →
      Scan phrase (offset + found.length) rest hits →
      Scan phrase offset text ((offset, found) :: hits)

theorem scan_matchesFrom (phrase text : List Char) (offset : Nat) :
    Scan phrase offset text (matchesFrom phrase offset 0 true text) := by
  cases here : matchAt? phrase true text with
  | some found =>
    obtain ⟨lead, above, marker, rest, reads⟩ := matchAt?_reads here
    have shorter : rest.length < text.length := by
      have := reads.above_line.length_pos
      rw [reads.split]
      simp only [List.length_append]
      omega
    rw [matchesFrom_hit here reads]
    exact .hit here reads (scan_matchesFrom phrase rest _)
  | none =>
    rcases line_or_open text with free | ⟨line, rest, full, same⟩
    · rw [matchesFrom_open free]
      exact .done free
    · have shorter : rest.length < text.length := by
        have := full.length_pos
        rw [same, List.length_append]
        omega
      rw [same] at here ⊢
      rw [matchesFrom_miss full here]
      exact .miss full here (scan_matchesFrom phrase rest _)
termination_by text.length

end ApiSections.Document
