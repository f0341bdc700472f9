import ApiSections.Document.Marker

namespace ApiSections.Document

/-- What takes a region's place: its heading and marker as before, then the fragment. -/
def Region.replacement (region : Region) (fragment : List Char) : List Char :=
  let heading := match region.hashes with
    | some depth => List.replicate depth '#' ++ [' ']
    | none => []
  heading ++ region.markerText ++ '\n' :: fragment

/-- The text with one region replaced. -/
def replaceRegion (text : List Char) (region : Region) (fragment : List Char) : List Char :=
  text.take region.start ++ region.replacement fragment ++ text.drop region.stop

structure Spliced where
  text : List Char
  regions : List Region
  deriving Repr, DecidableEq

/-- Replaces regions one after the other; the fragments are asked for in the order given. -/
def replaceEach {m : Type → Type} [Monad m] (render : Region → m (List Char)) :
    List Region → List Char → m (List Char)
  | [], text => pure text
  | region :: rest, text => do
    let fragment ← render region
    replaceEach render rest (replaceRegion text region fragment)

/-- Replaces every region, the last one first, so that earlier offsets stay valid. -/
def spliceAll {m : Type → Type} [Monad m] (text phrase : List Char)
    (render : Region → m (List Char)) : m Spliced := do
  let regions := findMarkers text phrase
  let updated ← replaceEach render regions.reverse text
  pure { text := updated, regions }

end ApiSections.Document
