import ApiSections.Value.Json

namespace ApiSections

/-- A structured description of a failure. -/
structure Problem where
  type : String
  title : String
  status : Int
  detail : String
  occurrence : String
  code : Option String
  extensions : Fields
  deriving Repr, Inhabited

/-- The only way in which a problem can be ill-formed: a status that is not in the 400s or 500s. -/
structure StatusOutOfRange where
  status : Int
  deriving Repr, DecidableEq

def StatusOutOfRange.message (failure : StatusOutOfRange) : String :=
  "Problem Details status must be a 4xx/5xx code, got " ++ toString failure.status

namespace Problem

def check (problem : Problem) : Except StatusOutOfRange Problem :=
  if 400 ≤ problem.status ∧ problem.status ≤ 599 then .ok problem else .error ⟨problem.status⟩

/-- The fields of the payload; code and extensions appear only if there are any. -/
def toFields (problem : Problem) : Fields :=
  [("type", .text problem.type), ("title", .text problem.title), ("status", .int problem.status),
    ("detail", .text problem.detail), ("instance", .text problem.occurrence)] ++
  (match problem.code with
    | some code => [("code", .text code)]
    | none => []) ++
  (if problem.extensions.isEmpty then [] else [("extensions", .object problem.extensions)])

def render (problem : Problem) : String := Value.toJson true (.object problem.toFields)

end Problem

end ApiSections
