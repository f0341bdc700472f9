import ApiSections.Workspace.Load

/-!
Walks: searches from item to item through the sources of a tree. An item that is being looked into is
not looked into again, so that a walk ends on cyclic sources.
-/

namespace ApiSections

structure Walk (κ β : Type) where
  /-- The module that an item stands in. -/
  source : κ → Path
  /-- At least as many as there are items in a module. -/
  extent : Module → Nat
  /-- What an item gives, by what other items give. -/
  step : (κ → Work β) → κ → Work β
  /-- What an item gives that is being looked into. -/
  stop : β

namespace Walk

variable {κ β : Type} [DecidableEq κ] (walk : Walk κ β)

/-- Whether the walk has come to the module of an item. -/
def meets (seen : List κ) (item : κ) : Bool := seen.any (walk.source · == walk.source item)

/-- Goes on from an item. There is `room` for as many more items in the modules that the walk has come
to; `beyond` goes on in another module. -/
def within (beyond : Nat → List κ → κ → Work β) : Nat → List κ → κ → Work β
  | 0, seen, item =>
    if item ∈ seen then return walk.stop
    else if walk.meets seen item then return walk.stop
    else beyond 0 seen item
  | room + 1, seen, item =>
    if item ∈ seen then return walk.stop
    else if walk.meets seen item then walk.step (within beyond room (item :: seen)) item
    else beyond (room + 1) seen item

/-- Goes on from an item. There are as many more modules that the walk can come to. -/
def across : Nat → Nat → List κ → κ → Work β
  | 0 => walk.within fun _ _ _ => return walk.stop
  | modules + 1 => walk.within fun room seen item => do
    let extent := ((← Work.load? (walk.source item)).map walk.extent).getD 0
    walk.step (across modules (room + extent) (item :: seen)) item

/-- What an item gives. -/
def run (item : κ) : Work β := do
  walk.across (← Work.moduleLimit) 0 [] item

end Walk

end ApiSections
