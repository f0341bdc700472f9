import ApiSections.Proofs.Workspace.Likeness
import ApiSections.Proofs.Workspace.Modules
import ApiSections.Proofs.Workspace.Returns

/-!
Passes that remember only what is right. A step settles if it comes to the same end on all of them,
and leaves such a pass behind.
-/

namespace ApiSections

variable {α β : Type}

namespace Work

/-- What is right to remember of properties, and of the members that are bound from a place. -/
structure Rightness where
  property : Symbol → String → Option Symbol → Prop
  members : Place → List Member → Prop

/-- What a pass remembers is right: the modules are those of the tree, and the answers are those of
version control. -/
structure Sound (workspace : Workspace) (right : Rightness) (pass : Pass) : Prop where
  modules : ∀ module ∈ pass.modules, workspace.module? module.path = some module
  links : ∀ entry ∈ pass.links.paths, entry.2 = (workspace.ask entry.1).path?
  members : ∀ entry ∈ pass.members, right.members entry.1 entry.2
  properties : ∀ entry ∈ pass.properties, right.property entry.1 entry.2.1 entry.2.2

variable {workspace : Workspace} {right : Rightness}

theorem sound_empty : Sound workspace right .empty :=
  ⟨by simp [Pass.empty], by simp [Pass.empty, Link.Cache.empty], by simp [Pass.empty],
    by simp [Pass.empty]⟩

theorem execute_bind (step : Work α) (next : α → Work β) (pass : Pass) :
    (step >>= next).execute workspace pass =
      match step.execute workspace pass with
      | (.ok value, between) => (next value).execute workspace between
      | (.error fault, between) => (.error fault, between) := by
  change (((step.run workspace) >>= fun value => (next value).run workspace).run.run pass) = _
  rw [ExceptT.run_bind, StateT.run_bind]
  rw [execute]
  rcases (step.run workspace).run.run pass with ⟨value | value, between⟩ <;> rfl

/-- What a step comes to at the start of a pass. -/
def answer (workspace : Workspace) (step : Work α) : Except Fault α :=
  (step.execute workspace .empty).1

/-- A step comes to the same end whatever a sound pass remembers. -/
def Settles (workspace : Workspace) (right : Rightness)
    (step : Work α) (outcome : Except Fault α) : Prop :=
  ∀ pass, Sound workspace right pass →
    ∃ last, step.execute workspace pass = (outcome, last) ∧ Sound workspace right last

namespace Settles

theorem answer {step : Work α} {outcome : Except Fault α}
    (settles : Settles workspace right step outcome) : answer workspace step = outcome := by
  obtain ⟨last, ran, _⟩ := settles .empty sound_empty
  rw [Work.answer, ran]

theorem pure (value : α) : Settles workspace right (Pure.pure value) (.ok value) :=
  fun pass sound => ⟨pass, rfl, sound⟩

theorem throw (fault : Fault) :
    Settles workspace right (MonadExcept.throw fault : Work α) (.error fault) :=
  fun pass sound => ⟨pass, rfl, sound⟩

theorem bind {step : Work α} {next : α → Work β} {value : α} {outcome : Except Fault β}
    (start : Settles workspace right step (.ok value))
    (rest : Settles workspace right (next value) outcome) :
    Settles workspace right (step >>= next) outcome := by
  intro pass sound
  obtain ⟨between, ran, kept⟩ := start pass sound
  obtain ⟨last, after, kept⟩ := rest between kept
  exact ⟨last, by rw [execute_bind, ran]; exact after, kept⟩

theorem stop {step : Work α} {fault : Fault} (start : Settles workspace right step (.error fault))
    (next : α → Work β) : Settles workspace right (step >>= next) (.error fault) := by
  intro pass sound
  obtain ⟨between, ran, kept⟩ := start pass sound
  exact ⟨between, by rw [execute_bind, ran], kept⟩

theorem read {next : Workspace → Work β} {outcome : Except Fault β}
    (rest : Settles workspace right (next workspace) outcome) :
    Settles workspace right (MonadReader.read >>= next) outcome :=
  rest

/-- A step that looks at what the pass remembers. -/
theorem look {next : Pass → Work β} {outcome : Except Fault β}
    (rest : ∀ pass, Sound workspace right pass →
      ∃ last, (next pass).execute workspace pass = (outcome, last) ∧ Sound workspace right last) :
    Settles workspace right (get >>= next) outcome :=
  rest

theorem note {change : Pass → Pass}
    (kept : ∀ pass, Sound workspace right pass → Sound workspace right (change pass)) :
    Settles workspace right (modify change : Work Unit) (.ok ()) :=
  fun pass sound => ⟨change pass, rfl, kept pass sound⟩

theorem emit (logger : Log.Logger) (level : Int) (message : String) (extra : Fields) :
    Settles workspace right (emit logger level message extra) (.ok ()) :=
  note fun _ sound => ⟨sound.modules, sound.links, sound.members, sound.properties⟩

theorem announce (line : String) : Settles workspace right (announce line) (.ok ()) :=
  note fun _ sound => ⟨sound.modules, sound.links, sound.members, sound.properties⟩

end Settles

/-- Whatever a sound pass remembers, a step comes to an end of which something holds. -/
def Ends (workspace : Workspace) (right : Rightness)
    (step : Work α) (holds : Except Fault α → Prop) : Prop :=
  ∀ pass, Sound workspace right pass → ∃ outcome last,
    step.execute workspace pass = (outcome, last) ∧ Sound workspace right last ∧ holds outcome

theorem Settles.ends {step : Work α} {outcome : Except Fault α} {holds : Except Fault α → Prop}
    (settles : Settles workspace right step outcome) (held : holds outcome) :
    Ends workspace right step holds := by
  intro pass sound
  obtain ⟨last, ran, kept⟩ := settles pass sound
  exact ⟨outcome, last, ran, kept, held⟩

namespace Ends

theorem pure {value : α} {holds : Except Fault α → Prop} (held : holds (.ok value)) :
    Ends workspace right (Pure.pure value) holds :=
  (Settles.pure value).ends held

/-- A step that looks at what the pass remembers. -/
theorem look {next : Pass → Work β} {holds : Except Fault β → Prop}
    (rest : ∀ pass, Sound workspace right pass → ∃ outcome last,
      (next pass).execute workspace pass = (outcome, last) ∧ Sound workspace right last ∧
        holds outcome) :
    Ends workspace right (get >>= next) holds :=
  rest

theorem bind {step : Work α} {next : α → Work β} {holds : Except Fault α → Prop}
    {after : Except Fault β → Prop} (start : Ends workspace right step holds)
    (rest : ∀ value, holds (.ok value) → Ends workspace right (next value) after)
    (stops : ∀ fault, holds (.error fault) → after (.error fault)) :
    Ends workspace right (step >>= next) after := by
  intro pass sound
  obtain ⟨outcome, between, ran, kept, held⟩ := start pass sound
  cases outcome with
  | error fault => exact ⟨.error fault, between, by rw [execute_bind, ran], kept, stops fault held⟩
  | ok value =>
    obtain ⟨outcome, last, ended, kept, held⟩ := rest value held between kept
    exact ⟨outcome, last, by rw [execute_bind, ran]; exact ended, kept, held⟩

theorem mono {step : Work α} {holds weaker : Except Fault α → Prop}
    (ends : Ends workspace right step holds) (weaken : ∀ outcome, holds outcome → weaker outcome) :
    Ends workspace right step weaker := by
  intro pass sound
  obtain ⟨outcome, last, ran, kept, held⟩ := ends pass sound
  exact ⟨outcome, last, ran, kept, weaken outcome held⟩

/-- A step whose end is determined settles. -/
theorem settles {step : Work α} {holds : Except Fault α → Prop}
    (ends : Ends workspace right step holds)
    (unique : ∀ first second, holds first → holds second → first = second) :
    Settles workspace right step (answer workspace step) := by
  obtain ⟨outcome, last, ran, _, held⟩ := ends .empty sound_empty
  intro pass sound
  obtain ⟨other, last, ran', kept, held'⟩ := ends pass sound
  refine ⟨last, ?_, kept⟩
  rw [ran', answer, ran, unique other outcome held' held]

end Ends

/-- A step settles, and something holds of the value that it comes to. -/
def Yields (workspace : Workspace) (right : Rightness) (step : Work α) (given : α → Prop) : Prop :=
  ∃ outcome, Settles workspace right step outcome ∧ ∀ value, outcome = .ok value → given value

theorem Settles.yields {step : Work α} {outcome : Except Fault α} {given : α → Prop}
    (settles : Settles workspace right step outcome)
    (each : ∀ value, outcome = .ok value → given value) : Yields workspace right step given :=
  ⟨outcome, settles, each⟩

namespace Yields

theorem pure {value : α} {given : α → Prop} (held : given value) :
    Yields workspace right (Pure.pure value) given := by
  apply (Settles.pure value).yields
  intro other same
  cases same
  exact held

theorem bind {step : Work α} {next : α → Work β} {given : α → Prop} {after : β → Prop}
    (start : Yields workspace right step given)
    (rest : ∀ value, given value → Yields workspace right (next value) after) :
    Yields workspace right (step >>= next) after := by
  obtain ⟨outcome, settles, held⟩ := start
  cases outcome with
  | error fault => exact ⟨.error fault, settles.stop next, fun _ same => nomatch same⟩
  | ok value =>
    obtain ⟨outcome, settles', held'⟩ := rest value (held value rfl)
    exact ⟨outcome, settles.bind settles', held'⟩

end Yields

/-- Steps that settle on one end. -/
def settling (workspace : Workspace) (right : Rightness) :
    Likeness where
  alike first second :=
    ∃ outcome, Settles workspace right first outcome ∧ Settles workspace right second outcome
  pure value := ⟨.ok value, .pure value, .pure value⟩
  bind := by
    rintro _ _ first second next other ⟨outcome, here, there⟩ rest
    cases outcome with
    | error fault => exact ⟨.error fault, here.stop next, there.stop other⟩
    | ok value =>
      obtain ⟨outcome, first_after, second_after⟩ := rest value
      exact ⟨outcome, here.bind first_after, there.bind second_after⟩
  emit logger level message extra :=
    ⟨.ok (), .emit logger level message extra, .emit logger level message extra⟩

theorem Settles.keeps {step : Work α} {outcome : Except Fault α}
    (settles : Settles workspace right step outcome) : (settling workspace right).Keeps step :=
  ⟨outcome, settles, settles⟩

theorem Likeness.Keeps.settles {step : Work α} (keeps : (settling workspace right).Keeps step) :
    Settles workspace right step (answer workspace step) := by
  obtain ⟨outcome, settles, _⟩ := keeps
  rw [settles.answer]
  exact settles

/-- Members that are rightly bound from a place are remembered for it, if no others are. -/
theorem settles_membersAt {place : Place} {members : List Member} (bound : right.members place members)
    (unique : ∀ others, right.members place others → others = members) :
    Settles workspace right (membersAt place members) (.ok members) := by
  apply Settles.look
  intro pass sound
  split
  · rename_i other known found
    have same : other = place := by simpa using List.find?_some found
    rw [← unique known (same ▸ sound.members _ (List.mem_of_find?_eq_some found))]
    exact Settles.pure known pass sound
  · apply Settles.bind (Settles.note _) (Settles.pure members) pass sound
    intro pass sound
    refine ⟨sound.modules, sound.links, ?_, sound.properties⟩
    intro entry member
    rcases List.mem_append.mp member with member | member
    · exact sound.members entry member
    · rw [List.mem_singleton.mp member]
      exact bound

section Modules

variable {path : Path} {module : Module} {pass : Pass}

theorem Sound.known (sound : Sound workspace right pass)
    (known : pass.modules.find? (·.path == workspace.tree.resolve path) = some module) :
    workspace.module? path = some module := by
  have same : module.path = workspace.tree.resolve path := by simpa using List.find?_some known
  rw [← workspace.module?_resolve, ← same]
  exact sound.modules module (List.mem_of_find?_eq_some known)

theorem Sound.add (sound : Sound workspace right pass)
    (found : workspace.module? path = some module) :
    Sound workspace right { pass with modules := pass.modules ++ [module] } := by
  refine ⟨?_, sound.links, sound.members, sound.properties⟩
  intro other member
  rcases List.mem_append.mp member with member | member
  · exact sound.modules other member
  · rw [List.mem_singleton.mp member]
    exact Workspace.module?_path found

theorem settles_load? (path : Path) :
    Settles workspace right (load? path) (.ok (workspace.module? path)) := by
  apply Settles.read
  dsimp only
  unfold loadFrom known?
  rw [bind_assoc]
  apply Settles.look
  intro pass sound
  rw [pure_bind]
  cases known : pass.modules.find? (·.path == workspace.tree.resolve path) with
  | some module =>
    rw [sound.known known]
    exact Settles.pure _ pass sound
  | none =>
    cases content : workspace.tree.read? (workspace.tree.resolve path) with
    | none =>
      rw [Workspace.module?, content]
      exact Settles.pure _ pass sound
    | some bytes =>
      have found : workspace.module? path =
          some (Module.ofBytes (workspace.tree.resolve path) bytes) := by
        rw [Workspace.module?, content, Option.map_some]
      rw [found]
      apply Settles.bind (Settles.note fun _ sound => sound.add found) _ pass sound
      exact .bind (.emit _ _ _ _) (.pure _)

theorem settles_moduleLimit :
    Settles workspace right moduleLimit (.ok workspace.paths.length) := by
  have same : workspace.paths.length = workspace.tree.files.length := List.length_map _
  rw [same]
  exact .read (.pure _)

theorem settles_loadFirst (candidates : List Path) :
    Settles workspace right (loadFirst candidates)
      (.ok ((candidates.find? workspace.tree.isFile).bind workspace.module?)) := by
  apply Settles.read
  cases candidates.find? workspace.tree.isFile with
  | none => exact .pure _
  | some path => exact settles_load? path

/-- The end of following a specifier: without a last part in its path there is no module to look
for. -/
def resolution (workspace : Workspace) (importer : Path) (specifier : String) :
    Except Fault (Option Module) :=
  if Module.isPathSpecifier specifier then
    match Module.candidates? (importer.parent.join (Path.ofString specifier)) with
    | none => .error .emptyName
    | some candidates =>
      .ok ((candidates.find? workspace.tree.isFile).bind workspace.module?)
  else .ok none

theorem settles_resolveModule (importer : Path) (specifier : String) :
    Settles workspace right (resolveModule importer specifier)
      (resolution workspace importer specifier) := by
  rw [resolveModule, resolution]
  cases Module.isPathSpecifier specifier with
  | false => exact .pure _
  | true =>
    change Settles workspace right (match Module.candidates? _ with
      | none => MonadExcept.throw Fault.emptyName
      | some candidates => loadFirst candidates) _
    cases Module.candidates? (importer.parent.join (Path.ofString specifier)) with
    | none => exact .throw _
    | some candidates => exact settles_loadFirst candidates

end Modules

/-- What the steps of a walk yield from each other the walk yields. -/
theorem yields_run {κ : Type} [DecidableEq κ] {walk : Walk κ β} (among : κ → Prop)
    {given : β → Prop} (stop : given walk.stop)
    (step : ∀ next item, among item →
      (∀ other, among other → Yields workspace right (next other) given) →
      Yields workspace right (walk.step next item) given) {item : κ} (inside : among item) :
    Yields workspace right (walk.run item) given := by
  apply Walk.run_induction (Yields workspace right · given) among (Yields.pure stop) step _ _ inside
  · intro path next rest
    exact ((settles_load? path).yields fun _ _ => trivial).bind fun module _ => rest module
  · intro next rest
    exact (settles_moduleLimit.yields fun _ _ => trivial).bind fun modules _ => rest modules

section Links

variable {cache : Link.Cache} {ask : Path → Link.Answer}

theorem relative_eq (path : Path) (right : ∀ entry ∈ cache.paths, entry.2 = (ask entry.1).path?) :
    (cache.relative ask path).1 = (ask path).path? := by
  rw [Link.Cache.relative]
  cases known : cache.get? path with
  | none => rfl
  | some relative =>
    obtain ⟨entry, found, rfl⟩ := Option.map_eq_some_iff.mp known
    have same : entry.1 = path := by simpa using List.find?_some found
    rw [← same]
    exact right entry (List.mem_of_find?_eq_some found)

theorem relative_keeps (path : Path) (right : ∀ entry ∈ cache.paths, entry.2 = (ask entry.1).path?) :
    ∀ entry ∈ (cache.relative ask path).2.2.paths, entry.2 = (ask entry.1).path? := by
  rw [Link.Cache.relative]
  cases cache.get? path with
  | some relative => exact right
  | none =>
    intro entry member
    rcases List.mem_append.mp member with member | member
    · exact right entry member
    · rw [List.mem_singleton.mp member]

theorem settles_linkFor (path : Path) (line : Int) :
    Settles workspace right (Fragment.linkFor path line) (.ok (workspace.target.bind fun target =>
      target.link (workspace.ask (workspace.tree.resolve path)).path? line)) := by
  apply Settles.read
  cases workspace.target with
  | none => exact .pure _
  | some target =>
    apply Settles.look
    intro pass sound
    have same := relative_eq (workspace.tree.resolve path) sound.links
    have kept := relative_keeps (workspace.tree.resolve path) sound.links
    generalize pass.links.relative workspace.ask (workspace.tree.resolve path) = found at same kept ⊢
    obtain ⟨relative, asked, links⟩ := found
    rw [Option.bind_some, ← same]
    have noted : Settles workspace right (modify fun pass => { pass with links }) (.ok ()) :=
      .note fun pass sound => ⟨sound.modules, kept, sound.members, sound.properties⟩
    apply noted.bind _ pass sound
    split
    · exact .bind (.emit _ _ _ _) (.pure _)
    · exact .pure _

end Links

end Work

theorem returns_of_answer {workspace : Workspace} {step : Work α} {value : α}
    (ended : Work.answer workspace step = .ok value) :
    ∃ last, Returns step workspace .empty value last :=
  ⟨(step.execute workspace .empty).2, Prod.ext ended rfl⟩

end ApiSections
