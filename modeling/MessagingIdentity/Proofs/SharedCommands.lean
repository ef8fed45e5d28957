import MessagingIdentity.CommandLine.Execution
import MessagingIdentity.Proofs.SharedCaches

namespace MessagingIdentity

namespace Execution

/-- What the options choose: a meta of the stored key, and a network. -/
def chosen (directory : Except StateError String) (o : MetaOptions) (fs : FileSystem) :
    Except CommandError (Meta × EntityType) := do
  let (s, k) ← loadAll directory fs
  let m ← metaOf s k o
  .ok (m, networkOf s o)

def shown (m : Meta) (showMeta : Bool) (a : Address) : String :=
  if showMeta then a.text ++ "\n" ++ (Json.object m.members).pretty else a.text

def report (name : Option String) (a : Address) (terminal : Option String) : String :=
  "\n".intercalate
    ["name:     " ++ name.getD "-", "address:  " ++ a.text, "terminal: " ++ terminal.getD "-",
      "network:  " ++ a.network.display ++ " (" ++ ("0x" ++ Hexadecimal.encode [a.network.byte]) ++ ")",
      "kind:     " ++ kindOf a.network]

theorem address_eq (directory : Except StateError String) (o : MetaOptions) (showMeta : Bool)
    (fs : FileSystem) : address directory o showMeta fs = chosen directory o fs >>= fun c ↦
      ((c.1.address c.2).mapError .derivation).map (shown c.1 showMeta) := by
  unfold address chosen
  cases loadAll directory fs with
  | error e => rfl
  | ok loaded =>
    obtain ⟨s, k⟩ := loaded
    dsimp only [bind, Except.bind]
    cases metaOf s k o with
    | error e => rfl
    | ok m =>
      dsimp only
      cases m.address (networkOf s o) <;> rfl

theorem generateIdentifier_eq (directory : Except StateError String) (o : MetaOptions)
    (terminal : Option String) (fs : FileSystem) :
    generateIdentifier directory o terminal fs = chosen directory o fs >>= fun c ↦
      ((c.1.identifier c.2 terminal).mapError .composition).map Identifier.text := by
  unfold generateIdentifier chosen
  cases loadAll directory fs with
  | error e => rfl
  | ok loaded =>
    obtain ⟨s, k⟩ := loaded
    dsimp only [bind, Except.bind]
    cases metaOf s k o with
    | error e => rfl
    | ok m =>
      dsimp only
      cases m.identifier (networkOf s o) terminal <;> rfl

theorem parseIdentifier_eq (text : String) : parseIdentifier text =
    ((Identifier.parse text).mapError .identifier).map fun i ↦
      report i.name i.address i.terminal := by
  unfold parseIdentifier
  cases Identifier.parse text <;> rfl

end Execution

namespace Session

variable {α β : Type}

/-- A step, and something made of what it comes to. -/
def reply (f : α → β) (x : Step α) : Step β := fun s ↦ (f (x s).1, (x s).2)

def withChosen (chosen : Except CommandError (Meta × EntityType))
    (x : Meta → EntityType → Step Execution.Outcome) : Step Execution.Outcome :=
  match chosen with
  | .error e => fun s ↦ (.error e, s)
  | .ok c => x c.1 c.2

/-- What a command comes to by way of the caches, and what it leaves in them. -/
def run (i : Invocation) (env : Environment) (fs : FileSystem) :
    Step (Execution.Outcome × FileSystem) :=
  let directory := State.directoryOf env.home i.directory
  match i.command with
  | .address o showMeta => reply (·, fs) <|
    withChosen (Execution.chosen directory o fs) fun m network ↦
      reply (fun a ↦ (a.mapError .derivation).map (Execution.shown m showMeta))
        (generateAddress m network)
  | .generateIdentifier o terminal => reply (·, fs) <|
    withChosen (Execution.chosen directory o fs) fun m network ↦
      reply (fun i ↦ (i.mapError .composition).map Identifier.text)
        (generateIdentifier m network terminal)
  | .parseIdentifier text => reply (·, fs) <|
    reply (fun i ↦ (i.mapError .identifier).map fun i ↦
      Execution.report i.name i.address i.terminal) (parseIdentifier text)
  | _ => fun s ↦ (i.run env fs, s)

/-- The caches after some commands, each with what it ran in. -/
def after (earlier : List (Invocation × Environment × FileSystem)) : Session :=
  earlier.foldl (fun s c ↦ (run c.1 c.2.1 c.2.2 s).2) empty

/-- In this state a step comes to this, and leaves a state that is sound. -/
def Answers (s : Session) (x : Step α) (r : α) : Prop := (x s).1 = r ∧ (x s).2.Sound

variable {s : Session} {x : Step α} {r : α}

theorem Answers.reply (h : s.Answers x r) (f : α → β) : s.Answers (reply f x) (f r) :=
  ⟨congrArg f h.1, h.2⟩

theorem Sound.answers_withChosen (h : s.Sound) (chosen : Except CommandError (Meta × EntityType))
    {x : Meta → EntityType → Step Execution.Outcome} {r : Meta → EntityType → Execution.Outcome}
    (hx : ∀ m network, s.Answers (x m network) (r m network)) :
    s.Answers (withChosen chosen x) (chosen >>= fun c ↦ r c.1 c.2) := by
  cases chosen with
  | error e => exact ⟨rfl, h⟩
  | ok c => exact hx c.1 c.2

theorem Sound.answers_address (h : s.Sound) (m : Meta) (network : EntityType) :
    s.Answers (generateAddress m network) (m.address network) :=
  h.keepAddress fun _ ha ↦ Meta.made_of_address ha

theorem Sound.answers_identifier (h : s.Sound) (m : Meta) (network : EntityType)
    (terminal : Option String) :
    s.Answers (generateIdentifier m network terminal) (m.identifier network terminal) :=
  h.keepIdentifier m (fun _ ha ↦ Meta.made_of_address ha) terminal

theorem Sound.answers_run (h : s.Sound) (i : Invocation) (env : Environment) (fs : FileSystem) :
    s.Answers (run i env fs) (i.run env fs) := by
  obtain ⟨command, told⟩ := i
  cases command with
  | address o showMeta =>
    simp only [Invocation.run, Execution.address_eq]
    exact (h.answers_withChosen _ fun m network ↦ (h.answers_address m network).reply _).reply _
  | generateIdentifier o terminal =>
    simp only [Invocation.run, Execution.generateIdentifier_eq]
    exact (h.answers_withChosen _ fun m network ↦
      (h.answers_identifier m network terminal).reply _).reply _
  | parseIdentifier text =>
    simp only [Invocation.run, Execution.parseIdentifier_eq]
    exact (Answers.reply (h.parseIdentifier text) _).reply _
  | _ => exact ⟨rfl, h⟩

theorem after_sound (earlier : List (Invocation × Environment × FileSystem)) :
    (after earlier).Sound := by
  have hfold (s : Session) (h : s.Sound) :
      (earlier.foldl (fun s c ↦ (run c.1 c.2.1 c.2.2 s).2) s).Sound := by
    induction earlier generalizing s with
    | nil => exact h
    | cons c earlier ih => exact ih _ (h.answers_run c.1 c.2.1 c.2.2).2
  exact hfold empty empty_sound

/-- Whatever commands have run before, a command comes to what it comes to alone. -/
theorem run_after (earlier : List (Invocation × Environment × FileSystem)) (i : Invocation)
    (env : Environment) (fs : FileSystem) : (run i env fs (after earlier)).1 = i.run env fs :=
  ((after_sound earlier).answers_run i env fs).1

end Session

end MessagingIdentity
