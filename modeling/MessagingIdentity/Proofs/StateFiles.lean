import MessagingIdentity.CommandLine.Program
import MessagingIdentity.Proofs.FilePlaces
import MessagingIdentity.Proofs.GeneratedKeys

namespace MessagingIdentity

namespace CurvePrivateKey

theorem exists_generate (e : Entropy) : ∃ k, generate e = .ok k := by
  unfold generate
  have hne (n : ℕ) : Bytes.ofNat 32 n ≠ [] :=
    List.ne_nil_of_length_eq_add_one (Bytes.length_ofNat 32 n)
  exact ⟨_, ofMembers_membersOf (Hexadecimal.encode_ne_empty (hne _))⟩

end CurvePrivateKey

theorem Registry.exists_generatePrivate (e : Entropy) :
    ∃ key, defaults.generatePrivate CurveKey.tag e = .ok key := by
  obtain ⟨k, hk⟩ := CurvePrivateKey.exists_generate e
  refine ⟨.curve k, Except.bind_eq_ok_iff.mpr ⟨.curve, rfl, ?_⟩⟩
  rw [PairFamily.generate, hk]
  rfl

namespace State

variable {d : String} {c : Configuration} {e : Entropy} {key : PrivateKey} {fs : FileSystem}

theorem ofText_keyPath (d : String) :
    Path.ofText (keyPath d) = (Path.ofText d).bare ++ [keyFile] :=
  Path.ofText_join d (by decide) (by decide) (by decide)

theorem ofText_configurationPath (d : String) :
    Path.ofText (configurationPath d) = (Path.ofText d).bare ++ [configurationFile] :=
  Path.ofText_join d (by decide) (by decide) (by decide)

/-- The files of a state are in its directory, with a key and a configuration. -/
structure Holds (fs : FileSystem) (d : String) (key : PrivateKey) (c : Configuration) : Prop where
  key : fs.read (Path.ofText (keyPath d)) = .ok (Bytes.ofText (Json.object key.members).pretty)
  configuration : fs.read (Path.ofText (configurationPath d)) = .ok (Bytes.ofText c.print)

theorem Holds.keep {fs' : FileSystem} (h : Holds fs d key c) (hkeeps : fs.Keeps fs') :
    Holds fs' d key c :=
  ⟨FileSystem.read_eq_ok_iff.mpr (hkeeps.node? (FileSystem.read_eq_ok_iff.mp h.key)),
    FileSystem.read_eq_ok_iff.mpr (hkeeps.node? (FileSystem.read_eq_ok_iff.mp h.configuration))⟩

theorem keeps_store (hclimbs : fs.Climbs (Path.ofText d))
    (hnew : fs.contains (Path.ofText d) = false) : fs.Keeps (store d key c fs).2 := by
  have hnames : "" ∉ (Path.ofText d).bare := fun hmem ↦ Path.ne_of_mem_bare hmem rfl
  have habsent : fs.node? (Path.ofText d).bare ≠ some .directory := fun hdir ↦ by
    rw [FileSystem.contains_of_bare hdir] at hnew
    cases hnew
  unfold store
  rw [ofText_keyPath, ofText_configurationPath]
  refine FileSystem.Change.keeps_andThen (fs.keeps_makeDirectories _) fun fs₁ h₁ ↦ ?_
  refine FileSystem.Change.keeps_andThen (h₁.write hnames hclimbs.bare habsent (by decide) _)
    fun fs₂ h₂ ↦ ?_
  exact h₂.write hnames hclimbs.bare habsent (by decide) _

theorem holds_store (h : (store d key c fs).1 = .ok ()) : Holds (store d key c fs).2 d key c := by
  unfold store at h ⊢
  obtain ⟨-, hrest⟩ := FileSystem.Change.ok_of_andThen h
  rw [hrest] at h ⊢
  obtain ⟨hkey, hrest⟩ := FileSystem.Change.ok_of_andThen h
  rw [hrest] at h ⊢
  refine ⟨?_, FileSystem.read_write h⟩
  have hread := FileSystem.read_write hkey
  rw [ofText_keyPath] at hread ⊢
  rw [ofText_configurationPath]
  exact FileSystem.read_write_of_ne (by decide) (by decide) (by decide) hread

theorem create_of_contains (h : fs.contains (Path.ofText d) = true) :
    create d c e fs = (.error .present, fs) := if_pos h

/-- All that making a state can come to: it stops before it writes anything, or it writes the files of
a new key. -/
theorem create_cases (d : String) (c : Configuration) (e : Entropy) (fs : FileSystem) :
    (∃ err, create d c e fs = (.error err, fs)) ∨
    fs.contains (Path.ofText d) = false ∧ (∃ t, MetaType.parse c.metaType = .ok t) ∧
      ∃ key, Registry.defaults.generatePrivate c.algorithm e = .ok key ∧
        (create d c e fs).2 = (store d key c fs).2 ∧
        ((∃ f, (store d key c fs).1 = .error f ∧ (create d c e fs).1 = .error (.file f)) ∨
          (store d key c fs).1 = .ok () ∧ (create d c e fs).1 = .ok ⟨d, c⟩) := by
  unfold create
  split
  · exact .inl ⟨.present, rfl⟩
  next hnew =>
    split
    next err _ => exact .inl ⟨.configuration err, rfl⟩
    next t ht =>
      split
      next err _ => exact .inl ⟨.key err, rfl⟩
      next key hkey =>
        refine .inr ⟨Bool.eq_false_iff.mpr hnew, ⟨t, ht⟩, key, hkey, ?_⟩
        split
        next f fs' hstore => exact ⟨by rw [hstore], .inl ⟨f, by rw [hstore], rfl⟩⟩
        next fs' hstore => exact ⟨by rw [hstore], .inr ⟨by rw [hstore], rfl⟩⟩

theorem create_of_unready (h : (∃ err, MetaType.parse c.metaType = .error err) ∨
    Registry.defaults.signing.lookup c.algorithm = none) :
    ∃ err, create d c e fs = (.error err, fs) := by
  refine (create_cases d c e fs).resolve_right ?_
  rintro ⟨-, ⟨t, ht⟩, key, hkey, -⟩
  rcases h with ⟨err, herr⟩ | hunknown
  · cases herr.symm.trans ht
  · obtain ⟨f, hf, -⟩ := Except.bind_eq_ok_iff.mp hkey
    rw [Registry.family, hunknown] at hf
    cases hf

theorem create_of_ready {t : MetaType} {fs' : FileSystem} (hnew : fs.contains (Path.ofText d) = false)
    (hmeta : MetaType.parse c.metaType = .ok t)
    (hkey : Registry.defaults.generatePrivate c.algorithm e = .ok key)
    (hstore : store d key c fs = (.ok (), fs')) : create d c e fs = (.ok ⟨d, c⟩, fs') := by
  simp only [create, hnew, Bool.false_eq_true, if_false, hmeta, hkey, hstore]

theorem keeps_create (hclimbs : fs.Climbs (Path.ofText d)) : fs.Keeps (create d c e fs).2 := by
  rcases create_cases d c e fs with ⟨err, h⟩ | ⟨hnew, -, key, -, h, -⟩
  · exact h ▸ .refl fs
  · exact h ▸ keeps_store hclimbs hnew

end State

namespace Program

/-- One run of the program in a session. -/
structure Call where
  arguments : List String
  environment : Environment

namespace Call

def run (call : Call) (fs : FileSystem) : Report × FileSystem :=
  Program.run call.arguments call.environment fs

/-- The call is an `init` that is to make this state in this directory. -/
structure Inits (call : Call) (i : Invocation) (c : Configuration) (d : String) : Prop where
  parse : Arguments.parse call.arguments = .ok i
  command : i.command = .init c
  directory : State.directoryOf call.environment.home i.directory = .ok d

variable {call : Call} {i : Invocation} {c : Configuration} {d : String} {fs : FileSystem}

theorem run_of_error {e : CommandError} {fs' : FileSystem}
    (hparse : Arguments.parse call.arguments = .ok i)
    (h : i.run call.environment fs = (.error e, fs')) :
    call.run fs = (⟨"", levelComplaint i call.environment fs ++ ["Error: " ++ e.message], 1⟩, fs') := by
  simp only [run, Program.run, hparse, h]

theorem run_of_ok {s : String} {fs' : FileSystem}
    (hparse : Arguments.parse call.arguments = .ok i)
    (h : i.run call.environment fs = (.ok s, fs')) :
    call.run fs = (⟨s ++ "\n", levelComplaint i call.environment fs, 0⟩, fs') := by
  simp only [run, Program.run, hparse, h]

theorem run_files (hparse : Arguments.parse call.arguments = .ok i) (fs : FileSystem) :
    (call.run fs).2 = (i.run call.environment fs).2 := by
  cases h : i.run call.environment fs with
  | mk outcome fs' =>
    cases outcome with
    | error e => rw [run_of_error hparse h]
    | ok s => rw [run_of_ok hparse h]

/-- Every command but `init` leaves all files, and so do arguments that spell none. -/
theorem files_of_not_inits (h : ∀ i c d, ¬ call.Inits i c d) : (call.run fs).2 = fs := by
  cases hparse : Arguments.parse call.arguments with
  | error e => cases e <;> simp only [run, Program.run, hparse]
  | ok i =>
    rw [run_files hparse]
    obtain ⟨command, told⟩ := i
    cases command with
    | init c =>
      cases hdirectory : State.directoryOf call.environment.home told with
      | error e => simp only [Invocation.run, hdirectory, Execution.init]
      | ok d => exact absurd ⟨hparse, rfl, hdirectory⟩ (h _ c d)
    | _ => rfl

theorem Inits.directory_unique (h : call.Inits i c d) {i' : Invocation} {c' : Configuration}
    {d' : String} (h' : call.Inits i' c' d') : d = d' := by
  obtain rfl := Except.ok.inj (h.parse.symm.trans h'.parse)
  exact Except.ok.inj (h.directory.symm.trans h'.directory)

theorem Inits.run_eq (h : call.Inits i c d) (fs : FileSystem) :
    i.run call.environment fs = Execution.init (.ok d) c call.environment.entropy fs := by
  simp only [Invocation.run, h.command, h.directory]

theorem Inits.run_of_create_error (h : call.Inits i c d) {err : StateError} {fs' : FileSystem}
    (hcreate : State.create d c call.environment.entropy fs = (.error err, fs')) :
    call.run fs = (⟨"", levelComplaint i call.environment fs ++
      ["Error: " ++ (CommandError.init err).message], 1⟩, fs') := by
  refine run_of_error h.parse ?_
  rw [h.run_eq, Execution.init, hcreate]

theorem Inits.run_of_create_ok (h : call.Inits i c d) {s : State} {fs' : FileSystem}
    (hcreate : State.create d c call.environment.entropy fs = (.ok s, fs')) :
    (call.run fs).1.exit = 0 ∧ (call.run fs).2 = fs' := by
  have hrun := h.run_eq fs
  rw [Execution.init, hcreate] at hrun
  rw [run_of_ok h.parse hrun]
  exact ⟨rfl, rfl⟩

theorem Inits.files (h : call.Inits i c d) (fs : FileSystem) :
    (call.run fs).2 = (State.create d c call.environment.entropy fs).2 := by
  cases hcreate : State.create d c call.environment.entropy fs with
  | mk made fs' =>
    cases made with
    | error err => rw [h.run_of_create_error hcreate]
    | ok s => exact (h.run_of_create_ok hcreate).2

end Call

/-- The files after some calls, one after the other. -/
def session (fs : FileSystem) (calls : List Call) : FileSystem :=
  calls.foldl (fun fs call ↦ (call.run fs).2) fs

/-- Every path told to an `init` goes back up only from where something is by then. -/
def Careful (fs : FileSystem) : List Call → Prop
  | [] => True
  | call :: calls =>
    (∀ i c d, call.Inits i c d → fs.Climbs (Path.ofText d)) ∧ Careful (call.run fs).2 calls

variable {fs : FileSystem} {call : Call} {calls : List Call}

theorem keeps_run (h : ∀ i c d, call.Inits i c d → fs.Climbs (Path.ofText d)) :
    fs.Keeps (call.run fs).2 := by
  by_cases hinits : ∃ i c d, call.Inits i c d
  · obtain ⟨i, c, d, hinits⟩ := hinits
    exact hinits.files fs ▸ State.keeps_create (h i c d hinits)
  · simp only [not_exists] at hinits
    exact Call.files_of_not_inits hinits ▸ .refl fs

theorem keeps_session (h : Careful fs calls) : fs.Keeps (session fs calls) := by
  induction calls generalizing fs with
  | nil => exact .refl fs
  | cons call calls ih => exact (keeps_run h.1).trans (ih h.2)

theorem careful_of_notMem
    (h : ∀ call ∈ calls, ∀ i c d, call.Inits i c d → ".." ∉ Path.ofText d) (fs : FileSystem) :
    Careful fs calls := by
  induction calls generalizing fs with
  | nil => trivial
  | cons call calls ih =>
    refine ⟨fun i c d hinits ↦ ?_, ih (fun call hcall ↦ h call (List.mem_cons_of_mem _ hcall)) _⟩
    exact FileSystem.climbs_of_notMem (h call List.mem_cons_self i c d hinits) fs

/-- Only an `init` changes files. Where something is at its path it says so, and otherwise it makes all
tests before it changes anything. What it has written stays through careful later calls. -/
theorem state_kept (fs : FileSystem) (call : Call) :
    ((∀ i c d, ¬ call.Inits i c d) → (call.run fs).2 = fs) ∧
    ∀ i c d, call.Inits i c d →
      (fs.contains (Path.ofText d) = true →
        ∃ warnings, call.run fs = (⟨"", warnings ++
          ["Error: " ++ (CommandError.init .present).message], 1⟩, fs)) ∧
      ((∃ err, MetaType.parse c.metaType = .error err) ∨
          Registry.defaults.signing.lookup c.algorithm = none →
        ∃ warnings err, call.run fs = (⟨"", warnings ++
          ["Error: " ++ (CommandError.init err).message], 1⟩, fs)) ∧
      ((∀ key, (State.store d key c fs).1 = .ok ()) → (call.run fs).1.exit ≠ 0 →
        (call.run fs).2 = fs) ∧
      ((call.run fs).1.exit = 0 →
        ∃ key, Registry.defaults.generatePrivate c.algorithm call.environment.entropy = .ok key ∧
          ∀ later, Careful (call.run fs).2 later →
            State.Holds (session (call.run fs).2 later) d key c) := by
  refine ⟨Call.files_of_not_inits, fun i c d hinits ↦ ⟨fun hthere ↦ ?_, fun hunready ↦ ?_, ?_⟩⟩
  · exact ⟨_, hinits.run_of_create_error (State.create_of_contains hthere)⟩
  · obtain ⟨err, hcreate⟩ := State.create_of_unready hunready
    exact ⟨_, err, hinits.run_of_create_error hcreate⟩
  rcases State.create_cases d c call.environment.entropy fs with
    ⟨err, hcreate⟩ | ⟨-, -, key, hkey, hfiles, hmade⟩
  · have hrun := hinits.run_of_create_error hcreate
    rw [hrun]
    exact ⟨fun _ _ ↦ rfl, nofun⟩
  rw [← hinits.files] at hfiles
  rcases hmade with ⟨f, hstore, hmade⟩ | ⟨hstore, hmade⟩
  · have hrun := hinits.run_of_create_error (Prod.ext hmade rfl)
    refine ⟨fun hnever ↦ ?_, fun hexit ↦ ?_⟩
    · cases (hnever key).symm.trans hstore
    · rw [hrun] at hexit
      cases hexit
  · have hrun := hinits.run_of_create_ok (Prod.ext hmade rfl)
    refine ⟨fun _ hexit ↦ absurd hrun.1 hexit, fun _ ↦ ⟨key, hkey, fun later hlater ↦ ?_⟩⟩
    exact (hfiles ▸ State.holds_store hstore).keep (keeps_session hlater)

def initAt (directory network : String) : Call :=
  ⟨["init", "--network", network, "--config-path", directory],
    ⟨none, fun _ ↦ 0, ⟨"0.1.0", "release", "", "", ""⟩⟩⟩

def configurationOn (byte : UInt8) : Configuration := ⟨"ECC", "1", ⟨byte⟩, "info"⟩

def InitsAt (directory network : String) (byte : UInt8) : Prop :=
  (initAt directory network).Inits ⟨.init (configurationOn byte), some directory⟩
    (configurationOn byte) directory

theorem initsAt_first : InitsAt "/s/d" "0" 0 := ⟨rfl, rfl, rfl⟩

theorem initsAt_again : InitsAt "/s/d" "1" 1 := ⟨rfl, rfl, rfl⟩

theorem run_initAt {directory network : String} {byte : UInt8} (h : InitsAt directory network byte)
    (hnew : fs.contains (Path.ofText directory) = false)
    (hstore : ∀ key, (State.store directory key (configurationOn byte) fs).1 = .ok ()) :
    ∃ key, ((initAt directory network).run fs).1.exit = 0 ∧ ((initAt directory network).run fs).2 =
      (State.store directory key (configurationOn byte) fs).2 := by
  obtain ⟨key, hkey⟩ := Registry.exists_generatePrivate (initAt directory network).environment.entropy
  have hmeta : MetaType.parse "1" = .ok .mkm := rfl
  exact ⟨key, h.run_of_create_ok
    (State.create_of_ready hnew hmeta hkey (Prod.ext (hstore key) rfl))⟩

theorem run_initAt_first : ∃ key, ((initAt "/s/d" "0").run ⟨[]⟩).1.exit = 0 ∧
    ((initAt "/s/d" "0").run ⟨[]⟩).2 = (State.store "/s/d" key (configurationOn 0) ⟨[]⟩).2 :=
  run_initAt initsAt_first rfl fun _ ↦ rfl

theorem state_kept_twice :
    let fs := ((initAt "/s/d" "0").run ⟨[]⟩).2
    ((initAt "/s/d" "0").run ⟨[]⟩).1.exit = 0 ∧
      (∃ warnings, (initAt "/s/d" "1").run fs = (⟨"", warnings ++
        ["Error: " ++ (CommandError.init .present).message], 1⟩, fs)) ∧
      ∃ key, State.Holds (session fs [initAt "/s/d" "1"]) "/s/d" key (configurationOn 0) := by
  obtain ⟨key, hexit, hfiles⟩ := run_initAt_first
  obtain ⟨-, hfirst⟩ := state_kept ⟨[]⟩ (initAt "/s/d" "0")
  obtain ⟨-, -, -, hkept⟩ := hfirst _ _ _ initsAt_first
  obtain ⟨key', -, hholds⟩ := hkept hexit
  obtain ⟨-, hsecond⟩ := state_kept ((initAt "/s/d" "0").run ⟨[]⟩).2 (initAt "/s/d" "1")
  obtain ⟨hpresent, -⟩ := hsecond _ _ _ initsAt_again
  have hthere : ((initAt "/s/d" "0").run ⟨[]⟩).2.contains (Path.ofText "/s/d") = true := by
    rw [hfiles]
    rfl
  refine ⟨hexit, hpresent hthere, key', hholds _ (careful_of_notMem ?_ _)⟩
  intro call hcall i c d hinits
  obtain rfl := List.mem_singleton.mp hcall
  have hpath : Path.ofText d = ["s", "d"] := hinits.directory_unique initsAt_again ▸ rfl
  rw [hpath]
  decide

/-- The path of the second `init` does not lead anywhere until the directory in front of `..` is
made. Then it leads to the directory that is there. -/
theorem state_overwritten :
    let fs := ((initAt "/s/d" "0").run ⟨[]⟩).2
    let fs' := ((initAt "/s/gone/../d" "1").run fs).2
    let p := Path.ofText (State.configurationPath "/s/d")
    ((initAt "/s/d" "0").run ⟨[]⟩).1.exit = 0 ∧ ((initAt "/s/gone/../d" "1").run fs).1.exit = 0 ∧
      fs.read p = .ok (Bytes.ofText (configurationOn 0).print) ∧
      fs'.read p = .ok (Bytes.ofText (configurationOn 1).print) ∧ fs'.read p ≠ fs.read p := by
  obtain ⟨key, hexit, hfiles⟩ := run_initAt_first
  dsimp only
  rw [hfiles]
  obtain ⟨key', hexit', hfiles'⟩ := run_initAt
    (show InitsAt "/s/gone/../d" "1" 1 from ⟨rfl, rfl, rfl⟩)
    (show (State.store "/s/d" key (configurationOn 0) ⟨[]⟩).2.contains _ = false from rfl)
    fun _ ↦ rfl
  rw [hfiles']
  have hread : (State.store "/s/d" key (configurationOn 0) ⟨[]⟩).2.read
      (Path.ofText (State.configurationPath "/s/d")) =
    .ok (Bytes.ofText (configurationOn 0).print) := rfl
  have hread' : (State.store "/s/gone/../d" key' (configurationOn 1)
      (State.store "/s/d" key (configurationOn 0) ⟨[]⟩).2).2.read
        (Path.ofText (State.configurationPath "/s/d")) =
    .ok (Bytes.ofText (configurationOn 1).print) := rfl
  refine ⟨hexit, hexit', hread, hread', ?_⟩
  rw [hread, hread']
  have hprint : Bytes.ofText (configurationOn 1).print ≠ Bytes.ofText (configurationOn 0).print := by
    decide
  exact fun h ↦ hprint (Except.ok.inj h)

end Program

end MessagingIdentity
