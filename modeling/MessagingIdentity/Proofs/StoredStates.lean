import MessagingIdentity.Proofs.ConfigurationTexts
import MessagingIdentity.Proofs.StateFiles

namespace MessagingIdentity

namespace FileSystem

variable {fs : FileSystem} {p : Path} {s : String} {content : Bytes}

theorem contains_of_read (h : fs.read p = .ok content) : fs.contains p = true := by
  rw [contains, read_eq_ok_iff.mp h]
  rfl

theorem node?_directory {name : String} (h : fs.read (p ++ [name]) = .ok content) :
    fs.node? p = some .directory := by
  obtain ⟨place, hplace, -⟩ := node?_eq_some_iff.mp (read_eq_ok_iff.mp h)
  obtain ⟨last, hlast, hdirectory, -⟩ := locate_concat_eq_ok_iff.mp hplace
  exact node?_eq_some_iff.mpr ⟨last, hlast, hdirectory⟩

theorem readText_of_read (h : fs.read p = .ok (Bytes.ofText s)) : fs.readText p = .ok s := by
  refine Except.bind_eq_ok_iff.mpr ⟨Bytes.ofText s, h, ?_⟩
  rw [Bytes.toText?_ofText]

end FileSystem

namespace State

variable {d : String} {c : Configuration} {e : Entropy} {key : PrivateKey} {fs fs' : FileSystem}
  {s : State} {secret known : Bytes}

theorem Holds.load_eq (h : Holds fs d key c) : load d fs = .ok ⟨d, c⟩ := by
  have hdirectory : fs.contains (Path.ofText d) = true :=
    FileSystem.contains_of_bare (FileSystem.node?_directory (ofText_keyPath d ▸ h.key))
  have hkey := FileSystem.contains_of_read h.key
  have hconfiguration := FileSystem.contains_of_read h.configuration
  have htext := FileSystem.readText_of_read h.configuration
  simp only [load, hdirectory, hkey, hconfiguration, Bool.not_true, Bool.false_eq_true, if_false]
  refine Except.bind_eq_ok_iff.mpr ⟨c.print, Except.mapError_eq_ok_iff.mpr htext, ?_⟩
  rw [Configuration.parse_print]

theorem Holds.loadKey_eq (h : Holds fs d key c) (hkey : key.Lasting secret known) :
    loadKey ⟨d, c⟩ fs = .ok key := by
  have htext := FileSystem.readText_of_read h.key
  refine Except.bind_eq_ok_iff.mpr ⟨_, Except.mapError_eq_ok_iff.mpr htext, ?_⟩
  rw [hkey.parseMembers_eq]
  refine Except.bind_eq_ok_iff.mpr ⟨key, Except.mapError_eq_ok_iff.mpr hkey.parse_eq, ?_⟩
  exact Except.bind_eq_ok_iff.mpr ⟨secret, Except.mapError_eq_ok_iff.mpr hkey.data_eq, rfl⟩

theorem holds_create (h : create d c e fs = (.ok s, fs')) : s = ⟨d, c⟩ ∧
    fs.contains (Path.ofText d) = false ∧ ∃ key,
      Registry.defaults.generatePrivate c.algorithm e = .ok key ∧ Holds fs' d key c := by
  rcases create_cases d c e fs with ⟨err, herr⟩ | ⟨hnew, -, key, hkey, hfiles, hmade⟩
  · cases herr.symm.trans h
  · rw [h] at hmade
    have hfiles : fs' = (store d key c fs).2 := (congrArg Prod.snd h).symm.trans hfiles
    rcases hmade with ⟨f, -, hmade⟩ | ⟨hstore, hmade⟩
    · cases hmade
    · obtain rfl := Except.ok.inj hmade
      exact ⟨rfl, hnew, key, hkey, hfiles ▸ holds_store hstore⟩

/-- What is loaded from the directory of a new state is what the state was made with: its configuration,
and the key that was generated, which has the canonical bytes of what was drawn. -/
theorem load_create (h : create d c e fs = (.ok s, fs')) :
    fs.contains (Path.ofText d) = false ∧ s = ⟨d, c⟩ ∧ load d fs' = .ok s ∧
    ∃ f key k secret known, Registry.family Registry.defaults.signing c.algorithm = .ok f ∧
      f.generate e = .ok key ∧ f.drawn? e = some (secret, known) ∧
      loadKey s fs' = .ok key ∧ key.data = .ok secret ∧
      key.publicKey = .ok k ∧ k.data = .ok known := by
  obtain ⟨rfl, hnew, key, hkey, hfiles⟩ := holds_create h
  obtain ⟨f, hf, hkey⟩ := Except.bind_eq_ok_iff.mp hkey
  obtain ⟨secret, known, hdrawn, hlasting⟩ := PairFamily.lasting_of_generate hkey
  obtain ⟨k, hk, hknown⟩ := hlasting.publicKey_eq
  exact ⟨hnew, rfl, hfiles.load_eq, f, key, k, secret, known, hf, hkey, hdrawn,
    hfiles.loadKey_eq hlasting, hlasting.data_eq, hk, hknown⟩

/-- A log level with marks of either kind, line ends and control characters. -/
def strange : Configuration :=
  ⟨"ECC", "4", ⟨8⟩, "'''\"\"\"\\\r\n\x00\t♪ = # \x7f"⟩

theorem load_create_strange : ∃ fs' key secret,
    create "/s/d" strange (fun _ ↦ 0) ⟨[]⟩ = (.ok ⟨"/s/d", strange⟩, fs') ∧
      load "/s/d" fs' = .ok ⟨"/s/d", strange⟩ ∧ loadKey ⟨"/s/d", strange⟩ fs' = .ok key ∧
      key.data = .ok secret := by
  obtain ⟨key, hkey⟩ := Registry.exists_generatePrivate fun _ ↦ 0
  have hcreate : create "/s/d" strange (fun _ ↦ 0) ⟨[]⟩ =
      (.ok ⟨"/s/d", strange⟩, (store "/s/d" key strange ⟨[]⟩).2) :=
    create_of_ready (t := .eth) rfl rfl hkey (Prod.ext rfl rfl)
  obtain ⟨-, -, hload, -, key, -, secret, -, -, -, -, hkey, hsecret, -, -⟩ := load_create hcreate
  exact ⟨_, key, secret, hcreate, hload, hkey, hsecret⟩

end State

end MessagingIdentity
