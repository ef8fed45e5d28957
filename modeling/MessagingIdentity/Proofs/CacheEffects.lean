import MessagingIdentity.Proofs.CacheKeys

namespace MessagingIdentity

namespace Cache

variable {κ ν ε : Type} [DecidableEq κ] {c c' : Cache κ ν} {key : κ} {value : ν}

/-- The cache after a result has been worked out for a key: a failure is not kept, and what is there
stays. -/
def keep (c : Cache κ ν) (key : κ) (r : Except ε ν) : Cache κ ν :=
  match c.get? key with
  | some _ => c
  | none =>
    match r with
    | .ok value => c.put key value
    | .error _ => c

theorem keep_error (c : Cache κ ν) (key : κ) (e : ε) : c.keep key (.error e : Except ε ν) = c := by
  unfold keep
  cases c.get? key <;> rfl

theorem keep_of_get? (h : c.get? key = some value) (r : Except ε ν) : c.keep key r = c := by
  simp only [keep, h]

theorem keep_of_missing (h : c.get? key = none) (value : ν) :
    c.keep key (.ok value : Except ε ν) = c.put key value := by
  simp only [keep, h]

theorem put_eq_keep (h : ∀ v, c.get? key = some v → v = value) :
    c.put key value = c.keep key (.ok value : Except ε ν) := by
  cases hget : c.get? key with
  | none => exact (keep_of_missing hget value).symm
  | some v =>
    obtain rfl := h v hget
    rw [keep_of_get? hget]
    exact congrArg mk (assign_of_lookup hget)

/-- All entries of the first cache are in the second, as they were, and at most one other is. -/
structure Grows (c c' : Cache κ ν) : Prop where
  kept : ∀ key value, c.get? key = some value → c'.get? key = some value
  one : ∀ j k, c'.get? j ≠ c.get? j → c'.get? k ≠ c.get? k → j = k
  size_le : c'.size ≤ c.size + 1

theorem Grows.refl (c : Cache κ ν) : c.Grows c :=
  ⟨fun _ _ h ↦ h, fun _ _ h ↦ absurd rfl h, Nat.le_succ _⟩

theorem grows_put (h : c.get? key = none) (value : ν) : c.Grows (c.put key value) := by
  have hchanged (k : κ) (hk : (c.put key value).get? k ≠ c.get? k) : k = key := by
    by_contra hne
    exact hk (by rw [get?_put, if_neg hne])
  refine ⟨fun k v hget ↦ ?_, fun j k hj hk ↦ ?_, length_assign_le key value c.entries⟩
  · have hne : k ≠ key := by
      rintro rfl
      cases h.symm.trans hget
    rw [get?_put, if_neg hne, hget]
  · rw [hchanged j hj, hchanged k hk]

theorem grows_keep (c : Cache κ ν) (key : κ) (r : Except ε ν) : c.Grows (c.keep key r) := by
  cases hget : c.get? key with
  | some v =>
    rw [keep_of_get? hget]
    exact .refl c
  | none =>
    cases r with
    | error e =>
      rw [keep_error]
      exact .refl c
    | ok value =>
      rw [keep_of_missing hget]
      exact grows_put hget value

end Cache

namespace Session

variable {s : Session}

theorem parseAddress_snd (text : String) (s : Session) : (s.parseAddress text).2 =
    { s with addresses := s.addresses.keep text (Address.parse text) } := by
  unfold parseAddress Cache.keep
  cases s.addresses.get? text with
  | some a => rfl
  | none => cases Address.parse text <;> rfl

theorem parseIdentifier_snd (text : String) (s : Session) : (s.parseIdentifier text).2 =
    { s with identifiers := s.identifiers.keep text (Identifier.parse text) } := by
  unfold parseIdentifier Cache.keep
  cases s.identifiers.get? text with
  | some i => rfl
  | none => cases Identifier.parse text <;> rfl

def withIdentifier (name : Option String) (a : Address) (terminal : Option String) (s : Session) :
    Session :=
  { s with
    identifiers := s.identifiers.keep (Identifier.concat name a terminal)
      (Identifier.compose name a terminal) }

theorem createIdentifier_snd (name : Option String) (a : Address) (terminal : Option String)
    (s : Session) :
    (createIdentifier name a terminal s).2 = s.withIdentifier name a terminal := by
  simp only [createIdentifier, withIdentifier, Cache.keep]
  cases s.identifiers.get? (Identifier.concat name a terminal) with
  | some i => rfl
  | none => cases Identifier.compose name a terminal <;> rfl

def withAddress (r : Except MetaError Address) (s : Session) : Session :=
  match r with
  | .error _ => s
  | .ok a => { s with addresses := s.addresses.keep a.text (.ok a : Except MetaError Address) }

theorem Sound.put_eq_keep (h : s.Sound) {a : Address} (ha : a.Made) :
    s.addresses.put a.text a = s.addresses.keep a.text (.ok a : Except MetaError Address) := by
  refine Cache.put_eq_keep fun b hb ↦ ?_
  exact Except.ok.inj ((h.addresses _ (mem_of_lookup hb)).symm.trans ha.parse_text)

theorem Sound.withAddress_ok (h : s.Sound) {a : Address} (ha : a.Made) :
    s.withAddress (.ok a) = { s with addresses := s.addresses.put a.text a } := by
  rw [withAddress, h.put_eq_keep ha]

theorem Sound.keepAddress_snd (h : s.Sound) {r : Except MetaError Address}
    (hr : ∀ a, r = .ok a → a.Made) : (Session.keepAddress r s).2 = s.withAddress r := by
  cases r with
  | error e => rfl
  | ok a => exact (h.withAddress_ok (hr a rfl)).symm

def withMeta (m : Meta) (r : Except MetaError Address) (terminal : Option String) (s : Session) :
    Session :=
  match r with
  | .error _ => s
  | .ok a => (s.withAddress (.ok a)).withIdentifier m.seed a terminal

theorem Sound.keepIdentifier_snd (h : s.Sound) (m : Meta) {r : Except MetaError Address}
    (hr : ∀ a, r = .ok a → a.Made) (terminal : Option String) :
    (Session.keepIdentifier m r terminal s).2 = s.withMeta m r terminal := by
  cases r with
  | error e => rfl
  | ok a =>
    change (Session.createIdentifier m.seed a terminal (Session.keepAddress (.ok a) s).2).2 = _
    rw [createIdentifier_snd, h.keepAddress_snd hr]
    rfl

theorem grows_withAddress (r : Except MetaError Address) (s : Session) :
    s.addresses.Grows (s.withAddress r).addresses ∧
      (s.withAddress r).identifiers = s.identifiers := by
  cases r with
  | error e => exact ⟨.refl _, rfl⟩
  | ok a => exact ⟨s.addresses.grows_keep a.text (.ok a : Except MetaError Address), rfl⟩

theorem grows_withIdentifier (name : Option String) (a : Address) (terminal : Option String)
    (s : Session) : s.identifiers.Grows (s.withIdentifier name a terminal).identifiers ∧
      (s.withIdentifier name a terminal).addresses = s.addresses :=
  ⟨s.identifiers.grows_keep _ _, rfl⟩

theorem withIdentifier_of_error {name : Option String} {a : Address} {terminal : Option String}
    {e : IdentifierError} (h : Identifier.compose name a terminal = .error e) (s : Session) :
    s.withIdentifier name a terminal = s := by
  rw [withIdentifier, h, Cache.keep_error]

end Session

variable {ι : Type} {metas : ι → Meta}

/-- The caches after a call. -/
def Call.leaves (metas : ι → Meta) (s : Session) : Call ι → Session
  | parseAddress text => { s with addresses := s.addresses.keep text (Address.parse text) }
  | parseIdentifier text =>
    { s with identifiers := s.identifiers.keep text (Identifier.parse text) }
  | createIdentifier name address _ terminal => s.withIdentifier name address terminal
  | generateAddress owner network => s.withAddress ((metas owner).address network)
  | generateIdentifier owner network terminal =>
    s.withMeta (metas owner) ((metas owner).address network) terminal

theorem Memory.Sound.session_answer [DecidableEq ι] {w : Memory ι} (h : Sound metas w) (c : Call ι) :
    (w.answer metas c).2.session = c.leaves metas w.session := by
  cases c with
  | parseAddress text => exact Session.parseAddress_snd text w.session
  | parseIdentifier text => exact Session.parseIdentifier_snd text w.session
  | createIdentifier name address made terminal =>
    exact Session.createIdentifier_snd name address terminal w.session
  | generateAddress owner network =>
    rw [Call.leaves, ← (h.ask owner network).1]
    exact h.session.keepAddress_snd fun _ ↦ h.made_of_ask
  | generateIdentifier owner network terminal =>
    rw [Call.leaves, ← (h.ask owner network).1]
    exact h.session.keepIdentifier_snd (metas owner) (fun _ ↦ h.made_of_ask) terminal

def Answer.Failed : Answer → Prop
  | address r => r.isOk = false
  | identifier r => r.isOk = false
  | metaAddress r => r.isOk = false
  | metaIdentifier r => r.isOk = false

def Call.ForAddress : Call ι → Prop
  | parseAddress _ => True
  | generateAddress _ _ => True
  | _ => False

/-- Calls that ask for an identifier, the address of which is at hand or in the text. -/
def Call.ForIdentifier : Call ι → Prop
  | parseIdentifier _ => True
  | createIdentifier _ _ _ _ => True
  | _ => False

/-- The identifier of a meta is refused though there is its address. -/
def Call.Refused (metas : ι → Meta) (a : Address) : Call ι → Prop
  | generateIdentifier owner network terminal => (metas owner).address network = .ok a ∧
    ∃ e, Identifier.compose (metas owner).seed a terminal = .error e
  | _ => False

/-- What a call does to the caches: it adds at most one entry to each, to one of them alone if it is
not for both, and none if it fails, unless it is an identifier that is refused and not its address. -/
structure Call.Effect (metas : ι → Meta) (c : Call ι) (r : Answer) (s s' : Session) : Prop where
  addresses_grow : s.addresses.Grows s'.addresses
  identifiers_grow : s.identifiers.Grows s'.identifiers
  identifiers_eq : c.ForAddress → s'.identifiers = s.identifiers
  addresses_eq : c.ForIdentifier → s'.addresses = s.addresses
  failed : r.Failed → s' = s ∨
    ∃ a, c.Refused metas a ∧ s' = { s with addresses := s.addresses.put a.text a }

namespace Call

theorem grows_leaves (c : Call ι) (metas : ι → Meta) (s : Session) :
    s.addresses.Grows (c.leaves metas s).addresses ∧
      s.identifiers.Grows (c.leaves metas s).identifiers := by
  cases c with
  | parseAddress text => exact ⟨s.addresses.grows_keep text _, .refl _⟩
  | parseIdentifier text => exact ⟨.refl _, s.identifiers.grows_keep text _⟩
  | createIdentifier name address made terminal =>
    obtain ⟨hidentifiers, haddresses⟩ := Session.grows_withIdentifier name address terminal s
    exact ⟨haddresses ▸ .refl _, hidentifiers⟩
  | generateAddress owner network =>
    obtain ⟨haddresses, hidentifiers⟩ := Session.grows_withAddress ((metas owner).address network) s
    exact ⟨haddresses, hidentifiers ▸ .refl _⟩
  | generateIdentifier owner network terminal =>
    rw [Call.leaves]
    cases (metas owner).address network with
    | error e => exact ⟨.refl _, .refl _⟩
    | ok a =>
      exact ⟨(Session.grows_withAddress (.ok a) s).1,
        (Session.grows_withIdentifier (metas owner).seed a terminal (s.withAddress (.ok a))).1⟩

/-- A failed call leaves nothing but, at most, the address of an identifier that is refused. -/
theorem leaves_of_failed {c : Call ι} (h : (c.plain metas).Failed) {s : Session} (hs : s.Sound) :
    c.leaves metas s = s ∨
      ∃ a, c.Refused metas a ∧ c.leaves metas s = { s with addresses := s.addresses.put a.text a } := by
  cases c with
  | parseAddress text =>
    obtain ⟨e, he⟩ := Except.isOk_eq_false_iff.mp h
    rw [Call.leaves, he, Cache.keep_error]
    exact .inl rfl
  | parseIdentifier text =>
    obtain ⟨e, he⟩ := Except.isOk_eq_false_iff.mp h
    rw [Call.leaves, he, Cache.keep_error]
    exact .inl rfl
  | createIdentifier name address made terminal =>
    obtain ⟨e, he⟩ := Except.isOk_eq_false_iff.mp h
    exact .inl (Session.withIdentifier_of_error he s)
  | generateAddress owner network =>
    obtain ⟨e, he⟩ := Except.isOk_eq_false_iff.mp h
    rw [Call.leaves, he]
    exact .inl rfl
  | generateIdentifier owner network terminal =>
    obtain ⟨e, he⟩ := Except.isOk_eq_false_iff.mp h
    rw [Call.leaves]
    cases ha : (metas owner).address network with
    | error e => exact .inl rfl
    | ok a =>
      rw [Meta.identifier, ha] at he
      obtain ⟨e', he', -⟩ := Except.mapError_eq_error_iff.mp he
      refine .inr ⟨a, ⟨ha, e', he'⟩, ?_⟩
      rw [Session.withMeta, Session.withIdentifier_of_error he',
        hs.withAddress_ok (Meta.made_of_address ha)]

end Call

namespace Memory

variable [DecidableEq ι]

theorem Sound.effect {w : Memory ι} (h : Sound metas w) (c : Call ι) :
    c.Effect metas (w.answer metas c).1 w.session (w.answer metas c).2.session := by
  rw [h.session_answer c, (h.answer c).1]
  obtain ⟨haddresses, hidentifiers⟩ := c.grows_leaves metas w.session
  refine ⟨haddresses, hidentifiers, fun hc ↦ ?_, fun hc ↦ ?_,
    fun hfailed ↦ Call.leaves_of_failed hfailed h.session⟩
  · cases c with
    | parseAddress text => rfl
    | generateAddress owner network => exact (Session.grows_withAddress _ w.session).2
    | _ => exact hc.elim
  · cases c with
    | parseIdentifier text => rfl
    | createIdentifier name address made terminal => rfl
    | _ => exact hc.elim

/-- After any calls and sweeps, a call has no other effect on the shared caches than to add what was
asked for. A sweep counts and drops one half of each cache, rounded up, and the rest was there. -/
theorem answer_adds_and_sweep_halves (metas : ι → Meta) (events : List (Event ι)) :
    let w := run metas events
    (∀ c : Call ι, c.Effect metas (w.answer metas c).1 w.session (w.answer metas c).2.session) ∧
    ∀ (addresses : Walk String Address) (identifiers : Walk String Identifier),
      let r := w.session.reduceMemory addresses.order identifiers.order
      r.1 = (w.session.addresses.size + 1) / 2 + (w.session.identifiers.size + 1) / 2 ∧
      r.2.addresses.size = w.session.addresses.size / 2 ∧
      r.2.identifiers.size = w.session.identifiers.size / 2 ∧
      (∀ e ∈ r.2.addresses.entries, e ∈ w.session.addresses.entries) ∧
      ∀ e ∈ r.2.identifiers.entries, e ∈ w.session.identifiers.entries := by
  refine ⟨(run_sound metas events).effect, fun addresses identifiers ↦ ?_⟩
  have haddresses := Cache.size_sweep addresses (run metas events).session.addresses
  have hidentifiers := Cache.size_sweep identifiers (run metas events).session.identifiers
  refine ⟨?_, haddresses, hidentifiers, fun e ↦ Cache.mem_of_mem_sweep addresses,
    fun e ↦ Cache.mem_of_mem_sweep identifiers⟩
  change _ - _ + (_ - _) = _
  rw [haddresses, hidentifiers]
  omega

end Memory

end MessagingIdentity
