import MessagingIdentity.Proofs.SharedCaches

namespace MessagingIdentity

namespace Meta

variable {m : Meta} {network : EntityType} {a : Address}

/-- An address leads back to itself by its own network, be it written in the address or not. -/
theorem address_network (h : m.address network = .ok a) : m.address a.network = .ok a := by
  unfold address at h ⊢
  split at h
  next hm =>
    split at h
    next b hb =>
      obtain rfl := Except.ok.inj h
      rfl
    next => cases h
  next hm =>
    obtain ⟨b, hb, h⟩ := Except.bind_eq_ok_iff.mp h
    obtain rfl := Except.ok.inj h
    rw [hb]
    rfl
  next => exact h

theorem identifier_eq_ok_iff {terminal : Option String} {i : Identifier} :
    m.identifier network terminal = .ok i ↔
      ∃ a, m.address network = .ok a ∧ Identifier.compose m.seed a terminal = .ok i := by
  rw [identifier, Except.bind_eq_ok_iff]
  exact exists_congr fun a ↦ and_congr_right' Except.mapError_eq_ok_iff

theorem matchesIdentifier_iff {terminal : Option String} {i : Identifier}
    (h : m.identifier network terminal = .ok i) :
    m.matchesIdentifier i = true ↔ m.seed ≠ some "" := by
  obtain ⟨a, ha, hi⟩ := identifier_eq_ok_iff.mp h
  obtain ⟨-, -, rfl⟩ := Identifier.compose_eq_ok_iff.mp hi
  have hself : (a == a) = true := beq_self_eq_true a.text
  rw [matchesIdentifier, Identifier.network]
  dsimp only
  rw [address_network ha]
  dsimp only
  rw [hself, Bool.and_true, beq_iff_eq]
  exact Identifier.present_eq_self_iff

theorem parse_text_of_identifier {terminal : Option String} {i : Identifier}
    (h : m.identifier network terminal = .ok i) : Identifier.parse i.text = .ok i := by
  obtain ⟨a, ha, hi⟩ := identifier_eq_ok_iff.mp h
  exact Identifier.parse_text_of_compose (made_of_address ha) hi

theorem validated_eq_ok_iff {m' : Meta} : m.validated = .ok m' ↔ m.validate = .ok () ∧ m' = m := by
  refine Except.map_eq_ok_iff.trans ⟨?_, ?_⟩
  · intro h
    obtain ⟨u, hvalid, rfl⟩ := h
    exact ⟨hvalid, rfl⟩
  · intro h
    obtain ⟨hvalid, rfl⟩ := h
    exact ⟨(), hvalid, rfl⟩

theorem of_generate {type : MetaType} {key : PrivateKey} {seed : Option String}
    (h : generate type key seed = .ok m) :
    key.publicKey = .ok m.key ∧ m.seed = seed.filter (· ≠ "") ∧ m.validate = .ok () := by
  obtain ⟨publicKey, hkey, h⟩ := Except.bind_eq_ok_iff.mp h
  have hkey := Except.mapError_eq_ok_iff.mp hkey
  split at h
  next hs =>
    obtain ⟨hvalid, rfl⟩ := validated_eq_ok_iff.mp h
    exact ⟨hkey, hs.symm, hvalid⟩
  next s hs =>
    obtain ⟨fingerprint, -, h⟩ := Except.bind_eq_ok_iff.mp h
    obtain ⟨hvalid, rfl⟩ := validated_eq_ok_iff.mp h
    exact ⟨hkey, hs.symm, hvalid⟩

theorem seed_of_generate {type : MetaType} {key : PrivateKey} {seed : Option String}
    (h : generate type key seed = .ok m) : m.seed ≠ some "" := by
  obtain ⟨-, hseed, -⟩ := of_generate h
  intro hempty
  have hne := (Option.filter_eq_some_iff.mp (hseed.symm.trans hempty)).2
  simp at hne

theorem Recalls.matchesWith {memo : Memo} (h : m.Recalls memo) (i : Identifier) :
    (m.matchesWith i memo).1 = m.matchesIdentifier i ∧ m.Recalls (m.matchesWith i memo).2 := by
  obtain ⟨hr, hm⟩ := h.addressWith i.network
  rw [Meta.matchesWith, matchesIdentifier, ← hr]
  rcases hmemo : m.addressWith i.network memo with ⟨r, later⟩
  rw [hmemo] at hm
  by_cases hname : (i.name == m.seed) = true
  · rw [if_pos hname, hname, Bool.true_and]
    cases r with
    | ok a => exact ⟨rfl, hm⟩
    | error e => exact ⟨rfl, hm⟩
  · rw [if_neg hname, Bool.eq_false_iff.mpr hname]
    exact ⟨rfl, h⟩

end Meta

namespace Memory

variable {ι : Type} {metas : ι → Meta} {w : Memory ι} [DecidableEq ι]

theorem Sound.identifier_of_answer (h : Sound metas w) {owner : ι} {network : EntityType}
    {terminal : Option String} {i : Identifier}
    (hi : (w.answer metas (.generateIdentifier owner network terminal)).1 = .metaIdentifier (.ok i)) :
    (metas owner).identifier network terminal = .ok i := by
  rw [(h.answer _).1] at hi
  exact Answer.metaIdentifier.inj hi

theorem answer_of_identifier (metas : ι → Meta) (events : List (Event ι)) (owner : ι)
    {network : EntityType} {terminal : Option String} {i : Identifier}
    (hi : (metas owner).identifier network terminal = .ok i) :
    ((run metas events).answer metas (.generateIdentifier owner network terminal)).1 =
      .metaIdentifier (.ok i) :=
  ((run_sound metas events).answer _).1.trans (congrArg Answer.metaIdentifier hi)

/-- An identifier that is generated from a meta, in whatever state, is read back from its text, and
the meta takes it for its own, in whatever state, exactly if its seed is not the empty text. A meta
that is made with a private key has no such seed. -/
theorem matches_generated_iff (metas : ι → Meta) (events later : List (Event ι)) (owner : ι)
    (network : EntityType) (terminal : Option String) {i : Identifier}
    (hi : ((run metas events).answer metas (.generateIdentifier owner network terminal)).1 =
      .metaIdentifier (.ok i)) :
    Identifier.parse i.text = .ok i ∧
      (((metas owner).matchesWith i ((run metas later).memos owner)).1 = true ↔
        (metas owner).seed ≠ some "") ∧
      ∀ type key seed, Meta.generate type key seed = .ok (metas owner) →
        (metas owner).seed ≠ some "" := by
  have hm := (run_sound metas events).identifier_of_answer hi
  refine ⟨Meta.parse_text_of_identifier hm, ?_, fun _ _ _ ↦ Meta.seed_of_generate⟩
  rw [(((run_sound metas later).memos owner).matchesWith i).1]
  exact Meta.matchesIdentifier_iff hm

end Memory

namespace Meta

def signedMembers (seed fingerprint : String) : Json.Members := Json.Members.ofList
  [(Field.type, .text MetaType.mkm.tag),
    (Field.key, .object (RsaKey.membersOf <|
      "MEgCQQDWIA0SbzhMM/+ykxaEzHxV05dMAjIJz5/Ob3f6PzrJYDqhvUl8ImoJ" ++
        "MMlUUkqKnlf3vtGUa/Hvf8lrJq1dHCo9AgMBAAE=")),
    (Field.seed, .text seed), (Field.fingerprint, .text fingerprint)]

def mokyMembers : Json.Members := signedMembers "moky" <|
  "RsdrDFUK9wENcnjJPwh1n8NQmDfZo8IZ7FP5JFy88DLQPCOCBi5I1LLsJP0r" ++
    "K2w2FeuSnkiMQZPqUPoMHMg6Ow=="

def emptySeedMembers : Json.Members := signedMembers "" <|
  "FXa36DGvSsUaT95a1qf79+pncCt6Oe6q7+FZvDyFHwAhxJg58Rrab/62uH+Z" ++
    "g8qXwlgvm6Js6tm2R8qYALB1xQ=="

def trial? (members : Json.Members) (terminal : Option String) : Option (Option String × String) :=
  match parse members with
  | .error _ => none
  | .ok m =>
    match m.identifier .user terminal with
    | .error _ => none
    | .ok i => some (m.seed, i.text)

theorem of_trial? {members : Json.Members} {terminal seed : Option String} {text : String}
    (h : trial? members terminal = some (seed, text)) :
    ∃ m i, parse members = .ok m ∧ m.identifier .user terminal = .ok i ∧ m.seed = seed ∧
      i.text = text := by
  unfold trial? at h
  split at h
  next => cases h
  next m hm =>
    split at h
    next => cases h
    next i hi =>
      injection h with h
      injection h with hseed htext
      exact ⟨m, i, hm, hi, hseed, htext⟩

end Meta

namespace Memory

theorem matches_generated_home : ∃ m i,
    Meta.parse Meta.mokyMembers = .ok m ∧
      ((run (fun _ : Unit ↦ m) []).answer (fun _ ↦ m)
        (.generateIdentifier () .user (some "home"))).1 = .metaIdentifier (.ok i) ∧
      i.text = "moky@12pUb4wUZZrmMGYwUvedvzgeYgxwcdgx21/home" ∧
      Identifier.parse i.text = .ok i ∧
      (m.matchesWith i ((run (fun _ : Unit ↦ m) [.ask () .group]).memos ())).1 = true := by
  have h : Meta.trial? Meta.mokyMembers (some "home") =
      some (some "moky", "moky@12pUb4wUZZrmMGYwUvedvzgeYgxwcdgx21/home") := by decide +kernel
  obtain ⟨m, i, hm, hi, hseed, htext⟩ := Meta.of_trial? h
  have ha := answer_of_identifier (fun _ : Unit ↦ m) [] () hi
  obtain ⟨hread, howned, -⟩ := matches_generated_iff _ [] [.ask () .group] () _ _ ha
  refine ⟨m, i, hm, ha, htext, hread, howned.mpr ?_⟩
  rw [hseed]
  decide

/-- With the empty seed, the identifier bears no name, and the meta expects the empty one. -/
theorem empty_seed_not_matched : ∃ m i,
    Meta.parse Meta.emptySeedMembers = .ok m ∧
      ((run (fun _ : Unit ↦ m) []).answer (fun _ ↦ m)
        (.generateIdentifier () .user none)).1 = .metaIdentifier (.ok i) ∧
      i.text = "145cR7DeLDFcZAtFJSDg4fApoCSEPqVjmY" ∧
      Identifier.parse i.text = .ok i ∧
      (m.matchesWith i ((run (fun _ : Unit ↦ m) []).memos ())).1 = false := by
  have h : Meta.trial? Meta.emptySeedMembers none =
      some (some "", "145cR7DeLDFcZAtFJSDg4fApoCSEPqVjmY") := by decide +kernel
  obtain ⟨m, i, hm, hi, hseed, htext⟩ := Meta.of_trial? h
  have hnot : ¬ m.matchesIdentifier i = true :=
    fun hmatch ↦ (Meta.matchesIdentifier_iff hi).mp hmatch hseed
  refine ⟨m, i, hm, answer_of_identifier (fun _ : Unit ↦ m) [] () hi, htext,
    Meta.parse_text_of_identifier hi, ?_⟩
  rw [(((run_sound (fun _ : Unit ↦ m) []).memos ()).matchesWith i).1]
  exact Bool.eq_false_iff.mpr hnot

end Memory

end MessagingIdentity
