import MessagingIdentity.Proofs.IdentifierGrammar
import MessagingIdentity.Proofs.SharedCalls

namespace MessagingIdentity

namespace Session

/-- Each entry is what its key is read as. -/
structure Sound (s : Session) : Prop where
  addresses : ∀ e ∈ s.addresses.entries, Address.parse e.1 = .ok e.2
  identifiers : ∀ e ∈ s.identifiers.entries, Identifier.parse e.1 = .ok e.2

theorem empty_sound : empty.Sound := ⟨by simp [empty, Cache.empty], by simp [empty, Cache.empty]⟩

variable {s : Session}

theorem Sound.put_address (h : s.Sound) {text : String} {a : Address}
    (ha : Address.parse text = .ok a) : Sound { s with addresses := s.addresses.put text a } := by
  refine ⟨fun e he ↦ ?_, h.identifiers⟩
  rcases mem_assign he with rfl | he
  · exact ha
  · exact h.addresses e he

theorem Sound.put_identifier (h : s.Sound) {text : String} {i : Identifier}
    (hi : Identifier.parse text = .ok i) :
    Sound { s with identifiers := s.identifiers.put text i } := by
  refine ⟨h.addresses, fun e he ↦ ?_⟩
  rcases mem_assign he with rfl | he
  · exact hi
  · exact h.identifiers e he

theorem Sound.parseAddress (h : s.Sound) (text : String) :
    (s.parseAddress text).1 = Address.parse text ∧ (s.parseAddress text).2.Sound := by
  unfold Session.parseAddress
  split
  next a ha => exact ⟨(h.addresses _ (mem_of_lookup ha)).symm, h⟩
  split
  next e he => exact ⟨he.symm, h⟩
  next a ha => exact ⟨ha.symm, h.put_address ha⟩

theorem Sound.parseIdentifier (h : s.Sound) (text : String) :
    (s.parseIdentifier text).1 = Identifier.parse text ∧ (s.parseIdentifier text).2.Sound := by
  unfold Session.parseIdentifier
  split
  next i hi => exact ⟨(h.identifiers _ (mem_of_lookup hi)).symm, h⟩
  split
  next e he => exact ⟨he.symm, h⟩
  next i hi => exact ⟨hi.symm, h.put_identifier hi⟩

theorem Sound.createIdentifier (h : s.Sound) (name : Option String) {a : Address} (ha : a.Made)
    (terminal : Option String) :
    (createIdentifier name a terminal s).1 = Identifier.compose name a terminal ∧
      (createIdentifier name a terminal s).2.Sound := by
  unfold Session.createIdentifier
  dsimp only
  split
  next i hi =>
    have hread := h.identifiers _ (mem_of_lookup hi)
    exact ⟨((Identifier.parse_concat_iff ha).mp hread).symm, h⟩
  split
  next e he => exact ⟨he.symm, h⟩
  next i hi => exact ⟨hi.symm, h.put_identifier ((Identifier.parse_concat_iff ha).mpr hi)⟩

theorem Sound.keepAddress (h : s.Sound) {r : Except MetaError Address}
    (hr : ∀ a, r = .ok a → a.Made) :
    (keepAddress r s).1 = r ∧ (keepAddress r s).2.Sound := by
  cases r with
  | error e => exact ⟨rfl, h⟩
  | ok a => exact ⟨rfl, h.put_address (hr a rfl).parse_text⟩

theorem Sound.keepIdentifier (h : s.Sound) (m : Meta) {r : Except MetaError Address}
    (hr : ∀ a, r = .ok a → a.Made) (terminal : Option String) :
    (keepIdentifier m r terminal s).1 =
        (r >>= fun a ↦ (Identifier.compose m.seed a terminal).mapError .identifier) ∧
      (keepIdentifier m r terminal s).2.Sound := by
  cases r with
  | error e => exact ⟨rfl, h⟩
  | ok a =>
    have hkept := (h.keepAddress hr).2
    obtain ⟨hi, hs⟩ := hkept.createIdentifier m.seed (hr a rfl) terminal
    exact ⟨congrArg (Except.mapError MetaError.identifier) hi, hs⟩

theorem Sound.reduceMemory (h : s.Sound) (addresses : Walk String Address)
    (identifiers : Walk String Identifier) :
    (reduceMemory addresses.order identifiers.order s).2.Sound :=
  ⟨fun e he ↦ h.addresses e (Cache.mem_of_mem_sweep addresses he),
    fun e he ↦ h.identifiers e (Cache.mem_of_mem_sweep identifiers he)⟩

end Session

namespace Meta

theorem made_of_address {m : Meta} {network : EntityType} {a : Address}
    (h : m.address network = .ok a) : a.Made := by
  unfold address at h
  split at h
  · split at h
    · obtain rfl := Except.ok.inj h
      exact .checkedGenerated _ _
    · cases h
  · obtain ⟨b, -, h⟩ := Except.bind_eq_ok_iff.mp h
    obtain rfl := Except.ok.inj h
    exact .checkedGenerated _ _
  · obtain ⟨b, -, h⟩ := Except.bind_eq_ok_iff.mp h
    obtain ⟨c, hc, h⟩ := Except.bind_eq_ok_iff.mp h
    obtain rfl := Except.ok.inj h
    exact .hashedGenerated (Except.mapError_eq_ok_iff.mp hc)

/-- An address is the same on all networks that it is kept under one of. -/
theorem address_memoKey (m : Meta) (network : EntityType) :
    m.address (m.memoKey network) = m.address network := by
  unfold address memoKey
  cases m.type <;> rfl

/-- What is remembered is what would be worked out. -/
def Recalls (m : Meta) (memo : Memo) : Prop := ∀ e ∈ memo, m.address e.1 = .ok e.2

theorem Recalls.addressWith {m : Meta} {memo : Memo} (h : m.Recalls memo) (network : EntityType) :
    (m.addressWith network memo).1 = m.address network ∧
      m.Recalls (m.addressWith network memo).2 := by
  unfold Meta.addressWith
  dsimp only
  split
  next a ha =>
    have hm := h _ (mem_of_lookup ha)
    rw [address_memoKey] at hm
    exact ⟨hm.symm, h⟩
  split
  next a ha =>
    rw [address_memoKey] at ha
    refine ⟨ha.symm, fun e he ↦ ?_⟩
    rcases List.mem_cons.mp he with rfl | he
    · rwa [address_memoKey]
    · exact h e he
  next e he =>
    rw [address_memoKey] at he
    exact ⟨he.symm, h⟩

end Meta

namespace Memory

variable {ι : Type} {metas : ι → Meta} {w : Memory ι}

structure Sound (metas : ι → Meta) (w : Memory ι) : Prop where
  session : w.session.Sound
  memos : ∀ j, (metas j).Recalls (w.memos j)

theorem empty_sound (metas : ι → Meta) : Sound metas empty :=
  ⟨Session.empty_sound, fun _ _ he ↦ by cases he⟩

variable [DecidableEq ι]

theorem Sound.ask (h : Sound metas w) (owner : ι) (network : EntityType) :
    (w.ask metas owner network).1 = (metas owner).address network ∧
      Sound metas (w.ask metas owner network).2 := by
  obtain ⟨hr, hm⟩ := (h.memos owner).addressWith network
  refine ⟨hr, h.session, fun j ↦ ?_⟩
  by_cases hj : j = owner
  · subst j
    simpa [Memory.ask] using hm
  · simpa [Memory.ask, hj] using h.memos j

theorem Sound.made_of_ask (h : Sound metas w) {owner : ι} {network : EntityType} {a : Address}
    (ha : (w.ask metas owner network).1 = .ok a) : a.Made := by
  rw [(h.ask owner network).1] at ha
  exact Meta.made_of_address ha

theorem Sound.answer (h : Sound metas w) (c : Call ι) :
    (w.answer metas c).1 = c.plain metas ∧ Sound metas (w.answer metas c).2 := by
  cases c with
  | parseAddress text =>
    obtain ⟨hr, hs⟩ := h.session.parseAddress text
    exact ⟨congrArg Answer.address hr, hs, h.memos⟩
  | parseIdentifier text =>
    obtain ⟨hr, hs⟩ := h.session.parseIdentifier text
    exact ⟨congrArg Answer.identifier hr, hs, h.memos⟩
  | createIdentifier name address made terminal =>
    obtain ⟨hr, hs⟩ := h.session.createIdentifier name made terminal
    exact ⟨congrArg Answer.identifier hr, hs, h.memos⟩
  | generateAddress owner network =>
    obtain ⟨ha, hw⟩ := h.ask owner network
    obtain ⟨hr, hs⟩ := hw.session.keepAddress fun _ ha ↦ h.made_of_ask ha
    exact ⟨congrArg Answer.metaAddress (hr.trans ha), hs, hw.memos⟩
  | generateIdentifier owner network terminal =>
    obtain ⟨ha, hw⟩ := h.ask owner network
    obtain ⟨hr, hs⟩ := hw.session.keepIdentifier (metas owner)
      (fun _ ha ↦ h.made_of_ask ha) terminal
    refine ⟨congrArg Answer.metaIdentifier (hr.trans ?_), hs, hw.memos⟩
    rw [ha]
    rfl

theorem Sound.step (h : Sound metas w) (e : Event ι) : Sound metas (w.step metas e) := by
  cases e with
  | call c => exact (h.answer c).2
  | sweep addresses identifiers => exact ⟨h.session.reduceMemory addresses identifiers, h.memos⟩
  | ask owner network => exact (h.ask owner network).2

theorem run_sound (metas : ι → Meta) (events : List (Event ι)) : Sound metas (run metas events) := by
  have hfold (w : Memory ι) (h : Sound metas w) : Sound metas (events.foldl (step metas) w) := by
    induction events generalizing w with
    | nil => exact h
    | cons e events ih => exact ih _ (h.step e)
  exact hfold empty (empty_sound metas)

/-- After any calls and sweeps, a call is answered as if there were neither caches nor memory. -/
theorem run_answer_eq_plain (metas : ι → Meta) (events : List (Event ι)) (c : Call ι) :
    ((run metas events).answer metas c).1 = c.plain metas :=
  ((run_sound metas events).answer c).1

end Memory

end MessagingIdentity
