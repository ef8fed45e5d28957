import MessagingIdentity.Proofs.IdentifierParts
import MessagingIdentity.Proofs.SharedCaches

namespace MessagingIdentity

namespace Session

variable {s : Session}

theorem parseAddress_addresses (text : String) (s : Session) :
    (s.parseAddress text).2.addresses = s.addresses ∨
      ∃ a, (s.parseAddress text).2.addresses = s.addresses.put text a := by
  unfold parseAddress
  split
  · exact .inl rfl
  split
  · exact .inl rfl
  · exact .inr ⟨_, rfl⟩

theorem parseIdentifier_addresses (text : String) (s : Session) :
    (s.parseIdentifier text).2.addresses = s.addresses := by
  unfold parseIdentifier
  split
  · rfl
  split <;> rfl

theorem createIdentifier_addresses (name : Option String) (a : Address) (terminal : Option String)
    (s : Session) : (createIdentifier name a terminal s).2.addresses = s.addresses := by
  unfold createIdentifier
  dsimp only
  split
  · rfl
  split <;> rfl

theorem keepAddress_addresses (r : Except MetaError Address) (s : Session) :
    (keepAddress r s).2.addresses = s.addresses ∨
      ∃ a, (keepAddress r s).2.addresses = s.addresses.put a.text a := by
  cases r with
  | error e => exact .inl rfl
  | ok a => exact .inr ⟨a, rfl⟩

theorem keepIdentifier_addresses (m : Meta) (r : Except MetaError Address) (terminal : Option String)
    (s : Session) :
    (keepIdentifier m r terminal s).2.addresses = (keepAddress r s).2.addresses := by
  cases r with
  | error e => rfl
  | ok a => exact createIdentifier_addresses m.seed a terminal _

/-- No address has two entries, and all that are not kept under their own text were asked for under
the text that they are kept under. -/
structure Keyed (asked : String → Prop) (s : Session) : Prop where
  tidy : s.addresses.Tidy
  own : ∀ e ∈ s.addresses.entries, e.1 = e.2.text ∨ asked e.1

theorem empty_keyed (asked : String → Prop) : empty.Keyed asked :=
  ⟨Cache.empty_tidy, fun _ he ↦ by cases he⟩

theorem Sound.identifier_key (h : s.Sound) {e : String × Identifier}
    (he : e ∈ s.identifiers.entries) : e.1 = e.2.text := by
  obtain ⟨_, _, _, _, _, _, _, hi⟩ := Identifier.parse_eq_ok_iff.mp (h.identifiers e he)
  exact (congrArg Identifier.text hi).symm

theorem Sound.address_key (h : s.Sound) {e : String × Address} (he : e ∈ s.addresses.entries)
    (hne : e.1 ≠ e.2.text) :
    ∃ b, e.2 = .broadcast b ∧ Broadcast.named? e.1 = some b ∧ e.1 ≠ b.text := by
  have hread := Address.parse_eq_ok_iff.mp (h.addresses e he)
  have hb : ¬ ∀ b, e.2 = .broadcast b → e.1 = b.text :=
    fun hb ↦ hne (hread.text_eq_iff.mpr hb).symm
  simp only [not_forall] at hb
  obtain ⟨b, hb, htext⟩ := hb
  rw [hb] at hread
  exact ⟨b, hb, hread, htext⟩

end Session

namespace Memory

variable {ι : Type} [DecidableEq ι] {metas : ι → Meta} {asked : String → Prop}

/-- All that an event can do to the addresses. -/
theorem addresses_step (metas : ι → Meta) (w : Memory ι) (e : Event ι) :
    (w.step metas e).session.addresses = w.session.addresses ∨
    (∃ a, (w.step metas e).session.addresses = w.session.addresses.put a.text a) ∨
    (∃ text a, e = .call (.parseAddress text) ∧
      (w.step metas e).session.addresses = w.session.addresses.put text a) ∨
    ∃ walk : Walk String Address,
      (w.step metas e).session.addresses = w.session.addresses.sweep walk.order := by
  cases e with
  | sweep addresses identifiers => exact .inr (.inr (.inr ⟨addresses, rfl⟩))
  | ask owner network => exact .inl rfl
  | call c =>
    cases c with
    | parseAddress text =>
      refine (Session.parseAddress_addresses text w.session).imp_right fun h ↦ ?_
      obtain ⟨a, ha⟩ := h
      exact .inr (.inl ⟨text, a, rfl, ha⟩)
    | parseIdentifier text => exact .inl (Session.parseIdentifier_addresses text w.session)
    | createIdentifier name address made terminal =>
      exact .inl (Session.createIdentifier_addresses name address terminal w.session)
    | generateAddress owner network =>
      exact (Session.keepAddress_addresses _ w.session).imp_right .inl
    | generateIdentifier owner network terminal =>
      have hkept := Session.keepIdentifier_addresses (metas owner)
        (w.ask metas owner network).1 terminal w.session
      exact (hkept ▸ Session.keepAddress_addresses _ w.session).imp_right .inl

theorem keyed_step {w : Memory ι} (h : w.session.Keyed asked) {e : Event ι}
    (he : ∀ text, e = .call (.parseAddress text) → asked text) :
    (w.step metas e).session.Keyed asked := by
  rcases addresses_step metas w e with hs | ⟨a, hs⟩ | ⟨text, a, rfl, hs⟩ | ⟨walk, hs⟩
  · exact ⟨hs ▸ h.tidy, hs ▸ h.own⟩
  · refine ⟨hs ▸ h.tidy.put a.text a, fun x hx ↦ ?_⟩
    rcases mem_assign (hs ▸ hx) with rfl | hx
    · exact .inl rfl
    · exact h.own x hx
  · refine ⟨hs ▸ h.tidy.put text a, fun x hx ↦ ?_⟩
    rcases mem_assign (hs ▸ hx) with rfl | hx
    · exact .inr (he text rfl)
    · exact h.own x hx
  · exact ⟨hs ▸ h.tidy.sweep walk, fun x hx ↦ h.own x (Cache.mem_of_mem_sweep walk (hs ▸ hx))⟩

theorem keyed_foldl {w : Memory ι} (h : w.session.Keyed asked) {events : List (Event ι)}
    (hasked : ∀ text, .call (.parseAddress text) ∈ events → asked text) :
    (events.foldl (step metas) w).session.Keyed asked := by
  induction events generalizing w with
  | nil => exact h
  | cons e events ih =>
    have hstep : (w.step metas e).session.Keyed asked :=
      keyed_step h fun text he ↦ hasked text (he ▸ List.mem_cons_self)
    exact ih hstep fun text ht ↦ hasked text (List.mem_cons_of_mem e ht)

theorem keyed_run (metas : ι → Meta) (events : List (Event ι)) :
    (run metas events).session.Keyed fun text ↦ .call (.parseAddress text) ∈ events :=
  keyed_foldl (Session.empty_keyed _) fun _ h ↦ h

/-- After any calls and sweeps, identifiers are kept under their own texts, and so are addresses, except
that a broadcast address which was read in capitals is kept under the text that was read. If none was,
no two entries have the same address. -/
theorem entries_keyed_by_text (metas : ι → Meta) (events : List (Event ι)) :
    let s := (run metas events).session
    (∀ e ∈ s.identifiers.entries, e.1 = e.2.text) ∧
    (∀ e ∈ s.addresses.entries, e.1 = e.2.text ∨ .call (.parseAddress e.1) ∈ events ∧
      ∃ b, e.2 = .broadcast b ∧ Broadcast.named? e.1 = some b ∧ e.1 ≠ b.text) ∧
    ((∀ text, .call (.parseAddress text) ∈ events →
        ∀ b, Broadcast.named? text = some b → text = b.text) →
      (∀ e ∈ s.addresses.entries, e.1 = e.2.text) ∧
      s.addresses.entries.Pairwise fun e e' ↦ (e.2 == e'.2) = false) := by
  have hsound := (run_sound metas events).session
  have hkeyed := keyed_run metas events
  intro s
  have hkeys : ∀ e ∈ s.addresses.entries, e.1 = e.2.text ∨ .call (.parseAddress e.1) ∈ events ∧
      ∃ b, e.2 = .broadcast b ∧ Broadcast.named? e.1 = some b ∧ e.1 ≠ b.text := by
    intro e he
    by_cases htext : e.1 = e.2.text
    · exact .inl htext
    · exact .inr ⟨(hkeyed.own e he).resolve_left htext, hsound.address_key he htext⟩
  refine ⟨fun e he ↦ hsound.identifier_key he, hkeys, fun hsmall ↦ ?_⟩
  have hown : ∀ e ∈ s.addresses.entries, e.1 = e.2.text := by
    intro e he
    rcases hkeys e he with htext | ⟨hasked, b, -, hnamed, htext⟩
    · exact htext
    · exact absurd (hsmall e.1 hasked b hnamed) htext
  refine ⟨hown, ?_⟩
  have hpairwise := List.pairwise_map.mp hkeyed.tidy
  refine hpairwise.imp_of_mem fun {e e'} he he' hne ↦ ?_
  rw [hown e he, hown e' he'] at hne
  change (e.2.text == e'.2.text) = false
  exact beq_eq_false_iff_ne.mpr hne

theorem entries_keyed_by_text_small :
    let s := (run (nofun : Empty → Meta) [.call (.parseAddress "anywhere"),
      .call (.parseIdentifier "anyone@Anywhere")]).session
    s.addresses.entries = [("anywhere", .anywhere)] ∧
      (∀ e ∈ s.addresses.entries, e.1 = e.2.text) ∧
      s.addresses.entries.Pairwise fun e e' ↦ (e.2 == e'.2) = false := by
  obtain ⟨-, -, hsmall⟩ := entries_keyed_by_text (nofun : Empty → Meta)
    [.call (.parseAddress "anywhere"), .call (.parseIdentifier "anyone@Anywhere")]
  refine ⟨rfl, hsmall fun text htext b hb ↦ ?_⟩
  obtain rfl : text = "anywhere" := by simpa using htext
  obtain rfl : Broadcast.anywhere = b := Option.some.inj hb
  rfl

/-- An address read in small letters and in capitals has two entries. -/
theorem address_kept_twice :
    (run (nofun : Empty → Meta) [.call (.parseAddress "Anywhere"),
      .call (.parseAddress "anywhere")]).session.addresses.entries =
        [("Anywhere", .anywhere), ("anywhere", .anywhere)] ∧
      Address.anywhere.text = "anywhere" ∧ (Address.anywhere == Address.anywhere) = true :=
  ⟨rfl, rfl, rfl⟩

end Memory

end MessagingIdentity
