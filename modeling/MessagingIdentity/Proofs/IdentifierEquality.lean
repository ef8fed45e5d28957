import MessagingIdentity.Proofs.IdentifierParts
import MessagingIdentity.Proofs.MetaIdentifiers

namespace MessagingIdentity

theorem Address.Made.eq_of_text_eq {x y : Address} (hx : x.Made) (hy : y.Made)
    (h : x.text = y.text) : x = y := by
  have hread := hx.parse_text
  rw [h, hy.parse_text] at hread
  exact (Except.ok.inj hread).symm

theorem Address.Made.equal_iff {x y : Address} (hx : x.Made) (hy : y.Made) :
    (x == y) = true ↔ x = y := by
  change (x.text == y.text) = true ↔ x = y
  rw [beq_iff_eq]
  exact ⟨hx.eq_of_text_eq hy, congrArg Address.text⟩

namespace Identifier

/-- The identifiers that there can be: those that are read or composed, the broadcast ones, and what is
answered by way of the shared caches, whatever has happened to them before. -/
inductive Made : Identifier → Prop
  | parsed {s : String} {i : Identifier} : parse s = .ok i → Made i
  | composed {name terminal : Option String} {address : Address} {i : Identifier} :
      address.Made → compose name address terminal = .ok i → Made i
  | anyone : Made .anyone
  | everyone : Made .everyone
  | founder : Made .founder
  | answered {ι : Type} [DecidableEq ι] (metas : ι → Meta) (events : List (Event ι)) (c : Call ι)
      {i : Identifier} :
      ((Memory.run metas events).answer metas c).1 = .identifier (.ok i) → Made i
  | metaAnswered {ι : Type} [DecidableEq ι] (metas : ι → Meta) (events : List (Event ι)) (c : Call ι)
      {i : Identifier} :
      ((Memory.run metas events).answer metas c).1 = .metaIdentifier (.ok i) → Made i

variable {a b c : Identifier}

theorem Made.parse_text {i : Identifier} (h : i.Made) : parse i.text = .ok i := by
  cases h with
  | parsed h => exact parse_text_of_parse h
  | composed ha h => exact parse_text_of_compose ha h
  | anyone => rfl
  | everyone => rfl
  | founder => rfl
  | answered metas events c h =>
    rw [((Memory.run_sound metas events).answer c).1] at h
    cases c with
    | parseIdentifier text => exact parse_text_of_parse (Answer.identifier.inj h)
    | createIdentifier name address made terminal =>
      exact parse_text_of_compose made (Answer.identifier.inj h)
    | parseAddress text => cases h
    | generateAddress owner network => cases h
    | generateIdentifier owner network terminal => cases h
  | metaAnswered metas events c h =>
    cases c with
    | generateIdentifier owner network terminal =>
      exact Meta.parse_text_of_identifier ((Memory.run_sound metas events).identifier_of_answer h)
    | parseAddress text => cases h
    | parseIdentifier text => cases h
    | createIdentifier name address made terminal => cases h
    | generateAddress owner network => cases h

theorem Made.eq_of_text_eq (ha : a.Made) (hb : b.Made) (h : a.text = b.text) : a = b := by
  have hread := ha.parse_text
  rw [h, hb.parse_text] at hread
  exact (Except.ok.inj hread).symm

theorem Made.address (ha : a.Made) : a.address.Made := by
  obtain ⟨address, haddress, -⟩ := of_parse ha.parse_text
  exact .parsed haddress

theorem Made.equal_iff (ha : a.Made) (hb : b.Made) :
    (a == b) = true ↔ a.name = b.name ∧ a.address = b.address := by
  change (a.text == b.text || (a.address == b.address && a.name == b.name)) = true ↔ _
  rw [Bool.or_eq_true, Bool.and_eq_true, ha.address.equal_iff hb.address, beq_iff_eq, beq_iff_eq,
    and_comm (a := a.address = b.address)]
  refine or_iff_right_of_imp fun htext ↦ ?_
  rw [ha.eq_of_text_eq hb htext]
  exact ⟨rfl, rfl⟩

theorem Made.hashKey_eq_iff (ha : a.Made) (hb : b.Made) :
    a.hashKey = b.hashKey ↔ a.name = b.name ∧ a.address = b.address := by
  rw [hashKey, hashKey, Prod.mk.injEq]
  exact and_congr_right fun _ ↦
    ⟨ha.address.eq_of_text_eq hb.address, congrArg Address.hashKey⟩

/-- Two identifiers are equal if their names are and their addresses are. This is an equivalence, it is
what hashing tells apart, and the terminal has no part in it. Two addresses of one text are the same. -/
theorem equal_lawful (ha : a.Made) (hb : b.Made) (hc : c.Made) :
    ((a == b) = true ↔ a.name = b.name ∧ (a.address == b.address) = true) ∧
      (a == a) = true ∧ (a == b) = (b == a) ∧
      ((a == b) = true → (b == c) = true → (a == c) = true) ∧
      ((a == b) = true ↔ a.hashKey = b.hashKey) ∧
      (b.name = c.name → b.address = c.address → (a == b) = (a == c) ∧ b.hashKey = c.hashKey) ∧
      ∀ x y : Address, x.Made → y.Made → ((x == y) = true ↔ x = y) ∧ (x.text = y.text → x = y) := by
  refine ⟨?_, ?_, ?_, fun hab hbc ↦ ?_, ?_, fun hname haddress ↦ ⟨?_, ?_⟩, fun x y hx hy ↦ ?_⟩
  · rw [ha.equal_iff hb, ha.address.equal_iff hb.address]
  · exact (ha.equal_iff ha).mpr ⟨rfl, rfl⟩
  · rw [Bool.eq_iff_iff, ha.equal_iff hb, hb.equal_iff ha, eq_comm, eq_comm (a := a.address)]
  · obtain ⟨hname, haddress⟩ := (ha.equal_iff hb).mp hab
    rw [ha.equal_iff hc, hname, haddress]
    exact (hb.equal_iff hc).mp hbc
  · rw [ha.equal_iff hb, ha.hashKey_eq_iff hb]
  · rw [Bool.eq_iff_iff, ha.equal_iff hb, ha.equal_iff hc, hname, haddress]
  · rw [hashKey, hashKey, hname, haddress]
  · exact ⟨hx.equal_iff hy, hx.eq_of_text_eq hy⟩

/-- A broadcast identifier is equal to what is read from another spelling of its address, and to what is
answered by way of the caches, with a terminal. -/
theorem equal_lawful_anyone : ∃ a c,
    parse "anyone@Anywhere" = .ok a ∧
      ((Memory.run (fun j : Empty ↦ j.elim) []).answer (fun j ↦ j.elim)
        (.createIdentifier (some "anyone") .anywhere (.broadcast .anywhere) (some "home"))).1 =
          .identifier (.ok c) ∧
      a.text ≠ Identifier.anyone.text ∧ c.terminal = some "home" ∧ (a == .anyone) = true ∧
      (a == c) = true ∧ a.hashKey = c.hashKey := by
  have hread : parse "anyone@Anywhere" =
      .ok ⟨"anyone@Anywhere", some "anyone", .anywhere, none⟩ := by rfl
  have hanswer : ((Memory.run (fun j : Empty ↦ j.elim) []).answer (fun j ↦ j.elim)
      (.createIdentifier (some "anyone") .anywhere (.broadcast .anywhere) (some "home"))).1 =
        .identifier (.ok ⟨"anyone@anywhere/home", some "anyone", .anywhere, some "home"⟩) := by rfl
  obtain ⟨hequal, -, -, -, hhash, hterminal, -⟩ :=
    equal_lawful (.parsed hread) .anyone (.answered _ _ _ hanswer)
  obtain ⟨hsame, hkey⟩ := hterminal rfl rfl
  have hanyone := hequal.mpr ⟨rfl, rfl⟩
  exact ⟨_, _, hread, hanswer, by decide, rfl, hanyone, hsame ▸ hanyone, (hhash.mp hanyone).trans hkey⟩

end Identifier

end MessagingIdentity
