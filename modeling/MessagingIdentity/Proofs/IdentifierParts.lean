import MessagingIdentity.Proofs.IdentifierGrammar

namespace MessagingIdentity

namespace Address

/-- The text of an address that was read from certain characters: the name of a broadcast address is
put in small letters, and all else stays. -/
def spelling (a : Address) (cs : List Char) : List Char :=
  match a with
  | broadcast _ => cs.map Char.toLower
  | _ => cs

theorem ReadAs.toList_text {s : String} {a : Address} (h : ReadAs s a) :
    a.text.toList = a.spelling s.toList := by
  cases a with
  | checked a => exact congrArg String.toList (CheckedAddress.text_of_parse h)
  | hashed a => exact congrArg String.toList (HashedAddress.text_of_parse h)
  | broadcast b =>
    have hb := List.find?_some h
    exact (beq_iff_eq.mp hb).symm

theorem ReadAs.text_eq_iff {s : String} {a : Address} (h : ReadAs s a) :
    a.text = s ↔ ∀ b, a = broadcast b → s = b.text := by
  cases a with
  | checked a => exact iff_of_true (CheckedAddress.text_of_parse h) nofun
  | hashed a => exact iff_of_true (HashedAddress.text_of_parse h) nofun
  | broadcast b =>
    constructor
    · intro hs c hc
      obtain rfl := broadcast.inj hc
      exact hs.symm
    · intro hs
      exact (hs b rfl).symm

end Address

namespace Identifier

theorem not_plain_iff {cs : List Char} : ¬ Plain cs ↔ '@' ∈ cs ∨ '/' ∈ cs := by
  rw [Plain, not_and_or, not_not, not_not]

theorem checkPart_eq_error_iff {part : Component} {value : Option String} {e : IdentifierError} :
    checkPart part value = .error e ↔ ∃ s ∈ value, ¬ Plain s.toList ∧ e = .component part s := by
  cases value with
  | none => simp [checkPart]
  | some s =>
    simp only [checkPart, Option.mem_some_iff, exists_eq_left', plain_iff_all, Bool.not_eq_false]
    split
    next hsep => simpa [hsep] using eq_comm
    next hsep => simp [hsep]

theorem compose_eq_error_iff {name terminal : Option String} {a : Address} {e : IdentifierError} :
    compose name a terminal = .error e ↔
      (∃ s ∈ present name, ¬ Plain s.toList ∧ e = .component .name s) ∨
      (∀ s ∈ present name, Plain s.toList) ∧
        ∃ s ∈ present terminal, ¬ Plain s.toList ∧ e = .component .terminal s := by
  rw [← checkPart_eq_error_iff, ← checkPart_eq_error_iff, ← checkPart_eq_ok_iff .name, compose]
  cases checkPart .name (present name) with
  | error e' => simp [bind, Except.bind]
  | ok u => cases checkPart .terminal (present terminal) <;> simp [bind, Except.bind]

theorem exists_present_iff {part : Option String} :
    (∃ s ∈ present part, ¬ Plain s.toList) ↔ ∃ s ∈ part, '@' ∈ s.toList ∨ '/' ∈ s.toList := by
  simp only [not_plain_iff]
  constructor
  · intro h
    obtain ⟨s, hs, hsep⟩ := h
    exact ⟨s, (Option.filter_eq_some_iff.mp hs).1, hsep⟩
  · intro h
    obtain ⟨s, hs, hsep⟩ := h
    refine ⟨s, Option.filter_eq_some_iff.mpr ⟨hs, ?_⟩, hsep⟩
    have hne : s ≠ "" := by
      intro hempty
      subst hempty
      simp at hsep
    simpa using hne

def sampleAddress : Address := .checked (.generate (Bytes.ofText "hello") .user)

theorem made_sampleAddress : sampleAddress.Made := .checkedGenerated _ _

theorem text_sampleAddress : sampleAddress.text = "1HeqNjAst5TCQ63F7xhjg6bcTbDKrRk7sH" := by
  decide +kernel

/-- A composed identifier is read from its text with all its parts, those that are empty counted as
absent. Composing fails exactly if the name or the terminal has a separator. -/
theorem parse_composed {a : Address} (ha : a.Made) (name terminal : Option String) :
    (∀ i, compose name a terminal = .ok i → ∃ j, parse i.text = .ok j ∧ j.text = i.text ∧
      j.name = name.filter (· ≠ "") ∧ j.terminal = terminal.filter (· ≠ "") ∧ j.address = a) ∧
    ((∃ e, compose name a terminal = .error e) ↔
      (∃ s ∈ name, '@' ∈ s.toList ∨ '/' ∈ s.toList) ∨
        ∃ s ∈ terminal, '@' ∈ s.toList ∨ '/' ∈ s.toList) := by
  constructor
  · intro i hi
    have hread := parse_of_compose ha hi
    obtain ⟨-, -, rfl⟩ := compose_eq_ok_iff.mp hi
    exact ⟨_, hread, rfl, rfl, rfl, rfl⟩
  · rw [← exists_present_iff, ← exists_present_iff]
    constructor
    · intro h
      obtain ⟨e, he⟩ := h
      rcases compose_eq_error_iff.mp he with ⟨s, hs, hsep, -⟩ | ⟨-, s, hs, hsep, -⟩
      · exact .inl ⟨s, hs, hsep⟩
      · exact .inr ⟨s, hs, hsep⟩
    · intro h
      cases he : compose name a terminal with
      | error e => exact ⟨e, rfl⟩
      | ok i =>
        obtain ⟨hname, hterminal, -⟩ := compose_eq_ok_iff.mp he
        rcases h with ⟨s, hs, hsep⟩ | ⟨s, hs, hsep⟩
        · exact absurd (hname s hs) hsep
        · exact absurd (hterminal s hs) hsep

theorem parse_composed_moky : ∃ i j e,
    compose (some "moky") sampleAddress (some "") = .ok i ∧
      i.text = "moky@1HeqNjAst5TCQ63F7xhjg6bcTbDKrRk7sH" ∧ parse i.text = .ok j ∧
      j.name = some "moky" ∧ j.terminal = none ∧
      compose (some "a@b") sampleAddress none = .error e := by
  obtain ⟨hread, -⟩ := parse_composed made_sampleAddress (some "moky") (some "")
  obtain ⟨-, hfails⟩ := parse_composed made_sampleAddress (some "a@b") none
  obtain ⟨e, he⟩ := hfails.mpr (.inl ⟨"a@b", rfl, by decide⟩)
  obtain ⟨j, hj, -, hname, hterminal, -⟩ := hread _ rfl
  have htext : concat (some "moky") sampleAddress (some "") =
      "moky@1HeqNjAst5TCQ63F7xhjg6bcTbDKrRk7sH" := by
    rw [concat, text_sampleAddress]
    decide
  exact ⟨_, j, e, rfl, htext, hj, hname, hterminal, he⟩

theorem joined_inj {name terminal : Option (List Char)} {address address' : List Char} :
    joined name address terminal = joined name address' terminal ↔ address = address' := by
  simp only [joined, joinedHead, List.append_assoc, List.append_cancel_left_eq,
    List.append_cancel_right_eq]

theorem of_parse {s : String} {i : Identifier} (h : parse s = .ok i) :
    ∃ address, Address.parse address = .ok i.address ∧
      s.toList = joined (i.name.map String.toList) address.toList (i.terminal.map String.toList) ∧
      (∀ x ∈ i.name, x ≠ "" ∧ Plain x.toList) ∧ ∀ x ∈ i.terminal, x ≠ "" ∧ Plain x.toList := by
  obtain ⟨name, address, terminal, a, hs, hw, ha, rfl⟩ := parse_eq_ok_iff.mp h
  have hpart {part : Option (List Char)} (hplain : ∀ x ∈ part, x ≠ [] ∧ Plain x) :
      ∀ x ∈ part.map String.ofList, x ≠ "" ∧ Plain x.toList := by
    intro x hx
    obtain ⟨cs, hcs, rfl⟩ := Option.map_eq_some_iff.mp hx
    simpa using hplain cs hcs
  refine ⟨String.ofList address, ha, ?_, hpart hw.name_plain, hpart hw.terminal_plain⟩
  simpa [Function.comp_def] using hs

theorem compose_of_plain {i : Identifier} (hname : ∀ x ∈ i.name, x ≠ "" ∧ Plain x.toList)
    (hterminal : ∀ x ∈ i.terminal, x ≠ "" ∧ Plain x.toList) :
    ∃ j, compose i.name i.address i.terminal = .ok j ∧ j.name = i.name ∧ j.address = i.address ∧
      j.terminal = i.terminal ∧ j.text.toList = joined (i.name.map String.toList)
        i.address.text.toList (i.terminal.map String.toList) := by
  have hpresent {part : Option String} (h : ∀ x ∈ part, x ≠ "" ∧ Plain x.toList) :
      present part = part :=
    present_eq_self_iff.mpr fun hempty ↦ (h "" hempty).1 rfl
  have htext := toList_concat i.name i.address i.terminal
  rw [hpresent hname, hpresent hterminal] at htext
  refine ⟨⟨concat i.name i.address i.terminal, i.name, i.address, i.terminal⟩, ?_, rfl, rfl, rfl, htext⟩
  rw [compose_eq_ok_iff, hpresent hname, hpresent hterminal]
  exact ⟨fun x hx ↦ (hname x hx).2, fun x hx ↦ (hterminal x hx).2, rfl⟩

/-- What is read is composed again from its parts. The text is the one that was read, unless it names a
broadcast address otherwise than in small letters: these are what composing puts there. -/
theorem compose_parsed {s : String} {i : Identifier} (h : parse s = .ok i) :
    ∃ address j, Address.parse address = .ok i.address ∧
      s.toList = joined (i.name.map String.toList) address.toList (i.terminal.map String.toList) ∧
      compose i.name i.address i.terminal = .ok j ∧ j.name = i.name ∧ j.address = i.address ∧
      j.terminal = i.terminal ∧
      j.text.toList = joined (i.name.map String.toList) (i.address.spelling address.toList)
        (i.terminal.map String.toList) ∧
      (j.text = s ↔ ∀ b, i.address = .broadcast b → address = b.text) := by
  obtain ⟨address, haddress, hs, hname, hterminal⟩ := of_parse h
  obtain ⟨j, hj, hjname, hjaddress, hjterminal, htext⟩ := compose_of_plain hname hterminal
  have hread := Address.parse_eq_ok_iff.mp haddress
  refine ⟨address, j, haddress, hs, hj, hjname, hjaddress, hjterminal, ?_, ?_⟩
  · rw [htext, hread.toList_text]
  · rw [← hread.text_eq_iff, ← String.toList_inj, hs, htext, joined_inj, String.toList_inj]

theorem compose_parsed_moky : ∃ i j,
    parse "moky@1HeqNjAst5TCQ63F7xhjg6bcTbDKrRk7sH/home" = .ok i ∧
      compose i.name i.address i.terminal = .ok j ∧
      j.text = "moky@1HeqNjAst5TCQ63F7xhjg6bcTbDKrRk7sH/home" := by
  have hcomposed : compose (some "moky") sampleAddress (some "home") =
      .ok ⟨_, some "moky", sampleAddress, some "home"⟩ := rfl
  have hread := parse_of_compose made_sampleAddress hcomposed
  have htext : concat (some "moky") sampleAddress (some "home") =
      "moky@1HeqNjAst5TCQ63F7xhjg6bcTbDKrRk7sH/home" := by
    rw [concat, text_sampleAddress]
    decide
  rw [htext] at hread
  obtain ⟨address, j, -, -, hj, -, -, -, -, hsame⟩ := compose_parsed hread
  refine ⟨_, j, hread, hj, hsame.mpr ?_⟩
  intro b hb
  cases hb

/-- A broadcast address is read in letters of either case and written in small ones. -/
theorem recomposed_in_small_letters : ∃ i j, parse "anyone@Anywhere" = .ok i ∧
    compose i.name i.address i.terminal = .ok j ∧ j.text = "anyone@anywhere" ∧
    j.text ≠ "anyone@Anywhere" := by
  have hread : parse "anyone@Anywhere" =
      .ok ⟨"anyone@Anywhere", some "anyone", .anywhere, none⟩ := by rfl
  exact ⟨_, _, hread, rfl, by decide, by decide⟩

end Identifier

end MessagingIdentity
