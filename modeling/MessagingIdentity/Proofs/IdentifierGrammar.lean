import MessagingIdentity.Identifier.Basic
import MessagingIdentity.Proofs.AddressTexts

namespace MessagingIdentity

namespace Identifier

theorem cut_of_notMem {separator : Char} {cs : List Char} (h : separator ∉ cs) :
    cut separator cs = (cs, none) := by
  have hd : cs.dropWhile (· ≠ separator) = [] := by
    rw [← List.append_nil cs, List.dropWhile_append_of_pos, List.dropWhile_nil]
    intro x hx
    simpa using ne_of_mem_of_not_mem hx h
  simp only [cut, hd]

theorem cut_append {separator : Char} {xs : List Char} (h : separator ∉ xs) (ys : List Char) :
    cut separator (xs ++ separator :: ys) = (xs, some ys) := by
  have hx : ∀ x ∈ xs, decide (x ≠ separator) = true := by
    intro x hx
    simpa using ne_of_mem_of_not_mem hx h
  have hd : (xs ++ separator :: ys).dropWhile (· ≠ separator) = separator :: ys := by
    rw [List.dropWhile_append_of_pos hx]
    simp
  have ht : (xs ++ separator :: ys).takeWhile (· ≠ separator) = xs := by
    rw [List.takeWhile_append_of_pos hx]
    simp
  simp only [cut, hd, ht]

theorem eq_of_cut {separator : Char} {cs before : List Char} {behind : Option (List Char)}
    (h : cut separator cs = (before, behind)) :
    cs = before ++ behind.elim [] (separator :: ·) ∧ separator ∉ before := by
  by_cases hm : separator ∈ cs
  · obtain ⟨xs, ys, rfl, hxs⟩ := List.eq_append_cons_of_mem hm
    obtain ⟨rfl, rfl⟩ := Prod.mk.inj ((cut_append hxs ys).symm.trans h)
    exact ⟨rfl, hxs⟩
  · obtain ⟨rfl, rfl⟩ := Prod.mk.inj ((cut_of_notMem hm).symm.trans h)
    exact ⟨(List.append_nil _).symm, hm⟩

theorem notMem_behind {separator : Char} {cs before behind : List Char}
    (h : cut separator cs = (before, some behind)) (hcount : cs.count separator ≤ 1) :
    separator ∉ behind := by
  rw [(eq_of_cut h).1] at hcount
  simp only [Option.elim_some, List.count_append, List.count_cons_self] at hcount
  rw [← List.count_eq_zero]
  omega

def joinedHead (name : Option (List Char)) (address : List Char) : List Char :=
  name.elim [] (· ++ ['@']) ++ address

/-- The parts in a row, with their separators. -/
def joined (name : Option (List Char)) (address : List Char) (terminal : Option (List Char)) :
    List Char :=
  joinedHead name address ++ terminal.elim [] ('/' :: ·)

/-- No separator occurs. -/
def Plain (cs : List Char) : Prop := '@' ∉ cs ∧ '/' ∉ cs

/-- What the parts of an identifier have to be, apart from the form of the address. -/
structure WellFormed (name : Option (List Char)) (address : List Char)
    (terminal : Option (List Char)) : Prop where
  name_plain : ∀ x ∈ name, x ≠ [] ∧ Plain x
  address_plain : Plain address
  terminal_plain : ∀ x ∈ terminal, x ≠ [] ∧ Plain x
  address_ne : name = none → address ≠ []

variable {name terminal : Option (List Char)} {address : List Char}

theorem slash_notMem_joinedHead (hname : ∀ x ∈ name, '/' ∉ x) (haddress : '/' ∉ address) :
    '/' ∉ joinedHead name address := by
  cases name with
  | none => simpa [joinedHead] using haddress
  | some x => simpa [joinedHead] using ⟨hname x rfl, haddress⟩

theorem WellFormed.slash_notMem (h : WellFormed name address terminal) :
    '/' ∉ joinedHead name address :=
  slash_notMem_joinedHead (fun x hx ↦ (h.name_plain x hx).2.2) h.address_plain.2

theorem cut_joined (h : '/' ∉ joinedHead name address) (terminal : Option (List Char)) :
    cut '/' (joined name address terminal) = (joinedHead name address, terminal) := by
  cases terminal with
  | none => simpa [joined] using cut_of_notMem h
  | some t => exact cut_append h t

theorem cut_joinedHead_none (h : '@' ∉ address) :
    cut '@' (joinedHead none address) = (address, none) := cut_of_notMem h

theorem cut_joinedHead_some {x : List Char} (h : '@' ∉ x) (address : List Char) :
    cut '@' (joinedHead (some x) address) = (x, some address) := by
  simpa [joinedHead] using cut_append h address

theorem WellFormed.count_slash (h : WellFormed name address terminal) :
    (joined name address terminal).count '/' ≤ 1 := by
  rw [joined, List.count_append, List.count_eq_zero_of_not_mem h.slash_notMem]
  cases terminal with
  | none => simp
  | some t => simp [List.count_eq_zero_of_not_mem (h.terminal_plain t rfl).2.2]

theorem WellFormed.count_at (h : WellFormed name address terminal) :
    (joined name address terminal).count '@' ≤ 1 := by
  have ht : (terminal.elim [] ('/' :: ·)).count '@' = 0 := by
    cases terminal with
    | none => rfl
    | some t => simpa [List.count_eq_zero] using (h.terminal_plain t rfl).2.1
  rw [joined, joinedHead, List.count_append, List.count_append, ht,
    List.count_eq_zero_of_not_mem h.address_plain.1]
  cases name with
  | none => simp
  | some x => simp [List.count_eq_zero_of_not_mem (h.name_plain x rfl).2.1]

theorem WellFormed.not_refused (h : WellFormed name address terminal) :
    ¬ ((joinedHead name address).isEmpty || name.any List.isEmpty ||
      terminal.any fun t ↦ t.isEmpty || t.contains '@') = true := by
  have hterminal : (terminal.any fun t ↦ t.isEmpty || t.contains '@') = false := by
    cases terminal with
    | none => rfl
    | some t => simpa using ⟨(h.terminal_plain t rfl).1, (h.terminal_plain t rfl).2.1⟩
  rw [hterminal, Bool.or_false]
  cases name with
  | none => simpa [joinedHead] using h.address_ne rfl
  | some x => simpa [joinedHead] using (h.name_plain x rfl).1

theorem parts?_joined (h : WellFormed name address terminal) :
    parts? (joined name address terminal) = some (name, address, terminal) := by
  have hcount : ¬ (1 < (joined name address terminal).count '/' ||
      1 < (joined name address terminal).count '@') = true := by
    simpa using ⟨h.count_slash, h.count_at⟩
  rw [parts?, if_neg hcount, cut_joined h.slash_notMem]
  cases name with
  | none =>
    dsimp only
    rw [cut_joinedHead_none h.address_plain.1]
    exact if_neg h.not_refused
  | some x =>
    dsimp only
    rw [cut_joinedHead_some (h.name_plain x rfl).2.1]
    exact if_neg h.not_refused

theorem plain_of_not_refused {tail : Option (List Char)} (hslash : ∀ t ∈ tail, '/' ∉ t)
    (h : (tail.any fun t ↦ t.isEmpty || t.contains '@') = false) :
    ∀ t ∈ tail, t ≠ [] ∧ Plain t := by
  rintro t rfl
  have ht : t ≠ [] ∧ '@' ∉ t := by simpa using h
  exact ⟨ht.1, ht.2, hslash t rfl⟩

/-- Cutting a text at its first slash, and what is before that at its first `@`, finds the parts. -/
theorem wellFormed_of_cuts {cs rest before : List Char} {behind : Option (List Char)}
    (hcut : cut '/' cs = (rest, terminal)) (hcut' : cut '@' rest = (before, behind))
    (hats : rest.count '@' ≤ 1) (hfirst : before ≠ [])
    (hterminal : ∀ t ∈ terminal, t ≠ [] ∧ Plain t) :
    cs = joined (behind.map fun _ ↦ before) (behind.getD before) terminal ∧
      WellFormed (behind.map fun _ ↦ before) (behind.getD before) terminal := by
  obtain ⟨hcs, hslash⟩ := eq_of_cut hcut
  obtain ⟨hrest, hbefore⟩ := eq_of_cut hcut'
  rw [hrest] at hslash
  cases behind with
  | none =>
    simp only [Option.elim_none, List.append_nil] at hrest hslash
    refine ⟨by simpa [joined, joinedHead, hrest] using hcs, ?_, ⟨hbefore, hslash⟩, hterminal,
      fun _ ↦ hfirst⟩
    intro x hx
    cases hx
  | some b =>
    simp only [Option.elim_some, List.mem_append, List.mem_cons, not_or] at hslash
    refine ⟨by simpa [joined, joinedHead, hrest] using hcs, ?_,
      ⟨notMem_behind hcut' hats, hslash.2.2⟩, hterminal, fun hnone ↦ by cases hnone⟩
    intro x hx
    obtain rfl := Option.some.inj hx
    exact ⟨hfirst, hbefore, hslash.1⟩

theorem of_parts? {cs : List Char} (h : parts? cs = some (name, address, terminal)) :
    cs = joined name address terminal ∧ WellFormed name address terminal := by
  rw [parts?] at h
  split at h
  · cases h
  next hcount =>
    simp only [Bool.or_eq_true, decide_eq_true_eq, not_or, Nat.not_lt] at hcount
    rcases hcut : cut '/' cs with ⟨rest, tail⟩
    have hats : rest.count '@' ≤ 1 := by
      have h := hcount.2
      rw [(eq_of_cut hcut).1, List.count_append] at h
      omega
    have htail : ∀ t ∈ tail, '/' ∉ t := by
      rintro t rfl
      exact notMem_behind hcut hcount.1
    rw [hcut] at h
    dsimp only at h
    rcases hcut' : cut '@' rest with ⟨before, behind⟩
    rw [hcut'] at h
    cases behind with
    | none =>
      dsimp only at h
      split at h
      · cases h
      next hrefused =>
        obtain ⟨rfl, rfl, rfl⟩ : none = name ∧ before = address ∧ tail = terminal := by
          simpa using h
        simp only [Option.any_none, Bool.or_false, Bool.or_eq_true, not_or,
          Bool.not_eq_true] at hrefused
        obtain ⟨hne, ht⟩ := hrefused
        obtain rfl : rest = before := by simpa using (eq_of_cut hcut').1
        exact wellFormed_of_cuts hcut hcut' hats (by simpa using hne) (plain_of_not_refused htail ht)
    | some behind =>
      dsimp only at h
      split at h
      · cases h
      next hrefused =>
        obtain ⟨rfl, rfl, rfl⟩ : some before = name ∧ behind = address ∧ tail = terminal := by
          simpa using h
        simp only [Option.any_some, Bool.or_eq_true, not_or, Bool.not_eq_true] at hrefused
        obtain ⟨⟨-, hne⟩, ht⟩ := hrefused
        exact wellFormed_of_cuts hcut hcut' hats (by simpa using hne) (plain_of_not_refused htail ht)

theorem parse_eq_ok_iff {s : String} {i : Identifier} : parse s = .ok i ↔
    ∃ name address terminal a, s.toList = joined name address terminal ∧
      WellFormed name address terminal ∧ Address.parse (String.ofList address) = .ok a ∧
      i = ⟨s, name.map String.ofList, a, terminal.map String.ofList⟩ := by
  constructor
  · intro h
    rw [parse] at h
    split at h
    · cases h
    split at h
    · cases h
    next name address terminal hparts =>
      split at h
      · cases h
      next a ha =>
        obtain ⟨hs, hw⟩ := of_parts? hparts
        exact ⟨name, address, terminal, a, hs, hw, ha, (Except.ok.inj h).symm⟩
  · rintro ⟨name, address, terminal, a, hs, hw, ha, rfl⟩
    have hne : s ≠ "" := by
      rintro rfl
      have hempty := hs ▸ parts?_joined hw
      cases hempty
    rw [parse, if_neg hne, hs, parts?_joined hw]
    dsimp only
    rw [ha]

theorem ne_empty_of_present {part : Option String} {s : String} (h : s ∈ present part) : s ≠ "" := by
  simpa using (Option.filter_eq_some_iff.mp h).2

theorem present_eq_self_iff {part : Option String} : present part = part ↔ part ≠ some "" := by
  cases part with
  | none => simp [present]
  | some s =>
    by_cases hs : s = "" <;> simp [present, Option.filter, hs]

theorem plain_iff_all {cs : List Char} : Plain cs ↔ cs.any isSeparator = false := by
  simp only [Plain, isSeparator, List.any_eq_false, Bool.or_eq_true, beq_iff_eq, not_or]
  exact ⟨fun h x hx ↦ ⟨ne_of_mem_of_not_mem hx h.1, ne_of_mem_of_not_mem hx h.2⟩,
    fun h ↦ ⟨fun hx ↦ (h _ hx).1 rfl, fun hx ↦ (h _ hx).2 rfl⟩⟩

theorem checkPart_eq_ok_iff (part : Component) (value : Option String) :
    checkPart part value = .ok () ↔ ∀ s ∈ value, Plain s.toList := by
  cases value with
  | none => simp [checkPart]
  | some s =>
    simp only [checkPart, Option.mem_some_iff, forall_eq', plain_iff_all]
    split <;> simp_all

theorem compose_eq_ok_iff {name terminal : Option String} {address : Address} {i : Identifier} :
    compose name address terminal = .ok i ↔
      (∀ s ∈ present name, Plain s.toList) ∧ (∀ s ∈ present terminal, Plain s.toList) ∧
      i = ⟨concat name address terminal, present name, address, present terminal⟩ := by
  rw [compose, Except.bind_eq_ok_iff, ← checkPart_eq_ok_iff .name, ← checkPart_eq_ok_iff .terminal]
  simp only [Except.bind_eq_ok_iff]
  constructor
  · rintro ⟨⟨⟩, hn, ⟨⟩, ht, he⟩
    exact ⟨hn, ht, (Except.ok.inj he).symm⟩
  · rintro ⟨hn, ht, rfl⟩
    exact ⟨(), hn, (), ht, rfl⟩

theorem toList_concat (name : Option String) (address : Address) (terminal : Option String) :
    (concat name address terminal).toList = joined ((present name).map String.toList)
      address.text.toList ((present terminal).map String.toList) := by
  unfold concat
  cases present name <;> cases present terminal <;> simp [joined, joinedHead]

end Identifier

namespace Address

open Identifier

theorem ReadAs.plain {s : String} {a : Address} (h : ReadAs s a) : Plain a.text.toList := by
  rw [plain_iff_all, List.any_eq_false]
  intro c hc
  cases a with
  | checked a =>
    obtain ⟨head, -, hs, ht⟩ := CheckedAddress.parse_eq_ok_iff.mp h
    rw [ht, Address.text, hs] at hc
    obtain ⟨d, hd, rfl⟩ := Base58.digit_of_mem_encode hc
    have hdigit : ∀ d < 58, ¬ isSeparator (Base58.digit d) = true := by decide
    exact hdigit d hd
  | hashed a =>
    obtain ⟨rfl, digits, -, hall, rfl⟩ := HashedAddress.parse_eq_ok_iff.mp h
    rw [Address.text, String.toList_ofList] at hc
    rcases List.mem_cons.mp hc with rfl | hc
    · decide
    rcases List.mem_cons.mp hc with rfl | hc
    · decide
    · have hdigit := List.all_eq_true.mp hall c hc
      rintro hsep
      simp only [isSeparator, Bool.or_eq_true, beq_iff_eq] at hsep
      rcases hsep with rfl | rfl <;> exact absurd hdigit (by decide)
  | broadcast b =>
    have hall : (b.text.toList.all fun c ↦ !isSeparator c) = true := by
      cases b <;> decide
    have hsep := List.all_eq_true.mp hall c hc
    simpa using hsep

theorem ReadAs.text_ne {s : String} {a : Address} (h : ReadAs s a) : a.text ≠ "" := by
  intro ht
  have he := parse_eq_ok_iff.mpr h.text
  rw [ht] at he
  cases he

end Address

namespace Identifier

variable {name terminal : Option (List Char)} {address : List Char}

theorem plain_of_joined {name' terminal' : Option (List Char)} {address' : List Char}
    (ha : Plain address) (h : WellFormed name' address' terminal')
    (he : joined name address terminal = joined name' address' terminal') :
    (∀ x ∈ name, Plain x) ∧ ∀ t ∈ terminal, Plain t := by
  have hcut := cut_joined h.slash_notMem terminal'
  have hcount := h.count_at
  rw [← he] at hcut hcount
  have hname : ∀ x ∈ name, Plain x := by
    rintro x rfl
    constructor
    · rw [joined, joinedHead, List.count_append, List.count_append] at hcount
      simp only [Option.elim_some, List.count_append, List.count_singleton_self] at hcount
      rw [← List.count_eq_zero]
      omega
    · intro hx
      obtain ⟨before, behind, rfl, hbefore⟩ := List.eq_append_cons_of_mem hx
      have hcut' := cut_append hbefore (behind ++ '@' :: (address ++ terminal.elim [] ('/' :: ·)))
      rw [show before ++ '/' :: (behind ++ '@' :: (address ++ terminal.elim [] ('/' :: ·))) =
        joined (some (before ++ '/' :: behind)) address terminal by simp [joined, joinedHead],
        hcut] at hcut'
      have ht := (h.terminal_plain _ (Prod.mk.inj hcut').2).2.1
      simp at ht
  have hslash := slash_notMem_joinedHead (fun x hx ↦ (hname x hx).2) ha.2
  have ht := (Prod.mk.inj ((cut_joined hslash terminal).symm.trans hcut)).2
  exact ⟨hname, fun t h' ↦ (h.terminal_plain t (ht ▸ h')).2⟩

theorem wellFormed_present {name terminal : Option String} {a : Address} (ha : a.Made)
    (hn : ∀ s ∈ present name, Plain s.toList) (ht : ∀ s ∈ present terminal, Plain s.toList) :
    WellFormed ((present name).map String.toList) a.text.toList
      ((present terminal).map String.toList) := by
  have hpart {part : Option String} (h : ∀ s ∈ present part, Plain s.toList) :
      ∀ x ∈ (present part).map String.toList, x ≠ [] ∧ Plain x := by
    intro x hx
    obtain ⟨s, hs, rfl⟩ := Option.map_eq_some_iff.mp hx
    exact ⟨by simpa using ne_empty_of_present hs, h s hs⟩
  have hread := Address.parse_eq_ok_iff.mp ha.parse_text
  exact ⟨hpart hn, hread.plain, hpart ht, fun _ ↦ by simpa using hread.text_ne⟩

theorem parse_of_compose {name terminal : Option String} {a : Address} (ha : a.Made)
    {i : Identifier} (h : compose name a terminal = .ok i) :
    parse (concat name a terminal) = .ok i := by
  obtain ⟨hn, ht, rfl⟩ := compose_eq_ok_iff.mp h
  refine parse_eq_ok_iff.mpr ⟨_, _, _, a, toList_concat name a terminal,
    wellFormed_present ha hn ht, by simpa using ha.parse_text, ?_⟩
  simp [Function.comp_def]

theorem parse_text_of_compose {name terminal : Option String} {a : Address} (ha : a.Made)
    {i : Identifier} (h : compose name a terminal = .ok i) : parse i.text = .ok i := by
  have hread := parse_of_compose ha h
  obtain ⟨-, -, rfl⟩ := compose_eq_ok_iff.mp h
  exact hread

theorem parse_text_of_parse {s : String} {i : Identifier} (h : parse s = .ok i) :
    parse i.text = .ok i := by
  obtain ⟨_, _, _, _, _, _, _, rfl⟩ := parse_eq_ok_iff.mp h
  exact h

/-- Reading and composing agree: a text that could be taken apart elsewhere than where its parts were
joined is not read at all. -/
theorem parse_concat_iff {name terminal : Option String} {a : Address} (ha : a.Made)
    {i : Identifier} :
    parse (concat name a terminal) = .ok i ↔ compose name a terminal = .ok i := by
  refine ⟨fun h ↦ ?_, parse_of_compose ha⟩
  obtain ⟨name', address', terminal', a', hs, hw, -, -⟩ := parse_eq_ok_iff.mp h
  rw [toList_concat] at hs
  obtain ⟨hn, ht⟩ := plain_of_joined (Address.parse_eq_ok_iff.mp ha.parse_text).plain hw hs
  have hc : compose name a terminal =
      .ok ⟨concat name a terminal, present name, a, present terminal⟩ :=
    compose_eq_ok_iff.mpr ⟨fun s h ↦ hn _ (Option.mem_map_of_mem _ h),
      fun s h ↦ ht _ (Option.mem_map_of_mem _ h), rfl⟩
  rwa [hc, ← parse_of_compose ha hc]

end Identifier

end MessagingIdentity
