import MessagingIdentity.Proofs.IdentifierParts

namespace MessagingIdentity

theorem Address.plain_of_parse {s : String} {a : Address} (h : parse s = .ok a) :
    Identifier.Plain s.toList := by
  have hread := Address.parse_eq_ok_iff.mp h
  have hplain := hread.plain
  rw [hread.toList_text] at hplain
  cases a with
  | broadcast b =>
    -- The separators are their own small letters.
    exact ⟨fun hat ↦ hplain.1 (List.mem_map.mpr ⟨'@', hat, rfl⟩),
      fun hslash ↦ hplain.2 (List.mem_map.mpr ⟨'/', hslash, rfl⟩)⟩
  | _ => exact hplain

namespace Identifier

/-- A separator stands where none may. -/
inductive Misplaced (cs : List Char) : Prop
  | slashes (h : 2 ≤ cs.count '/')
  | ats (h : 2 ≤ cs.count '@')
  | leading (c : Char) (hc : c = '/' ∨ c = '@') (h : cs.head? = some c)
  | trailing (h : cs.getLast? = some '/')
  | behind (xs ys : List Char) (h : cs = xs ++ '/' :: ys) (hat : '@' ∈ ys)

variable {name terminal : Option (List Char)} {address cs : List Char}

theorem WellFormed.exists_first (h : WellFormed name address terminal) :
    ∃ first rest, joined name address terminal = first ++ rest ∧ first ≠ [] ∧ Plain first := by
  cases name with
  | none => exact ⟨address, _, rfl, h.address_ne rfl, h.address_plain⟩
  | some x =>
    refine ⟨x, '@' :: address ++ terminal.elim [] ('/' :: ·), ?_, h.name_plain x rfl⟩
    simp [joined, joinedHead]

theorem WellFormed.not_misplaced (h : WellFormed name address terminal) :
    ¬ Misplaced (joined name address terminal) := by
  intro hm
  cases hm with
  | slashes hcount => exact absurd h.count_slash (by omega)
  | ats hcount => exact absurd h.count_at (by omega)
  | leading c hc hhead =>
    obtain ⟨first, rest, hjoined, hne, hplain⟩ := h.exists_first
    rw [hjoined, List.head?_append_of_ne_nil _ hne] at hhead
    have hmem := List.mem_of_mem_head? hhead
    rcases hc with rfl | rfl
    · exact hplain.2 hmem
    · exact hplain.1 hmem
  | trailing hlast =>
    cases terminal with
    | none =>
      rw [joined, Option.elim_none, List.append_nil] at hlast
      exact h.slash_notMem (List.mem_of_getLast? hlast)
    | some t =>
      obtain ⟨hne, hplain⟩ := h.terminal_plain t rfl
      have hlast' : t.getLast? = some '/' := by
        simpa [joined, List.getLast?_append, List.getLast?_cons_of_ne_nil hne, hne] using hlast
      exact hplain.2 (List.mem_of_getLast? hlast')
  | behind xs ys hcs hat =>
    have hcount := h.count_slash
    rw [hcs, List.count_append, List.count_cons_self] at hcount
    have hxs : '/' ∉ xs := List.count_eq_zero.mp (by omega)
    -- The first slash is the one that the terminal stands behind.
    have hcut := cut_append hxs ys
    rw [← hcs, cut_joined h.slash_notMem] at hcut
    exact (h.terminal_plain ys (Prod.mk.inj hcut).2).2.1 hat

theorem exists_wellFormed (hne : cs ≠ []) (h : ¬ Misplaced cs) :
    ∃ name address terminal, cs = joined name address terminal ∧
      WellFormed name address terminal := by
  rcases hcut : cut '/' cs with ⟨rest, terminal⟩
  rcases hcut' : cut '@' rest with ⟨before, behind⟩
  obtain ⟨hcs, -⟩ := eq_of_cut hcut
  obtain ⟨hrest, -⟩ := eq_of_cut hcut'
  have hslashes : cs.count '/' ≤ 1 := by
    by_contra hlt
    exact h (.slashes (by omega))
  have hats : rest.count '@' ≤ 1 := by
    by_contra hlt
    refine h (.ats ?_)
    rw [hcs, List.count_append]
    omega
  have hterminal : ∀ t ∈ terminal, t ≠ [] ∧ Plain t := by
    intro t ht
    subst ht
    refine ⟨fun hempty ↦ h (.trailing ?_), fun hat ↦ h (.behind rest t hcs hat),
      notMem_behind hcut hslashes⟩
    rw [hcs, hempty]
    simp
  have hfirst : before ≠ [] := by
    intro hempty
    subst hempty
    cases behind with
    | some b => exact h (.leading '@' (.inr rfl) (by rw [hcs, hrest]; rfl))
    | none =>
      cases terminal with
      | some t => exact h (.leading '/' (.inl rfl) (by rw [hcs, hrest]; rfl))
      | none => exact hne (by rw [hcs, hrest]; rfl)
  exact ⟨_, _, _, wellFormed_of_cuts hcut hcut' hats hfirst hterminal⟩

theorem parts?_eq_none_iff (hne : cs ≠ []) : parts? cs = none ↔ Misplaced cs := by
  constructor
  · intro hnone
    by_contra h
    obtain ⟨name, address, terminal, rfl, hw⟩ := exists_wellFormed hne h
    cases hnone.symm.trans (parts?_joined hw)
  · intro h
    cases hparts : parts? cs with
    | none => rfl
    | some p =>
      obtain ⟨rfl, hw⟩ := of_parts? hparts
      exact absurd h hw.not_misplaced

theorem joined_inj_of_plain {name' terminal' : Option (List Char)} {address' : List Char}
    (hname : ∀ x ∈ name, Plain x) (hname' : ∀ x ∈ name', Plain x) (haddress : Plain address)
    (haddress' : Plain address')
    (h : joined name address terminal = joined name' address' terminal') :
    name = name' ∧ address = address' ∧ terminal = terminal' := by
  have hhead := slash_notMem_joinedHead (fun x hx ↦ (hname x hx).2) haddress.2
  have hhead' := slash_notMem_joinedHead (fun x hx ↦ (hname' x hx).2) haddress'.2
  have hcut : (joinedHead name address, terminal) = (joinedHead name' address', terminal') := by
    rw [← cut_joined hhead, ← cut_joined hhead', h]
  obtain ⟨hheads, hterminals⟩ := Prod.mk.inj hcut
  have hcut' := congrArg (cut '@') hheads
  cases name with
  | none =>
    rw [cut_joinedHead_none haddress.1] at hcut'
    cases name' with
    | none =>
      rw [cut_joinedHead_none haddress'.1] at hcut'
      exact ⟨rfl, (Prod.mk.inj hcut').1, hterminals⟩
    | some x' =>
      rw [cut_joinedHead_some (hname' x' rfl).1] at hcut'
      cases (Prod.mk.inj hcut').2
  | some x =>
    rw [cut_joinedHead_some (hname x rfl).1] at hcut'
    cases name' with
    | none =>
      rw [cut_joinedHead_none haddress'.1] at hcut'
      cases (Prod.mk.inj hcut').2
    | some x' =>
      rw [cut_joinedHead_some (hname' x' rfl).1] at hcut'
      obtain ⟨rfl, haddresses⟩ := Prod.mk.inj hcut'
      exact ⟨rfl, Option.some.inj haddresses, hterminals⟩

/-- The text is an address, with an optional name before it and an optional terminal behind it. -/
structure Written (s : String) (name : Option String) (address : String)
    (terminal : Option String) : Prop where
  text : s = name.elim "" (· ++ "@") ++ address ++ terminal.elim "" ("/" ++ ·)
  name_plain : ∀ x ∈ name, x ≠ "" ∧ Plain x.toList
  terminal_plain : ∀ x ∈ terminal, x ≠ "" ∧ Plain x.toList

theorem text_iff {s : String} {name terminal : Option String} {address : String} :
    s = name.elim "" (· ++ "@") ++ address ++ terminal.elim "" ("/" ++ ·) ↔
      s.toList = joined (name.map String.toList) address.toList (terminal.map String.toList) := by
  rw [← String.toList_inj]
  cases name <;> cases terminal <;> simp [joined, joinedHead]

theorem plain_map_iff {part : Option String} :
    (∀ x ∈ part.map String.toList, x ≠ [] ∧ Plain x) ↔ ∀ x ∈ part, x ≠ "" ∧ Plain x.toList := by
  cases part <;> simp

section Written

variable {s : String} {name terminal name' terminal' : Option String} {address address' : String}

theorem WellFormed.written {name terminal : Option (List Char)} {address : List Char}
    (h : WellFormed name address terminal) (hs : s.toList = joined name address terminal) :
    Written s (name.map String.ofList) (String.ofList address) (terminal.map String.ofList) where
  text := text_iff.mpr (by simpa [Function.comp_def] using hs)
  name_plain := plain_map_iff.mp (by simpa [Function.comp_def] using h.name_plain)
  terminal_plain := plain_map_iff.mp (by simpa [Function.comp_def] using h.terminal_plain)

theorem Written.wellFormed {a : Address} (h : Written s name address terminal)
    (ha : Address.parse address = .ok a) :
    WellFormed (name.map String.toList) address.toList (terminal.map String.toList) := by
  have hne : address ≠ "" := by
    intro hempty
    subst hempty
    cases ha
  exact ⟨plain_map_iff.mpr h.name_plain, Address.plain_of_parse ha,
    plain_map_iff.mpr h.terminal_plain, fun _ ↦ by simpa using hne⟩

theorem Written.unique (h : Written s name address terminal) (h' : Written s name' address' terminal')
    (hplain : Plain address.toList) (hplain' : Plain address'.toList) :
    name = name' ∧ address = address' ∧ terminal = terminal' := by
  have hinj : Function.Injective String.toList := fun _ _ ↦ String.toList_inj.mp
  obtain ⟨hname, haddress, hterminal⟩ := joined_inj_of_plain
    (fun x hx ↦ (plain_map_iff.mpr h.name_plain x hx).2)
    (fun x hx ↦ (plain_map_iff.mpr h'.name_plain x hx).2) hplain hplain'
    ((text_iff.mp h.text).symm.trans (text_iff.mp h'.text))
  exact ⟨Option.map_injective hinj hname, hinj haddress, Option.map_injective hinj hterminal⟩

theorem parse_of_misplaced (hne : s ≠ "") (h : Misplaced s.toList) :
    parse s = .error (.misplacedSeparator s) := by
  rw [parse, if_neg hne, (parts?_eq_none_iff (by simpa using hne)).mpr h]

theorem parse_eq_error_iff_of_joined {name terminal : Option (List Char)} {address : List Char}
    {e : IdentifierError} (hne : s ≠ "") (hs : s.toList = joined name address terminal)
    (hw : WellFormed name address terminal) : parse s = .error e ↔
      ∃ e', Address.parse (String.ofList address) = .error e' ∧ e = .address e' := by
  rw [parse, if_neg hne, hs, parts?_joined hw]
  dsimp only
  split
  next e' he => simp [he, eq_comm]
  next a ha => simp [ha]

/-- A text without misplaced separators fails as the address in it does. -/
theorem exists_written (hne : s ≠ "") (h : ¬ Misplaced s.toList) : ∃ name address terminal,
    Written s name address terminal ∧ Plain address.toList ∧
      ∀ e, parse s = .error e ↔ ∃ e', Address.parse address = .error e' ∧ e = .address e' := by
  obtain ⟨name, address, terminal, hs, hw⟩ := exists_wellFormed (by simpa using hne) h
  exact ⟨_, _, _, hw.written hs, by simpa using hw.address_plain,
    fun e ↦ parse_eq_error_iff_of_joined hne hs hw⟩

theorem parse_eq_ok_iff_written {i : Identifier} : parse s = .ok i ↔ i.text = s ∧
    ∃ address, Written s i.name address i.terminal ∧ Address.parse address = .ok i.address := by
  constructor
  · intro h
    obtain ⟨address, ha, hs, hname, hterminal⟩ := of_parse h
    obtain ⟨_, _, _, _, _, _, _, rfl⟩ := parse_eq_ok_iff.mp h
    exact ⟨rfl, address, ⟨text_iff.mpr hs, hname, hterminal⟩, ha⟩
  · intro h
    obtain ⟨rfl, address, hwritten, ha⟩ := h
    refine parse_eq_ok_iff.mpr ⟨_, address.toList, _, i.address, text_iff.mp hwritten.text,
      hwritten.wellFormed ha, by rwa [String.ofList_toList], ?_⟩
    simp [Function.comp_def]

/-- Reading an identifier fails for one of three reasons and succeeds otherwise: the text is empty, a
separator is misplaced, or the address between the separators is not read. What is read are the parts
that the text is written from, and there are no others. -/
theorem parse_classified (s : String) :
    (parse s = .error .empty ↔ s = "") ∧
    (∀ t, parse s = .error (.misplacedSeparator t) ↔ t = s ∧ s ≠ "" ∧ Misplaced s.toList) ∧
    (s ≠ "" → ¬ Misplaced s.toList → ∃ name address terminal, Written s name address terminal ∧
      Plain address.toList ∧
        ∀ e, parse s = .error e ↔ ∃ e', Address.parse address = .error e' ∧ e = .address e') ∧
    (∀ i, parse s = .ok i ↔ i.text = s ∧
      ∃ address, Written s i.name address i.terminal ∧ Address.parse address = .ok i.address) ∧
    (∀ address a, Address.parse address = .ok a → Plain address.toList) ∧
    ∀ name address terminal name' address' terminal', Written s name address terminal →
      Written s name' address' terminal' → Plain address.toList → Plain address'.toList →
      name = name' ∧ address = address' ∧ terminal = terminal' := by
  refine ⟨⟨fun h ↦ ?_, fun h ↦ h ▸ rfl⟩, fun t ↦ ⟨fun h ↦ ?_, ?_⟩, exists_written,
    fun i ↦ parse_eq_ok_iff_written, fun address a ↦ Address.plain_of_parse,
    fun _ _ _ _ _ _ h h' ↦ h.unique h'⟩
  · by_contra hne
    by_cases hm : Misplaced s.toList
    · cases h.symm.trans (parse_of_misplaced hne hm)
    · obtain ⟨_, _, _, -, -, herror⟩ := exists_written hne hm
      obtain ⟨e', -, he⟩ := (herror _).mp h
      cases he
  · have hne : s ≠ "" := by
      intro hempty
      subst hempty
      cases h
    by_cases hm : Misplaced s.toList
    · cases h.symm.trans (parse_of_misplaced hne hm)
      exact ⟨rfl, hne, hm⟩
    · obtain ⟨_, _, _, -, -, herror⟩ := exists_written hne hm
      obtain ⟨e', -, he⟩ := (herror _).mp h
      cases he
  · intro h
    obtain ⟨rfl, hne, hm⟩ := h
    exact parse_of_misplaced hne hm

theorem parse_bare_name :
    Written "a@" (some "a") "" none ∧ parse "a@" = .error (.address .empty) := by
  have hplain : Plain ['a'] := ⟨by decide, by decide⟩
  have hempty : Plain [] := ⟨List.not_mem_nil, List.not_mem_nil⟩
  have hw : WellFormed (some ['a']) [] none := by
    refine ⟨fun x hx ↦ ?_, hempty, fun x hx ↦ (by cases hx), fun h ↦ (by cases h)⟩
    obtain rfl := Option.some.inj hx
    exact ⟨by decide, hplain⟩
  have hwritten : Written "a@" (some "a") "" none := hw.written rfl
  obtain ⟨-, -, hparts, -, -, hunique⟩ := parse_classified "a@"
  obtain ⟨_, _, _, hwritten', hplain', herror⟩ := hparts (by decide) hw.not_misplaced
  obtain ⟨-, rfl, -⟩ := hunique _ _ _ _ _ _ hwritten hwritten' hempty hplain'
  exact ⟨hwritten, (herror _).mpr ⟨.empty, rfl, rfl⟩⟩

example : parse "a/b@c" = .error (.misplacedSeparator "a/b@c") := by rfl

end Written

end Identifier

end MessagingIdentity
