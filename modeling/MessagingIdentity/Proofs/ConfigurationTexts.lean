import MessagingIdentity.CommandLine.Configuration
import MessagingIdentity.Proofs.TomlTexts
import Mathlib.Data.Nat.Digits.Defs

namespace MessagingIdentity.Toml

variable {cs ds w rest : List Char} {v : Value} {n : ℕ}

theorem digitValue?_of_isDigit {c : Char} (h : c.isDigit = true) :
    digitValue? 10 c = some (c.toNat - '0'.toNat) := by
  have hle : c.toNat ≤ 57 := by
    simp only [Char.isDigit, Bool.and_eq_true, decide_eq_true_eq] at h
    exact UInt32.le_iff_toNat_le.mp h.2
  have hlt : c.toNat - '0'.toNat < 10 := by
    change c.toNat - 48 < 10
    omega
  simp only [digitValue?, h, if_true, if_pos hlt]

theorem moreDigits_append (h : ∀ c ∈ ds, c.isDigit = true) (rest : List Char) :
    moreDigits 10 (ds ++ '\n' :: rest) = (ds.map fun c ↦ c.toNat - '0'.toNat, '\n' :: rest) := by
  induction ds with
  | nil => rfl
  | cons d ds ih =>
    obtain ⟨hd, hds⟩ := List.forall_mem_cons.mp h
    have hne : d ≠ '_' := by
      rintro rfl
      cases hd
    rw [List.cons_append, moreDigits]
    · rw [digitValue?_of_isDigit hd, ih hds]
      rfl
    · simp [hne]

theorem valueOf_toDigits (n : ℕ) :
    valueOf 10 ((Nat.toDigits 10 n).map fun c ↦ c.toNat - '0'.toNat) = n := by
  have hvalue := Nat.ofDigitChars_ten_toDigits (n := n)
  rw [Nat.ofDigitChars_eq_foldl] at hvalue
  simpa only [valueOf, List.foldl_map, Nat.mul_comm] using hvalue

theorem isDigit_of_mem_toDigits : ∀ c ∈ Nat.toDigits 10 n, c.isDigit = true :=
  fun _ ↦ Nat.isDigit_of_mem_toDigits (by decide) (by decide)

theorem exists_toDigits_eq_cons (n : ℕ) : ∃ d ds, Nat.toDigits 10 n = d :: ds ∧
    d.isDigit = true ∧ ∀ c ∈ ds, c.isDigit = true := by
  obtain ⟨d, ds, hds⟩ := List.exists_cons_of_ne_nil (Nat.toDigits_ne_nil (n := n) (b := 10))
  have hdigits := isDigit_of_mem_toDigits (n := n)
  rw [hds] at hdigits
  obtain ⟨hfirst, hmore⟩ := List.forall_mem_cons.mp hdigits
  exact ⟨d, ds, hds, hfirst, hmore⟩

theorem digitChar_ne_zero : ∀ n < 10, n ≠ 0 → Nat.digitChar n ≠ '0' := by decide

theorem head?_toDigits_ne_zero (hn : n ≠ 0) : (Nat.toDigits 10 n).head? ≠ some '0' := by
  induction n using Nat.strong_induction_on with
  | h n ih =>
    by_cases hlt : n < 10
    · rw [Nat.toDigits_of_lt_base hlt]
      exact fun h ↦ digitChar_ne_zero n hlt hn (Option.some.inj h)
    · have hdigits := ih (n / 10) (by omega) (by omega)
      rw [Nat.toDigits_of_base_le (by decide) (by omega),
        List.head?_append_of_ne_nil _ Nat.toDigits_ne_nil]
      exact hdigits

theorem eq_of_toDigits_append_eq (h : Nat.toDigits 10 n ++ rest = '0' :: cs) : n = 0 ∧ rest = cs := by
  have hn : n = 0 := by
    by_contra hn
    refine head?_toDigits_ne_zero hn ?_
    rw [← List.head?_append_of_ne_nil _ Nat.toDigits_ne_nil, h, List.head?_cons]
  subst hn
  exact ⟨rfl, (List.cons.inj h).2⟩

theorem decimalDigits_toDigits (n : ℕ) (rest : List Char) :
    decimalDigits (Nat.toDigits 10 n ++ '\n' :: rest) =
      some ((Nat.toDigits 10 n).map fun c ↦ c.toNat - '0'.toNat, '\n' :: rest) := by
  unfold decimalDigits
  split
  next more hmore =>
    obtain ⟨rfl, rfl⟩ := eq_of_toDigits_append_eq hmore
    rfl
  · obtain ⟨d, ds, hds, hfirst, hmore⟩ := exists_toDigits_eq_cons n
    rw [hds, List.cons_append, digits, digitValue?_of_isDigit hfirst, moreDigits_append hmore]
    rfl

theorem sign_of_isDigit (h : ∀ c ∈ cs.head?, c.isDigit = true) : sign cs = (false, cs) := by
  unfold sign
  split
  · exact absurd (h _ rfl) (by decide)
  · exact absurd (h _ rfl) (by decide)
  · rfl

theorem behind_digits {c : Char} (hc : c.isDigit = false) (hbreak : c ≠ '\n')
    (h : ∀ c ∈ ds, c.isDigit = true) (rest : List Char) : behind c (ds ++ '\n' :: rest) = none := by
  cases ds with
  | nil => exact if_neg hbreak
  | cons d ds =>
    refine if_neg ?_
    rintro rfl
    exact absurd (h c List.mem_cons_self) (by simp [hc])

theorem twoDigits_digits {least greatest m : ℕ} (h : ∀ c ∈ ds, c.isDigit = true)
    (hread : twoDigits least greatest (ds ++ '\n' :: rest) = some (m, cs)) :
    ∃ more, (∀ c ∈ more, c.isDigit = true) ∧ cs = more ++ '\n' :: rest := by
  rcases ds with _ | ⟨a, _ | ⟨b, ds⟩⟩
  · cases rest <;> cases hread
  · simp [twoDigits] at hread
  · obtain ⟨-, hds⟩ := List.forall_mem_cons.mp (List.forall_mem_cons.mp h).2
    rw [List.cons_append, List.cons_append, twoDigits] at hread
    split at hread
    · obtain ⟨-, rfl⟩ := Prod.mk.inj (Option.some.inj hread)
      exact ⟨ds, hds, rfl⟩
    · cases hread

theorem date_digits (h : ∀ c ∈ ds, c.isDigit = true) (rest : List Char) :
    date (ds ++ '\n' :: rest) = none := by
  rw [date, Option.eq_none_iff_forall_not_mem]
  intro cs hcs
  obtain ⟨⟨m, cs₁⟩, h₁, hcs⟩ := Option.bind_eq_some_iff.mp hcs
  obtain ⟨ds₁, hds₁, rfl⟩ := twoDigits_digits h h₁
  obtain ⟨⟨m₂, cs₂⟩, h₂, hcs⟩ := Option.bind_eq_some_iff.mp hcs
  obtain ⟨ds₂, hds₂, rfl⟩ := twoDigits_digits hds₁ h₂
  obtain ⟨cs₃, h₃, -⟩ := Option.bind_eq_some_iff.mp hcs
  cases h₃.symm.trans (behind_digits (by decide) (by decide) hds₂ rest)

theorem time_digits (h : ∀ c ∈ ds, c.isDigit = true) (rest : List Char) :
    time (ds ++ '\n' :: rest) = none := by
  rw [time, Option.eq_none_iff_forall_not_mem]
  intro cs hcs
  obtain ⟨⟨m, cs₁⟩, h₁, hcs⟩ := Option.bind_eq_some_iff.mp hcs
  obtain ⟨ds₁, hds₁, rfl⟩ := twoDigits_digits h h₁
  obtain ⟨cs₂, h₂, -⟩ := Option.bind_eq_some_iff.mp hcs
  cases h₂.symm.trans (behind_digits (by decide) (by decide) hds₁ rest)

theorem head?_toDigits (n : ℕ) (rest : List Char) :
    ∀ c ∈ (Nat.toDigits 10 n ++ rest).head?, c.isDigit = true := by
  obtain ⟨d, ds, hds, hfirst, -⟩ := exists_toDigits_eq_cons n
  rw [hds]
  simpa using hfirst

theorem real_toDigits (n : ℕ) (rest : List Char) : real (Nat.toDigits 10 n ++ '\n' :: rest) = none := by
  have hsign := sign_of_isDigit (head?_toDigits n ('\n' :: rest))
  have hdecimal : decimal (Nat.toDigits 10 n ++ '\n' :: rest) = none := by
    rw [decimal, hsign]
    dsimp only
    rw [decimalDigits_toDigits]
    rfl
  have hspecial : special (Nat.toDigits 10 n ++ '\n' :: rest) = none := by
    rw [special, hsign]
    have hhead := head?_toDigits n ('\n' :: rest)
    dsimp only
    split
    next hcs => exact absurd (hhead 'i' (by rw [hcs]; rfl)) (by decide)
    next hcs => exact absurd (hhead 'n' (by rw [hcs]; rfl)) (by decide)
    · rfl
  rw [real, hdecimal, hspecial]
  rfl

theorem ofInteger?_natCast (h : n < 0x8000000000000000) : ofInteger? (n : ℤ) = some (n : ℤ) := by
  rw [ofInteger?, if_pos]
  omega

theorem integer_toDigits (h : n < 0x8000000000000000) (rest : List Char) :
    integer (Nat.toDigits 10 n ++ '\n' :: rest) = some ((n : ℤ), '\n' :: rest) := by
  have hbase {c : Char} {cs : List Char} (hc : c ≠ '\n')
      (hcs : Nat.toDigits 10 n ++ '\n' :: rest = '0' :: c :: cs) : False := by
    obtain ⟨-, hrest⟩ := eq_of_toDigits_append_eq hcs
    exact hc (List.cons.inj hrest).1.symm
  unfold integer
  split
  next hcs => exact (hbase (by decide) hcs).elim
  next hcs => exact (hbase (by decide) hcs).elim
  next hcs => exact (hbase (by decide) hcs).elim
  · rw [sign_of_isDigit (head?_toDigits n ('\n' :: rest))]
    dsimp only
    rw [decimalDigits_toDigits, Option.bind_eq_bind, Option.bind_some]
    simp only [valueOf_toDigits, Bool.false_eq_true, if_false, ofInteger?_natCast h,
      Option.bind_eq_bind, Option.bind_some]

theorem figure_toDigits (h : n < 0x8000000000000000) (rest : List Char) :
    figure (Nat.toDigits 10 n ++ '\n' :: rest) = some (.integer n, '\n' :: rest) := by
  have hmoment : moment (Nat.toDigits 10 n ++ '\n' :: rest) = none := by
    rw [moment, date_digits isDigit_of_mem_toDigits]
    exact time_digits isDigit_of_mem_toDigits rest
  rw [figure, hmoment, real_toDigits, integer_toDigits h]
  rfl

def Bare (s : String) : Prop := s.toList ≠ [] ∧ ∀ c ∈ s.toList, isBare c = true

theorem bare_of_all {s : String} (h : (!s.toList.isEmpty && s.toList.all isBare) = true) :
    Bare s := by
  obtain ⟨hne, hall⟩ := Bool.and_eq_true_iff.mp h
  exact ⟨by simpa using hne, List.all_eq_true.mp hall⟩

/-- The text before the end of a line is read as a value. -/
structure Spells (w : List Char) (v : Value) : Prop where
  exists_cons : ∃ c cs, w = c :: cs ∧ isBlank c = false
  value_eq (fuel depth : ℕ) (rest : List Char) :
    value (fuel + 1) depth (w ++ '\n' :: rest) = some (v, '\n' :: rest)

theorem skipBlanks_cons {c : Char} (h : isBlank c = false) (cs : List Char) :
    skipBlanks (c :: cs) = c :: cs := List.dropWhile_cons_of_neg (by simp [h])

theorem isBlank_of_isBare {c : Char} (h : isBare c = true) : isBlank c = false := by
  rw [← Bool.not_eq_true]
  intro hblank
  obtain rfl | rfl : c = ' ' ∨ c = '\t' := by simpa [isBlank] using hblank
  · cases h
  · cases h

theorem Spells.skipBlanks_append (h : Spells w v) (rest : List Char) :
    skipBlanks (w ++ rest) = w ++ rest := by
  obtain ⟨c, cs, rfl, hc⟩ := h.exists_cons
  exact skipBlanks_cons hc (cs ++ rest)

namespace Bare

variable {s : String} {c : Char}

theorem exists_cons (h : Bare s) : ∃ c cs, s.toList = c :: cs ∧ isBare c = true := by
  obtain ⟨c, cs, hcs⟩ := List.exists_cons_of_ne_nil h.1
  exact ⟨c, cs, hcs, h.2 c (hcs ▸ List.mem_cons_self)⟩

theorem ne_cons (h : Bare s) (hc : isBare c = false) : s.toList ++ rest ≠ c :: cs := by
  obtain ⟨d, ds, hds, hd⟩ := h.exists_cons
  rw [hds]
  intro heq
  rw [(List.cons.inj heq).1, hc] at hd
  cases hd

theorem skipBlanks_append (h : Bare s) (rest : List Char) :
    skipBlanks (s.toList ++ rest) = s.toList ++ rest := by
  obtain ⟨c, cs, hcs, hc⟩ := h.exists_cons
  rw [hcs]
  exact skipBlanks_cons (isBlank_of_isBare hc) (cs ++ rest)

theorem name_append (h : Bare s) (hc : isBare c = false) (rest : List Char) :
    name (s.toList ++ c :: rest) = some (s, c :: rest) := by
  unfold name
  split
  next heq => exact absurd heq (h.ne_cons (by decide))
  next heq => exact absurd heq (h.ne_cons (by decide))
  · have hne : ¬ s.toList.isEmpty = true := by simpa using h.1
    have hlast : ¬ isBare c = true := Bool.eq_false_iff.mp hc
    rw [List.takeWhile_append_of_pos h.2, List.dropWhile_append_of_pos h.2,
      List.takeWhile_cons_of_neg hlast, List.dropWhile_cons_of_neg hlast, List.append_nil,
      if_neg hne, String.ofList_toList]

theorem key_append (h : Bare s) (rest : List Char) :
    key (s.toList ++ ' ' :: '=' :: rest) = some (⟨[], s⟩, '=' :: rest) := by
  have hnames : names (depthLimit + 1) (s.toList ++ ' ' :: '=' :: rest) = some ([s], '=' :: rest) := by
    rw [names, h.skipBlanks_append, h.name_append (by decide)]
    rfl
  rw [key, hnames]
  rfl

theorem statement_append (h : Bare s) (hw : Spells w v) (rest : List Char) :
    statement (s.toList ++ ' ' :: '=' :: ' ' :: (w ++ '\n' :: rest)) =
      some (.assignment ⟨[], s⟩ v, '\n' :: rest) := by
  have hbehind : behind '=' ('=' :: ' ' :: (w ++ '\n' :: rest)) =
      some (' ' :: (w ++ '\n' :: rest)) := by
    rw [behind, if_pos rfl]
  have hskip : skipBlanks (' ' :: (w ++ '\n' :: rest)) = w ++ '\n' :: rest :=
    hw.skipBlanks_append _
  unfold statement
  split
  next heq => exact absurd heq (h.ne_cons (by decide))
  next heq => exact absurd heq (h.ne_cons (by decide))
  · simp only [h.key_append, hbehind, hskip, hw.value_eq, Option.bind_eq_bind, Option.bind_some]

theorem statements_append (h : Bare s) (hw : Spells w v) (fuel : ℕ) (rest : List Char) :
    statements (fuel + 1) (s.toList ++ ' ' :: '=' :: ' ' :: (w ++ '\n' :: rest)) =
      (statements fuel rest).map (.assignment ⟨[], s⟩ v :: ·) := by
  rw [statements, h.skipBlanks_append]
  split
  next heq => exact absurd (List.append_eq_nil_iff.mp heq).1 h.1
  next heq => exact absurd heq (h.ne_cons (by decide))
  next heq => exact absurd heq (h.ne_cons (by decide))
  next heq => exact absurd heq (h.ne_cons (by decide))
  · rw [h.statement_append hw]
    exact Option.map_eq_bind.symm

end Bare

theorem exists_written_eq_cons (cs : List Char) :
    ∃ c w, written cs = c :: w ∧ (c = '"' ∨ c = '\'') := by
  unfold written
  cases formOf cs
  · exact ⟨_, _, rfl, .inl rfl⟩
  · exact ⟨_, _, rfl, .inr rfl⟩
  · exact ⟨_, _, rfl, .inl rfl⟩
  · exact ⟨_, _, rfl, .inr rfl⟩

theorem value_of_text {c : Char} {body after : List Char} (hc : c = '"' ∨ c = '\'')
    (h : text (c :: cs) = some (body, after)) (fuel depth : ℕ) :
    value (fuel + 1) depth (c :: cs) = some (.text (String.ofList body), after) := by
  rcases hc with rfl | rfl
  · rw [value, h]
    rfl
  · rw [value, h]
    rfl

theorem spells_written (s : String) : Spells (written s.toList) (.text s) where
  exists_cons := by
    obtain ⟨c, w, hw, hc⟩ := exists_written_eq_cons s.toList
    refine ⟨c, w, hw, ?_⟩
    rcases hc with rfl | rfl <;> rfl
  value_eq fuel depth rest := by
    have htext : text (written s.toList ++ '\n' :: rest) = some (s.toList, '\n' :: rest) :=
      text_written s.toList nofun nofun
    obtain ⟨c, w, hw, hc⟩ := exists_written_eq_cons s.toList
    rw [hw, List.cons_append] at htext ⊢
    rw [value_of_text hc htext, String.ofList_toList]

theorem value_of_isDigit {c : Char} (h : c.isDigit = true) (fuel depth : ℕ) (cs : List Char) :
    value (fuel + 1) depth (c :: cs) = figure (c :: cs) := by
  have hne {d : Char} {ds : List Char} (hd : d.isDigit = false) : c :: cs ≠ d :: ds := by
    intro heq
    rw [(List.cons.inj heq).1, hd] at h
    cases h
  rw [value] <;> exact fun _ ↦ hne (by decide)

theorem spells_toDigits (h : n < 0x8000000000000000) : Spells (Nat.toDigits 10 n) (.integer n) where
  exists_cons := by
    obtain ⟨c, cs, hcs, hdigit, -⟩ := exists_toDigits_eq_cons n
    exact ⟨c, cs, hcs, isBlank_of_isBare (by simp [isBare, Char.isAlphanum, hdigit])⟩
  value_eq fuel depth rest := by
    have hfigure := figure_toDigits h rest
    obtain ⟨c, cs, hcs, hdigit, -⟩ := exists_toDigits_eq_cons n
    rw [hcs, List.cons_append] at hfigure ⊢
    rw [value_of_isDigit hdigit, hfigure]

end MessagingIdentity.Toml

namespace MessagingIdentity.Configuration

open Toml

variable {name : String} {rest : List Char}

theorem statements_textLine (h : Bare name) (s : String) (fuel : ℕ) (rest : List Char) :
    statements (fuel + 1) (textLine name s ++ rest) =
      (statements fuel rest).map (.assignment ⟨[], name⟩ (.text s) :: ·) := by
  rw [← h.statements_append (spells_written s)]
  simp [textLine]

theorem statements_numberLine (h : Bare name) {n : ℕ} (hn : n < 0x8000000000000000) (fuel : ℕ)
    (rest : List Char) : statements (fuel + 1) (numberLine name n ++ rest) =
      (statements fuel rest).map (.assignment ⟨[], name⟩ (.integer n) :: ·) := by
  rw [← h.statements_append (spells_toDigits hn)]
  simp [numberLine]

def entries (c : Configuration) : Entries :=
  [(algorithmName, .text c.algorithm), (metaTypeName, .text c.metaType),
    (networkName, .integer c.network.byte.toNat), (logLevelName, .text c.logLevel)]

theorem bare_names :
    Bare algorithmName ∧ Bare metaTypeName ∧ Bare networkName ∧ Bare logLevelName :=
  ⟨bare_of_all rfl, bare_of_all rfl, bare_of_all rfl, bare_of_all rfl⟩

def lines (c : Configuration) : List Char :=
  textLine algorithmName c.algorithm ++ (textLine metaTypeName c.metaType ++
    (numberLine networkName c.network.byte.toNat ++ (textLine logLevelName c.logLevel ++ [])))

theorem statements_lines (c : Configuration) (fuel : ℕ) :
    statements (fuel + 5) c.lines = some (c.entries.map fun (name, v) ↦ .assignment ⟨[], name⟩ v) := by
  obtain ⟨halgorithm, hmeta, hnetwork, hlevel⟩ := bare_names
  have hbyte : c.network.byte.toNat < 0x8000000000000000 :=
    Nat.lt_trans c.network.byte.toNat_lt (by decide)
  rw [lines, statements_textLine halgorithm, statements_textLine hmeta,
    statements_numberLine hnetwork hbyte, statements_textLine hlevel]
  rfl

theorem parse_print_entries (c : Configuration) : Toml.parse c.print = some c.entries := by
  have htext : c.print.toList = c.lines := by simp [print, lines]
  have hlength : 4 ≤ c.lines.length := by simp [lines, textLine, numberLine, algorithmName]
  obtain ⟨fuel, hfuel⟩ : ∃ fuel, c.lines.length + 1 = fuel + 5 := ⟨c.lines.length - 4, by omega⟩
  have hread : statements (c.lines.length + 1) c.lines = _ := hfuel ▸ c.statements_lines fuel
  rw [Toml.parse, htext]
  split
  next heq => cases heq
  · rw [hread]
    rfl

theorem byteOf_entries (c : Configuration) :
    byteOf networkName default.network.byte c.entries = some c.network.byte := by
  have hrange : (0 : ℤ) ≤ c.network.byte.toNat ∧ (c.network.byte.toNat : ℤ) < 256 := by
    have := c.network.byte.toNat_lt
    omega
  change (if (0 : ℤ) ≤ c.network.byte.toNat ∧ (c.network.byte.toNat : ℤ) < 256 then
    some (c.network.byte.toNat : ℤ).toNat.toUInt8 else none) = _
  rw [if_pos hrange, Int.toNat_natCast]
  simp

/-- What is written of a configuration is read as it. -/
theorem parse_print (c : Configuration) : parse c.print = some c := by
  rw [parse, parse_print_entries, Option.bind_eq_bind, Option.bind_some, byteOf_entries]
  rfl

end MessagingIdentity.Configuration
