import MessagingIdentity.Json.Parser
import MessagingIdentity.Json.Printer
import Mathlib.Data.List.DropRight
import Mathlib.Tactic.SplitIfs

namespace MessagingIdentity.Json.Parser

variable {c : Char} {cs rest after : List Char}

theorem hexUnit_hexDigits : ∀ n < 32,
    hexUnit '0' '0' (hexDigit (n / 16)) (hexDigit (n % 16)) = some n := by decide

theorem escape_cases (c : Char) :
    (∃ e, simpleEscape e = some c ∧ escape c = ['\\', e]) ∨
    (c.toNat < 32 ∧
      escape c = ['\\', 'u', '0', '0', hexDigit (c.toNat / 16), hexDigit (c.toNat % 16)]) ∨
    (c ≠ '"' ∧ ¬ (c = '\\' ∨ c.toNat < 32)) ∧ escape c = [c] := by
  unfold escape
  split_ifs with h₁ h₂ h₃ h₄ h₅ h₆ h₇ h₈
  · exact .inl ⟨'"', by rw [h₁]; rfl, rfl⟩
  · exact .inl ⟨'\\', by rw [h₂]; rfl, rfl⟩
  · exact .inl ⟨'n', h₃ ▸ rfl, rfl⟩
  · exact .inl ⟨'r', h₄ ▸ rfl, rfl⟩
  · exact .inl ⟨'t', h₅ ▸ rfl, rfl⟩
  · exact .inl ⟨'b', h₆ ▸ rfl, rfl⟩
  · exact .inl ⟨'f', h₇ ▸ rfl, rfl⟩
  · exact .inr (.inl ⟨h₈, rfl⟩)
  · exact .inr (.inr ⟨⟨h₁, not_or.mpr ⟨h₂, h₈⟩⟩, rfl⟩)

theorem textBody_escape (c : Char) (h : textBody rest = some (cs, after)) :
    textBody (escape c ++ rest) = some (c :: cs, after) := by
  rcases escape_cases c with ⟨e, he, hc⟩ | ⟨hlt, hc⟩ | ⟨⟨hquote, hplain⟩, hc⟩
  · have hu : e ≠ 'u' := by
      rintro rfl
      cases he
    simp [hc, textBody, he, hu, h]
  · have hhigh : ¬ (0xd800 ≤ c.toNat ∧ c.toNat < 0xdc00) := by omega
    have hlow : ¬ (0xdc00 ≤ c.toNat ∧ c.toNat < 0xe000) := by omega
    simp only [hc, List.cons_append, List.nil_append, textBody, hexUnit_hexDigits _ hlt,
      Option.bind_eq_bind, Option.bind_some, if_neg hhigh, if_neg hlow, h, Char.ofNat_toNat]
    rfl
  · obtain ⟨hne, -⟩ := not_or.mp hplain
    simp only [hc, List.cons_append, List.nil_append]
    rw [textBody, if_neg hplain, h]
    · rfl
    · exact hquote
    all_goals simp [hne]

theorem textBody_flatMap_escape (cs rest : List Char) :
    textBody (cs.flatMap escape ++ '"' :: rest) = some (cs, rest) := by
  induction cs with
  | nil => rfl
  | cons c cs ih =>
    rw [List.flatMap_cons, List.append_assoc]
    exact textBody_escape c ih

theorem quoted_append (s : String) (rest : List Char) :
    quoted s ++ rest = '"' :: (s.toList.flatMap escape ++ '"' :: rest) := by
  simp [quoted]

theorem value_quoted (fuel depth : ℕ) (s : String) (rest : List Char) :
    value (fuel + 1) depth (' ' :: quoted s ++ rest) = some (text s, rest) := by
  have hskip : skipBlanks (' ' :: quoted s ++ rest) = quoted s ++ rest := rfl
  rw [value, hskip, quoted_append]
  simp only [textBody_flatMap_escape, Option.map_some, String.ofList_toList]

theorem skipBlanks_newLine (level : ℕ) (cs : List Char) :
    skipBlanks (newLine level ++ cs) = skipBlanks cs := by
  have hblank : ∀ c ∈ newLine level, isBlank c = true := by
    intro c hc
    rcases List.mem_cons.mp hc with rfl | hc
    · rfl
    · rw [List.eq_of_mem_replicate hc]
      rfl
  exact List.dropWhile_append_of_pos hblank

def texts (ms : List (String × String)) : Members := ms.map fun (name, s) ↦ (name, text s)

/-- A member on a line of its own, and what follows its value. -/
def line (level : ℕ) (name s : String) (next : List Char) : List Char :=
  newLine level ++ (quoted name ++ ':' :: (' ' :: quoted s ++ next))

variable (level fuel depth : ℕ) (name s : String)

theorem skipBlanks_line (next : List Char) : skipBlanks (line level name s next) =
    '"' :: (name.toList.flatMap escape ++ '"' :: ':' :: (' ' :: quoted s ++ next)) := by
  rw [line, skipBlanks_newLine, quoted_append]
  rfl

theorem skipBlanks_colon (cs : List Char) : skipBlanks (':' :: cs) = ':' :: cs := rfl

theorem members_line_comma (next : List Char) :
    members (fuel + 2) depth (line level name s (',' :: next)) =
      (members (fuel + 1) depth next).map fun (ms, after) ↦ ((name, text s) :: ms, after) := by
  have hcomma : skipBlanks (',' :: next) = ',' :: next := rfl
  rw [members, skipBlanks_line]
  simp only [textBody_flatMap_escape, Option.bind_eq_bind, Option.bind_some, skipBlanks_colon,
    value_quoted, hcomma, String.ofList_toList]
  exact Option.map_eq_bind.symm

theorem members_line_brace (outer : ℕ) (rest : List Char) :
    members (fuel + 2) depth (line level name s (newLine outer ++ '}' :: rest)) =
      some ([(name, text s)], rest) := by
  have hbrace : skipBlanks (newLine outer ++ '}' :: rest) = '}' :: rest := skipBlanks_newLine outer _
  rw [members, skipBlanks_line]
  simp only [textBody_flatMap_escape, Option.bind_eq_bind, Option.bind_some, skipBlanks_colon,
    value_quoted, hbrace, String.ofList_toList]
  rfl

theorem prettyMembers_single (rest : List Char) :
    prettyMembers level (texts [(name, s)]) ++ rest = line level name s rest := by
  simp [texts, prettyMembers, prettyChars, line]

theorem prettyMembers_cons {ms : List (String × String)} (hms : ms ≠ []) (rest : List Char) :
    prettyMembers level (texts ((name, s) :: ms)) ++ rest =
      line level name s (',' :: (prettyMembers level (texts ms) ++ rest)) := by
  obtain ⟨m, ms, rfl⟩ := List.exists_cons_of_ne_nil hms
  simp [texts, prettyMembers, prettyChars, line]

theorem members_prettyMembers {ms : List (String × String)} (hms : ms ≠ []) {fuel : ℕ}
    (hfuel : ms.length < fuel) (outer : ℕ) (rest : List Char) :
    members fuel depth (prettyMembers level (texts ms) ++ (newLine outer ++ '}' :: rest)) =
      some (texts ms, rest) := by
  induction ms generalizing fuel with
  | nil => exact absurd rfl hms
  | cons m ms ih =>
    obtain ⟨name, s⟩ := m
    rw [List.length_cons] at hfuel
    by_cases hmore : ms = []
    · obtain ⟨fuel, rfl⟩ : ∃ k, fuel = k + 2 := ⟨fuel - 2, by omega⟩
      rw [hmore, prettyMembers_single, members_line_brace]
      rfl
    · have hlength := List.length_pos_of_ne_nil hmore
      obtain ⟨fuel, rfl⟩ : ∃ k, fuel = k + 2 := ⟨fuel - 2, by omega⟩
      rw [prettyMembers_cons _ _ _ hmore, members_line_comma, ih hmore (by omega)]
      rfl

theorem length_line (next : List Char) : next.length < (line level name s next).length := by
  simp [line, newLine]
  omega

theorem length_prettyMembers (ms : List (String × String)) (rest : List Char) :
    ms.length ≤ (prettyMembers level (texts ms) ++ rest).length := by
  induction ms with
  | nil => exact Nat.zero_le _
  | cons m ms ih =>
    obtain ⟨name, s⟩ := m
    by_cases hmore : ms = []
    · rw [hmore, prettyMembers_single]
      exact Nat.lt_of_le_of_lt (Nat.zero_le _) (length_line level name s rest)
    · have hline := length_line level name s (',' :: (prettyMembers level (texts ms) ++ rest))
      rw [List.length_cons] at hline
      rw [prettyMembers_cons _ _ _ hmore, List.length_cons]
      omega

theorem exists_skipBlanks_prettyMembers {ms : List (String × String)} (hms : ms ≠ [])
    (rest : List Char) : ∃ cs, skipBlanks (prettyMembers level (texts ms) ++ rest) = '"' :: cs := by
  obtain ⟨⟨name, s⟩, ms, rfl⟩ := List.exists_cons_of_ne_nil hms
  by_cases hmore : ms = []
  · exact ⟨_, by rw [hmore, prettyMembers_single, skipBlanks_line]⟩
  · exact ⟨_, by rw [prettyMembers_cons _ _ _ hmore, skipBlanks_line]⟩

theorem members_skipBlanks (cs : List Char) :
    members fuel depth (skipBlanks cs) = members fuel depth cs := by
  have hidem : skipBlanks (skipBlanks cs) = skipBlanks cs := List.dropWhile_idempotent _ cs
  cases fuel with
  | zero => rw [members, members]
  | succ fuel => rw [members, members, hidem]

theorem value_brace {cs more : List Char} (h : skipBlanks cs = '"' :: more) :
    value (fuel + 1) (depth + 1) ('{' :: cs) =
      (members fuel depth cs).map fun (ms, after) ↦ (ofMembers ms, after) := by
  have hskip : skipBlanks ('{' :: cs) = '{' :: cs := rfl
  rw [← members_skipBlanks, value, hskip]
  simp only [h]
  rfl

end MessagingIdentity.Json.Parser

namespace MessagingIdentity.Json

theorem prettyChars_object {m : Members} (hm : m ≠ []) :
    prettyChars 0 (object m) = '{' :: (prettyMembers 1 m ++ (newLine 0 ++ ['}'])) := by
  obtain ⟨m, ms, rfl⟩ := List.exists_cons_of_ne_nil hm
  simp [prettyChars]

/-- What is written of an object of texts is read as it. -/
theorem parse_pretty {ms : List (String × String)} (hms : ms ≠ []) :
    parse (object (Parser.texts ms)).pretty = some (ofMembers (Parser.texts ms)) := by
  have htexts : Parser.texts ms ≠ [] := by simpa [Parser.texts] using hms
  obtain ⟨more, hmore⟩ := Parser.exists_skipBlanks_prettyMembers 1 hms (newLine 0 ++ ['}'])
  have hlength := Parser.length_prettyMembers 1 ms (newLine 0 ++ ['}'])
  rw [parse, pretty, String.toList_ofList, prettyChars_object htexts]
  rw [Parser.value_brace _ _ hmore, Parser.members_prettyMembers]
  · rfl
  · exact hms
  · rw [List.length_cons]
    omega

theorem parseMembers_pretty (ms : List (String × String)) (hms : ms ≠ [])
    (horder : Members.ofList (Parser.texts ms) = Parser.texts ms) :
    parseMembers (object (Parser.texts ms)).pretty = some (Parser.texts ms) := by
  rw [parseMembers, parse_pretty hms, ofMembers, horder]

end MessagingIdentity.Json
