import MessagingIdentity.Toml.Parser
import MessagingIdentity.Toml.Printer
import Mathlib.Data.List.Basic

namespace MessagingIdentity.Toml

variable {c : Char} {cs rest : List Char}

theorem andThen_some (c : Char) (body rest : List Char) :
    andThen c (some (body, rest)) = some (c :: body, rest) := rfl

theorem characterOf_hexDigits {n : ℕ} (h : n < 0x80) :
    characterOf ('0' :: '0' :: hexDigits n) = some (Char.ofNat n) := by
  revert h n
  decide

theorem isPlain_of_not_control (h : ¬ (c < ' ' || c = '\x7f') = true) : isPlain c = true := by
  have hc : ¬ (c < ' ' ∨ c = '\x7f') := by simpa using h
  rw [not_or, Char.not_lt] at hc
  simp [isPlain, hc]

theorem escape_cases (long : Bool) (c : Char) :
    (∃ e, escapes.lookup e = some c ∧ escape long c = ['\\', e]) ∨
    (∃ a b, characterOf ['0', '0', a, b] = some c ∧ escape long c = ['\\', 'u', '0', '0', a, b]) ∨
    (c = '\n' ∧ long = true ∨ isPlain c = true ∧ c ≠ '\\') ∧ escape long c = [c] := by
  unfold escape
  split_ifs with h₁ h₂ h₃ h₄ h₅ h₆ h₇ h₈
  · exact .inl ⟨'b', h₁ ▸ rfl, rfl⟩
  · exact .inl ⟨'t', h₂ ▸ rfl, rfl⟩
  · exact .inr (.inr ⟨.inl ⟨h₃, h₄⟩, h₃ ▸ rfl⟩)
  · exact .inl ⟨'n', h₃ ▸ rfl, rfl⟩
  · exact .inl ⟨'f', h₅ ▸ rfl, rfl⟩
  · exact .inl ⟨'r', h₆ ▸ rfl, rfl⟩
  · exact .inl ⟨'\\', by rw [h₇]; rfl, rfl⟩
  · have hascii : c.toNat < 0x80 := by
      have hc : c < ' ' ∨ c = '\x7f' := by simpa using h₈
      rcases hc with hc | rfl
      · exact Nat.lt_trans (Char.lt_def.mp hc) (by decide)
      · decide
    have hread := characterOf_hexDigits hascii
    rw [Char.ofNat_toNat] at hread
    exact .inr (.inl ⟨_, _, hread, rfl⟩)
  · exact .inr (.inr ⟨.inr ⟨isPlain_of_not_control h₈, h₇⟩, rfl⟩)

theorem ne_of_lookup_escapes {e : Char} (h : escapes.lookup e = some c) : e ≠ 'u' ∧ e ≠ 'U' := by
  constructor <;> rintro rfl <;> cases h

theorem basicBody_escape (hc : c ≠ '"') (rest : List Char) :
    basicBody (escape false c ++ rest) = andThen c (basicBody rest) := by
  rcases escape_cases false c with ⟨e, he, h⟩ | ⟨a, b, hab, h⟩ | ⟨hplain, h⟩
  · obtain ⟨hu, hU⟩ := ne_of_lookup_escapes he
    simp [h, basicBody, he, hu, hU]
  · simp [h, basicBody, hab]
  · obtain ⟨hplain, hne⟩ := hplain.resolve_left nofun
    simp [h, basicBody, hplain, hne]

theorem longBasicBody_escape (hc : c ≠ '"') (rest : List Char) :
    longBasicBody false (escape true c ++ rest) = andThen c (longBasicBody false rest) := by
  rcases escape_cases true c with ⟨e, he, h⟩ | ⟨a, b, hab, h⟩ | ⟨⟨rfl, -⟩ | ⟨hplain, hne⟩, h⟩
  · obtain ⟨hu, hU⟩ := ne_of_lookup_escapes he
    simp [h, longBasicBody, he, hu, hU]
  · simp [h, longBasicBody, hab]
  · rw [h]
    rfl
  · have hr : c ≠ '\r' := by
      rintro rfl
      exact absurd hplain (by decide)
    simp [h, longBasicBody, hc, hplain, hne, hr]

theorem escaped_cons_of_ne (long : Bool) (quotes : ℕ) (hc : c ≠ '"') (cs : List Char) :
    escaped long quotes (c :: cs) = escape long c ++ escaped long (if long then 2 else 0) cs := by
  rw [escaped]
  exact hc

theorem basicBody_escaped (cs rest : List Char) :
    basicBody (escaped false 0 cs ++ '"' :: rest) = some (cs, rest) := by
  induction cs with
  | nil => rfl
  | cons c cs ih =>
    by_cases hc : c = '"'
    · rw [hc]
      exact congrArg (andThen '"') ih
    · rw [escaped_cons_of_ne false 0 hc, List.append_assoc, basicBody_escape hc]
      exact congrArg (andThen c) ih

theorem literalBody_append (h : ∀ c ∈ cs, isPlain c = true ∧ c ≠ '\'') (rest : List Char) :
    literalBody (cs ++ '\'' :: rest) = some (cs, rest) := by
  induction cs with
  | nil => rfl
  | cons c cs ih =>
    obtain ⟨⟨hplain, hc⟩, hcs⟩ := List.forall_mem_cons.mp h
    rw [List.cons_append, literalBody, if_pos hplain, ih hcs, andThen_some]
    exact hc

theorem lateMarks_of_head? {mark : Char} (h : rest.head? ≠ some mark) :
    lateMarks mark rest = ([], rest) := by
  have hne {c : Char} {cs : List Char} (hrest : rest = c :: cs) : c ≠ mark := by
    rintro rfl
    exact h (hrest ▸ rfl)
  unfold lateMarks
  split
  · rfl
  · rw [if_neg (hne rfl)]
  · rw [if_neg (hne rfl)]

theorem lateMarks_one {mark : Char} (h : rest.head? ≠ some mark) :
    lateMarks mark (mark :: rest) = ([mark], rest) := by
  cases rest with
  | nil => simp [lateMarks]
  | cons c cs =>
    have hc : c ≠ mark := by
      rintro rfl
      exact h rfl
    simp [lateMarks, hc]

theorem lateMarks_two (mark : Char) (rest : List Char) :
    lateMarks mark (mark :: mark :: rest) = ([mark, mark], rest) := by
  simp [lateMarks]

/-- A reader of texts between three marks: the last three of up to five close the text, and a mark
that is not the first of three belongs to it. -/
structure Marked (mark : Char) (read : List Char → Option (List Char × List Char)) : Prop where
  close (rest : List Char) : read (mark :: mark :: mark :: rest) = some (lateMarks mark rest)
  step {cs : List Char} : ¬ [mark, mark] <+: cs → read (mark :: cs) = andThen mark (read cs)

/-- Of what stands before the closing marks, a mark that is not followed by two more belongs to the
text, also if the text ends by then. -/
theorem Marked.read_cons {mark : Char} {read : List Char → Option (List Char × List Char)}
    (h : Marked mark read) (hrest : rest.head? ≠ some mark) (hcs : ¬ [mark, mark] <+: cs) :
    read (mark :: (cs ++ mark :: mark :: mark :: rest)) =
      andThen mark (read (cs ++ mark :: mark :: mark :: rest)) := by
  rcases cs with _ | ⟨c, _ | ⟨d, cs⟩⟩
  · rw [List.nil_append, h.close, h.close, lateMarks_one hrest, lateMarks_of_head? hrest]
    rfl
  · by_cases hc : c = mark
    · rw [hc, List.cons_append, List.nil_append, h.close, h.close, lateMarks_two, lateMarks_one hrest]
      rfl
    · exact h.step fun hstart ↦ hc (List.cons_prefix_cons.mp hstart).1.symm
  · refine h.step fun hstart ↦ hcs ?_
    simpa [List.cons_prefix_cons] using hstart

theorem marked_longBasicBody : Marked '"' (longBasicBody false) where
  close rest := rfl
  step {cs} h := by
    rw [longBasicBody]
    · rfl
    · exact fun rest _ hcs ↦ h ⟨rest, hcs.symm⟩
    all_goals simp

theorem marked_longLiteralBody : Marked '\'' longLiteralBody where
  close rest := rfl
  step {cs} h := by
    rw [longLiteralBody]
    · rfl
    · exact fun rest _ hcs ↦ h ⟨rest, hcs.symm⟩
    · nofun

theorem exists_escape_eq_cons (long : Bool) (hc : c ≠ '"') :
    ∃ d ds, escape long c = d :: ds ∧ d ≠ '"' ∧ (c = '\n' ∨ isPlain d = true) := by
  rcases escape_cases long c with ⟨e, -, h⟩ | ⟨a, b, -, h⟩ | ⟨hplain, h⟩
  · exact ⟨_, _, h, by decide, .inr rfl⟩
  · exact ⟨_, _, h, by decide, .inr rfl⟩
  · exact ⟨_, _, h, hc, hplain.imp And.left And.left⟩

theorem not_replicate_prefix_escaped (long : Bool) (quotes : ℕ) (cs : List Char) :
    ¬ List.replicate (quotes + 1) '"' <+: escaped long quotes cs := by
  induction cs generalizing quotes with
  | nil => simp [escaped, List.replicate_succ]
  | cons c cs ih =>
    rw [List.replicate_succ]
    by_cases hc : c = '"'
    · subst hc
      cases quotes with
      | zero => simp [escaped]
      | succ quotes => exact fun h ↦ ih quotes (List.cons_prefix_cons.mp h).2
    · obtain ⟨d, ds, hescape, hd, -⟩ := exists_escape_eq_cons long hc
      rw [escaped_cons_of_ne long quotes hc, hescape]
      exact fun h ↦ hd (List.cons_prefix_cons.mp h).1.symm

theorem longBasicBody_escaped (hrest : rest.head? ≠ some '"') {quotes : ℕ} (h : quotes ≤ 2)
    (cs : List Char) :
    longBasicBody false (escaped true quotes cs ++ '"' :: '"' :: '"' :: rest) = some (cs, rest) := by
  induction cs generalizing quotes with
  | nil => exact congrArg some (lateMarks_of_head? hrest)
  | cons c cs ih =>
    by_cases hc : c = '"'
    · subst hc
      cases quotes with
      | zero => exact congrArg (andThen '"') (ih (Nat.le_refl 2))
      | succ quotes =>
        have htwo : List.replicate (quotes + 1) '"' <+: List.replicate 2 '"' :=
          List.prefix_replicate_iff.mpr (by simpa using h)
        have hmarks : ¬ ['"', '"'] <+: escaped true quotes cs := fun hstart ↦
          not_replicate_prefix_escaped true quotes cs (htwo.trans hstart)
        rw [escaped, List.cons_append, marked_longBasicBody.read_cons hrest hmarks, ih (by omega),
          andThen_some]
    · rw [escaped_cons_of_ne true quotes hc, List.append_assoc, longBasicBody_escape hc]
      exact congrArg (andThen c) (ih (Nat.le_refl 2))

theorem le_longestRun (c : Char) (n : ℕ) (cs : List Char) : n ≤ longestRun c n cs := by
  induction cs generalizing n with
  | nil => exact Nat.le_refl n
  | cons d cs ih =>
    rw [longestRun]
    split
    · exact Nat.le_trans (Nat.le_succ n) (ih (n + 1))
    · exact Nat.le_max_left n _

theorem longestRun_cons_self (c : Char) (n : ℕ) (cs : List Char) :
    longestRun c n (c :: cs) = longestRun c (n + 1) cs := if_pos rfl

theorem longestRun_cons_of_ne {d : Char} (h : d ≠ c) (n : ℕ) (cs : List Char) :
    longestRun c n (d :: cs) = max n (longestRun c 0 cs) := if_neg h

theorem longLiteralBody_append (hrest : rest.head? ≠ some '\'') {n : ℕ}
    (hrun : longestRun '\'' n cs ≤ 2) (h : ∀ c ∈ cs, c = '\n' ∨ isPlain c = true) :
    longLiteralBody (cs ++ '\'' :: '\'' :: '\'' :: rest) = some (cs, rest) := by
  induction cs generalizing n with
  | nil => exact congrArg some (lateMarks_of_head? hrest)
  | cons c cs ih =>
    obtain ⟨hplain, hcs⟩ := List.forall_mem_cons.mp h
    by_cases hc : c = '\''
    · subst hc
      rw [longestRun_cons_self] at hrun
      have hmarks : ¬ ['\'', '\''] <+: cs := by
        rintro ⟨cs, rfl⟩
        have hle := le_longestRun '\'' (n + 1 + 1 + 1) cs
        simp only [List.cons_append, List.nil_append, longestRun_cons_self] at hrun
        omega
      rw [List.cons_append, marked_longLiteralBody.read_cons hrest hmarks, ih hrun hcs, andThen_some]
    · have hrun : longestRun '\'' 0 cs ≤ 2 := by
        rw [longestRun_cons_of_ne hc] at hrun
        exact Nat.le_trans (Nat.le_max_right _ _) hrun
      have hr : c ≠ '\r' := by
        rintro rfl
        exact absurd hplain (by decide)
      simp [longLiteralBody, hc, hr, hplain, ih hrun hcs, andThen_some]

theorem notMem_of_longestRun_eq_zero (h : longestRun c 0 cs = 0) : c ∉ cs := by
  induction cs with
  | nil => exact List.not_mem_nil
  | cons d cs ih =>
    by_cases hd : d = c
    · rw [hd, longestRun_cons_self] at h
      exact absurd h (Nat.ne_of_gt (le_longestRun c 1 cs))
    · rw [longestRun_cons_of_ne hd] at h
      simpa [Ne.symm hd] using ih (by omega)

theorem eq_or_isPlain_of_not_needsEscape (h : needsEscape c = false) :
    c = '\n' ∨ isPlain c = true := by
  simp only [needsEscape, Bool.or_eq_false_iff, Bool.and_eq_false_iff, decide_eq_false_iff_not,
    Char.not_lt, bne_eq_false_iff_eq, beq_eq_false_iff_ne] at h
  rcases h with ⟨(hle | rfl) | rfl, hne⟩
  · exact .inr (by simp [isPlain, hle, hne])
  · exact .inr rfl
  · exact .inl rfl

/-- A text that is written without escapes stands for itself between its marks. -/
theorem formOf_cases (cs : List Char) :
    formOf cs = .basic ∨ formOf cs = .longBasic ∨
    (formOf cs = .literal ∧ ∀ c ∈ cs, isPlain c = true ∧ c ≠ '\'') ∨
    (formOf cs = .longLiteral ∧ longestRun '\'' 0 cs ≤ 2 ∧ ∀ c ∈ cs, c = '\n' ∨ isPlain c = true) := by
  have hplain (h : ¬ cs.any needsEscape = true) : ∀ c ∈ cs, c = '\n' ∨ isPlain c = true := by
    intro c hc
    refine eq_or_isPlain_of_not_needsEscape (Bool.eq_false_iff.mpr fun hescape ↦ h ?_)
    exact List.any_eq_true.mpr ⟨c, hc, hescape⟩
  unfold formOf
  dsimp only
  split_ifs with hescape hbroken hbasic hliteral hlong hlongLiteral hbroken
  · exact .inr (.inl rfl)
  · exact .inl rfl
  · exact .inl rfl
  · obtain ⟨hrun, hbreak⟩ : longestRun '\'' 0 cs = 0 ∧ '\n' ∉ cs := by simpa using hliteral
    refine .inr (.inr (.inl ⟨rfl, fun c hc ↦ ⟨?_, ?_⟩⟩))
    · refine (hplain hescape c hc).resolve_left ?_
      rintro rfl
      exact hbreak hc
    · rintro rfl
      exact notMem_of_longestRun_eq_zero hrun hc
  · exact .inr (.inl rfl)
  · exact .inr (.inr (.inr ⟨rfl, hlongLiteral, hplain hescape⟩))
  · exact .inr (.inl rfl)
  · exact .inl rfl

theorem isPlain_head_escaped (hbreak : '\n' ∉ cs) (rest : List Char) :
    ∀ d ∈ (escaped true 2 cs ++ '"' :: rest).head?, isPlain d = true := by
  cases cs with
  | nil => simp [escaped, isPlain]
  | cons c cs =>
    by_cases hc : c = '"'
    · subst hc
      simp [escaped, isPlain]
    · obtain ⟨d, ds, hescape, -, hplain⟩ := exists_escape_eq_cons true hc
      rw [escaped_cons_of_ne true 2 hc, hescape]
      simpa using hplain.resolve_left fun hn ↦ hbreak (hn ▸ List.mem_cons_self)

/-- The line break that is put before a text of several lines is dropped, and no other. -/
theorem dropLineBreak_opening {w : List Char}
    (h : '\n' ∉ cs → ∀ d ∈ w.head?, isPlain d = true) : dropLineBreak (opening cs ++ w) = w := by
  unfold opening
  split
  · rfl
  next hbreak =>
    have hplain := h (by simpa using hbreak)
    rw [List.nil_append]
    unfold dropLineBreak
    split
    · exact absurd (hplain _ rfl) (by decide)
    · exact absurd (hplain _ rfl) (by decide)
    · rfl

theorem text_basic (h : ¬ ['"', '"'] <+: cs) : text ('"' :: cs) = basicBody cs := by
  rw [text]
  exact fun rest hcs ↦ h ⟨rest, hcs.symm⟩

theorem text_literal (h : ¬ ['\'', '\''] <+: cs) : text ('\'' :: cs) = literalBody cs := by
  rw [text]
  exact fun rest hcs ↦ h ⟨rest, hcs.symm⟩

theorem not_two_prefix {mark : Char} (hcs : ¬ [mark] <+: cs) (hrest : rest.head? ≠ some mark) :
    ¬ [mark, mark] <+: cs ++ mark :: rest := by
  cases cs with
  | nil =>
    rintro ⟨tail, htail⟩
    exact hrest ((List.cons.inj htail).2 ▸ rfl)
  | cons c cs =>
    intro h
    obtain ⟨rfl, -⟩ := List.cons_prefix_cons.mp h
    exact hcs (List.prefix_append [mark] cs)

/-- What is written of a text is read as it. -/
theorem text_written (cs : List Char) (hquote : rest.head? ≠ some '"')
    (hapostrophe : rest.head? ≠ some '\'') : text (written cs ++ rest) = some (cs, rest) := by
  rcases formOf_cases cs with h | h | ⟨h, hcs⟩ | ⟨h, hrun, hcs⟩
  all_goals
    rw [written, h]
    simp only [List.cons_append, List.append_assoc, List.nil_append, List.replicate_succ,
      List.replicate_zero]
  · rw [text_basic, basicBody_escaped]
    exact not_two_prefix (not_replicate_prefix_escaped false 0 cs) hquote
  · rw [text, dropLineBreak_opening fun hbreak ↦ isPlain_head_escaped hbreak _,
      longBasicBody_escaped hquote (Nat.le_refl 2)]
  · rw [text_literal, literalBody_append hcs]
    refine not_two_prefix (fun hstart ↦ ?_) hapostrophe
    exact (hcs '\'' (hstart.subset (List.mem_singleton_self _))).2 rfl
  · rw [text, dropLineBreak_opening, longLiteralBody_append hapostrophe hrun hcs]
    intro hbreak
    cases cs with
    | nil => simp [isPlain]
    | cons c cs =>
      have hc := (hcs c List.mem_cons_self).resolve_left fun hc ↦ hbreak (hc ▸ List.mem_cons_self)
      simpa using hc

end MessagingIdentity.Toml
