import MessagingIdentity.Asn1.Pem
import MessagingIdentity.Proofs.Pieces
import MessagingIdentity.Proofs.TransportTexts
import Mathlib.Data.List.Chain

namespace MessagingIdentity.Pem

variable {cs marker before after : List Char} {c : Char}

theorem splitAtFirst_append (c : Char) (marker after : List Char) :
    splitAtFirst (c :: marker) (c :: marker ++ after) = some ([], after) := by
  have hprefix : (c :: marker).isPrefixOf (c :: marker ++ after) = true :=
    List.isPrefixOf_iff_prefix.mpr (List.prefix_append _ _)
  rw [List.cons_append, splitAtFirst, ← List.cons_append, if_pos hprefix, List.drop_left]

/-- The first occurrence is the one behind `before`, if neither this nor what it makes with the start of
the marker has one. -/
theorem splitAtFirst_of_not_infix (h : ¬ marker <:+: before ++ marker.dropLast) :
    splitAtFirst marker (before ++ (marker ++ after)) = some (before, after) := by
  obtain ⟨c, marker', rfl⟩ : ∃ c marker', marker = c :: marker' :=
    List.exists_cons_of_ne_nil fun hnil ↦ h (hnil ▸ List.nil_infix)
  induction before with
  | nil => exact splitAtFirst_append c marker' after
  | cons d before ih =>
    have hne : ¬ (c :: marker').isPrefixOf (d :: (before ++ (c :: marker' ++ after))) = true := by
      rw [List.isPrefixOf_iff_prefix]
      intro hhead
      have hstart : d :: before ++ (c :: marker').dropLast <+:
          d :: (before ++ (c :: marker' ++ after)) := by
        rw [← List.cons_append, List.prefix_append_right_inj]
        exact (List.dropLast_prefix _).trans (List.prefix_append _ _)
      have hlength : (c :: marker').length ≤ (d :: before ++ (c :: marker').dropLast).length := by
        simp
      exact h (List.prefix_of_prefix_length_le hhead hstart hlength).isInfix
    rw [List.cons_append, splitAtFirst, if_neg hne, ih fun hpart ↦ h (List.infix_cons hpart)]
    rfl

theorem splitAtFirst_of_notMem (h : c ∉ before) :
    splitAtFirst (c :: marker) (before ++ (c :: marker ++ after)) = some (before, after) := by
  induction before with
  | nil => exact splitAtFirst_append c marker after
  | cons d before ih =>
    have hne : ¬ (c :: marker).isPrefixOf (d :: (before ++ (c :: marker ++ after))) = true := by
      rw [List.isPrefixOf_iff_prefix, List.cons_prefix_cons]
      exact fun hd ↦ h (hd.1 ▸ List.mem_cons_self)
    rw [List.cons_append, splitAtFirst, if_neg hne, ih fun hc ↦ h (List.mem_cons_of_mem d hc)]
    rfl

theorem occurs_iff : occurs marker cs = true ↔ marker <:+: cs := by
  rw [occurs]
  induction cs with
  | nil =>
    rw [splitAtFirst, List.infix_nil, ← List.isEmpty_iff]
    split
    next h => exact iff_of_true rfl h
    next h => exact iff_of_false Bool.false_ne_true h
  | cons c cs ih =>
    rw [splitAtFirst, List.infix_cons_iff, ← List.isPrefixOf_iff_prefix]
    split
    next h => exact iff_of_true rfl (.inl h)
    next h => rw [Option.isSome_map, ih, or_iff_right h]

theorem splitAtFirst_eq_none (h : ¬ marker <:+: cs) : splitAtFirst marker cs = none :=
  Option.not_isSome_iff_eq_none.mp fun hsome ↦ h (occurs_iff.mp hsome)

theorem prefix_of_append_cons (h : c ∉ marker) (hhead : marker <+: before ++ c :: after) :
    marker <+: before := by
  rcases Nat.lt_or_ge before.length marker.length with hlength | hlength
  · have hstart : before ++ [c] <+: before ++ c :: after := by
      rw [List.prefix_append_right_inj]
      exact ⟨after, rfl⟩
    have hmarker : before ++ [c] <+: marker :=
      List.prefix_of_prefix_length_le hstart hhead (List.length_append.trans_le hlength)
    exact absurd (hmarker.subset (List.mem_append_right _ List.mem_cons_self)) h
  · exact List.prefix_of_prefix_length_le hhead (List.prefix_append _ _) hlength

/-- A marker does not go across a character that it does not have. -/
theorem infix_of_append_cons (h : c ∉ marker) (hpart : marker <:+: before ++ c :: after) :
    marker <:+: before ∨ marker <:+: after := by
  induction before with
  | nil =>
    rcases List.infix_cons_iff.mp hpart with hhead | hafter
    · have hnil : marker <+: [] := prefix_of_append_cons h hhead
      exact .inl hnil.isInfix
    · exact .inr hafter
  | cons d before ih =>
    rcases List.infix_cons_iff.mp hpart with hhead | hrest
    · have hbefore : marker <+: d :: before := prefix_of_append_cons h hhead
      exact .inl hbefore.isInfix
    · exact (ih hrest).imp_left List.infix_cons

theorem not_occurs_of_notMem (h : c ∉ cs) : occurs (c :: marker) cs = false :=
  Bool.eq_false_iff.mpr fun hoccurs ↦ h ((occurs_iff.mp hoccurs).subset List.mem_cons_self)

def IsBreak (ending : List Char) : Prop := ending = ['\n'] ∨ ending = ['\r', '\n']

/-- The text is `cs`, broken into lines of any lengths, each of which has an end. -/
inductive Broken : List Char → List Char → Prop
  | nil : Broken [] []
  | cons {l ending text cs : List Char} : l ≠ [] → (∀ c ∈ l, c ≠ '\n' ∧ c ≠ '\r') →
      IsBreak ending → Broken text cs → Broken (l ++ (ending ++ text)) (l ++ cs)

namespace Broken

variable {text : List Char}

theorem flatMap {parts : List (List Char)} {ending : List Char} (hending : IsBreak ending)
    (hne : ∀ l ∈ parts, l ≠ []) (h : ∀ l ∈ parts, ∀ c ∈ l, c ≠ '\n' ∧ c ≠ '\r') :
    Broken (parts.flatMap (· ++ ending)) parts.flatten := by
  induction parts with
  | nil => exact .nil
  | cons l parts ih =>
    rw [List.flatMap_cons, List.flatten_cons, List.append_assoc]
    exact .cons (hne l List.mem_cons_self) (h l List.mem_cons_self) hending <|
      ih (fun l hl ↦ hne l (List.mem_cons_of_mem _ hl)) fun l hl ↦ h l (List.mem_cons_of_mem _ hl)

theorem head?_eq (h : Broken text cs) : text.head? = cs.head? := by
  cases h with
  | nil => rfl
  | cons hne _ _ _ =>
    rw [List.head?_append_of_ne_nil _ hne, List.head?_append_of_ne_nil _ hne]

theorem ne_of_mem_head? (h : Broken text cs) : ∀ c ∈ text.head?, c ≠ '\n' ∧ c ≠ '\r' := by
  cases h with
  | nil => exact nofun
  | cons hne hl _ _ =>
    rw [List.head?_append_of_ne_nil _ hne]
    exact fun c hc ↦ hl c (List.mem_of_mem_head? hc)

theorem mem_of_mem (h : Broken text cs) (hc : c ∈ text) : c ∈ cs ∨ c = '\n' ∨ c = '\r' := by
  induction h with
  | nil => cases hc
  | cons _ _ hending _ ih =>
    rcases List.mem_append.mp hc with hc | hc
    · exact .inl (List.mem_append_left _ hc)
    rcases List.mem_append.mp hc with hc | hc
    · rcases hending with rfl | rfl <;> simp at hc
      exacts [.inr (.inl hc), .inr hc.symm]
    · exact (ih hc).imp_left (List.mem_append_right _)

/-- What may follow a character where no line is empty: no line break follows one. -/
def Follows (a b : Char) : Prop := a = '\n' → b ≠ '\n' ∧ b ≠ '\r'

theorem isChain_line {l ending : List Char} (h : '\n' ∉ l) (hending : IsBreak ending) :
    (l ++ ending).IsChain Follows := by
  induction l with
  | nil => rcases hending with rfl | rfl <;> simp [Follows]
  | cons c l ih =>
    have hc : c ≠ '\n' := fun hc ↦ h (hc ▸ List.mem_cons_self)
    rw [List.cons_append, List.isChain_cons]
    exact ⟨fun _ _ hnewline ↦ absurd hnewline hc, ih fun hcs ↦ h (List.mem_cons_of_mem c hcs)⟩

theorem isChain (h : Broken text cs) : text.IsChain Follows := by
  induction h with
  | nil => exact List.isChain_nil
  | cons _ hl hending htext ih =>
    rw [← List.append_assoc, List.isChain_append]
    refine ⟨isChain_line (fun hmem ↦ (hl _ hmem).1 rfl) hending, ih, ?_⟩
    exact fun _ _ c hc _ ↦ htext.ne_of_mem_head? c hc

/-- Without an empty line there are no headers. -/
theorem splitHeaders_eq (h : Broken text cs) : splitHeaders text = ([], text) := by
  have hpart {part : List Char} (hpart : part <:+: text) : part.IsChain Follows :=
    List.IsChain.infix h.isChain hpart
  have hfeeds : splitAtFirst ['\n', '\n'] text = none :=
    splitAtFirst_eq_none fun hfound ↦ absurd (hpart hfound) (by simp [Follows])
  have hreturns : splitAtFirst ['\r', '\n', '\r', '\n'] text = none :=
    splitAtFirst_eq_none fun hfound ↦ absurd (hpart hfound) (by simp [Follows])
  rw [splitHeaders, hfeeds, hreturns]
  rfl

end Broken

theorem lines_append {l text : List Char} (h : '\n' ∉ l) :
    lines (l ++ '\n' :: text) = dropReturn l :: lines text := by
  obtain ⟨part, parts, hparts⟩ : ∃ part parts, text.splitOn '\n' = part :: parts :=
    List.exists_cons_of_ne_nil (List.splitOn_ne_nil _ _)
  have hlast : (l :: part :: parts).getLast? = (part :: parts).getLast? := by
    rw [List.getLast?_cons_cons]
  unfold lines
  rw [List.splitOn_append_cons_self_of_not_mem h, hparts]
  simp only [hlast]
  cases (part :: parts).getLast? with
  | none => rfl
  | some last => cases last <;> rfl

theorem dropReturn_append {l ending : List Char} (h : '\r' ∉ l) (hending : IsBreak ending) :
    ∃ l', ending = l' ++ ['\n'] ∧ '\n' ∉ l' ∧ dropReturn (l ++ l') = l := by
  rcases hending with rfl | rfl
  · refine ⟨[], rfl, List.not_mem_nil, ?_⟩
    rw [List.append_nil, dropReturn]
    split
    next hlast => exact absurd (List.mem_of_getLast? hlast) h
    · rfl
  · exact ⟨['\r'], rfl, by decide, by simp [dropReturn]⟩

theorem Broken.data_eq {text : List Char} (h : Broken text cs)
    (hcs : ∀ c ∈ cs, Text.isBlank c = false) :
    ((lines text).map Text.trimEndChars).flatten = cs := by
  induction h with
  | nil => rfl
  | @cons l ending text cs _ hl hending _ ih =>
    obtain ⟨l', rfl, hl', hdrop⟩ := dropReturn_append (fun hmem ↦ (hl _ hmem).2 rfl) hending
    have hnewline : '\n' ∉ l ++ l' := by
      rw [List.mem_append, not_or]
      exact ⟨fun hmem ↦ (hl _ hmem).1 rfl, hl'⟩
    have hline : l ++ (l' ++ ['\n'] ++ text) = l ++ l' ++ '\n' :: text := by simp
    have htrim := Text.trimEndChars_of_forall fun c hc ↦ hcs c (List.mem_append_left _ hc)
    rw [hline, lines_append hnewline, hdrop, List.map_cons, List.flatten_cons, htrim,
      ih fun c hc ↦ hcs c (List.mem_append_right _ hc)]

/-- The text has the content in an armour: a begin line, the base64 of the content broken into lines,
and an end line. What stands before has no dashes, and the label ends where dashes follow. -/
structure Armours (text label : String) (content : Bytes) : Prop where
  label_ne : label.toList ≠ []
  label_ends : ¬ dashes <:+: label.toList ++ dashes.dropLast
  toList_eq : ∃ before ending body after, '-' ∉ before ∧ IsBreak ending ∧
    Broken body (Base64.encode content).toList ∧
    text.toList = before ++ (beginMarker ++ (label.toList ++ (dashes ++ (ending ++ (body ++
      (endMarker ++ (label.toList ++ (dashes ++ after))))))))

theorem dropWhile_break {ending body rest : List Char} (hending : IsBreak ending)
    (h : ∀ c ∈ (body ++ rest).head?, isBlank c = false) :
    (ending ++ (body ++ rest)).dropWhile isBlank = body ++ rest := by
  have hblank : ∀ c ∈ ending, isBlank c = true := by
    rcases hending with rfl | rfl <;> simp [isBlank]
  rw [List.dropWhile_append_of_pos hblank]
  cases hcs : body ++ rest with
  | nil => rfl
  | cons c cs =>
    rw [List.dropWhile_cons_of_neg]
    rw [h c (by rw [hcs]; rfl)]
    exact Bool.false_ne_true

theorem parse_of_armours {text label : String} {content : Bytes} (h : Armours text label content) :
    parse text = some (label, content) := by
  obtain ⟨before, ending, body, after, hbefore, hending, hbody, htext⟩ := h.toList_eq
  have hsymbols {P : Char → Prop} (hpad : P '=')
      (hsymbol : ∀ n < 64, P (Char.ofNat (Base64.symbol n).toNat)) :
      ∀ c ∈ (Base64.encode content).toList, P c := Base64.forall_mem_encode hpad hsymbol content
  have hdash : '-' ∉ body := by
    intro hmem
    rcases hbody.mem_of_mem hmem with hmem | hmem
    · exact hsymbols (P := (· ≠ '-')) (by decide) (by decide) _ hmem rfl
    · exact absurd hmem (by decide)
  have hhead (rest : List Char) : ∀ c ∈ (body ++ (endMarker ++ rest)).head?, isBlank c = false := by
    cases body with
    | nil =>
      rintro c ⟨⟩
      decide
    | cons d body =>
      rintro c hc
      have hc : c ∈ (Base64.encode content).toList.head? := hbody.head?_eq ▸ hc
      exact hsymbols (P := (isBlank · = false)) (by decide) (by decide) c (List.mem_of_mem_head? hc)
  have hbegin (rest : List Char) :
      splitAtFirst beginMarker (before ++ (beginMarker ++ rest)) = some (before, rest) :=
    splitAtFirst_of_notMem hbefore
  have hdashes (rest : List Char) :
      splitAtFirst dashes (label.toList ++ (dashes ++ rest)) = some (label.toList, rest) :=
    splitAtFirst_of_not_infix h.label_ends
  have hend (rest : List Char) :
      splitAtFirst endMarker (body ++ (endMarker ++ rest)) = some (body, rest) :=
    splitAtFirst_of_notMem hdash
  have hnone : (lines []).all (':' ∈ ·) = true := by decide
  have hlabel : label.toList.isEmpty = false := by simpa using h.label_ne
  have hdata := hbody.data_eq (hsymbols (P := (Text.isBlank · = false)) (by decide) (by decide))
  rw [parse, htext]
  simp only [hbegin, hdashes, dropWhile_break hending (hhead _), hend, hbody.splitHeaders_eq,
    Option.bind_eq_bind, Option.bind_some]
  rw [if_neg (by simp [hlabel, hnone]), hdata, String.ofList_toList, Base64.decode_encode,
    String.ofList_toList]
  rfl

theorem occurs_of_infix_beginMarker (h : beginMarker <:+: cs) :
    occurs "-----BEGIN".toList cs = true := by
  have hmarker : "-----BEGIN".toList <+: beginMarker := ⟨[' '], rfl⟩
  exact occurs_iff.mpr (hmarker.isInfix.trans h)

theorem occurs_of_parse {s : String} {block : String × Bytes} (h : parse s = some block) :
    occurs "-----BEGIN".toList s.toList = true := by
  obtain ⟨split, hsplit, -⟩ := Option.bind_eq_some_iff.mp h
  exact occurs_of_infix_beginMarker (occurs_iff.mp (Option.isSome_iff_exists.mpr ⟨split, hsplit⟩))

theorem label_ends_of_notMem {label : List Char} (h : '-' ∉ label) :
    ¬ dashes <:+: label ++ dashes.dropLast := by
  intro hpart
  have hcount := hpart.sublist.count_le '-'
  rw [List.count_append, List.count_eq_zero_of_not_mem h] at hcount
  exact absurd hcount (by decide)

def symbolLines (content : Bytes) : List (List Char) :=
  pieces lineWidth (Base64.encode content).toList

theorem toList_encode (label : String) (content : Bytes) : (encode label content).toList =
    beginMarker ++ (label.toList ++ (dashes ++ (['\r', '\n'] ++
      ((symbolLines content).flatMap (· ++ ['\r', '\n']) ++
        (endMarker ++ (label.toList ++ (dashes ++ ['\r', '\n']))))))) := by
  simp [encode, symbolLines]

theorem broken_symbolLines (content : Bytes) :
    Broken ((symbolLines content).flatMap (· ++ ['\r', '\n'])) (Base64.encode content).toList := by
  have hflatten : (symbolLines content).flatten = (Base64.encode content).toList :=
    flatten_pieces (by decide) _
  rw [← hflatten]
  refine Broken.flatMap (.inr rfl) (ne_nil_of_mem_pieces _ _) fun l hl c hc ↦ ?_
  refine Base64.forall_mem_encode (P := fun c ↦ c ≠ '\n' ∧ c ≠ '\r') (by decide) (by decide)
    content c ?_
  rw [← hflatten]
  exact List.mem_flatten.mpr ⟨l, hl, hc⟩

theorem armours_encode {label : String} (hne : label.toList ≠ []) (hlabel : '-' ∉ label.toList)
    (content : Bytes) : Armours (encode label content) label content :=
  ⟨hne, label_ends_of_notMem hlabel, [], ['\r', '\n'], _, ['\r', '\n'], List.not_mem_nil, .inr rfl,
    broken_symbolLines content, toList_encode label content⟩

theorem parse_encode {label : String} (hne : label.toList ≠ []) (hlabel : '-' ∉ label.toList)
    (content : Bytes) : parse (encode label content) = some (label, content) :=
  parse_of_armours (armours_encode hne hlabel content)

theorem occurs_encode (label : String) (content : Bytes) :
    occurs "-----BEGIN".toList (encode label content).toList = true := by
  rw [toList_encode]
  exact occurs_of_infix_beginMarker (List.prefix_append _ _).isInfix

end MessagingIdentity.Pem
