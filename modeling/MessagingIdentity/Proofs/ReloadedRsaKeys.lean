import MessagingIdentity.Proofs.DerivedPublicKey

namespace MessagingIdentity

namespace RsaKey

/-- The text gives the bytes in one of the forms that the data of RSA keys has: base64, alone or behind
something that ends in a comma and has no start of an armour, or an armour, also one of an unusual
form that is read nevertheless. -/
inductive Spells : String → Bytes → Prop
  | bare (b : Bytes) : Spells (Base64.encode b) b
  | behind {before : String} (b : Bytes) : before.toList.getLast? = some ',' →
      ¬ "-----BEGIN".toList <:+: before.toList → Spells (before ++ Base64.encode b) b
  | armoured {text label : String} {b : Bytes} : Pem.Armours text label b → Spells text b
  | parsed {text label : String} {b : Bytes} : Pem.parse text = some (label, b) → Spells text b

variable {a : Attributes} {b : Bytes} {text : String}

theorem not_occurs_behind {before : String} (hcomma : before.toList.getLast? = some ',')
    (h : ¬ "-----BEGIN".toList <:+: before.toList) (b : Bytes) :
    ¬ Pem.occurs "-----BEGIN".toList (before ++ Base64.encode b).toList = true := by
  have hdash : ¬ "-----BEGIN".toList <:+: (Base64.encode b).toList := fun hpart ↦
    Base64.forall_mem_encode (P := (· ≠ '-')) (by decide) (by decide) b '-'
      (hpart.subset List.mem_cons_self) rfl
  obtain ⟨start, hstart⟩ : ∃ start, before.toList = start ++ [','] :=
    List.getLast?_eq_some_iff.mp hcomma
  rw [Pem.occurs_iff, String.toList_append, hstart, List.append_assoc]
  intro hpart
  rcases Pem.infix_of_append_cons (by decide) hpart with hbefore | hsymbols
  · exact h (hstart ▸ hbefore.trans (List.prefix_append _ _).isInfix)
  · exact hdash hsymbols

theorem Spells.bytes_eq (h : Spells a.data b) : bytes a = .ok b := by
  generalize hdata : a.data = text at h
  cases h with
  | bare b => exact bytes_of_encode hdata
  | behind b hcomma hmarker =>
    rw [bytes, hdata, if_neg (not_occurs_behind hcomma hmarker b)]
    exact Transport.decode_eq String.toList_append (by simp [hcomma])
  | armoured harmours => exact bytes_of_parse (hdata ▸ Pem.parse_of_armours harmours)
  | parsed hparse => exact bytes_of_parse (hdata ▸ hparse)

theorem Spells.ne_empty (h : Spells text b) (hb : b ≠ []) : text ≠ "" := by
  have hparsed {label : String} (h : Pem.parse text = some (label, b)) : text ≠ "" := by
    rintro rfl
    exact absurd (Pem.occurs_of_parse h) (by decide)
  cases h with
  | bare b => exact Base64.encode_ne_empty hb
  | behind b _ _ =>
    intro hempty
    exact Base64.encode_ne_empty hb (String.append_eq_empty_iff.mp hempty).2
  | armoured harmours => exact hparsed (Pem.parse_of_armours harmours)
  | parsed hparse => exact hparsed hparse

/-- The members are those of an RSA key whose data gives the bytes. -/
structure Holds (m : Json.Members) (b : Bytes) : Prop where
  tag : ∃ tag ∈ ["RSA", "SHA256withRSA", "RSA/ECB/PKCS1Padding"], m.text? Field.algorithm = some tag
  data : ∃ text, m.text? Field.data = some text ∧ Spells text b

theorem holds_membersOf (h : Spells text b) : Holds (membersOf text) b :=
  ⟨⟨tag, .head _, rfl⟩, text, rfl, h⟩

end RsaKey

namespace RsaPrivateKey

variable {k l : RsaPrivateKey} {n : Rsa.PrivateKey} {der : Bytes} {m : Json.Members}

theorem data_eq_ok_iff : k.data = .ok der ↔ ∃ n, k.numbers = .ok n ∧ n.plainDer? = some der := by
  refine Except.bind_eq_ok_iff.trans (exists_congr fun n ↦ and_congr_right fun _ ↦ ?_)
  cases n.plainDer? with
  | none => exact iff_of_false nofun nofun
  | some b =>
    exact ⟨fun h ↦ congrArg some (Except.ok.inj h), fun h ↦ congrArg Except.ok (Option.some.inj h)⟩

theorem congr_of_numbers (h : k.numbers = l.numbers) :
    k.data = l.data ∧ k.size = l.size ∧ k.publicKey = l.publicKey := by
  rw [data, data, size, size, publicKey, publicKey, h]
  exact ⟨rfl, rfl, rfl⟩

theorem parse_of_holds (h : RsaKey.Holds m der) (hne : der ≠ []) :
    ∃ l, PrivateKey.parse m = .ok (.rsa l) ∧ RsaKey.bytes l.attributes = .ok der := by
  obtain ⟨⟨tag, htag, halgorithm⟩, text, hdata, hspells⟩ := h
  let a : Attributes := ⟨m, tag, text, halgorithm, hdata, hspells.ne_empty hne⟩
  have hfamily : Registry.family Registry.pairDefaults tag = .ok .rsa := by
    simp only [List.mem_cons, List.not_mem_nil, or_false] at htag
    rcases htag with rfl | rfl | rfl <;> rfl
  exact ⟨⟨a⟩, PrivateKey.parse_of_rsa_family (a := a) hfamily, RsaKey.Spells.bytes_eq (a := a) hspells⟩

/-- What a key has as its canonical bytes loads as a key with the same canonical bytes, the same size
and the same public key. -/
theorem reloads (hk : k.data = .ok der) (h : RsaKey.Holds m der) :
    ∃ l size p, PrivateKey.parse m = .ok (.rsa l) ∧ l.data = .ok der ∧
      k.size = .ok size ∧ l.size = .ok size ∧
      k.publicKey = .ok p ∧ l.publicKey = .ok p := by
  obtain ⟨n, hn, hder⟩ := data_eq_ok_iff.mp hk
  have hread := Rsa.PrivateKey.ofDer?_of_plainDer? hder
  have hne : der ≠ [] := by
    rintro rfl
    cases hread
  obtain ⟨l, hl, hbytes⟩ := parse_of_holds h hne
  have hsame : l.numbers = k.numbers := (numbers_of_bytes hbytes hread).trans hn.symm
  obtain ⟨hdata, hsize, hpublic⟩ := congr_of_numbers hsame
  obtain ⟨p, hp⟩ := exists_publicKey hn
  have hwidth : k.size = .ok n.size := by
    rw [size, hn]
    rfl
  exact ⟨l, n.size, p, hl, hdata.trans hk, hwidth, hsize.trans hwidth, hp, hpublic.trans hp⟩

theorem reloads_small : ∃ der k l l' p, smallNumbers.plainDer? = some der ∧
    PrivateKey.parse (RsaKey.membersOf (Base64.encode der)) = .ok (.rsa k) ∧
      PrivateKey.parse (RsaKey.membersOf ("data:application/x-der;base64," ++ Base64.encode der)) =
        .ok (.rsa l) ∧
      PrivateKey.parse (RsaKey.membersOf (Pem.encode "RSA PRIVATE KEY" der)) = .ok (.rsa l') ∧
      k.data = .ok der ∧ l.data = .ok der ∧ l'.data = .ok der ∧
      k.publicKey = .ok p ∧ l.publicKey = .ok p ∧ l'.publicKey = .ok p := by
  obtain ⟨der, hder, hread⟩ :=
    Rsa.PrivateKey.ofDer?_plainDer (k := smallNumbers) (w := 127) (by decide) (by decide +kernel)
  obtain ⟨k, hk, hn⟩ := PrivateKey.parse_of_der hread
  have hdata : k.data = .ok der := data_eq_ok_iff.mpr ⟨_, hn, hder⟩
  have hbehind : RsaKey.Spells ("data:application/x-der;base64," ++ Base64.encode der) der :=
    .behind der (by decide) (by decide)
  have harmoured : RsaKey.Spells (Pem.encode "RSA PRIVATE KEY" der) der :=
    .armoured (Pem.armours_encode (by decide) (by decide) der)
  obtain ⟨l, -, p, hl, hldata, -, -, hp, hlpublic⟩ := reloads hdata (RsaKey.holds_membersOf hbehind)
  obtain ⟨l', -, p', hl', hldata', -, -, hp', hlpublic'⟩ :=
    reloads hdata (RsaKey.holds_membersOf harmoured)
  obtain rfl := Except.ok.inj (hp.symm.trans hp')
  exact ⟨der, k, l, l', p, hder, hk, hl, hl', hdata, hldata, hldata', hp, hlpublic, hlpublic'⟩

end RsaPrivateKey

end MessagingIdentity
