import MessagingIdentity.Proofs.CurveSignatures
import MessagingIdentity.Proofs.IdentifierFailures
import MessagingIdentity.Proofs.MetaAddresses
import MessagingIdentity.Proofs.SharedCommands
import MessagingIdentity.Proofs.StoredStates

namespace MessagingIdentity

namespace Arguments

/-- How an operand is told: behind two hyphens if it starts with one. -/
def operandOf (s : String) : List String :=
  if s.toList.head? = some '-' then ["--", s] else [s]

theorem step_start_of_ne {l : Level} {s : String} (h : s.toList.head? ≠ some '-') :
    Reader.start.step l s = Reader.start.operand l s := by
  rw [Reader.step, Reader.start]
  simp only [Bool.false_eq_true, if_false]
  split <;> simp_all

theorem readLeaf_operandOf (make : Matches → Command) (s : String) :
    readLeaf (leaf [] [] 1) make (operandOf s) = .ok ⟨make ⟨[], [], [s]⟩, none⟩ := by
  unfold operandOf
  split
  · rfl
  next h =>
    have hrun : Reader.start.run (leaf [] [] 1) [s] = .ok (⟨⟨[], [], [s]⟩, none, false⟩, none) := by
      rw [Reader.run, step_start_of_ne h]
      rfl
    rw [readLeaf, hrun]
    rfl

theorem readGroup_cons {path args : List String} {name : String}
    {child : String → List String → Except Refusal Invocation} {i : Invocation}
    (hname : (children path).contains name = true) (hne : name ≠ helpName)
    (h : child name args = .ok i) : readGroup path child (name :: args) = .ok i := by
  have hrun : Reader.start.run (group (children path)) (name :: args) =
      .ok (.start, some (name, args)) := if_pos hname
  rw [readGroup, hrun, Except.bind_eq_ok_iff]
  refine ⟨_, rfl, ?_⟩
  dsimp only
  rw [if_neg hne, h]
  simp [Reader.settle, Reader.start, bind, Except.bind, Matches.value?, Matches.empty]

theorem parse_identifier_operandOf (s : String) :
    parse ("id" :: "parse" :: operandOf s) = .ok ⟨.parseIdentifier s, none⟩ :=
  readGroup_cons rfl (by decide) <|
    readGroup_cons rfl (by decide) <| readLeaf_operandOf (fun m ↦ .parseIdentifier (m.operand 0)) s

end Arguments

namespace Identifier

variable {name terminal part : Option String} {a : Address} {i : Identifier}

theorem present_present (part : Option String) : present (present part) = present part :=
  present_eq_self_iff.mpr fun hempty ↦ ne_empty_of_present hempty rfl

theorem plain_present_iff :
    (∀ s ∈ present part, Plain s.toList) ↔ ∀ s ∈ part, Plain s.toList := by
  have hnone := not_congr (@exists_present_iff part)
  simpa only [← not_plain_iff, not_exists, not_and, not_not] using hnone

theorem exists_compose_iff (name : Option String) (a : Address) (terminal : Option String) :
    (∃ i, compose name a terminal = .ok i) ↔
      (∀ s ∈ name, Plain s.toList) ∧ ∀ s ∈ terminal, Plain s.toList := by
  simp only [compose_eq_ok_iff, plain_present_iff, exists_and_left, exists_eq, and_true]

theorem written_of_compose (h : compose name a terminal = .ok i) :
    Written i.text (present name) a.text (present terminal) := by
  obtain ⟨hname, hterminal, rfl⟩ := compose_eq_ok_iff.mp h
  exact ⟨text_iff.mpr (toList_concat name a terminal),
    fun x hx ↦ ⟨ne_empty_of_present hx, hname x hx⟩,
    fun x hx ↦ ⟨ne_empty_of_present hx, hterminal x hx⟩⟩

end Identifier

namespace Execution

open Identifier (Plain present)

variable {directory : Except StateError String} {o : MetaOptions} {showMeta : Bool}
  {fs : FileSystem} {terminal : Option String} {s : String} {m : Meta} {network : EntityType}

theorem chosen_eq_ok_iff : chosen directory o fs = .ok (m, network) ↔ ∃ s k,
    loadAll directory fs = .ok (s, k) ∧ metaOf s k o = .ok m ∧ networkOf s o = network := by
  rw [chosen, Except.bind_eq_ok_iff]
  constructor
  · rintro ⟨⟨s, k⟩, hloaded, h⟩
    obtain ⟨m', hm, h⟩ := Except.bind_eq_ok_iff.mp h
    obtain ⟨rfl, hnetwork⟩ := Prod.mk.inj (Except.ok.inj h)
    exact ⟨s, k, hloaded, hm, hnetwork⟩
  · rintro ⟨s, k, hloaded, hm, rfl⟩
    exact ⟨(s, k), hloaded, Except.bind_eq_ok_iff.mpr ⟨m, hm, rfl⟩⟩

theorem address_eq_ok_iff : address directory o showMeta fs = .ok s ↔ ∃ m network a,
    chosen directory o fs = .ok (m, network) ∧ m.address network = .ok a ∧
      shown m showMeta a = s := by
  simp only [address_eq, Except.bind_eq_ok_iff, Except.map_eq_ok_iff, Except.mapError_eq_ok_iff,
    Prod.exists, exists_and_left]

theorem generateIdentifier_eq_ok_iff : generateIdentifier directory o terminal fs = .ok s ↔
    ∃ m network a i, chosen directory o fs = .ok (m, network) ∧ m.address network = .ok a ∧
      Identifier.compose m.seed a terminal = .ok i ∧ i.text = s := by
  rw [generateIdentifier_eq, Except.bind_eq_ok_iff]
  constructor
  · rintro ⟨⟨m, network⟩, hc, h⟩
    obtain ⟨i, hi, rfl⟩ := Except.map_eq_ok_iff.mp h
    obtain ⟨a, ha, hi⟩ := Meta.identifier_eq_ok_iff.mp (Except.mapError_eq_ok_iff.mp hi)
    exact ⟨m, network, a, i, hc, ha, hi, rfl⟩
  · rintro ⟨m, network, a, i, hc, ha, hi, rfl⟩
    have hi : m.identifier network terminal = .ok i := Meta.identifier_eq_ok_iff.mpr ⟨a, ha, hi⟩
    exact ⟨(m, network), hc, Except.map_eq_ok_iff.mpr ⟨i, Except.mapError_eq_ok_iff.mpr hi, rfl⟩⟩

theorem seed_of_chosen (h : chosen directory o fs = .ok (m, network)) : m.seed = present o.seed := by
  obtain ⟨s, k, -, hm, -⟩ := chosen_eq_ok_iff.mp h
  obtain ⟨type, -, hm⟩ := Except.bind_eq_ok_iff.mp hm
  exact (Meta.of_generate (Except.mapError_eq_ok_iff.mp hm)).2.1

/-- Both commands need the same address, and the one for identifiers needs plain parts as well. -/
theorem exists_identifier_iff : (∃ s, generateIdentifier directory o terminal fs = .ok s) ↔
    (∃ s, address directory o showMeta fs = .ok s) ∧
      (∀ x ∈ o.seed, Plain x.toList) ∧ ∀ x ∈ terminal, Plain x.toList := by
  have hcompose {m : Meta} {network : EntityType} (a : Address)
      (hc : chosen directory o fs = .ok (m, network)) :
      (∃ i, Identifier.compose m.seed a terminal = .ok i) ↔
        (∀ x ∈ o.seed, Plain x.toList) ∧ ∀ x ∈ terminal, Plain x.toList := by
    rw [Identifier.exists_compose_iff, seed_of_chosen hc, Identifier.plain_present_iff]
  constructor
  · rintro ⟨s, hs⟩
    obtain ⟨m, network, a, i, hc, ha, hi, -⟩ := generateIdentifier_eq_ok_iff.mp hs
    exact ⟨⟨_, address_eq_ok_iff.mpr ⟨m, network, a, hc, ha, rfl⟩⟩, (hcompose a hc).mp ⟨i, hi⟩⟩
  · rintro ⟨⟨s, hs⟩, hplain⟩
    obtain ⟨m, network, a, hc, ha, -⟩ := address_eq_ok_iff.mp hs
    obtain ⟨i, hi⟩ := (hcompose a hc).mpr hplain
    exact ⟨i.text, generateIdentifier_eq_ok_iff.mpr ⟨m, network, a, i, hc, ha, hi, rfl⟩⟩

end Execution

theorem Meta.generate_of_sign {type : MetaType} {key : PrivateKey} {k : PublicKey} {s : String}
    {b : Bytes} (hs : s ≠ "") (hkey : key.publicKey = .ok k)
    (hsign : key.sign (Bytes.ofText s) = .ok b) (hverify : k.verify (Bytes.ofText s) b = true)
    (htype : type = .eth → ∃ l, k = .curve l) :
    generate type key (some s) = .ok ⟨type, k, some s, some b⟩ := by
  have hpresent : (some s).filter (· ≠ "") = some s :=
    Option.filter_eq_some_iff.mpr ⟨rfl, by simpa using hs⟩
  have hvalid : validate ⟨type, k, some s, some b⟩ = .ok () :=
    validate_eq_ok_iff.mpr ⟨.inr ⟨s, b, rfl, rfl, hverify⟩, htype⟩
  refine Except.bind_eq_ok_iff.mpr ⟨k, Except.mapError_eq_ok_iff.mpr hkey, ?_⟩
  rw [hpresent]
  exact Except.bind_eq_ok_iff.mpr
    ⟨b, Except.mapError_eq_ok_iff.mpr hsign, validated_eq_ok_iff.mpr ⟨hvalid, rfl⟩⟩

theorem State.Holds.loadAll_eq {fs : FileSystem} {d : String} {key : PrivateKey}
    {c : Configuration} {secret known : Bytes} (h : Holds fs d key c)
    (hkey : key.Lasting secret known) : Execution.loadAll (.ok d) fs = .ok (⟨d, c⟩, key) := by
  refine Except.bind_eq_ok_iff.mpr ⟨d, rfl, ?_⟩
  refine Except.bind_eq_ok_iff.mpr ⟨⟨d, c⟩, Except.mapError_eq_ok_iff.mpr h.load_eq, ?_⟩
  exact Except.bind_eq_ok_iff.mpr
    ⟨key, Except.mapError_eq_ok_iff.mpr (h.loadKey_eq hkey), rfl⟩

namespace Execution

open Secp256k1

/-- A seed, which is a text that the key of the scalar 1 is known to sign. -/
def sentence : String := "dimid key probe: every key pair should agree on this sentence"

theorem generate_sentence {k : CurvePrivateKey} (hd : k.scalar = .ok 1) : ∃ l b,
    Meta.generate .mkm (.curve k) (some sentence) = .ok ⟨.mkm, l, some sentence, some b⟩ := by
  obtain ⟨g, hg, hr, hs⟩ := PrivateKey.signingOne.signs
  obtain ⟨p, hp⟩ := CurvePoint.exists_ofScalar?
    (Ecdsa.natCast_ne_zero_of_lt (n := 1) (by decide) (by decide))
  obtain ⟨l, hl, hpoint⟩ := CurvePrivateKey.exists_publicKey hd hp
  have hpublic : (PrivateKey.curve k).publicKey = .ok (.curve l) :=
    Except.map_eq_ok_iff.mpr ⟨l, hl, rfl⟩
  have hsign : k.sign probe = .ok g.der := CurvePrivateKey.sign_eq_ok_iff.mpr ⟨1, hd, g, hg, rfl⟩
  have hlong : 64 < g.der.length := by
    rw [Ecdsa.length_der, hr, hs]
    decide
  obtain ⟨-, hverify, -⟩ := Ecdsa.spec_of_sign hg (CurvePoint.represents_of_ofScalar? hp)
  rw [← CurvePublicKey.verify_of_read hpoint (Ecdsa.ofBytes?_der hlong)] at hverify
  exact ⟨.curve l, g.der,
    Meta.generate_of_sign (by decide) hpublic hsign hverify fun htype ↦ absurd htype (by decide)⟩

theorem exists_chosen_sentence : ∃ fs m a,
    State.create "/s/d" (Program.configurationOn 0) (fun _ ↦ 0) ⟨[]⟩ =
      (.ok ⟨"/s/d", Program.configurationOn 0⟩, fs) ∧
    chosen (.ok "/s/d") ⟨some sentence, none, none⟩ fs = .ok (m, .user) ∧
    m.address .user = .ok a := by
  obtain ⟨key, hkey⟩ := Registry.exists_generatePrivate fun _ ↦ 0
  have hcreate : State.create "/s/d" (Program.configurationOn 0) (fun _ ↦ 0) ⟨[]⟩ =
      (.ok ⟨"/s/d", Program.configurationOn 0⟩,
        (State.store "/s/d" key (Program.configurationOn 0) ⟨[]⟩).2) :=
    State.create_of_ready (t := .mkm) rfl rfl hkey (Prod.ext rfl rfl)
  obtain ⟨-, -, key, hkey, hfiles⟩ := State.holds_create hcreate
  obtain ⟨f, hf, hkey⟩ := Except.bind_eq_ok_iff.mp hkey
  obtain rfl : PairFamily.curve = f := Except.ok.inj hf
  obtain ⟨secret, known, -, hlasting⟩ := PairFamily.lasting_of_generate hkey
  rw [PairFamily.generate] at hkey
  obtain ⟨k, hk, rfl⟩ := Except.map_eq_ok_iff.mp hkey
  have hdrawn : 1 + Bytes.toNat (Entropy.draw (fun _ ↦ 0) 32) % (groupOrder - 1) = 1 := by decide
  obtain ⟨l, b, hm⟩ := generate_sentence (hdrawn ▸ CurvePrivateKey.scalar_of_generate hk)
  have hm : metaOf ⟨"/s/d", Program.configurationOn 0⟩ (.curve k) ⟨some sentence, none, none⟩ =
      .ok ⟨.mkm, l, some sentence, some b⟩ :=
    Except.bind_eq_ok_iff.mpr ⟨.mkm, rfl, Except.mapError_eq_ok_iff.mpr hm⟩
  exact ⟨_, _, _, hcreate, chosen_eq_ok_iff.mpr ⟨_, _, hfiles.loadAll_eq hlasting, hm, rfl⟩, rfl⟩

end Execution

namespace Invocation

open Execution (sentence)
open Identifier (Plain Written present)

/-- The command goes well, prints a text, and leaves all files. -/
def Prints (i : Invocation) (env : Environment) (fs : FileSystem) (s : String) : Prop :=
  i.run env fs = (.ok s, fs)

variable {o : MetaOptions} {terminal told : Option String} {env : Environment} {fs : FileSystem}
  {showMeta : Bool} {s : String}

theorem prints_address_iff : Prints ⟨.address o showMeta, told⟩ env fs s ↔
    Execution.address (State.directoryOf env.home told) o showMeta fs = .ok s := by
  simp only [Prints, run, Prod.mk.injEq, and_true]

theorem prints_identifier_iff : Prints ⟨.generateIdentifier o terminal, told⟩ env fs s ↔
    Execution.generateIdentifier (State.directoryOf env.home told) o terminal fs = .ok s := by
  simp only [Prints, run, Prod.mk.injEq, and_true]

theorem prints_report {name : Option String} {a : Address}
    (h : Identifier.parse s = .ok ⟨s, name, a, terminal⟩) :
    Prints ⟨.parseIdentifier s, told⟩ env fs (Execution.report name a terminal) := by
  simp only [Prints, run, Execution.parseIdentifier_eq, h]
  rfl

/-- `id generate` goes well exactly if `address` does with the same options and neither the seed nor the
terminal has a separator. What it prints is the address that `address` prints, between the seed and the
terminal, and `id parse` reports these parts and the network of the address. What commands have left in
the shared caches changes none of this. -/
theorem identifier_wraps_address (o : MetaOptions) (terminal told : Option String) (env : Environment)
    (fs : FileSystem) :
    (∀ s, Prints ⟨.generateIdentifier o terminal, told⟩ env fs s → ∃ (m : Meta) (a : Address),
      m.seed = present o.seed ∧ m.address a.network = .ok a ∧
      Prints ⟨.address o false, told⟩ env fs a.text ∧
      Prints ⟨.address o true, told⟩ env fs (a.text ++ "\n" ++ (Json.object m.members).pretty) ∧
      Address.parse a.text = .ok a ∧ Written s (present o.seed) a.text (present terminal) ∧
      Identifier.parse s = .ok ⟨s, present o.seed, a, present terminal⟩ ∧
      Arguments.parse ("id" :: "parse" :: Arguments.operandOf s) = .ok ⟨.parseIdentifier s, none⟩ ∧
      ∀ told' env' fs', Prints ⟨.parseIdentifier s, told'⟩ env' fs'
        (Execution.report (present o.seed) a (present terminal))) ∧
    (∀ showMeta, (∃ s, Prints ⟨.generateIdentifier o terminal, told⟩ env fs s) ↔
      (∃ s, Prints ⟨.address o showMeta, told⟩ env fs s) ∧
        (∀ x ∈ o.seed, Plain x.toList) ∧ ∀ x ∈ terminal, Plain x.toList) ∧
    ∀ earlier i, (Session.run i env fs (Session.after earlier)).1 = i.run env fs := by
  refine ⟨fun s hs ↦ ?_, fun showMeta ↦ ?_, fun earlier i ↦ Session.run_after earlier i env fs⟩
  · obtain ⟨m, network, a, i, hc, ha, hi, rfl⟩ :=
      Execution.generateIdentifier_eq_ok_iff.mp (prints_identifier_iff.mp hs)
    have hseed := Execution.seed_of_chosen hc
    rw [hseed] at hi
    have hmade := Meta.made_of_address ha
    have haddress (showMeta : Bool) :
        Prints ⟨.address o showMeta, told⟩ env fs (Execution.shown m showMeta a) :=
      prints_address_iff.mpr (Execution.address_eq_ok_iff.mpr ⟨m, network, a, hc, ha, rfl⟩)
    have hwritten := Identifier.written_of_compose hi
    have hparse := Identifier.parse_text_of_compose hmade hi
    obtain ⟨-, -, rfl⟩ := Identifier.compose_eq_ok_iff.mp hi
    rw [Identifier.present_present] at hwritten hparse
    exact ⟨m, a, hseed, Meta.address_network ha, haddress false, haddress true, hmade.parse_text,
      hwritten, hparse, Arguments.parse_identifier_operandOf _, fun _ _ _ ↦ prints_report hparse⟩
  · simp only [prints_identifier_iff, prints_address_iff]
    exact Execution.exists_identifier_iff

theorem identifier_wraps_address_home : ∃ fs,
    State.create "/s/d" (Program.configurationOn 0) (fun _ ↦ 0) ⟨[]⟩ =
      (.ok ⟨"/s/d", Program.configurationOn 0⟩, fs) ∧ ∀ env, ∃ s a,
      Prints ⟨.generateIdentifier ⟨some sentence, none, none⟩ (some "home"), some "/s/d"⟩ env fs s ∧
      Prints ⟨.address ⟨some sentence, none, none⟩ false, some "/s/d"⟩ env fs a.text ∧
      s = sentence ++ "@" ++ a.text ++ "/home" ∧
      Prints ⟨.parseIdentifier s, none⟩ env ⟨[]⟩
        (Execution.report (some sentence) a (some "home")) := by
  obtain ⟨fs, m, a, hcreate, hchosen, ha⟩ := Execution.exists_chosen_sentence
  refine ⟨fs, hcreate, fun env ↦ ?_⟩
  obtain ⟨hidentifier, hiff, -⟩ :=
    identifier_wraps_address ⟨some sentence, none, none⟩ (some "home") (some "/s/d") env fs
  have haddress : Prints ⟨.address ⟨some sentence, none, none⟩ false, some "/s/d"⟩ env fs a.text :=
    prints_address_iff.mpr (Execution.address_eq_ok_iff.mpr ⟨m, .user, a, hchosen, ha, rfl⟩)
  have hseed : ∀ x ∈ some sentence, Plain x.toList := by
    rintro _ ⟨⟩
    exact Identifier.plain_iff_all.mpr (by decide)
  have hterminal : ∀ x ∈ some "home", Plain x.toList := by
    rintro _ ⟨⟩
    exact Identifier.plain_iff_all.mpr (by decide)
  obtain ⟨s, hs⟩ := (hiff false).mpr ⟨⟨_, haddress⟩, hseed, hterminal⟩
  obtain ⟨-, a, -, -, haddress, -, -, hwritten, -, -, hreport⟩ := hidentifier s hs
  exact ⟨s, a, hs, haddress, hwritten.text, hreport none env ⟨[]⟩⟩

end Invocation

end MessagingIdentity
