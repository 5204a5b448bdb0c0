import HardMail.Device.Refinement

open memory codec machine

namespace hardmail

variable {sdk sdk' : Sdk} {out out' : Outcomes} {i i' : Input} {d : Device}

/-- Two SDKs that may hold different seeds. -/
structure SamePublic (sdk sdk' : Sdk) : Prop where
  sha256 : sdk'.cx_hash_sha256 = sdk.cx_hash_sha256
  compress : sdk'.cx_edwards_compress_point = sdk.cx_edwards_compress_point
  keccak : sdk'.cx_keccak_256_hash = sdk.cx_keccak_256_hash

/-- The calls that do not ask the seed turn out alike. -/
structure Outcomes.SamePublic (out out' : Outcomes) : Prop where
  path_residue : out'.path_residue = out.path_residue
  compress : out'.compress = out.compress
  keccak : out'.keccak = out.keccak
  hash : out'.hash = out.hash
  descriptor : out'.descriptor = out.descriptor

/-- The same message or answer, during which the seed may give other answers. -/
inductive Input.SamePublic : Input → Input → Prop where
  | apdu (cmd : Command) {out out' : Outcomes} (h : out.SamePublic out') :
    Input.SamePublic (.apdu cmd out) (.apdu cmd out')
  | badLength : Input.SamePublic .badLength .badLength
  | choice (confirm : Bool) {out out' : Outcomes} (h : out.SamePublic out') :
    Input.SamePublic (.choice confirm out) (.choice confirm out')

/-- How the calls an input causes turn out. -/
def Input.outcomes : Input → Outcomes
  | .apdu _ out => out
  | .badLength => .success
  | .choice _ out => out

/-- What the seed answers to a derivation: a failure, with what it leaves in memory, or a
key. -/
def Sdk.keyAnswer (sdk : Sdk) (out : Outcomes) (path : DerivationPath) : Failure KeyMaterial ⊕ KeyMaterial :=
  match out.derive with
  | some failure => .inl failure
  | none => .inr (sdk.derive out path)

/-- What the seed answers to a signing: a signature, unless the call fails. -/
def Sdk.signatureAnswer (sdk : Sdk) (out : Outcomes) (path : DerivationPath) (digest : CArray UInt8 32) :
    Option Signature :=
  if out.sign.isSome then none else some (sdk.sign out path digest)

/-- What a report says was asked of the seed is answered alike. -/
def AnsweredAlike (sdk sdk' : Sdk) (out out' : Outcomes) : Report → Prop
  | .derive path => sdk'.keyAnswer out' path = sdk.keyAnswer out path
  | .sign path digest => sdk'.signatureAnswer out' path digest = sdk.signatureAnswer out path digest
  | _ => True

instance (sdk sdk' : Sdk) (out out' : Outcomes) : DecidablePred (AnsweredAlike sdk sdk' out out') := fun report => by
  cases report <;> unfold AnsweredAlike <;> infer_instance

/-- The input is that of a turn, up to the answers of the seed, and what the turn has
asked the seed is answered alike. -/
structure Alike (sdk sdk' : Sdk) (turn : Input × List Report) (i' : Input) : Prop where
  public_eq : turn.1.SamePublic i'
  answers : ∀ report ∈ turn.2, AnsweredAlike sdk sdk' turn.1.outcomes i'.outcomes report

/-- A GET_PUBLIC_KEY with a well-formed path asks the seed for its key. -/
theorem derive_mem_exportKey (sdk : Sdk) {data : List UInt8} {words : List UInt32}
    (hwords : pathOf data = some words) (display : Bool) (out : Outcomes) :
    .derive (.of words) ∈ (d.exportKey sdk data display out).2 := by
  simp only [Device.exportKey, hwords]
  cases out.derive with
  | some failure => exact List.mem_cons_self
  | none =>
    cases out.compress with
    | some failure => exact List.mem_cons_self
    | none =>
      dsimp only
      split_ifs
      · exact List.mem_cons_self
      · exact List.mem_cons_self
      · exact List.mem_cons_self

/-- Equal answers to the derivation of a well-formed path come from calls that fail
alike, or that derive the same key. -/
theorem keyAnswer_of_alike {words : List UInt32} (hlen : words.length ≤ MAX_BIP32_PATH)
    (halike : sdk'.keyAnswer out' (.of words) = sdk.keyAnswer out (.of words)) :
    out'.derive = out.derive ∧
      (out.derive = none → sdk'.bip32_derive_get_pubkey_256 words = sdk.bip32_derive_get_pubkey_256 words) := by
  simp only [Sdk.keyAnswer, Sdk.derive_of _ _ hlen] at halike
  cases hderive : out.derive with
  | some failure =>
    cases hderive' : out'.derive with
    | some failure' =>
      rw [hderive, hderive'] at halike
      cases halike
      exact ⟨rfl, fun hnone => by cases hnone⟩
    | none =>
      rw [hderive, hderive'] at halike
      cases halike
  | none =>
    cases hderive' : out'.derive with
    | some failure' =>
      rw [hderive, hderive'] at halike
      cases halike
    | none =>
      rw [hderive, hderive'] at halike
      exact ⟨rfl, fun _ => Sum.inr.inj halike⟩

/-- A GET_PUBLIC_KEY tells of the seed what it is answered for the path, be it a key or
what a failing call leaves. -/
theorem exportKey_congr (hpublic : SamePublic sdk sdk') (hout : out.SamePublic out') (data : List UInt8)
    (display : Bool)
    (halike : ∀ report ∈ (d.exportKey sdk data display out).2, AnsweredAlike sdk sdk' out out' report) :
    d.exportKey sdk' data display out' = d.exportKey sdk data display out := by
  cases hwords : pathOf data with
  | none => simp only [Device.exportKey, hwords, refusedPath, hout.path_residue]
  | some words =>
    obtain ⟨hderive, hsame⟩ := keyAnswer_of_alike (pathOf_length hwords).2
      (halike _ (derive_mem_exportKey sdk hwords display out))
    simp only [Device.exportKey, hwords, hderive, hout.compress, hout.keccak]
    cases hfail : out.derive with
    | some failure => rfl
    | none =>
      have hkey : sdk'.derivedKey words = sdk.derivedKey words := by
        rw [Sdk.derivedKey, Sdk.derivedKey, hsame hfail, hpublic.compress]
      have hcode : sdk'.derivedCode words = sdk.derivedCode words := by
        rw [Sdk.derivedCode, Sdk.derivedCode, hsame hfail]
      have htext : sdk'.addressText = sdk.addressText := by
        funext key
        rw [Sdk.addressText, Sdk.addressText, hpublic.keccak]
      simp only [hkey, hcode, htext]

/-- The answer to a review tells of the seed the signature it releases. -/
theorem answer_congr (confirm : Bool)
    (halike : ∀ report ∈ (d.answer sdk confirm out).2, AnsweredAlike sdk sdk' out out' report) :
    d.answer sdk' confirm out' = d.answer sdk confirm out := by
  unfold Device.answer at halike ⊢
  cases hscreen : d.screen with
  | none => rfl
  | some review =>
    cases confirm with
    | false => rfl
    | true =>
      cases review with
      | address address => rfl
      | email pairs =>
        rw [hscreen] at halike
        have hsign : sdk'.signatureAnswer out' d.path d.digest = sdk.signatureAnswer out d.path d.digest := by
          apply halike (.sign d.path d.digest)
          dsimp only
          split_ifs
          · exact List.mem_cons_self
          · exact List.mem_cons_self
        unfold Sdk.signatureAnswer at hsign
        dsimp only
        split_ifs at hsign ⊢
        · rfl
        · rw [Option.some.inj hsign]

/-- A step tells of the seed what it is answered. -/
theorem step_congr (hpublic : SamePublic sdk sdk') (d : Device) (i i' : Input)
    (halike : Alike sdk sdk' (i, (d.step sdk i).2) i') : d.step sdk' i' = d.step sdk i := by
  obtain ⟨hinput, halike⟩ := halike
  cases hinput with
  | badLength => rfl
  | choice confirm hout => exact answer_congr confirm halike
  | apdu cmd hout =>
    simp only [Device.step] at halike ⊢
    cases hinstruction : cmd.instruction with
    | error sw => rfl
    | ok instruction =>
      rw [hinstruction] at halike
      cases instruction with
      | version => rfl
      | name => rfl
      | pubkey data display => exact exportKey_congr hpublic hout data display halike
      | start is_token_tx data => simp only [Device.obey, Device.beginSession, refusedPath, hout.path_residue]
      | chunk is_token_tx more data =>
        simp only [Device.obey, Device.receive, Device.complete, hpublic.sha256, hout.hash]
      | token => simp only [Device.obey, Device.learnToken, hout.descriptor]

/-- All that a run tells of the seed is what it is answered to its queries: the keys it
derives, the signatures it makes, and what the calls that fail leave behind. With
another seed that answers these queries alike, each of its turns is the same. -/
theorem run_discloses_queries_only (hpublic : SamePublic sdk sdk') {h h' : List Input}
    (halike : List.Forall₂ (fun turn => Alike sdk sdk' (turn.1, turn.2.map Event.report))
      ((app sdk).turns .init h) h') :
    ((app sdk').turns .init h').map (fun turn => turn.2.map Event.report) =
      ((app sdk).turns .init h).map fun turn => turn.2.map Event.report := by
  have hdevice : ∀ (sdk : Sdk) (k : List Input), ((app sdk).turns .init k).map (fun turn => turn.2.map Event.report) =
      ((device sdk).turns .init k).map Prod.snd := by
    intro sdk k
    rw [(app_simulates_device sdk).turns_eq realizes_init k, List.map_map]
    rfl
  have hturns : List.Forall₂ (Alike sdk sdk') ((device sdk).turns .init h) h' := by
    rw [(app_simulates_device sdk).turns_eq realizes_init h, List.forall₂_map_left_iff]
    exact halike
  rw [hdevice sdk' h', hdevice sdk h]
  exact Machine.turns_congr (M := device sdk) (N := device sdk') (step_congr hpublic) hturns

/-- An SDK with another seed, which has the keys and signatures of one path in common with
the sample. -/
def Sdk.reseeded : Sdk :=
  { Sdk.sample with
    bip32_derive_get_pubkey_256 := fun words =>
      if words = [7] then Sdk.sample.bip32_derive_get_pubkey_256 words else (.fill _ 1, .fill _ 2)
    bip32_derive_eddsa_sign_hash_256 := fun words digest =>
      if words = [7] then Sdk.sample.bip32_derive_eddsa_sign_hash_256 words digest else ⟨[3], by decide⟩ }

/-- Calls that succeed, and would find other keys behind the array of a path. -/
def Outcomes.reseeded : Outcomes :=
  { Outcomes.success with overrun_key := (.fill _ 8, .fill _ 9), overrun_signature := ⟨[4], by decide⟩ }

/-- The smallest email, signed under that path behind a look at its key. -/
def signedSession (out : Outcomes) : List Input :=
  [.send GET_PUBLIC_KEY 0 0 [1, 0, 0, 0, 7], .send SIGN_TX 0 P2_MORE [1, 0, 0, 0, 7],
    .send SIGN_TX 1 P2_MORE (Email.smallest.wire.take 21), .send SIGN_TX 2 P2_LAST (Email.smallest.wire.drop 21),
    .choice true out]

/-- A session that is signed with another seed, where the signature comes out the same, is
reported the same turn by turn. -/
theorem signed_session_discloses_queries_only :
    ((app .reseeded).turns .init (signedSession .reseeded)).map (fun turn => turn.2.map Event.report) =
      ((app .sample).turns .init (signedSession .success)).map fun turn => turn.2.map Event.report := by
  have hpublic : SamePublic .sample .reseeded := ⟨rfl, rfl, rfl⟩
  have hsend : ∀ cmd, Input.SamePublic (.apdu cmd .success) (.apdu cmd .success) :=
    fun cmd => .apdu cmd ⟨rfl, rfl, rfl, rfl, rfl⟩
  apply run_discloses_queries_only hpublic
  refine .cons ⟨hsend _, by decide +kernel⟩ (.cons ⟨hsend _, by decide +kernel⟩ (.cons ⟨hsend _, by decide +kernel⟩
    (.cons ⟨hsend _, by decide +kernel⟩ (.cons ⟨.choice true ⟨rfl, rfl, rfl, rfl, rfl⟩, by decide +kernel⟩ .nil))))

end hardmail
