import HardMail.Host.Keys
import HardMail.Transaction.Host

open memory codec machine

namespace hardmail.host

variable {sdk : Sdk} {calls : Nat → Outcomes} {words : List UInt32} {backend : BackendInterface}

/-- What the signing tests do: they get the key of a path, have a payload signed under the
same path, and check the signature against the key and the digest of the payload. -/
def sign_and_check (backend : BackendInterface) (sdk : Sdk) (eddsa : Eddsa) (user : Review → Bool)
    (path transaction : List UInt8) : Call Bool := do
  let public_key ← device_key backend path
  let (_, signature, _) ← signature backend user SIGN_TX path transaction
  MonadExcept.ofExcept
    (check_signature_validity eddsa public_key signature (sdk.cx_hash_sha256 transaction).toList)

/-- The signatures made for a derivation path are those of the key of that path. -/
structure KeyPair (sdk : Sdk) (eddsa : Eddsa) (words : List UInt32) (key : eddsa.Key) : Prop where
  imports : eddsa.import_public_key (compressed_public_key (sdk.derivedKey words).toList) = some key
  size : ∀ digest, (sdk.bip32_derive_eddsa_sign_hash_256 words digest).val.length = 64
  verifies : ∀ digest, eddsa.verify key digest.toList (sdk.bip32_derive_eddsa_sign_hash_256 words digest).val = true

/-- The calls of every turn succeed. -/
structure Succeeds (calls : Nat → Outcomes) : Prop where
  derive : ∀ n, (calls n).derive = none
  compress : ∀ n, (calls n).compress = none
  hash : ∀ n, (calls n).hash = none
  sign : ∀ n, (calls n).sign = none

/-- The check of the tests accepts what the key of the path signs. -/
theorem KeyPair.check {eddsa : Eddsa} {key : eddsa.Key} (h : KeyPair sdk eddsa words key) (digest : CArray UInt8 32) :
    check_signature_validity eddsa (sdk.derivedKey words).toList
      (sdk.bip32_derive_eddsa_sign_hash_256 words digest).val digest.toList = .ok true := by
  rw [check_signature_validity, if_neg (not_not_intro (h.size digest)), h.imports]
  exact congrArg Except.ok (h.verifies digest)

/-- From every state of the device, the tests get the key of a well-formed path. -/
theorem device_key_ends (hbackend : backend.Documented) (sdk : Sdk) (hcalls : Succeeds calls) {path : List UInt8}
    (hdata : path.length < 256) (hwords : pathOf path = some words) (d : Device) (n : Nat) :
    ∃ t, Client.Ends (hostedDevice sdk calls) (d, n) (device_key backend path)
      (.ok (sdk.derivedKey words).toList) t := by
  have hexported : exported sdk calls n (fun _ => true) false path =
      .ok (sdk.derivedKey words, sdk.derivedCode words) := by
    simp only [exported, hwords, hcalls.derive, hcalls.compress]
    rfl
  have hdevice : device_key backend path =
      public_key backend (fun _ => true) false path >>= fun key => pure key.2.1 := by
    simp only [device_key, public_key, request_key, Bool.false_eq_true, if_false, bind_assoc]
  obtain ⟨t, hends⟩ := public_key_ends hbackend sdk calls d n (fun _ => true) false hdata
  rw [hexported] at hends
  rw [hdevice]
  exact ⟨t, hends.bind_ok (Client.ends_pure _)⟩

/-- An approved email that fits is signed under a well-formed path. -/
theorem signed_email (hcalls : Succeeds calls) {path : List UInt8}
    (hwords : pathOf path = some words) {e : hardmail.Email} (hfits : e.wire.length ≤ MAX_TRANSACTION_LEN)
    {user : Review → Bool} (huser : user (.email e.pairs) = true) (n : Nat) :
    signed sdk calls n false user path e.wire =
      .ok (sdk.bip32_derive_eddsa_sign_hash_256 words (sdk.cx_hash_sha256 e.wire)) := by
  have hne : e.wire ≠ [] := by
    apply List.ne_nil_of_length_pos
    rw [e.wire_length]
    omega
  simp only [signed, hwords, if_neg hne, signs_wire sdk false user words hfits,
    hcalls.hash, hcalls.sign, huser]
  rfl

/-- From every state of the device, the tests get the signature of an email that is
approved. -/
theorem signature_ends (hbackend : backend.Documented) (sdk : Sdk) (hcalls : Succeeds calls) {path : List UInt8}
    (hdata : path.length < 256) (hwords : pathOf path = some words) {e : hardmail.Email}
    (hfits : e.wire.length ≤ MAX_TRANSACTION_LEN) {user : Review → Bool} (huser : user (.email e.pairs) = true)
    (d : Device) (n : Nat) {sig : Signature}
    (hsig : sig = sdk.bip32_derive_eddsa_sign_hash_256 words (sdk.cx_hash_sha256 e.wire)) :
    ∃ t, Client.Ends (hostedDevice sdk calls) (d, n) (signature backend user SIGN_TX path e.wire)
      (.ok (sig.val.length, sig.val, 0)) t := by
  obtain ⟨t, hends⟩ := sign_transaction_ends hbackend sdk calls d n false user hdata e.wire
  rw [signed_email hcalls hwords hfits huser, ← hsig] at hends
  exact ⟨t, hends.bind_ok (ofExcept_ends (unpack_signatureText sig))⟩

/-- Every email that fits the device can be signed: from every state of the application,
the signature that the host gets once its user approves the email verifies, under the
key the host gets for the same path. The backend does what it is documented to do. -/
theorem sign_and_check_email (hbackend : backend.Documented) (hcalls : Succeeds calls) {eddsa : Eddsa} {key : eddsa.Key}
    (hkey : KeyPair sdk eddsa words key) (h : List Input) (n : Nat) {path : List UInt8} (hdata : path.length < 256)
    (hwords : pathOf path = some words) {email : Email} {e : hardmail.Email} (hemail : email.Describes e)
    (hfits : e.wire.length ≤ MAX_TRANSACTION_LEN) {transaction : List UInt8}
    (hserialize : email.serialize = some transaction) {user : Review → Bool} (huser : user (.email e.pairs) = true) :
    ((sign_and_check backend sdk eddsa user path transaction).run.play (hostedApp sdk calls) ((app sdk).run h, n)).1 =
      .ok true := by
  rw [Email.serialize_of_describes hemail] at hserialize
  cases hserialize
  rw [play_app_eq]
  obtain ⟨⟨d, m⟩, hdevice⟩ := device_key_ends hbackend sdk hcalls hdata hwords ((device sdk).run h) n
  obtain ⟨t, hsignature⟩ := signature_ends hbackend sdk hcalls hdata hwords hfits huser d m rfl
  exact congrArg Prod.fst (hdevice.bind_ok (hsignature.bind_ok (ofExcept_ends (hkey.check _))))

/-- An SDK whose signatures are the digest and the first word of the path, and whose keys
tell that word. -/
def signer : Sdk :=
  { Sdk.sample with
    bip32_derive_eddsa_sign_hash_256 := fun words digest =>
      ⟨digest.toList ++ List.replicate 32 (words.headD 0).toUInt8, by simp; decide⟩ }

/-- The check that fits those signatures. -/
def checker : Eddsa where
  Key := UInt8
  import_public_key key := key.head?
  verify key digest signature := signature = digest ++ List.replicate 32 key

theorem signer_keyPair : KeyPair signer checker [7] (7 : UInt8) :=
  ⟨rfl, fun digest => by simp [signer], fun digest => decide_eq_true rfl⟩

/-- The builder's object of the smallest email. -/
def Email.smallest : Email where
  challenge := List.replicate CHALLENGE_LEN 0x11
  sender := ['a']
  recipient := ['b']
  subject := ['c']
  body := ['d']
  attachment := none

/-- The smallest email, while an address review is open. -/
theorem smallest_sign_and_check :
    ((sign_and_check direct signer checker (fun _ => true) [1, 0, 0, 0, 7] hardmail.Email.smallest.wire).run.play
      (hostedApp signer fun _ => .success) ((app signer).run [.send GET_PUBLIC_KEY 1 0 [1, 0, 0, 0, 3]], 1)).1 =
      .ok true := by
  have hdescribes : Email.smallest.Describes .smallest := ⟨rfl, rfl, rfl, rfl, rfl, trivial⟩
  exact sign_and_check_email direct_documented ⟨fun _ => rfl, fun _ => rfl, fun _ => rfl, fun _ => rfl⟩ signer_keyPair
    [.send GET_PUBLIC_KEY 1 0 [1, 0, 0, 0, 3]] 1 (by decide) (by decide) hdescribes
    (by rw [Email.smallest_wire_length]; decide) (by decide +kernel) rfl

end hardmail.host
