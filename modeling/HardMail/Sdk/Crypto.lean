import HardMail.Types

open memory

namespace hardmail

def CX_OK : UInt32 := 0

abbrev CxError := { code : UInt32 // code ≠ CX_OK }

/-- A failed call of the SDK: the error it returns, and what it leaves in the
memory it was to fill. -/
structure Failure (α : Type) where
  error : CxError
  residue : α
  deriving DecidableEq

abbrev Signature := { sig : List UInt8 // sig.length ≤ MAX_DER_SIG_LEN }

/-- A public key and its chain code. -/
abbrev KeyMaterial := CArray UInt8 PUBKEY_LEN × CArray UInt8 CHAINCODE_LEN

/-- A derivation path as the SDK is handed it: the words of an array up to the length
that comes with it, all of them when the length goes beyond the array. -/
structure DerivationPath where
  words : List UInt32
  len : UInt8
  deriving DecidableEq, Repr

namespace DerivationPath

/-- What a call is handed with the array `path` and the length `path_len`. -/
def ofArray (path : CArray UInt32 MAX_BIP32_PATH) (path_len : UInt8) : DerivationPath :=
  ⟨path.toList.take path_len.toNat, path_len⟩

/-- The path that has just these words. -/
def of (words : List UInt32) : DerivationPath := ⟨words, UInt8.ofNat words.length⟩

/-- The words a call derives for. There are none to tell when the length goes beyond the
array, as the call then reads what lies behind it. -/
def words? (path : DerivationPath) : Option (List UInt32) :=
  if path.len.toNat ≤ MAX_BIP32_PATH then some path.words else none

/-- No more words than an array holds are derived for as they are. -/
theorem words?_of {words : List UInt32} (h : words.length ≤ MAX_BIP32_PATH) : (of words).words? = some words := by
  have hlen : (UInt8.ofNat words.length).toNat = words.length :=
    UInt8.toNat_ofNat_of_lt' (Nat.lt_of_le_of_lt h (by decide))
  rw [words?, of, hlen, if_pos h]

end DerivationPath

/-- The functions the SDK computes when its calls succeed. A derivation path is
given as its words. -/
structure Sdk where
  cx_hash_sha256 : List UInt8 → CArray UInt8 32
  bip32_derive_get_pubkey_256 : List UInt32 → KeyMaterial
  cx_edwards_compress_point : CArray UInt8 PUBKEY_LEN → CArray UInt8 PUBKEY_LEN
  cx_keccak_256_hash : List UInt8 → CArray UInt8 32
  bip32_derive_eddsa_sign_hash_256 : List UInt32 → CArray UInt8 32 → Signature

/-- What `tlv_use_case_dynamic_descriptor` reads from a descriptor it accepts. The
identifier is `none` when its parser refuses it, and otherwise holds the token
address, if there is one. -/
structure TokenDescriptor where
  coin_type : UInt32
  magnitude : UInt8
  /-- a constant of the SDK -/
  MAX_TICKER_SIZE : Nat
  ticker : CArray UInt8 (MAX_TICKER_SIZE + 1)
  /-- the SDK validates that the ticker fits with its NUL -/
  terminated : 0 ∈ ticker.toList
  TUID : Option (Option (CArray UInt8 TOKEN_ADDRESS_LEN))

/-- How the calls of the SDK that one input causes turn out. `none` is success
for the calls that can fail. -/
structure Outcomes where
  /-- what `buffer_read_bip32_path` leaves in the path when it refuses one -/
  path_residue : CArray UInt32 MAX_BIP32_PATH
  derive : Option (Failure KeyMaterial)
  compress : Option (Failure (CArray UInt8 PUBKEY_LEN))
  keccak : Option CxError
  /-- `cx_hash_sha256` reports failure by the size it returns -/
  hash : Option (CArray UInt8 32)
  sign : Option (Failure (CArray UInt8 MAX_DER_SIG_LEN))
  descriptor : Option TokenDescriptor
  /-- the key of a path whose length goes beyond its array -/
  overrun_key : KeyMaterial
  /-- the signature under a path whose length goes beyond its array -/
  overrun_signature : Signature

/-- The key a call derives that succeeds. -/
def Sdk.derive (sdk : Sdk) (out : Outcomes) (path : DerivationPath) : KeyMaterial :=
  path.words?.elim out.overrun_key sdk.bip32_derive_get_pubkey_256

/-- The signature a call makes that succeeds. -/
def Sdk.sign (sdk : Sdk) (out : Outcomes) (path : DerivationPath) (hash : CArray UInt8 32) : Signature :=
  path.words?.elim out.overrun_signature fun words => sdk.bip32_derive_eddsa_sign_hash_256 words hash

/-- For no more words than an array holds, the key is theirs. -/
theorem Sdk.derive_of (sdk : Sdk) (out : Outcomes) {words : List UInt32} (h : words.length ≤ MAX_BIP32_PATH) :
    sdk.derive out (.of words) = sdk.bip32_derive_get_pubkey_256 words := by
  rw [Sdk.derive, DerivationPath.words?_of h, Option.elim_some]

/-- Under no more words than an array holds, the signature is one with their key. -/
theorem Sdk.sign_of (sdk : Sdk) (out : Outcomes) {words : List UInt32} (h : words.length ≤ MAX_BIP32_PATH)
    (hash : CArray UInt8 32) : sdk.sign out (.of words) hash = sdk.bip32_derive_eddsa_sign_hash_256 words hash := by
  rw [Sdk.sign, DerivationPath.words?_of h, Option.elim_some]

/-- Every call succeeds, and no token descriptor is accepted. -/
def Outcomes.success : Outcomes where
  path_residue := .fill MAX_BIP32_PATH 0
  derive := none
  compress := none
  keccak := none
  hash := none
  sign := none
  descriptor := none
  overrun_key := (.fill PUBKEY_LEN 0, .fill CHAINCODE_LEN 0)
  overrun_signature := ⟨[], Nat.zero_le _⟩

/-- An SDK whose digests are the first bytes of the message, and whose keys and
signatures tell the first word of the path they were made for. -/
def Sdk.sample : Sdk where
  cx_hash_sha256 message := ⟨(message ++ List.replicate 32 0).take 32, by simp⟩
  bip32_derive_get_pubkey_256 words := (.fill _ (words.headD 0).toUInt8, .fill _ 7)
  cx_edwards_compress_point key := key
  cx_keccak_256_hash message := ⟨(message ++ List.replicate 32 0).take 32, by simp⟩
  bip32_derive_eddsa_sign_hash_256 words hash := ⟨(words.headD 0).toUInt8 :: hash.toList, by simp; decide⟩

end hardmail
