import HardMail.App.State

open memory codec

namespace hardmail

/-- The context both handlers start from: cleared by `explicit_bzero`, with the
request type of the command. -/
def resetContext (req_type : RequestType) : GlobalCtx :=
  { GlobalCtx.zero with req_type, state := .STATE_NONE }

/-- The reading of a derivation path into the context, which `handler_get_public_key`
and `init_transaction_context` share. The length is stored before it is checked,
and stays when the path is refused. -/
def readPath (G : GlobalCtx) (cdata : Buffer) (out : Outcomes) : GlobalCtx × Bool :=
  match buffer_read_u8 cdata with
  | none => (G, false)
  | some (len, cdata) =>
    let G := { G with bip32_path_len := len }
    match buffer_read_bip32_path cdata len.toNat with
    | none => ({ G with bip32_path := out.path_residue }, false)
    | some (words, _) =>
      ({ G with bip32_path := G.bip32_path.blit 0 words.val (by have h := words.property; omega) }, true)

/-- The path in the context, as the calls that use it are handed it. -/
def GlobalCtx.derivationPath (G : GlobalCtx) : DerivationPath := .ofArray G.bip32_path G.bip32_path_len

/-- The first `n` big-endian words of a byte string. -/
def bigEndianWords : Nat → List UInt8 → List UInt32
  | 0, _ => []
  | n + 1, bytes => UInt32.ofNat (beValue (bytes.take 4)) :: bigEndianWords n (bytes.drop 4)

/-- The derivation path the data of a command carries, if it is well formed. -/
def pathOf : List UInt8 → Option (List UInt32)
  | [] => none
  | len :: bytes =>
    if 1 ≤ len.toNat ∧ len.toNat ≤ MAX_BIP32_PATH ∧ 4 * len.toNat ≤ bytes.length then
      some (bigEndianWords len.toNat bytes)
    else none

/-- As many words are read as are asked for. -/
theorem bigEndianWords_length (n : Nat) (bytes : List UInt8) : (bigEndianWords n bytes).length = n := by
  induction n generalizing bytes with
  | zero => rfl
  | succ n ih => rw [bigEndianWords, List.length_cons, ih]

/-- Words read behind an offset are those at the indices behind it, as the SDK reads them. -/
theorem bigEndianWords_drop (mem : List UInt8) (n off : Nat) :
    bigEndianWords n (mem.drop off) =
      (List.range n).map fun i => UInt32.ofNat (beValue (slice mem (off + 4 * i) 4)) := by
  induction n generalizing off with
  | zero => rfl
  | succ n ih =>
    rw [bigEndianWords, List.drop_drop, ih, List.range_succ_eq_map, List.map_cons, List.map_map]
    congr 1
    apply List.map_congr_left
    intro i _
    rw [Function.comp_apply, Nat.succ_eq_add_one, Nat.mul_add, Nat.add_assoc off 4, Nat.add_comm 4]

/-- Well-formed paths have between one and `MAX_BIP32_PATH` words. -/
theorem pathOf_length {data : List UInt8} {words : List UInt32} (h : pathOf data = some words) :
    1 ≤ words.length ∧ words.length ≤ MAX_BIP32_PATH := by
  cases data with
  | nil => cases h
  | cons len bytes =>
    rw [pathOf] at h
    split at h
    · rename_i hlen
      cases h
      rw [bigEndianWords_length]
      exact ⟨hlen.1, hlen.2.1⟩
    · cases h

/-- Reading a path succeeds exactly on the data that carry a well-formed one. -/
theorem readPath_cases (G : GlobalCtx) (data : List UInt8) (out : Outcomes) :
    (∃ words, pathOf data = some words ∧ (readPath G (.ofBytes data) out).2 = true ∧
      (readPath G (.ofBytes data) out).1.derivationPath.words = words ∧
      (readPath G (.ofBytes data) out).1.bip32_path_len.toNat = words.length) ∨
    (pathOf data = none ∧ (readPath G (.ofBytes data) out).2 = false) := by
  cases data with
  | nil =>
    right
    exact ⟨rfl, rfl⟩
  | cons len bytes =>
    have hlen := buffer_read_u8_of_rest (Buffer.ofBytes_valid (len :: bytes)) (Buffer.ofBytes_rest _)
    simp only [readPath, hlen, pathOf]
    by_cases hbad : len.toNat = 0 ∨ len.toNat > MAX_BIP32_PATH
    · right
      have hno : ¬ (1 ≤ len.toNat ∧ len.toNat ≤ MAX_BIP32_PATH ∧ 4 * len.toNat ≤ bytes.length) := by omega
      rw [if_neg hno, buffer_read_bip32_path, dif_pos hbad]
      exact ⟨rfl, rfl⟩
    by_cases hfit : 4 * len.toNat ≤ bytes.length
    · left
      have hok : 1 ≤ len.toNat ∧ len.toNat ≤ MAX_BIP32_PATH ∧ 4 * len.toNat ≤ bytes.length := by omega
      have hroom : ((Buffer.ofBytes (len :: bytes)).advance 1).offset + 4 * len.toNat ≤
          ((Buffer.ofBytes (len :: bytes)).advance 1).size := by
        simp only [Buffer.ofBytes, Buffer.advance, List.length_cons]
        omega
      rw [if_pos hok, buffer_read_bip32_path, dif_neg hbad, if_pos hroom]
      refine ⟨_, rfl, rfl, ?_, (bigEndianWords_length _ _).symm⟩
      have hwords := bigEndianWords_drop (len :: bytes) len.toNat 1
      rw [List.drop_one, List.tail_cons] at hwords
      have htake := take_blit_zero G.bip32_path.toList (bigEndianWords len.toNat bytes)
      rw [bigEndianWords_length, hwords] at htake
      rw [hwords]
      exact htake
    · right
      have hno : ¬ (1 ≤ len.toNat ∧ len.toNat ≤ MAX_BIP32_PATH ∧ 4 * len.toNat ≤ bytes.length) := by omega
      have hroom : ¬ ((Buffer.ofBytes (len :: bytes)).advance 1).offset + 4 * len.toNat ≤
          ((Buffer.ofBytes (len :: bytes)).advance 1).size := by
        simp only [Buffer.ofBytes, Buffer.advance, List.length_cons]
        omega
      rw [if_neg hno, buffer_read_bip32_path, dif_neg hbad, if_neg hroom]
      exact ⟨rfl, rfl⟩

/-- Reading a path changes nothing but the path. -/
theorem readPath_frame (G : GlobalCtx) (cdata : Buffer) (out : Outcomes) :
    (readPath G cdata out).1.state = G.state ∧ (readPath G cdata out).1.req_type = G.req_type ∧
      (readPath G cdata out).1.tx_info = G.tx_info := by
  unfold readPath
  split
  · exact ⟨rfl, rfl, rfl⟩
  · dsimp only
    split
    · exact ⟨rfl, rfl, rfl⟩
    · exact ⟨rfl, rfl, rfl⟩

/-- A context that has just been reset for a request. -/
structure Reset (req_type : RequestType) (G : GlobalCtx) : Prop where
  req_type_eq : G.req_type = req_type
  state_eq : G.state = .STATE_NONE
  raw_tx_len_eq : G.tx_info.raw_tx_len = 0

/-- The context holds a well-formed derivation path. -/
structure HoldsPath (words : List UInt32) (G : GlobalCtx) : Prop where
  words_eq : G.bip32_path.toList.take G.bip32_path_len.toNat = words
  path_len_eq : G.bip32_path_len.toNat = words.length

/-- A well-formed path has no more words than the array of the context has room for. -/
theorem HoldsPath.length_le {words : List UInt32} {G : GlobalCtx} (h : HoldsPath words G) :
    words.length ≤ MAX_BIP32_PATH := by
  rw [← h.words_eq, List.length_take, G.bip32_path.length_toList]
  exact Nat.min_le_right _ _

/-- A well-formed path is handed to the SDK as its words, with their number. -/
theorem HoldsPath.path_eq {words : List UInt32} {G : GlobalCtx} (h : HoldsPath words G) :
    G.derivationPath = .of words := by
  have hlen : G.bip32_path_len = UInt8.ofNat words.length := by
    rw [← h.path_len_eq, UInt8.ofNat_toNat]
  rw [GlobalCtx.derivationPath, DerivationPath.ofArray, DerivationPath.of, h.words_eq, hlen]

/-- The key of a well-formed path is that of its words. -/
theorem HoldsPath.derive_eq {words : List UInt32} {G : GlobalCtx} (h : HoldsPath words G) (sdk : Sdk)
    (out : Outcomes) : sdk.derive out G.derivationPath = sdk.bip32_derive_get_pubkey_256 words := by
  rw [h.path_eq, sdk.derive_of out h.length_le]

/-- The signatures under a well-formed path are those of its words. -/
theorem HoldsPath.sign_eq {words : List UInt32} {G : GlobalCtx} (h : HoldsPath words G) (sdk : Sdk)
    (out : Outcomes) (hash : CArray UInt8 32) :
    sdk.sign out G.derivationPath hash = sdk.bip32_derive_eddsa_sign_hash_256 words hash := by
  rw [h.path_eq, sdk.sign_of out h.length_le]

/-- The start of both handlers, up to the check of the path. -/
theorem readPath_reset_cases (req_type : RequestType) (data : List UInt8) (out : Outcomes) :
    ∃ G, Reset req_type G ∧
      ((∃ words, pathOf data = some words ∧ HoldsPath words G ∧
        readPath (resetContext req_type) (.ofBytes data) out = (G, true)) ∨
      (pathOf data = none ∧ readPath (resetContext req_type) (.ofBytes data) out = (G, false))) := by
  obtain ⟨hstate, hreq, htx⟩ := readPath_frame (resetContext req_type) (.ofBytes data) out
  have hcases := readPath_cases (resetContext req_type) data out
  generalize readPath (resetContext req_type) (.ofBytes data) out = result at hstate hreq htx hcases
  obtain ⟨G, ok⟩ := result
  refine ⟨G, ⟨hreq, hstate, by rw [htx]; rfl⟩, ?_⟩
  obtain ⟨words, hpath, rfl, hwords, hlen⟩ | ⟨hpath, rfl⟩ := hcases
  · exact Or.inl ⟨words, hpath, ⟨hwords, hlen⟩, rfl⟩
  · exact Or.inr ⟨hpath, rfl⟩

end hardmail
