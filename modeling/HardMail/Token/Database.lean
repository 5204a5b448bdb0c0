import HardMail.Device.Refinement
import HardMail.Device.Token
import Mathlib.Logic.Function.Basic

open memory codec machine

namespace hardmail

/-- `token_entry_t` -/
structure TokenEntry where
  address : CArray UInt8 TOKEN_ADDRESS_LEN
  ticker : List UInt8
  decimals : UInt8

def TOKENS : List TokenEntry :=
  [⟨⟨[0x01, 0x23, 0x45, 0x67, 0x89, 0xab, 0xcd, 0xef, 0x01, 0x23, 0x45, 0x67, 0x89, 0xab, 0xcd, 0xef,
      0x01, 0x23, 0x45, 0x67, 0x89, 0xab, 0xcd, 0xef, 0x01, 0x23, 0x45, 0x67, 0x89, 0xab, 0xcd, 0xef], rfl⟩,
    ascii "USDC".toList, 12⟩,
   ⟨⟨[0xfe, 0xdc, 0xba, 0x98, 0x76, 0x54, 0x32, 0x10, 0xfe, 0xdc, 0xba, 0x98, 0x76, 0x54, 0x32, 0x10,
      0xfe, 0xdc, 0xba, 0x98, 0x76, 0x54, 0x32, 0x10, 0xfe, 0xdc, 0xba, 0x98, 0x76, 0x54, 0x32, 0x10], rfl⟩,
    ascii "WETH".toList, 14⟩,
   ⟨⟨[0xaa, 0xbb, 0xcc, 0xdd, 0xee, 0xff, 0x00, 0x11, 0x22, 0x33, 0x44, 0x55, 0x66, 0x77, 0x88, 0x99,
      0xaa, 0xbb, 0xcc, 0xdd, 0xee, 0xff, 0x00, 0x11, 0x22, 0x33, 0x44, 0x55, 0x66, 0x77, 0x88, 0x99], rfl⟩,
    ascii "DAI".toList, 14⟩,
   ⟨⟨[0x11, 0x22, 0x33, 0x44, 0x55, 0x66, 0x77, 0x88, 0x99, 0xaa, 0xbb, 0xcc, 0xdd, 0xee, 0xff, 0x00,
      0x11, 0x22, 0x33, 0x44, 0x55, 0x66, 0x77, 0x88, 0x99, 0xaa, 0xbb, 0xcc, 0xdd, 0xee, 0xff, 0x00], rfl⟩,
    ascii "BTC".toList, 12⟩,
   ⟨⟨[0xff, 0xee, 0xdd, 0xcc, 0xbb, 0xaa, 0x99, 0x88, 0x77, 0x66, 0x55, 0x44, 0x33, 0x22, 0x11, 0x00,
      0xff, 0xee, 0xdd, 0xcc, 0xbb, 0xaa, 0x99, 0x88, 0x77, 0x66, 0x55, 0x44, 0x33, 0x22, 0x11, 0x00], rfl⟩,
    ascii "LINK".toList, 14⟩]

/-- The loop of `get_hardcoded_token_info`. -/
def searchTokens (token_address : CArray UInt8 TOKEN_ADDRESS_LEN) (token_info : TokenInfo) :
    List TokenEntry → Bool × TokenInfo
  | [] => (false, token_info)
  | entry :: rest =>
    if token_address = entry.address then (true, ⟨entry.ticker, entry.decimals⟩)
    else searchTokens token_address token_info rest

def get_hardcoded_token_info (token_address : CArray UInt8 TOKEN_ADDRESS_LEN) (token_info : TokenInfo) :
    Bool × TokenInfo :=
  searchTokens token_address token_info TOKENS

def get_dynamic_token_info (g_dynamic_token_info : DynamicTokenInfo) (token_address : CArray UInt8 TOKEN_ADDRESS_LEN)
    (token_info : TokenInfo) : Bool × TokenInfo :=
  if !g_dynamic_token_info.received then (false, token_info)
  else if token_address ≠ g_dynamic_token_info.address then (false, token_info)
  else (true, ⟨g_dynamic_token_info.ticker, g_dynamic_token_info.decimals⟩)

/-- Either pointer may be NULL. -/
def get_token_info (g_dynamic_token_info : DynamicTokenInfo) (token_address : Option (CArray UInt8 TOKEN_ADDRESS_LEN))
    (token_info : Option TokenInfo) : Bool × Option TokenInfo :=
  match token_address, token_info with
  | some token_address, some token_info =>
    match get_dynamic_token_info g_dynamic_token_info token_address token_info with
    | (true, token_info) => (true, some token_info)
    | (false, token_info) =>
      match get_hardcoded_token_info token_address token_info with
      | (found, token_info) => (found, some token_info)
  | _, token_info => (false, token_info)

/-- What is known of the tokens: a partial function from their addresses. -/
abbrev Registry := CArray UInt8 TOKEN_ADDRESS_LEN → Option TokenInfo

/-- The registry of a database. The first entry of an address counts. -/
def listed (entries : List TokenEntry) : Registry := fun address =>
  (entries.find? fun entry => address = entry.address).map fun entry => ⟨entry.ticker, entry.decimals⟩

/-- What is known after a run: the database, but for the token the host has told of last. -/
def registry (h : List Input) : Registry :=
  match (h.filterMap Input.tells).getLast?.join with
  | none => listed TOKENS
  | some (address, token) => Function.update (listed TOKENS) address (some token)

/-- The loop over the table finds the first entry for an address, and leaves its output
alone when there is none. -/
theorem searchTokens_eq (address : CArray UInt8 TOKEN_ADDRESS_LEN) (token_info : TokenInfo)
    (entries : List TokenEntry) :
    searchTokens address token_info entries =
      ((listed entries address).isSome, (listed entries address).getD token_info) := by
  induction entries with
  | nil => rfl
  | cons entry rest ih =>
    rw [searchTokens, listed, List.find?_cons]
    by_cases haddress : address = entry.address
    · rw [if_pos haddress, decide_eq_true haddress]
      rfl
    · rw [if_neg haddress, decide_eq_false haddress]
      exact ih

/-- The lookup asks the slot first and the table second, as one registry that the slot
overrides. -/
theorem get_token_info_eq {slot : DynamicTokenInfo} {known : Registry}
    (hknown : known = match slot.token with
      | none => listed TOKENS
      | some (address, token) => Function.update (listed TOKENS) address (some token))
    (address : CArray UInt8 TOKEN_ADDRESS_LEN) (token_info : TokenInfo) :
    get_token_info slot (some address) (some token_info) =
      ((known address).isSome, some ((known address).getD token_info)) := by
  have hlisted := searchTokens_eq address token_info TOKENS
  have hbuiltin : known address = listed TOKENS address →
      get_dynamic_token_info slot address token_info = (false, token_info) →
      get_token_info slot (some address) (some token_info) =
        ((known address).isSome, some ((known address).getD token_info)) := by
    intro hsame hdynamic
    rw [hsame]
    simp only [get_token_info, hdynamic, get_hardcoded_token_info, hlisted]
  cases hreceived : slot.received with
  | false =>
    rw [DynamicTokenInfo.token, hreceived] at hknown
    apply hbuiltin
    · rw [hknown]
      rfl
    · rw [get_dynamic_token_info, hreceived]
      rfl
  | true =>
    simp only [DynamicTokenInfo.token, hreceived, if_true] at hknown
    by_cases haddress : address = slot.address
    · rw [hknown, haddress, Function.update_self]
      simp only [get_token_info, get_dynamic_token_info, hreceived, Bool.not_true, Bool.false_eq_true, if_false, ne_eq,
        not_true_eq_false]
      rfl
    · apply hbuiltin
      · rw [hknown, Function.update_of_ne haddress]
      · simp only [get_dynamic_token_info, hreceived, Bool.not_true, Bool.false_eq_true, if_false, if_pos haddress]

/-- After every run a lookup finds the token the host has told of last, under its address,
and the entries of the database under theirs. A refused descriptor leaves only the
database, and a failed lookup leaves its output alone. -/
theorem token_lookup_eq (sdk : Sdk) (h : List Input) (address : CArray UInt8 TOKEN_ADDRESS_LEN)
    (token_info : TokenInfo) :
    get_token_info ((app sdk).run h).g_dynamic_token_info (some address) (some token_info) =
      ((registry h address).isSome, some ((registry h address).getD token_info)) := by
  have htold : ((device sdk).run h).token = (h.filterMap Input.tells).getLast?.getD none :=
    (device sdk).run_last_written (fun d i => d.step_token sdk i) h
  apply get_token_info_eq
  rw [((app_simulates_device sdk).run h).token_eq, htold, registry]
  cases (h.filterMap Input.tells).getLast? <;> rfl

end hardmail
