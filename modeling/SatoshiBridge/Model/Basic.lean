import Mathlib.Data.Finset.Insert
import SatoshiBridge.Library.Checked
import SatoshiBridge.Library.FiniteMap
import SatoshiBridge.Model.Json

/-!
# Data of the bridge and the code it calls

The types the contract stores and passes around, for both chain builds, and the record `Host` of
everything the contract calls but does not contain: address codecs, key derivation, hashing, the
transaction libraries, the fee rule and the JSON codec of serde. Amounts are natural numbers; the
subtractions of the source are checked where they stand. Byte formats (a serialized psbt, signed
transaction bytes) are represented by the values the libraries read back from them.
-/

set_option autoImplicit false
set_option relaxedAutoImplicit false

namespace SatoshiBridge

abbrev AccountId := String
abbrev PublicKey := String
abbrev Path := String
abbrev ScriptBuf := List UInt8
abbrev OrchardRawAddress := List UInt8

/-- A transaction id: the number its hash bytes spell. -/
abbrev Txid := ℕ

inductive Chain
  | bitcoinMainnet | bitcoinTestnet | litecoinMainnet | litecoinTestnet
  | zcashMainnet | zcashTestnet | dogecoinMainnet | dogecoinTestnet
deriving DecidableEq

inductive BranchId
  | nu6 | nu6_1 | nu6_2 | nu6_3 | nu7
deriving DecidableEq

/-- `is_ironwood`. -/
def isIronwood : BranchId → Bool
  | .nu6_3 | .nu7 => true
  | _ => false

inductive Role
  | dao | operator | pauseManager | upgradableCodeStager | upgradableCodeDeployer
  | unrestrictedRelayer | relayerManager | refundOperator | unpauseManager | migrationOperator
  | trustedWithdrawSender
deriving DecidableEq

/-! ### Transactions -/

/-- An outpoint. It also stands for the storage key `{txid}@{vout}` that the contract prints from
it: the printed transaction id is hexadecimal, so the tag separates the two parts. -/
structure OutPoint where
  txid : Txid
  vout : ℕ
deriving DecidableEq

/-- `generate_utxo_storage_key`. -/
abbrev generateUtxoStorageKey (txid : Txid) (vout : ℕ) : OutPoint := ⟨txid, vout⟩

structure TxOut where
  value : ℕ
  scriptPubkey : ScriptBuf
deriving DecidableEq

structure TxIn where
  previousOutput : OutPoint
  sequence : ℕ
deriving DecidableEq

/-- A transaction without its signatures: what a transaction id commits to. The branch id, the
expiry height and the shielded bundle exist on Zcash only. -/
structure Transaction where
  version : ℕ
  lockTime : ℕ
  branchId : Option BranchId
  expiryHeight : ℕ
  input : List TxIn
  output : List TxOut
  shielded : Option (List UInt8)
deriving DecidableEq

/-- A script that unlocks one input: a final witness on Bitcoin, a scriptSig on Zcash. -/
abbrev ScriptSig := List UInt8

/-- A transaction with the signatures of its inputs, as decoded from `tx_bytes_with_sign`. -/
structure SignedTransaction where
  tx : Transaction
  scriptSigs : List (Option ScriptSig)
deriving DecidableEq

/-! ### Shielded bundles and psbts -/

/-- What the Orchard library reads from bundle bytes. -/
structure OrchardBundle where
  bytes : List UInt8
  actions : ℕ
  valueBalance : ℤ
deriving DecidableEq

structure OrchardOutput where
  amount : ℕ
  recipientAddr : OrchardRawAddress
deriving DecidableEq

structure ParsedOrchardBundle where
  bundle : OrchardBundle
  output : OrchardOutput
deriving DecidableEq

structure PsbtInput where
  previousOutput : OutPoint
  scriptSig : Option ScriptSig
deriving DecidableEq

/-- `PsbtWrapper` of the two builds in one record: the branch id, the expiry height, the bundle
and the recipient are those of the Zcash build. `inputsUtxo` holds the coins the inputs spend. -/
structure PsbtWrapper where
  branchId : Option BranchId
  expiryHeight : ℕ
  vin : List PsbtInput
  vout : List TxOut
  inputsUtxo : List (Option TxOut)
  orchard : Option ParsedOrchardBundle
  recipientAddress : Option String
deriving DecidableEq

structure UTXO where
  path : Path
  txBytes : List UInt8
  vout : ℕ
  balance : ℕ
deriving DecidableEq

/-! ### Messages -/

/-- The rest of an account id, after a separator or not: no separator begins or ends an id or stands
next to another. -/
def isAccountIdTail : Bool → List Char → Bool
  | afterSeparator, [] => !afterSeparator
  | afterSeparator, c :: rest =>
    if c.isLower ∨ c.isDigit then isAccountIdTail false rest
    else (c = '-' ∨ c = '_' ∨ c = '.') && !afterSeparator && isAccountIdTail true rest

/-- `AccountId::validate`. -/
def isAccountId (s : String) : Bool :=
  2 ≤ s.length && s.length ≤ 64 && isAccountIdTail true s.toList

structure SafeDepositMsg where
  msg : String
deriving DecidableEq

/-- The last three fields are what the types of the others hold: an `AccountId`, a `U128` and a
`Gas`. -/
structure PostAction where
  receiverId : AccountId
  amount : ℕ
  memo : Option String
  msg : String
  gas : Option ℕ
  receiverId_valid : isAccountId receiverId = true
  amount_lt : amount < 2 ^ 128
  gas_lt : ∀ g ∈ gas, g < 2 ^ 64
deriving DecidableEq

structure DepositMsg where
  recipientId : AccountId
  postActions : Option (List PostAction)
  extraMsg : Option String
  safeDeposit : Option SafeDepositMsg
  refundAddress : Option String
  recipientId_valid : isAccountId recipientId = true
deriving DecidableEq

structure ChainSpecificData where
  orchardBundleBytes : List UInt8
  expiryHeight : ℕ
deriving DecidableEq

structure TxInclusionInfo where
  txBlockHeight : ℕ
  mainchainTipHeight : ℕ
deriving DecidableEq

structure SignatureResponse where
  bigR : String
  s : String
  recoveryId : ℕ
deriving DecidableEq

/-- The parts of a parsed address that payments read: `script_pubkey()` and
`extract_orchard_receiver()`, each `none` where the source returns an error. -/
structure Address where
  scriptPubkey : Option ScriptBuf
  orchardReceiver : Option OrchardRawAddress
deriving DecidableEq

/-! ### The host -/

/-- The build, the account of the contract and the code the contract calls. -/
structure Host where
  /-- The `zcash` feature. -/
  zcash : Bool
  currentAccountId : AccountId
  /-- The root public key the chain signatures contract answers with. -/
  rootPublicKey : PublicKey
  storageByteCost : ℕ
  /-- The scriptPubKey of `generate_utxo_chain_address(path)`. -/
  chainScript : Chain → PublicKey → Path → ScriptBuf
  /-- `generate_utxo_chain_address(path).to_string()`. -/
  chainAddress : Chain → PublicKey → Path → String
  /-- `Address::parse`. -/
  parseAddress : Chain → String → Option Address
  /-- `Address::from_script(..).to_string()`. -/
  addressOfScript : Chain → ScriptBuf → Option String
  depositMsgToJson : DepositMsg → String
  depositMsgFromJson : String → Option DepositMsg
  /-- `hex::encode(env::sha256(..))`. -/
  sha256Hex : String → String
  computeTxid : Transaction → Txid
  /-- `WrappedTransaction::decode` on raw bytes. -/
  decodeTransaction : List UInt8 → Option Transaction
  /-- Whether the library's `extract_tx` (Bitcoin) or `freeze` (Zcash) succeeds. -/
  extractTxOk : PsbtWrapper → Bool
  /-- `read_v5_bundle` and `read_v6_bundle`; `none` is an error or an empty bundle. -/
  readBundle : BranchId → List UInt8 → Option OrchardBundle
  /-- `recover_output_with_ovk(0, BRIDGE_OVK)`. -/
  recoverOutputWithOvk : OrchardBundle → Option OrchardOutput
  /-- `zip317_min_fee`. -/
  zip317MinFee : ℕ → List ℕ → ℕ → ℕ → ℕ
  /-- The consensus serialization of a Zcash output. -/
  writeTxOut : TxOut → List UInt8
  /-- Personalised BLAKE2b-256 of the concatenation of its second argument. -/
  blake2b : List UInt8 → List UInt8 → List UInt8
  /-- `p2wpkh_signature_hash` of an input and its coin; `none` is an error. -/
  p2wpkhSighash : Transaction → ℕ → TxOut → Option (List UInt8)
  /-- The ZIP-244 signature hash of an input, given the coins of all inputs. -/
  zcashSighash : Transaction → List TxOut → ℕ → Option (List UInt8)
  /-- The unlocking script `save_signature` builds; `none` is an invalid signature. -/
  scriptSigOf : SignatureResponse → PublicKey → Path → Option ScriptSig
  /-- `serde_json::from_str::<Value>`. -/
  parseJson : String → Option Json
  /-- `serde_json::to_string` of a value. -/
  printJson : Json → String
  /-- `Txid::to_string`. -/
  showTxid : Txid → String

/-! ### The environment of a call -/

/-- What a method reads from its receipt: the accounts, the time, the deposit, and the answers of
the access plugins (whether the method is paused for the caller, whether the caller is a trusted
relayer, whether the `public_withdraw` feature is paused). -/
structure Env where
  predecessor : AccountId
  signer : AccountId
  blockTimestamp : ℕ
  attachedDeposit : ℕ
  trustedRelayer : Bool
  paused : Bool
  publicWithdrawPaused : Bool
deriving DecidableEq

/-- `nano_to_sec`. -/
def nanoToSec (nano : ℕ) : Option ℕ := do
  require (nano / 10 ^ 9 < 2 ^ 32)
  some (nano / 10 ^ 9)

/-- `nano_to_sec(env::block_timestamp())`. -/
def Env.nowSec (env : Env) : Option ℕ := nanoToSec env.blockTimestamp

/-- `assert_one_yocto`. -/
def Env.assertOneYocto (env : Env) : Option Unit := require (env.attachedDeposit = 1)

/-- The attribute `pause(except(roles(Role::DAO)))`. -/
def Env.assertNotPaused (env : Env) : Option Unit := require (env.paused = false)

/-- The attribute `trusted_relayer` of a method. -/
def Env.assertTrustedRelayer (env : Env) : Option Unit := require (env.trustedRelayer = true)

/-! ### Promise results -/

inductive ReturnValue
  | unit
  | bool (b : Bool)
  | u128 (n : ℕ)
  | inclusion (info : Option TxInclusionInfo)
  | height (h : ℕ)
  | publicKey (pk : PublicKey)
  | signature (r : SignatureResponse)
  | other
deriving DecidableEq

inductive PromiseResult
  | failed
  | value (v : ReturnValue)
deriving DecidableEq

/-- `is_promise_success`. -/
def PromiseResult.isSuccess : PromiseResult → Bool
  | .failed => false
  | .value _ => true

/-- A result that has to be a `bool`. -/
def PromiseResult.expectBool : PromiseResult → Option Bool
  | .value (.bool b) => some b
  | _ => none

/-- A result that has to be the inclusion of a transaction in the main chain. -/
def PromiseResult.expectInclusion : PromiseResult → Option TxInclusionInfo
  | .value (.inclusion info) => info
  | _ => none

/-- `#[callback_unwrap] last_block_height`. -/
def PromiseResult.expectHeight : PromiseResult → Option ℕ
  | .value (.height h) => some h
  | _ => none

/-- `is_refund_required`: only a parsed amount of zero asks for a refund. -/
def PromiseResult.isRefundRequired : PromiseResult → Bool
  | .value (.u128 amount) => amount = 0
  | _ => false

end SatoshiBridge
