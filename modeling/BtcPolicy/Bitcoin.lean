import BtcPolicy.Lib.FiniteMap
import BtcPolicy.Lib.Hex

/-! Transactions and PSBTs as the node handles them, and the library functions it calls on them. A
signature is carried as its canonical DER bytes. -/

namespace BtcPolicy.Bitcoin
open FiniteMap Hex

abbrev Bytes := List UInt8
abbrev Script := Bytes
abbrev PublicKey := Bytes
abbrev Txid := Bytes

instance : LawfulBEq Bytes := List.instLawfulBEq

structure OutPoint where
  txid : Txid
  vout : Nat
  deriving DecidableEq, Repr

structure TxIn where
  previousOutput : OutPoint
  sequence : Nat
  deriving DecidableEq, Repr

structure TxOut where
  value : Nat
  scriptPubkey : Script
  deriving DecidableEq, Repr

structure Transaction where
  version : Int
  lockTime : Nat
  input : List TxIn
  output : List TxOut
  deriving DecidableEq, Repr

/-- An input with what a signer or a caller filled in: its script and its witness. -/
structure RawInput where
  txIn : TxIn
  scriptSig : Script
  witness : List Bytes

structure RawTransaction where
  version : Int
  lockTime : Nat
  input : List RawInput
  output : List TxOut

/-- The transaction without the scripts and witnesses of its inputs. -/
def RawTransaction.unsigned (tx : RawTransaction) : Transaction :=
  ⟨tx.version, tx.lockTime, tx.input.map RawInput.txIn, tx.output⟩

/-- `EcdsaSighashType::All.to_u32()`. -/
def sighashAll : Nat := 1

/-- `ecdsa::Signature`. -/
structure EcdsaSignature where
  der : Bytes
  sighashType : Nat
  deriving DecidableEq, Repr

structure PsbtInput where
  witnessUtxo : Option TxOut
  partialSigs : Map PublicKey EcdsaSignature
  witnessScript : Option Script
  redeemScript : Option Script
  sighashType : Option Nat
  finalScriptSig : Option Script
  finalScriptWitness : Option (List Bytes)

/-- `bip32Derivation` is a hint of the PSBT's author: a fingerprint and a path for each key. -/
structure PsbtOutput where
  bip32Derivation : Map PublicKey (Bytes × List Nat)

structure Psbt where
  unsignedTx : Transaction
  inputs : List PsbtInput
  outputs : List PsbtOutput

/-- The functions of the bitcoin, secp256k1 and miniscript libraries the store calls. `fromDer` parses a
signature and hands back its canonical DER; `finalize` is `finalize_mut` followed by `extract_tx`. -/
structure Library where
  computeTxid : Transaction → Txid
  p2wshSignatureHash : Transaction → Nat → Script → Nat → Except String Bytes
  taggedHash : String → Bytes → Bytes
  fromDer : Bytes → Option Bytes
  verifyEcdsa : Bytes → Bytes → PublicKey → Bool
  serializedLen : Psbt → Nat
  finalize : Psbt → Option Transaction

/-- `Txid::to_string` prints the bytes in reverse. -/
def txidToString (txid : Txid) : String := toHex txid.reverse

/-- `from_hex_32` and `from_hex_16`. -/
def fromHexOf (length : Nat) (text : String) : Option Bytes :=
  (fromHex text).filter (fun bytes => decide (bytes.length = length))

/-- `Txid::from_str` reads the bytes in reverse. -/
def txidFromStr (text : String) : Option Txid := (fromHexOf 32 text).map List.reverse

def leBytes : Nat → Nat → Bytes
  | 0, _ => []
  | width + 1, value => UInt8.ofNat (value % 256) :: leBytes width (value / 256)

/-- `push_var`: a little-endian `u32` length, then the bytes. -/
def pushVar (bytes : Bytes) : Bytes := leBytes 4 bytes.length ++ bytes

end BtcPolicy.Bitcoin
