import BtcPolicy.Bitcoin

/-! What the node and its coordinator say to each other: the two request variants, the response, and the
exact refusals a handler answers with. -/

namespace BtcPolicy.Node
open Bitcoin

inductive RefusalCode where
  | wrongDescriptor
  | unknownInput
  | destNotAllowed
  | changeNotDerivable
  | feeExceedsCap
  | badSighash
  | userSigInvalid
  | commitmentExpired
  | psbtInconsistent
  | badPin
  | fraudSuspected
  | coordAuthInvalid
  | nonceReplayed
  | coordNonceCapacity
  | candidateCapacity
  | expiryTooShort
  | refreshTooSoon
  | refreshFeeExceedsCap
  | refreshSubordinated
  | hotBudgetExceeded
  | hotVelocityExceeded
  deriving DecidableEq, Repr

structure Refusal where
  code : RefusalCode
  check : String
  detail : String
  deriving DecidableEq, Repr

structure Accepted where
  commitmentId : String
  firstSeen : Nat
  remainingSecs : Nat
  deriving DecidableEq, Repr

inductive SignResponse where
  | accepted (accepted : Accepted)
  | refusal (refusal : Refusal)
  deriving DecidableEq, Repr

/-- Input that does not decode: an HTTP 400, not a policy outcome. -/
structure BadRequest where
  message : String
  deriving DecidableEq, Repr

/-- What a handler returns. -/
abbrev SignResult := Except BadRequest SignResponse

structure SignRequest where
  psbt : String
  escapePsbt : String
  escapeBumps : List String
  pin : String
  nonce : String
  expiry : Nat
  policyVersion : Nat
  coordSig : String
  deriving DecidableEq, Repr

structure RefreshRequest where
  refreshPsbt : String
  nonce : String
  expiry : Nat
  policyVersion : Nat
  coordSig : String
  deriving DecidableEq, Repr

inductive TaggedRequest where
  | spend (request : SignRequest)
  | refresh (request : RefreshRequest)
  deriving DecidableEq, Repr

/-- The fields the coordinator's signature covers. -/
inductive CoordRequest where
  | spend (spendPsbt escapePsbt : String) (escapeBumps : List String) (pin nonce : String)
      (expiry policyVersion : Nat)
  | refresh (refreshPsbt nonce : String) (expiry policyVersion : Nat)
  deriving DecidableEq, Repr

def SignRequest.coordRequest (request : SignRequest) : CoordRequest :=
  .spend request.psbt request.escapePsbt request.escapeBumps request.pin request.nonce request.expiry
    request.policyVersion

def RefreshRequest.coordRequest (request : RefreshRequest) : CoordRequest :=
  .refresh request.refreshPsbt request.nonce request.expiry request.policyVersion

namespace CoordRequest

def nonce : CoordRequest → String
  | .spend _ _ _ _ nonce _ _ => nonce
  | .refresh _ nonce _ _ => nonce

def expiry : CoordRequest → Nat
  | .spend _ _ _ _ _ expiry _ => expiry
  | .refresh _ _ expiry _ => expiry

def isSpend : CoordRequest → Bool
  | .spend .. => true
  | .refresh .. => false

end CoordRequest

def maxPinBytes : Nat := 64

def maxEscapeBumps : Nat := 3

/-! ### Refusals -/

def refusal (code : RefusalCode) (check detail : String) : SignResponse := .refusal ⟨code, check, detail⟩

def fraudSuspected : SignResponse := refusal .fraudSuspected "lockdown" "funds quarantined by policy"

def pinRefusal (locked : Bool) : SignResponse :=
  if locked then
    refusal .badPin "pin_attempt_budget" "pin attempts are rate-limited; this node is temporarily locked out"
  else refusal .badPin "pin" "submitted PIN does not match an enrolled PIN"

/-- The verdicts that the identity they are recorded under fully determines. -/
def isRecordableVerdict : SignResponse → Bool
  | .accepted _ => true
  | .refusal refused =>
    match refused.code with
    | .destNotAllowed | .changeNotDerivable | .feeExceedsCap => true
    | _ => false

end BtcPolicy.Node
