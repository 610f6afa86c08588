import Ccrc.CodexBridge.Sse

/-! The table that turns an upstream failure into one error of the bridge, and the
two forms in which a client is answered. -/

set_option autoImplicit false

namespace Ccrc.CodexBridge

open Library
open Library.Str (lit ascii)

/-- One failure. A header is written in Latin-1, so its text is bytes here. -/
structure BridgeError where
  status : Nat
  etype : Str
  message : Str
  headers : Map Bytes Bytes
  state : Option Str
  code : Option Str
  requestId : Option Str
  kind : Str

namespace Errors

def overflowCodes : List Str := [lit "context_length_exceeded"]

def quotaCodes : List Str :=
  [lit "insufficient_quota", lit "credit_balance_exhausted",
    lit "organization_spend_limit_exceeded", lit "project_spend_limit_exceeded",
    lit "organization_usage_limit_exceeded"]

def usageLimitTypes : List Str := [lit "usage_limit_reached"]

def transientRateCodes : List Str := [lit "rate_limit_exceeded", lit "slow_down"]

def ineligibleCodes : List Str := [lit "usage_not_included"]

def policyCodes : List Str :=
  [lit "cyber_policy", lit "bio_policy", lit "invalid_prompt",
    lit "misalignment_policy_violation"]

def overloadCodes : List Str := [lit "server_is_overloaded", lit "flex_unavailable"]

def unrecognisedCode : Str := lit "unrecognised"

def invalidRequest : Str := lit "invalid_request_error"
def billingType : Str := lit "billing_error"
def rateLimit : Str := lit "rate_limit_error"
def permission : Str := lit "permission_error"
def policyBlocked : Str := lit "policy_blocked"
def overloadedType : Str := lit "overloaded_error"
def apiError : Str := lit "api_error"

def noRetry : Map Bytes Bytes := [(ascii "x-should-retry", ascii "false")]

def stateLimitPaused : Str := lit "limit-paused"
def stateIneligible : Str := lit "ineligible"

/-- `str.lower` as far as `CODE_RE` can see: outside ASCII only the Kelvin sign has
a lower case inside it. -/
def lowerPoint (c : CodePoint) : CodePoint :=
  if 65 ≤ c.val ∧ c.val ≤ 90 then Fin.ofNat 0x110000 (c.val + 32)
  else if c.val = 0x212A then Str.point 'k'
  else c

def lower (text : Str) : Str := text.map lowerPoint

/-- `CODE_RE`: one to sixty-four of `[a-z0-9_.-]`. -/
def isCode (text : Str) : Bool :=
  1 ≤ text.length && text.length ≤ 64 && text.all fun c =>
    (97 ≤ c.val && c.val ≤ 122) || Str.isDigit c || c == Str.point '_' || c == Str.point '.' ||
      c == Str.point '-'

def boundedCode (value : Option PyJson) : Option Str :=
  match value.bind PyJson.str? with
  | none => none
  | some text =>
      if text.all Str.isSpace then none
      else
        let lowered := lower text
        some (if isCode lowered then lowered else unrecognisedCode)

/-- The `error` object of a body, or the object itself. -/
def errorObject (obj : Option PyDict) : Option PyDict :=
  match obj with
  | none => none
  | some obj =>
      match (obj.get? (lit "error")).bind PyJson.dict? with
      | some inner => some inner
      | none => some obj

/-- The code and the type that an error object names, each bounded. -/
def names (err : Option PyDict) : Option Str × Option Str :=
  match err with
  | none => (none, none)
  | some err =>
      let named := boundedCode (err.get? (lit "code"))
      let code := if named.isNone then boundedCode (err.get? (lit "error")) else named
      let etype := err.get? (lit "type")
      (code, if etype.bind PyJson.str? = some (lit "error") then none else boundedCode etype)

def said (code : Option Str) : Str := code.getD (lit "no code")

def overflowUnknown (rid : Option Str) : BridgeError :=
  { status := 400, etype := invalidRequest, message := lit "prompt is too long", headers := [],
    state := none, code := some (lit "context_length_exceeded"), requestId := rid,
    kind := lit "overflow" }

/-- The plan's limit is spent; `retryAfter` is when it resets, where that is known. -/
def billing (code : Str) (retryAfter : Option Nat) (rid : Option Str) : BridgeError :=
  { status := 429, etype := billingType,
    message := lit "usage limit reached (" ++ code ++
      lit "): the lane's plan limit is spent until it resets",
    headers := (match retryAfter with
      | some seconds => [(ascii "retry-after", ascii (toString seconds))]
      | none => []) ++ noRetry,
    state := some stateLimitPaused, code := some code, requestId := rid, kind := lit "billing" }

def rate (code : Option Str) (retryAfter : Option Bytes) (rid : Option Str) : BridgeError :=
  { status := 429, etype := rateLimit,
    message := lit "rate limited upstream (" ++ said code ++ lit ")",
    headers := match retryAfter with
      | some seconds => [(ascii "retry-after", seconds)]
      | none => [],
    state := none, code := code, requestId := rid, kind := lit "rate" }

def ineligible (code : Str) (rid : Option Str) : BridgeError :=
  { status := 403, etype := permission,
    message := code ++ lit ": this account's plan does not include Codex usage",
    headers := noRetry, state := some stateIneligible, code := some code, requestId := rid,
    kind := lit "ineligible" }

def policy (code : Str) (rid : Option Str) : BridgeError :=
  { status := 400, etype := policyBlocked,
    message := lit "policy_blocked: the upstream refused the request (" ++ code ++ lit ")",
    headers := noRetry, state := none, code := some code, requestId := rid, kind := lit "policy" }

def overloaded (code : Str) (rid : Option Str) : BridgeError :=
  { status := 529, etype := overloadedType,
    message := lit "upstream overloaded (" ++ code ++ lit ")", headers := [], state := none,
    code := some code, requestId := rid, kind := lit "overloaded" }

def unavailable (what : Str) (code rid : Option Str) : BridgeError :=
  { status := 503, etype := apiError,
    message := lit "upstream unavailable (" ++ what ++ lit ")", headers := [], state := none,
    code := code, requestId := rid, kind := lit "unavailable" }

/-- The row that one name stands for. -/
def rowOf (name : Str) (resets : Option Nat) (rid : Option Str) (retryAfter : Option Bytes) :
    Option BridgeError :=
  if name ∈ overflowCodes then some (overflowUnknown rid)
  else if name ∈ usageLimitTypes ∨ name ∈ quotaCodes then some (billing name resets rid)
  else if name ∈ transientRateCodes then some (rate (some name) retryAfter rid)
  else if name ∈ ineligibleCodes then some (ineligible name rid)
  else if name ∈ policyCodes then some (policy name rid)
  else if name ∈ overloadCodes then some (overloaded name rid)
  else none

/-- The row of the code, else of the type. -/
def byCode (code etype : Option Str) (resets : Option Nat) (rid : Option Str)
    (retryAfter : Option Bytes) : Option BridgeError :=
  (code.bind fun name => rowOf name resets rid retryAfter).orElse fun _ =>
    etype.bind fun name => rowOf name resets rid retryAfter

/-- A `response.failed`'s error or a top-level `error` event. `resetSeconds` reads
the seconds to the limit's reset from the error object at the present time. -/
def classifyFailed (resetSeconds : PyDict → Option Nat) (error : Option PyDict) : BridgeError :=
  let err := errorObject error
  let (code, etype) := names err
  match byCode code etype (err.bind resetSeconds) none none with
  | some row => row
  | none =>
      let shown := if code.isSome then code else etype
      unavailable (lit "the response failed: " ++ said shown) shown none

/-- The overflow refusal with its numbers, in the text the client's compaction reads. -/
def overflow (n m : Nat) : BridgeError :=
  { overflowUnknown none with
    message := lit "prompt is too long: " ++ Str.ofNat n ++ lit " tokens > " ++ Str.ofNat m ++
      lit " maximum" }

def payload (e : BridgeError) : PyDict :=
  [(lit "type", .str (lit "error")),
    (lit "error", .dict [(lit "type", .str e.etype), (lit "message", .str e.message)])]

/-- The status, headers and body before the commit point. -/
def httpAnswer (e : BridgeError) : Nat × Map Bytes Bytes × Bytes :=
  let headers := e.headers.foldl (fun headers (key, value) => Map.set key value headers)
    [(ascii "content-type", ascii "application/json")]
  (e.status, headers, (PyJson.dumps true (.dict (payload e))).flatMap Str.encodePoint)

/-- The one `error` event after the commit point. -/
def event (e : BridgeError) : Bytes := (Sse.frame (lit "error") (payload e)).getD []

end Errors

end Ccrc.CodexBridge
