import Scioncc.Gateway.Parameters
import Mathlib.Data.String.Basic

/-!
# The service gateway's request pipeline

`process_gateway_request` and `process_gateway_agent_request` check the URL and, for a POST, the
payload; build the RPC's keyword arguments with `create_parameter_list`; read the requester, the
expiry and the authentication token with `get_governance_info_from_request`; check them with
`validate_request`; put the headers of `build_message_headers` among the arguments; and call the
operation. An exception anywhere on the way becomes the reply of `build_error_response`, and a
request from an untrusted address is refused before any of this.

What the pipeline consults outside the repository is a field of `Platform`: the service registry and
the argspecs of the clients' methods, `json_loads`, `ast.literal_eval`, Python's `str` and `int` of a
JSON value, the identity management service, the clock, the role header `build_message_headers`
reads from the cache or the org service (modelled in `Gateway.RoleCache`), and the RPCs.

Two things hold of every request. An RPC only runs as the anonymous actor with expiry `"0"` or as an
actor the identity service knows, with an expiry that is not in the past, and its `headers` are the
gateway's whatever the query or the payload holds. And the gateway authenticates nobody itself:
without a token, or with one the identity service rejects, a request runs as the actor its
`requester` argument names, provided the identity service knows that actor. An `IonObject` among
an RPC's arguments always comes from the POST payload, never from the query.
-/

namespace Scioncc.Gateway

open Scioncc.Core

def defaultExpiry : String := "0"

def returnMimetypeParam : String := "return_mimetype"

inductive Method
  | get
  | post
  deriving DecidableEq

/-- The parts of a Flask request the gateway reads. -/
structure Request where
  method : Method
  args : List (String × String)
  form : List (String × String)
  remoteAddr : Option String

structure ServiceDef where
  name : String
  client : Option (String → Option ArgSpec)

structure TokenInfo where
  actorId : Option Json
  expiry : Option Json

structure Dispatch (O H : Type) where
  target : String
  operation : String
  params : ParamList O H

/-- What the pipeline consults outside the repository; a token check that raises is `none`. -/
structure Platform (O H V : Type) where
  getServiceByName : String → Option ServiceDef
  jsonLoads : String → Option Json
  literalEval : String → Except Raised Json
  isIonObjectDict : Json → Bool
  createIonObject : Json → Except Raised O
  pyStr : Json → String
  pyInt : Json → Option Int
  checkAuthenticationToken : Json → Option TokenInfo
  readActorIdentity : Json → Except Raised Unit
  currentTimeMillis : Int
  defaultActorId : String
  roleHeader : Json → H
  noRoles : H
  callService : Dispatch O H → Except Raised V
  resourceAgentClient : String → Except Raised Unit
  agentArgspec : String → Option ArgSpec
  callAgent : Dispatch O H → Except Raised V

namespace Raised

def className : Raised → String
  | ion c _ => c.name
  | builtin name _ => name

def message : Raised → Option String
  | ion _ m => some m
  | builtin _ m => m

end Raised

/-- A reply's body: a `GatewayResponse`, a `GatewayError` without its `Trace`, or `custom_403`'s. -/
inductive Body (V : Type)
  | data (result : V)
  | error (exception : String) (message : Option String)
  | denied

structure Reply (V : Type) where
  body : Body V
  mimetype : Option String

def gatewayJsonResponse {V : Type} (args : List (String × String)) (result : V) : Reply V :=
  ⟨.data result, args.lookup returnMimetypeParam⟩

def buildErrorResponse {V : Type} (args : List (String × String)) (e : Raised) : Reply V :=
  ⟨.error e.className e.message, args.lookup returnMimetypeParam⟩

/-- With no trusted originators configured, which `on_init` records as `None`, every address
is trusted. -/
def isTrustedAddress (trustedOriginators : List String) (requestingAddress : Option String) : Bool :=
  trustedOriginators.isEmpty || trustedOriginators.any fun addr => requestingAddress == some addr

def isTrustedRequest {V : Type} (trustedOriginators : List String) (rq : Request) (route : Reply V) :
    Reply V :=
  if isTrustedAddress trustedOriginators rq.remoteAddr then route else ⟨.denied, none⟩

def missingKey (key : String) : String :=
  "The JSON request is missing the '" ++ key ++ "' key in the request"

def requireKey (container : Json) (key message : String) : Except Raised Unit := do
  if ← container.contains key then pure () else throw (.ion .inconsistent message)

section Pipeline

variable {O H V : Type} (p : Platform O H V)

def readPayload (form : List (String × String)) : Except Raised Json :=
  match form.lookup "payload" with
  | none => .error (.builtin "BadRequestKeyError" none)
  | some payload =>
    match p.jsonLoads payload with
    | some j => .ok j
    | none => .error (.builtin "JSONDecodeError" none)

/-- The payload checks both routes make, in order, each route with its own messages. -/
def checkPayload (j : Json) (requestType nameKey opKey name operation : String)
    (missingRequest missingName missingOp : String) (nameMismatch opMismatch : String → String) :
    Except Raised Unit := do
  requireKey j requestType missingRequest
  let rq ← j.getItem requestType
  requireKey rq nameKey missingName
  requireKey rq opKey missingOp
  let n ← rq.getItem nameKey
  if !n.eqStr name then throw (.ion .inconsistent (nameMismatch (p.pyStr n)))
  let o ← rq.getItem opKey
  if !o.eqStr operation then throw (.ion .inconsistent (opMismatch (p.pyStr o)))

def checkServiceRequest (j : Json) (serviceName operation : String) : Except Raised Unit :=
  checkPayload p j "serviceRequest" "serviceName" "serviceOp" serviceName operation
    (missingKey "serviceRequest") (missingKey "serviceName") (missingKey "serviceOp")
    (fun v => "Target service name in the JSON request (" ++ v ++
      ") does not match service name in URL (" ++ serviceName ++ ")")
    (fun v => "Target service operation in the JSON request (" ++ v ++
      ") does not match service name in URL (" ++ operation ++ ")")

/-- A missing `agentId` is reported as a missing `agentRequest`. -/
def checkAgentRequest (j : Json) (resourceId operation : String) : Except Raised Unit :=
  checkPayload p j "agentRequest" "agentId" "agentOp" resourceId operation
    (missingKey "agentRequest") (missingKey "agentRequest") (missingKey "agentOp")
    (fun v => "Target agent id in the JSON request (" ++ v ++
      ") does not match agent id in URL (" ++ resourceId ++ ")")
    (fun v => "Target agent operation in the JSON request (" ++ v ++
      ") does not match agent operation in URL (" ++ operation ++ ")")

def fieldOr (rq : Json) (key : String) (default : Json) : Except Raised Json := do
  if ← rq.contains key then rq.getItem key else pure default

/-- The requester, expiry and token of the query, or of the payload's request object. -/
def requestGovernance (requestType : String) (args : List (String × String))
    (jsonParams : Option Json) : Except Raised (Json × Json × Json) :=
  match jsonParams.filter Json.truthy with
  | none =>
    .ok (((args.lookup "requester").map .str).getD (.str p.defaultActorId),
      ((args.lookup "expiry").map .str).getD (.str defaultExpiry),
      ((args.lookup "authtoken").map .str).getD (.str ""))
  | some j => do
    let rq ← j.getItem requestType
    let actorId ← fieldOr rq "requester" (.str p.defaultActorId)
    let expiry ← fieldOr rq "expiry" (.str defaultExpiry)
    let authtoken ← fieldOr rq "authtoken" (.str "")
    pure (actorId, expiry, authtoken)

/-- A token the identity service resolves replaces the actor and the expiry; one it rejects, or
whose check raises, is ignored. -/
def getGovernanceInfoFromRequest (requestType : String) (args : List (String × String))
    (jsonParams : Option Json) : Except Raised (Json × Json) := do
  let (actorId, expiry, authtoken) ← requestGovernance p requestType args jsonParams
  if authtoken.truthy then
    match p.checkAuthenticationToken authtoken with
    | some info => pure (info.actorId.getD actorId, info.expiry.getD expiry)
    | none => pure (actorId, expiry)
  else pure (actorId, expiry)

/-- The anonymous actor and an unknown one run as the anonymous actor with expiry `"0"`; a known
actor's expiry must read as an integer and not be past, `0` and below never expiring. -/
def validateRequest (actorId expiry : Json) : Except Raised (Json × Json) :=
  if actorId.eqStr p.defaultActorId then .ok (actorId, .str defaultExpiry)
  else
    match p.readActorIdentity actorId with
    | .error (.ion .notFound _) => .ok (.str p.defaultActorId, .str defaultExpiry)
    | .error e => .error e
    | .ok () =>
      match p.pyInt expiry with
      | none => .error (.ion .inconsistent
          ("Unable to read the expiry value in the request '" ++ p.pyStr expiry ++ "' as an int"))
      | some n =>
        if 0 < n ∧ n < p.currentTimeMillis then
          .error (.ion .unauthorized
            "The certificate associated with the user and expiry time in the request has expired.")
        else .ok (actorId, expiry)

def buildMessageHeaders (actorId expiry : Json) : Headers H :=
  ⟨actorId, expiry, if actorId.eqStr p.defaultActorId then p.noRoles else p.roleHeader actorId⟩

/-- The lines both routes share after their own checks. -/
def governedParams (requestType : String) (method : Option ArgSpec) (args : List (String × String))
    (jsonParams : Option Json) : Except Raised (ParamList O H) := do
  let params ← createParameterList p.literalEval p.isIonObjectDict p.createIonObject requestType
    method args jsonParams
  let info ← getGovernanceInfoFromRequest p requestType args jsonParams
  let valid ← validateRequest p info.1 info.2
  pure (params.insert "headers" (.headers (buildMessageHeaders p valid.1 valid.2)))

def checkedPayload (check : Json → Except Raised Unit) (rq : Request) : Except Raised (Option Json) :=
  if rq.method = .post then do
    let j ← readPayload p rq.form
    check j
    pure (some j)
  else .ok none

def prepareServiceCall (serviceName operation : String) (rq : Request) :
    Except Raised (Dispatch O H) :=
  if serviceName = "" then .error (.ion .badRequest "Target service name not found in the URL")
  else
    match p.getServiceByName serviceName with
    | none =>
      .error (.ion .badRequest ("The requested service (" ++ serviceName ++ ") is not available"))
    | some svc =>
      if operation = "" then .error (.ion .badRequest "Service operation not specified in the URL")
      else
        match svc.client with
        | none => .error (.ion .inconsistent
            ("Cannot find a client class for the specified service: " ++ serviceName))
        | some client => do
          let jsonParams ← checkedPayload p (fun j => checkServiceRequest p j svc.name operation) rq
          let params ← governedParams p "serviceRequest" (client operation) rq.args jsonParams
          pure ⟨serviceName, operation, params⟩

def processGatewayRequest (serviceName operation : String) (rq : Request) : Reply V :=
  match prepareServiceCall p serviceName operation rq >>= p.callService with
  | .ok result => gatewayJsonResponse rq.args result
  | .error e => buildErrorResponse rq.args e

/-- The parameters follow the argspecs of `ResourceAgentProcessClient`, while the call goes to
the `ResourceAgentClient` built for the resource. -/
def prepareAgentCall (resourceId operation : String) (rq : Request) :
    Except Raised (Dispatch O H) :=
  if resourceId = "" then .error (.ion .badRequest "Am agent resource_id was not found in the URL")
  else if operation = "" then
    .error (.ion .badRequest "An agent operation was not specified in the URL")
  else do
    let jsonParams ← checkedPayload p (fun j => checkAgentRequest p j resourceId operation) rq
    p.resourceAgentClient resourceId
    let params ← governedParams p "agentRequest" (p.agentArgspec operation) rq.args jsonParams
    pure ⟨resourceId, operation, params⟩

def processGatewayAgentRequest (resourceId operation : String) (rq : Request) : Reply V :=
  match prepareAgentCall p resourceId operation rq >>= p.callAgent with
  | .ok result => gatewayJsonResponse rq.args result
  | .error e => buildErrorResponse rq.args e

end Pipeline

theorem Json.eqStr_iff {v : Json} {s : String} : v.eqStr s = true ↔ v = .str s := by
  cases v <;> simp [Json.eqStr]

section Authorization

variable {O H V : Type} (p : Platform O H V)

/-- Whom an RPC may run as: the anonymous actor with expiry `"0"`, or a known actor whose expiry
is not past. -/
def Authorized (actorId expiry : Json) : Prop :=
  (actorId = .str p.defaultActorId ∧ expiry = .str defaultExpiry) ∨
    (p.readActorIdentity actorId = .ok () ∧
      ∃ n, p.pyInt expiry = some n ∧ (n ≤ 0 ∨ p.currentTimeMillis ≤ n))

variable {p}

theorem validateRequest_authorized {actorId expiry : Json} {valid : Json × Json}
    (h : validateRequest p actorId expiry = .ok valid) : Authorized p valid.1 valid.2 := by
  unfold validateRequest at h
  split_ifs at h with ha
  · cases h
    exact .inl ⟨Json.eqStr_iff.mp ha, rfl⟩
  · split at h
    · cases h
      exact .inl ⟨rfl, rfl⟩
    · cases h
    · rename_i hr
      split at h
      · cases h
      · rename_i n hn
        split_ifs at h with ht
        cases h
        exact .inr ⟨hr, n, hn, by omega⟩

theorem governedParams_ok {requestType : String} {method : Option ArgSpec}
    {args : List (String × String)} {jsonParams : Option Json} {params : ParamList O H}
    (h : governedParams p requestType method args jsonParams = .ok params) :
    ∃ ps info valid, createParameterList p.literalEval p.isIonObjectDict p.createIonObject
        requestType method args jsonParams = .ok ps ∧
      getGovernanceInfoFromRequest p requestType args jsonParams = .ok info ∧
      validateRequest p info.1 info.2 = .ok valid ∧
      params = ps.insert "headers" (.headers (buildMessageHeaders p valid.1 valid.2)) := by
  obtain ⟨ps, hps, h⟩ := bind_eq_ok.mp h
  obtain ⟨info, hinfo, h⟩ := bind_eq_ok.mp h
  obtain ⟨valid, hv, h⟩ := bind_eq_ok.mp h
  exact ⟨ps, info, valid, hps, hinfo, hv, (Except.ok.inj h).symm⟩

theorem checkedPayload_get {check : Json → Except Raised Unit} {rq : Request}
    (hget : rq.method = .get) : checkedPayload p check rq = .ok none := by
  simp [checkedPayload, hget]

theorem prepareServiceCall_ok {serviceName operation : String} {rq : Request} {d : Dispatch O H}
    (h : prepareServiceCall p serviceName operation rq = .ok d) :
    ∃ (svc : ServiceDef) (client : String → Option ArgSpec) (jsonParams : Option Json),
      p.getServiceByName serviceName = some svc ∧
      svc.client = some client ∧ checkedPayload p (fun j => checkServiceRequest p j svc.name operation) rq = .ok jsonParams ∧
      governedParams p "serviceRequest" (client operation) rq.args jsonParams = .ok d.params := by
  unfold prepareServiceCall at h
  by_cases hs : serviceName = ""
  · simp only [hs, ↓reduceIte] at h
    cases h
  cases hsvc : p.getServiceByName serviceName with
  | none => simp only [hs, hsvc, ↓reduceIte] at h; cases h
  | some svc =>
    by_cases ho : operation = ""
    · simp only [hs, hsvc, ho, ↓reduceIte] at h
      cases h
    cases hclient : svc.client with
    | none => simp only [hs, hsvc, ho, hclient, ↓reduceIte] at h; cases h
    | some client =>
      simp only [hs, hsvc, ho, hclient, ↓reduceIte] at h
      obtain ⟨jsonParams, hj, h⟩ := bind_eq_ok.mp h
      obtain ⟨params, hp, h⟩ := bind_eq_ok.mp h
      cases h
      exact ⟨svc, client, jsonParams, rfl, hclient, hj, hp⟩

theorem prepareAgentCall_ok {resourceId operation : String} {rq : Request} {d : Dispatch O H}
    (h : prepareAgentCall p resourceId operation rq = .ok d) :
    ∃ jsonParams,
      checkedPayload p (fun j => checkAgentRequest p j resourceId operation) rq = .ok jsonParams ∧
      governedParams p "agentRequest" (p.agentArgspec operation) rq.args jsonParams = .ok d.params := by
  unfold prepareAgentCall at h
  split_ifs at h
  obtain ⟨jsonParams, hj, h⟩ := bind_eq_ok.mp h
  obtain ⟨_, -, h⟩ := bind_eq_ok.mp h
  obtain ⟨params, hp, h⟩ := bind_eq_ok.mp h
  cases h
  exact ⟨jsonParams, hj, hp⟩

/-- Every RPC either route makes runs as an authorized actor, with the `headers`
`build_message_headers` gives it, whatever the query or the payload held under `headers`. -/
theorem rpc_runs_authorized (d : Dispatch O H)
    (hd : (∃ serviceName operation rq, prepareServiceCall p serviceName operation rq = .ok d) ∨
      ∃ resourceId operation rq, prepareAgentCall p resourceId operation rq = .ok d) :
    ∃ a e, Authorized p a e ∧
      d.params.lookup "headers" = some (.headers (buildMessageHeaders p a e)) := by
  have hgov : ∃ requestType method args jsonParams,
      governedParams p requestType method args jsonParams = .ok d.params := by
    rcases hd with ⟨_, _, _, h⟩ | ⟨_, _, _, h⟩
    · obtain ⟨_, client, jsonParams, -, -, -, hp⟩ := prepareServiceCall_ok h
      exact ⟨_, _, _, jsonParams, hp⟩
    · obtain ⟨jsonParams, -, hp⟩ := prepareAgentCall_ok h
      exact ⟨_, _, _, jsonParams, hp⟩
  obtain ⟨_, _, _, _, h⟩ := hgov
  obtain ⟨ps, info, valid, -, -, hv, hparams⟩ := governedParams_ok h
  exact ⟨valid.1, valid.2, validateRequest_authorized hv, by rw [hparams, AList.lookup_insert]⟩

theorem checkedPayload_some {check : Json → Except Raised Unit} {rq : Request} {j : Json}
    (h : checkedPayload p check rq = .ok (some j)) : readPayload p rq.form = .ok j := by
  unfold checkedPayload at h
  split_ifs at h
  · obtain ⟨j', hj', h⟩ := bind_eq_ok.mp h
    obtain ⟨_, -, h⟩ := bind_eq_ok.mp h
    cases h
    exact hj'
  · cases h

theorem governedParams_ionObject {requestType : String} {method : Option ArgSpec}
    {args : List (String × String)} {jsonParams : Option Json} {params : ParamList O H}
    (h : governedParams p requestType method args jsonParams = .ok params) {k : String} {o : O}
    (hk : params.lookup k = some (.ionObject o)) :
    ∃ j, jsonParams = some j ∧ ∃ rq ps v, j.getItem requestType = .ok rq ∧
      rq.getItem "params" = .ok ps ∧ ps.getItem k = .ok v ∧ p.createIonObject v = .ok o := by
  obtain ⟨ps, _, _, hps, -, -, rfl⟩ := governedParams_ok h
  by_cases hkh : k = "headers"
  · subst hkh
    rw [AList.lookup_insert] at hk
    cases hk
  rw [AList.lookup_insert_ne hkh] at hk
  cases method with
  | none => cases hps
  | some spec => exact createParameterList_ionObject hps hk

/-- An `IonObject` an RPC receives was built by `create_ion_object` from the request's payload. -/
theorem rpc_ionObject_from_payload {rq : Request} {d : Dispatch O H}
    (hd : (∃ serviceName operation, prepareServiceCall p serviceName operation rq = .ok d) ∨
      ∃ resourceId operation, prepareAgentCall p resourceId operation rq = .ok d)
    {k : String} {o : O} (hk : d.params.lookup k = some (.ionObject o)) :
    ∃ requestType j rqj ps v, readPayload p rq.form = .ok j ∧ j.getItem requestType = .ok rqj ∧
      rqj.getItem "params" = .ok ps ∧ ps.getItem k = .ok v ∧ p.createIonObject v = .ok o := by
  have hgov : ∃ requestType method check jsonParams, checkedPayload p check rq = .ok jsonParams ∧
      governedParams p requestType method rq.args jsonParams = .ok d.params := by
    rcases hd with ⟨_, _, h⟩ | ⟨_, _, h⟩
    · obtain ⟨_, _, jsonParams, -, -, hj, hp⟩ := prepareServiceCall_ok h
      exact ⟨_, _, _, jsonParams, hj, hp⟩
    · obtain ⟨jsonParams, hj, hp⟩ := prepareAgentCall_ok h
      exact ⟨_, _, _, jsonParams, hj, hp⟩
  obtain ⟨requestType, _, _, _, hj, h⟩ := hgov
  obtain ⟨j, rfl, rqj, ps, v, hrq, hps, hv, ho⟩ := governedParams_ionObject h hk
  exact ⟨requestType, j, rqj, ps, v, checkedPayload_some hj, hrq, hps, hv, ho⟩

theorem getGovernanceInfoFromRequest_requester {requestType : String}
    {args : List (String × String)} {a : String} (hreq : args.lookup "requester" = some a)
    (hexp : args.lookup "expiry" = none)
    (htok : ∀ t, args.lookup "authtoken" = some t → t ≠ "" →
      p.checkAuthenticationToken (.str t) = none) :
    getGovernanceInfoFromRequest p requestType args none = .ok (.str a, .str defaultExpiry) := by
  simp only [getGovernanceInfoFromRequest, requestGovernance, Option.filter, hreq, hexp,
    Option.map_some', Option.getD_some, Option.map_none', Option.getD_none, ok_bind]
  cases ht : args.lookup "authtoken" with
  | none => rfl
  | some t =>
    by_cases he : t = ""
    · subst he
      rfl
    · have hne : t.isEmpty = false := Bool.eq_false_iff.mpr fun h' => he ((String.isEmpty_iff t).mp h')
      have htruthy : (Json.str t).truthy = true := by simp [Json.truthy, hne]
      simp only [Option.map_some', Option.getD_some, htruthy, ↓reduceIte, htok t ht he]
      rfl

theorem validateRequest_known {a : String} (hknown : p.readActorIdentity (.str a) = .ok ())
    (hzero : p.pyInt (.str defaultExpiry) = some 0) :
    validateRequest p (.str a) (.str defaultExpiry) = .ok (.str a, .str defaultExpiry) := by
  unfold validateRequest
  split_ifs
  · rfl
  · simp only [hknown, hzero, lt_self_iff_false, false_and, ↓reduceIte]

/-- The gateway authenticates nobody itself: a query request without an expiry or a resolved token
runs as the actor its `requester` names, with expiry `"0"`, if that actor is known. -/
theorem requester_runs_unauthenticated (serviceName operation : String) (rq : Request) (a : String)
    (d : Dispatch O H) (hget : rq.method = .get) (hreq : rq.args.lookup "requester" = some a)
    (hexp : rq.args.lookup "expiry" = none)
    (htok : ∀ t, rq.args.lookup "authtoken" = some t → t ≠ "" →
      p.checkAuthenticationToken (.str t) = none)
    (hknown : p.readActorIdentity (.str a) = .ok ()) (hzero : p.pyInt (.str defaultExpiry) = some 0)
    (hd : prepareServiceCall p serviceName operation rq = .ok d) :
    d.params.lookup "headers" =
      some (.headers (buildMessageHeaders p (.str a) (.str defaultExpiry))) := by
  obtain ⟨_, _, jsonParams, -, -, hj, hp⟩ := prepareServiceCall_ok hd
  rw [checkedPayload_get hget] at hj
  cases hj
  obtain ⟨ps, info, valid, -, hinfo, hv, hparams⟩ := governedParams_ok hp
  rw [getGovernanceInfoFromRequest_requester hreq hexp htok] at hinfo
  cases hinfo
  rw [validateRequest_known hknown hzero] at hv
  cases hv
  rw [hparams, AList.lookup_insert]

end Authorization

/-- A gateway whose identity service knows `alice` only and whose token checks all fail. -/
def examplePlatform : Platform Unit (List String) Json where
  getServiceByName name :=
    if name = "resource_registry" then
      some ⟨"resource_registry", some fun op => if op = "find_resources" then some findResourcesSpec
        else none⟩
    else none
  jsonLoads _ := none
  literalEval := literalEvalTrue
  isIonObjectDict _ := false
  createIonObject _ := .error (.builtin "TypeError" none)
  pyStr _ := ""
  pyInt v := if v.eqStr "0" then some 0 else none
  checkAuthenticationToken _ := none
  readActorIdentity v := if v.eqStr "alice" then .ok () else .error (.ion .notFound "")
  currentTimeMillis := 1000
  defaultActorId := "anonymous"
  roleHeader _ := ["ION_MANAGER"]
  noRoles := []
  callService _ := .ok .null
  resourceAgentClient _ := .ok ()
  agentArgspec _ := none
  callAgent _ := .ok .null

/-- `GET /ion-service/resource_registry/find_resources?restype=BankAccount&requester=alice`. -/
def exampleRequest : Request :=
  ⟨.get, [("restype", "BankAccount"), ("requester", "alice")], [], none⟩

theorem rpc_runs_authorized_findResources :
    ∃ d, prepareServiceCall examplePlatform "resource_registry" "find_resources" exampleRequest =
        .ok d ∧
      ∃ a e, Authorized examplePlatform a e ∧
        d.params.lookup "headers" = some (.headers (buildMessageHeaders examplePlatform a e)) :=
  ⟨_, rfl, @rpc_runs_authorized Unit (List String) Json examplePlatform _
    (.inl ⟨"resource_registry", "find_resources", exampleRequest, rfl⟩)⟩

theorem requester_runs_unauthenticated_alice :
    ∃ d, prepareServiceCall examplePlatform "resource_registry" "find_resources" exampleRequest =
        .ok d ∧
      d.params.lookup "headers" =
        some (.headers (buildMessageHeaders examplePlatform (.str "alice") (.str defaultExpiry))) :=
  ⟨_, rfl, @requester_runs_unauthenticated Unit (List String) Json examplePlatform "resource_registry"
    "find_resources" exampleRequest "alice" _ rfl rfl rfl (fun _ h => Option.noConfusion h) rfl rfl
    rfl⟩

end Scioncc.Gateway
