import Sentinel.BotUa
import Sentinel.Fcrdns
import Sentinel.Ja4h
import Sentinel.ListConf
import Sentinel.PowGate

/-!
The getter of `ngx_http_sentinel_module.c` with all of its collectors: those that
hold a request against a list of the location, the one that looks at the headers,
and the ones of the zones, of the `User-Agent` and of the fingerprint.

Left out: the checks for `NULL` requests and the log lines.
-/

namespace Sentinel

section Request

/-- What the collectors read of a request. A header that is looked up by name is
`none` or `false` where its pointer in `headers_in` is `NULL`; `complexValue` is what
`ngx_http_complex_value` makes of a source. -/
structure SignalRequest where
  addrText : Bytes
  sockaddr : SockAddr
  uri : Bytes
  method : Ja4hMethod
  httpVersion : Nat
  headers : List (List HeaderLine)
  host : Bool
  contentLength : Bool
  transferEncoding : Bool
  userAgent : Option Bytes
  accept : Option Bytes
  acceptLanguage : Option Bytes
  acceptEncoding : Option Bytes
  complexValue : Bytes → Option Bytes

def SignalRequest.ja4h (r : SignalRequest) : Ja4hRequest :=
  ⟨r.method, r.httpVersion, r.headers, r.acceptLanguage⟩

def SignalRequest.agent (r : SignalRequest) : AgentRequest :=
  ⟨r.userAgent, r.accept, r.acceptLanguage, r.acceptEncoding, r.httpVersion⟩

/-- The fields of a location that the collectors read. -/
structure SignalConf where
  lcf : RequestConf
  fcrdns : FcrdnsConf
  lists : ListConf

end Request
section Headers

/-- `header_count`, part by part. -/
def headerCount (headers : List (List HeaderLine)) (name : Bytes) : Nat :=
  headers.foldl (fun n part => n + part.countP fun h =>
    h.key.length = name.length ∧ ngxStrncasecmp h.key name name.length = 0) 0

def sentinelHeaderSignal (r : SignalRequest) (inputs : Inputs) : Inputs :=
  let inputs := { inputs with headerAnomaly := false }
  if r.httpVersion = ngxHttpVersion11 ∧ ¬ r.host then { inputs with headerAnomaly := true }
  else if r.contentLength ∧ r.transferEncoding then { inputs with headerAnomaly := true }
  else if headerCount r.headers (str "host") > 1 then { inputs with headerAnomaly := true }
  else if r.userAgent = none ∧ headerCount r.headers (str "accept") = 0 then
    { inputs with headerAnomaly := true }
  else inputs

end Headers
section Lists
variable (lists : ListConf)

def sentinelHoneypotSignal (uri : Bytes) (inputs : Inputs) : Inputs :=
  { inputs with
    honeypot := lists.decoyPaths.any fun decoy =>
      uri.length ≥ decoy.length ∧ ngxStrncmp uri decoy decoy.length = 0 }

def sentinelAllowlistSignal (ngx : ListCore) (sockaddr : SockAddr) (inputs : Inputs) : Inputs :=
  let inputs := { inputs with allowlisted := false }
  if lists.allowCidrs.length = 0 then inputs
  else if ngx.cidrMatch sockaddr lists.allowCidrs = .ok then { inputs with allowlisted := true }
  else inputs

def sentinelAsnSignal (ngx : NgxCore) (r : SignalRequest) (inputs : Inputs) : Inputs :=
  let inputs := { inputs with datacenterAsn := false }
  match lists.asnSource with
  | none => inputs
  | some source =>
      if lists.asnList.length = 0 then inputs
      else
        match r.complexValue source with
        | none => inputs
        | some val =>
            if val.length = 0 then inputs
            else
              match ngx.atoi val with
              | none => inputs
              | some parsed =>
                  if parsed ≤ 0 then inputs
                  else { inputs with datacenterAsn := lists.asnList.any (· = parsed) }

/-- The tree of the client's family; unlike `ngx_cidr_match` it takes an IPv6 address
for one, whatever it maps. -/
def sentinelC2ipSignal (ngx : ListCore) (sockaddr : SockAddr) (inputs : Inputs) : Inputs :=
  let inputs := { inputs with c2ipFlagged := false }
  match sockaddr with
  | .inet addr _ =>
      match lists.c2ipTree with
      | none => inputs
      | some tree => { inputs with c2ipFlagged := ngx.radixFind tree (addrBits addr) }
  | .inet6 addr _ =>
      match lists.c2ipTree6 with
      | none => inputs
      | some tree => { inputs with c2ipFlagged := ngx.radixFind tree (addrBits addr) }
  | .other _ => inputs

/-- The search that the three collectors of fingerprints have in common. -/
def fpListed (fp : FpConf) (r : SignalRequest) : Bool :=
  match fp.source with
  | none => false
  | some source =>
      if fp.list.length = 0 then false
      else
        match r.complexValue source with
        | none => false
        | some val =>
            if val.length = 0 then false
            else fp.list.any fun deny =>
              deny.length = val.length ∧ ngxStrncasecmp deny val val.length = 0

def sentinelJa3Signal (r : SignalRequest) (inputs : Inputs) : Inputs :=
  { inputs with ja3Flagged := fpListed lists.ja3 r }

def sentinelJa4Signal (r : SignalRequest) (inputs : Inputs) : Inputs :=
  { inputs with ja4Flagged := fpListed lists.ja4 r }

def sentinelJa4tSignal (r : SignalRequest) (inputs : Inputs) : Inputs :=
  { inputs with ja4tFlagged := fpListed lists.ja4t r }

end Lists
section Getter

/-- The collectors of `ngx_sentinel_get_ctx` in their order. The last component is
the key for which FCrDNS starts a resolve. -/
def gatherAll (ngx : ListCore) (conf : SignalConf) (r : SignalRequest) (now : Nat)
    (shm : Segments) : Inputs × Segments × Option Key :=
  let core := ngx.toNgxCore
  let inputs := { noInputs with ja4h := sentinelJa4hCompute ngx.toJa4hCore r.ja4h }
  let s := sentinelErrrateSignal core conf.lcf r.addrText r.uri now inputs shm
  let inputs := sentinelBotuaSignal goodUaSubstrings r.agent s.1
  let inputs := sentinelHeaderSignal r inputs
  let inputs := sentinelHoneypotSignal conf.lists r.uri inputs
  let inputs := sentinelAllowlistSignal conf.lists ngx r.sockaddr inputs
  let s := sentinelVelocitySignal core conf.lcf r.addrText now inputs s.2
  let inputs := sentinelAsnSignal conf.lists core r s.1
  let inputs := sentinelC2ipSignal conf.lists ngx r.sockaddr inputs
  let inputs := sentinelJa3Signal conf.lists r inputs
  let inputs := sentinelJa4Signal conf.lists r inputs
  let inputs := sentinelJa4tSignal conf.lists r inputs
  let inputs := sentinelCoherenceSignal r.agent inputs
  let f := sentinelFcrdnsSignal core conf.fcrdns r.addrText r.sockaddr now inputs s.2
  let s := sentinelCrowdsecSignal core conf.lcf r.addrText now f.1 f.2.1
  (s.1, s.2, f.2.2)

/-- The context of a request whose slot is empty. -/
def requestCtx (ngx : ListCore) (conf : SignalConf) (r : SignalRequest) (now : Nat)
    (shm : Segments) : SentinelCtx :=
  scoredCtx conf.lcf (gatherAll ngx conf r now shm).1

end Getter
end Sentinel
