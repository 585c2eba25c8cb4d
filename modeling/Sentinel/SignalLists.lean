import Sentinel.Crawler
import Sentinel.FcrdnsVerdict
import Sentinel.Ja4hOrder
import Sentinel.Lib.PrefixTree
import Sentinel.ListBlocks
import Sentinel.Signals

/-!
From the lists of a configuration to the flags of a request. A flag is up exactly
when the request meets an argument of the innermost block that writes the list,
whichever of the collectors run before and after, and whatever the zones hold.
-/

namespace Sentinel

section Spec
variable (ngx : ListCore) (blocks : List (List ListDirective)) (r : SignalRequest)

/-- The URI starts with a decoy. -/
def Decoyed : Prop := ∃ decoy ∈ inForce .honeypot blocks, decoy <+: r.uri

/-- The URI starts with a decoy as far as `ngx_strncmp` can tell, which stops at a
`NUL` in both. -/
def LooksDecoyed : Prop :=
  ∃ decoy ∈ inForce .honeypot blocks,
    decoy.length ≤ r.uri.length ∧ ngxStrncmp r.uri decoy decoy.length = 0

/-- The client's address, or the IPv4 address that it maps, is in a trusted network. -/
def Trusted : Prop :=
  ∃ arg ∈ inForce .allowlist blocks, ∃ cidr, ngx.ptocidr arg = some cidr ∧
    cidr.family = (cidrAddr r.sockaddr).1 ∧ cidr.net <+: (cidrAddr r.sockaddr).2

/-- The client's address is in a denied network of its own family. -/
def Denied : Prop :=
  match r.sockaddr with
  | .inet addr _ =>
      ∃ nets, netsInForce ngx .inet blocks = some nets ∧ ∃ net ∈ nets, net <+: addrBits addr
  | .inet6 addr _ =>
      ∃ nets, netsInForce ngx .inet6 blocks = some nets ∧ ∃ net ∈ nets, net <+: addrBits addr
  | .other _ => False

/-- The source that holds has this value for the request. -/
def Announces (kind : SourceKind) (val : Bytes) : Prop :=
  ∃ source, sourceInForce kind blocks = some source ∧ r.complexValue source = some val ∧ val ≠ []

/-- The number of the client's network is listed. -/
def AsnListed : Prop :=
  ∃ val n, Announces blocks r .asn val ∧ ngx.atoi val = some n ∧ 0 < n ∧
    ∃ arg ∈ inForce .datacenterAsn blocks, ngx.atoi arg = some n

/-- The fingerprint is listed, in whatever case. -/
def FpListed (source : SourceKind) (kind : ListKind) : Prop :=
  ∃ val, Announces blocks r source val ∧
    ∃ deny ∈ inForce kind blocks, deny.length = val.length ∧ Alike deny val

end Spec
section Collectors
variable {ngx : NgxCore} {lists : ListConf} {r : SignalRequest}

theorem honeypot_iff (inputs : Inputs) :
    (sentinelHoneypotSignal lists r.uri inputs).honeypot = true ↔
      ∃ decoy ∈ lists.decoyPaths,
        decoy.length ≤ r.uri.length ∧ ngxStrncmp r.uri decoy decoy.length = 0 := by
  simp only [sentinelHoneypotSignal, List.any_eq_true, decide_eq_true_eq, ge_iff_le]

theorem looksDecoyed_iff {blocks : List (List ListDirective)}
    (hnul : ∀ decoy ∈ inForce .honeypot blocks, 0 ∉ decoy) :
    LooksDecoyed blocks r ↔ Decoyed blocks r := by
  constructor
  · intro ⟨decoy, hdecoy, hlen, hcmp⟩
    exact ⟨decoy, hdecoy, (ngxStrncmp_eq_zero_iff (hnul decoy hdecoy) hlen).mp hcmp⟩
  · intro ⟨decoy, hdecoy, hprefix⟩
    have hlen := hprefix.length_le
    exact ⟨decoy, hdecoy, hlen, (ngxStrncmp_eq_zero_iff (hnul decoy hdecoy) hlen).mpr hprefix⟩

theorem allowlist_iff (ngx : ListCore) (inputs : Inputs) :
    (sentinelAllowlistSignal lists ngx r.sockaddr inputs).allowlisted = true ↔
      ∃ cidr ∈ lists.allowCidrs, cidr.family = (cidrAddr r.sockaddr).1 ∧
        cidr.net <+: (cidrAddr r.sockaddr).2 := by
  have hmatch := ngx.cidrMatch_ok r.sockaddr lists.allowCidrs
  rw [← hmatch]
  simp only [sentinelAllowlistSignal]
  split
  next hnone =>
    rw [List.length_eq_zero_iff] at hnone
    rw [hmatch, hnone]
    simp
  next => split <;> simp_all

theorem asn_iff (inputs : Inputs) :
    (sentinelAsnSignal lists ngx r inputs).datacenterAsn = true ↔
      ∃ source val n, lists.asnSource = some source ∧ r.complexValue source = some val ∧
        val ≠ [] ∧ ngx.atoi val = some n ∧ 0 < n ∧ n ∈ lists.asnList := by
  cases hsource : lists.asnSource with
  | none => simp [sentinelAsnSignal, hsource]
  | some source =>
      cases hval : r.complexValue source with
      | none => simp [sentinelAsnSignal, hsource, hval]
      | some val =>
          cases hn : ngx.atoi val with
          | none => simp [sentinelAsnSignal, hsource, hval, hn]
          | some n =>
              by_cases hlist : lists.asnList = []
              · simp [sentinelAsnSignal, hsource, hlist]
              · by_cases hne : val = []
                · simp [sentinelAsnSignal, hsource, hval, hlist, hne]
                · by_cases hpos : n ≤ 0
                  · simp [sentinelAsnSignal, hsource, hval, hn, hlist, hne, hpos]
                  · simp [sentinelAsnSignal, hsource, hval, hn, hlist, hne, hpos,
                      Nat.lt_of_not_le hpos]

theorem c2ip_iff (ngx : ListCore) (inputs : Inputs) :
    (sentinelC2ipSignal lists ngx r.sockaddr inputs).c2ipFlagged = true ↔
      match r.sockaddr with
      | .inet addr _ => ∃ nets, lists.c2ipTree = some nets ∧ ∃ net ∈ nets, net <+: addrBits addr
      | .inet6 addr _ => ∃ nets, lists.c2ipTree6 = some nets ∧ ∃ net ∈ nets, net <+: addrBits addr
      | .other _ => False := by
  cases r.sockaddr with
  | inet addr h =>
      cases htree : lists.c2ipTree with
      | none => simp [sentinelC2ipSignal, htree]
      | some nets => simp [sentinelC2ipSignal, htree, ngx.radixFind_iff]
  | inet6 addr h =>
      cases htree : lists.c2ipTree6 with
      | none => simp [sentinelC2ipSignal, htree]
      | some nets => simp [sentinelC2ipSignal, htree, ngx.radixFind_iff]
  | other addrText => simp [sentinelC2ipSignal]

theorem fpListed_iff {fp : FpConf} :
    fpListed fp r = true ↔
      ∃ source val, fp.source = some source ∧ r.complexValue source = some val ∧ val ≠ [] ∧
        ∃ deny ∈ fp.list, deny.length = val.length ∧ Alike deny val := by
  have hcmp : ∀ val deny : Bytes,
      (deny.length = val.length ∧ ngxStrncasecmp deny val val.length = 0) ↔
        deny.length = val.length ∧ Alike deny val :=
    fun val deny => and_congr_right ngxStrncasecmp_eq_zero_iff
  cases hsource : fp.source with
  | none => simp [fpListed, hsource]
  | some source =>
      cases hval : r.complexValue source with
      | none => simp [fpListed, hsource, hval]
      | some val =>
          by_cases hlist : fp.list = []
          · simp [fpListed, hsource, hlist]
          · by_cases hne : val = []
            · simp [fpListed, hsource, hval, hlist, hne]
            · simp [fpListed, hsource, hval, hlist, hne, hcmp]

end Collectors
section Flags

/-- The flags that come from lists. -/
structure ListFlags where
  honeypot : Bool
  allowlisted : Bool
  datacenterAsn : Bool
  c2ipFlagged : Bool
  ja3Flagged : Bool
  ja4Flagged : Bool
  ja4tFlagged : Bool
  deriving DecidableEq, Repr

def Inputs.listFlags (inputs : Inputs) : ListFlags :=
  ⟨inputs.honeypot, inputs.allowlisted, inputs.datacenterAsn, inputs.c2ipFlagged,
    inputs.ja3Flagged, inputs.ja4Flagged, inputs.ja4tFlagged⟩

def Inputs.withListFlags (inputs : Inputs) (f : ListFlags) : Inputs :=
  { inputs with
    honeypot := f.honeypot
    allowlisted := f.allowlisted
    datacenterAsn := f.datacenterAsn
    c2ipFlagged := f.c2ipFlagged
    ja3Flagged := f.ja3Flagged
    ja4Flagged := f.ja4Flagged
    ja4tFlagged := f.ja4tFlagged }

/-- What the collectors of lists find, each by itself. -/
def foundInLists (ngx : ListCore) (lists : ListConf) (r : SignalRequest) : ListFlags :=
  ⟨(sentinelHoneypotSignal lists r.uri noInputs).honeypot,
    (sentinelAllowlistSignal lists ngx r.sockaddr noInputs).allowlisted,
    (sentinelAsnSignal lists ngx.toNgxCore r noInputs).datacenterAsn,
    (sentinelC2ipSignal lists ngx r.sockaddr noInputs).c2ipFlagged,
    fpListed lists.ja3 r, fpListed lists.ja4 r, fpListed lists.ja4t r⟩

/-- The getter without the collectors of lists. -/
def gatherOthers (ngx : ListCore) (lcf : RequestConf) (fcrdns : FcrdnsConf) (r : SignalRequest)
    (now : Nat) (shm : Segments) : Inputs × Segments × Option Key :=
  let core := ngx.toNgxCore
  let inputs := { noInputs with ja4h := sentinelJa4hCompute ngx.toJa4hCore r.ja4h }
  let s := sentinelErrrateSignal core lcf r.addrText r.uri now inputs shm
  let inputs := sentinelHeaderSignal r (sentinelBotuaSignal goodUaSubstrings r.agent s.1)
  let s := sentinelVelocitySignal core lcf r.addrText now inputs s.2
  let f := sentinelFcrdnsSignal core fcrdns r.addrText r.sockaddr now
    (sentinelCoherenceSignal r.agent s.1) s.2
  let s := sentinelCrowdsecSignal core lcf r.addrText now f.1 f.2.1
  (s.1, s.2, f.2.2)

variable {ngx : NgxCore} {lcf : RequestConf} {lists : ListConf} {r : SignalRequest}
  {inputs : Inputs} {f g : ListFlags} {now : Nat} {shm : Segments}

@[simp] theorem listFlags_with : (inputs.withListFlags f).listFlags = f := rfl

@[simp] theorem withListFlags_with :
    (inputs.withListFlags f).withListFlags g = inputs.withListFlags g :=
  rfl

/-! The collectors of lists write a flag each. -/

theorem honeypot_flag (uri : Bytes) :
    sentinelHoneypotSignal lists uri inputs = inputs.withListFlags { inputs.listFlags with
      honeypot := (sentinelHoneypotSignal lists uri noInputs).honeypot } :=
  rfl

theorem allowlist_flag (ngx : ListCore) (sockaddr : SockAddr) :
    sentinelAllowlistSignal lists ngx sockaddr inputs = inputs.withListFlags { inputs.listFlags with
      allowlisted := (sentinelAllowlistSignal lists ngx sockaddr noInputs).allowlisted } := by
  simp only [sentinelAllowlistSignal]
  split_ifs <;> rfl

theorem asn_flag :
    sentinelAsnSignal lists ngx r inputs = inputs.withListFlags { inputs.listFlags with
      datacenterAsn := (sentinelAsnSignal lists ngx r noInputs).datacenterAsn } := by
  simp only [sentinelAsnSignal]
  repeat' split
  all_goals rfl

theorem c2ip_flag (ngx : ListCore) (sockaddr : SockAddr) :
    sentinelC2ipSignal lists ngx sockaddr inputs = inputs.withListFlags { inputs.listFlags with
      c2ipFlagged := (sentinelC2ipSignal lists ngx sockaddr noInputs).c2ipFlagged } := by
  simp only [sentinelC2ipSignal]
  repeat' split
  all_goals rfl

theorem ja3_flag :
    sentinelJa3Signal lists r inputs = inputs.withListFlags { inputs.listFlags with
      ja3Flagged := fpListed lists.ja3 r } :=
  rfl

theorem ja4_flag :
    sentinelJa4Signal lists r inputs = inputs.withListFlags { inputs.listFlags with
      ja4Flagged := fpListed lists.ja4 r } :=
  rfl

theorem ja4t_flag :
    sentinelJa4tSignal lists r inputs = inputs.withListFlags { inputs.listFlags with
      ja4tFlagged := fpListed lists.ja4t r } :=
  rfl

/-! Those that run behind them neither read nor write these flags. -/

theorem velocity_with (addrText : Bytes) :
    sentinelVelocitySignal ngx lcf addrText now (inputs.withListFlags f) shm =
      ((sentinelVelocitySignal ngx lcf addrText now inputs shm).1.withListFlags f,
        (sentinelVelocitySignal ngx lcf addrText now inputs shm).2) := by
  rw [velocity_eq, velocity_eq inputs]
  rfl

theorem coherence_with (a : AgentRequest) :
    sentinelCoherenceSignal a (inputs.withListFlags f) =
      (sentinelCoherenceSignal a inputs).withListFlags f := by
  rw [coherence_eq, coherence_eq a inputs]
  rfl

theorem fcrdns_with (conf : FcrdnsConf) (addrText : Bytes) (sockaddr : SockAddr) :
    sentinelFcrdnsSignal ngx conf addrText sockaddr now (inputs.withListFlags f) shm =
      ((sentinelFcrdnsSignal ngx conf addrText sockaddr now inputs shm).1.withListFlags f,
        (sentinelFcrdnsSignal ngx conf addrText sockaddr now inputs shm).2) := by
  cases hzone : conf.fcrdnsZone with
  | none =>
      simp only [sentinelFcrdnsSignal, hzone]
      rfl
  | some z =>
      cases hkey : sentinelFcrdnsKey ngx sockaddr with
      | none =>
          simp only [sentinelFcrdnsSignal, Inputs.withListFlags, hzone, hkey]
          split_ifs <;> rfl
      | some key =>
          simp only [sentinelFcrdnsSignal, Inputs.withListFlags, hzone, hkey]
          split_ifs <;> rfl

theorem crowdsec_with (addrText : Bytes) :
    sentinelCrowdsecSignal ngx lcf addrText now (inputs.withListFlags f) shm =
      ((sentinelCrowdsecSignal ngx lcf addrText now inputs shm).1.withListFlags f,
        (sentinelCrowdsecSignal ngx lcf addrText now inputs shm).2) := by
  rw [crowdsec_eq, crowdsec_eq inputs]
  rfl

/-- The lists of a location decide over their flags and over nothing else. -/
theorem gatherAll_eq (ngx : ListCore) (conf : SignalConf) (r : SignalRequest) (now : Nat)
    (shm : Segments) :
    gatherAll ngx conf r now shm =
      ((gatherOthers ngx conf.lcf conf.fcrdns r now shm).1.withListFlags
          (foundInLists ngx conf.lists r),
        (gatherOthers ngx conf.lcf conf.fcrdns r now shm).2) := by
  simp only [gatherAll]
  rw [honeypot_flag, allowlist_flag, withListFlags_with, velocity_with, asn_flag, c2ip_flag,
    ja3_flag, ja4_flag, ja4t_flag]
  simp only [withListFlags_with, listFlags_with]
  rw [coherence_with, fcrdns_with, crowdsec_with]
  simp only [gatherOthers, foundInLists]

end Flags
section Exact

/-- The flags are up as the lists in force say. -/
structure SaidBy (ngx : ListCore) (blocks : List (List ListDirective)) (r : SignalRequest)
    (f : ListFlags) : Prop where
  honeypot : f.honeypot = true ↔ LooksDecoyed blocks r
  allowlisted : f.allowlisted = true ↔ Trusted ngx blocks r
  datacenterAsn : f.datacenterAsn = true ↔ AsnListed ngx blocks r
  c2ipFlagged : f.c2ipFlagged = true ↔ Denied ngx blocks r
  ja3Flagged : f.ja3Flagged = true ↔ FpListed blocks r .ja3 .ja3Deny
  ja4Flagged : f.ja4Flagged = true ↔ FpListed blocks r .ja4 .ja4Deny
  ja4tFlagged : f.ja4tFlagged = true ↔ FpListed blocks r .ja4t .ja4tDeny

theorem foundInLists_said {ngx : ListCore} {blocks : List (List ListDirective)} {lists : ListConf}
    (hconf : nestedLists ngx .unset blocks = .ok lists) (r : SignalRequest) :
    SaidBy ngx blocks r (foundInLists ngx lists r) := by
  have hfp : ∀ (source : SourceKind) (kind : ListKind),
      fpListed ⟨sourceInForce source blocks, inForce kind blocks⟩ r = true ↔
        FpListed blocks r source kind := by
    intro source kind
    rw [fpListed_iff]
    constructor
    · intro ⟨text, val, hsource, hval, hne, hdeny⟩
      exact ⟨val, ⟨text, hsource, hval, hne⟩, hdeny⟩
    · intro ⟨val, ⟨text, hsource, hval, hne⟩, hdeny⟩
      exact ⟨text, val, hsource, hval, hne, hdeny⟩
  rw [nestedLists_eq hconf]
  refine ⟨honeypot_iff noInputs, (allowlist_iff ngx noInputs).trans ?_,
    (asn_iff noInputs).trans ?_, c2ip_iff ngx noInputs, hfp .ja3 .ja3Deny, hfp .ja4 .ja4Deny,
    hfp .ja4t .ja4tDeny⟩
  · constructor
    · intro ⟨cidr, hmem, hfamily, hnet⟩
      obtain ⟨arg, harg, hread⟩ := List.mem_filterMap.mp hmem
      exact ⟨arg, harg, cidr, hread, hfamily, hnet⟩
    · intro ⟨arg, harg, cidr, hread, hfamily, hnet⟩
      exact ⟨cidr, List.mem_filterMap.mpr ⟨arg, harg, hread⟩, hfamily, hnet⟩
  · constructor
    · intro ⟨text, val, n, hsource, hval, hne, hn, hpos, hmem⟩
      exact ⟨val, n, ⟨text, hsource, hval, hne⟩, hn, hpos, List.mem_filterMap.mp hmem⟩
    · intro ⟨val, n, ⟨text, hsource, hval, hne⟩, hn, hpos, hmem⟩
      exact ⟨text, val, n, hsource, hval, hne, hn, hpos, List.mem_filterMap.mpr hmem⟩

/-- In an accepted configuration each flag of a request says what the innermost
block that writes the list says. -/
theorem lists_exact (ngx : ListCore) {blocks : List (List ListDirective)} {lists : ListConf}
    (hconf : nestedLists ngx .unset blocks = .ok lists)
    (hnul : ∀ decoy ∈ inForce .honeypot blocks, 0 ∉ decoy) (lcf : RequestConf)
    (fcrdns : FcrdnsConf) (r : SignalRequest) (now : Nat) (shm : Segments) :
    let inputs := (gatherAll ngx ⟨lcf, fcrdns, lists⟩ r now shm).1
    (inputs.honeypot = true ↔ Decoyed blocks r) ∧
    (inputs.allowlisted = true ↔ Trusted ngx blocks r) ∧
    (inputs.datacenterAsn = true ↔ AsnListed ngx blocks r) ∧
    (inputs.c2ipFlagged = true ↔ Denied ngx blocks r) ∧
    (inputs.ja3Flagged = true ↔ FpListed blocks r .ja3 .ja3Deny) ∧
    (inputs.ja4Flagged = true ↔ FpListed blocks r .ja4 .ja4Deny) ∧
    (inputs.ja4tFlagged = true ↔ FpListed blocks r .ja4t .ja4tDeny) := by
  intro inputs
  have hflags : inputs.listFlags = foundInLists ngx lists r := by
    rw [show inputs = _ from congrArg Prod.fst (gatherAll_eq ..), listFlags_with]
  have hsaid : SaidBy ngx blocks r inputs.listFlags := by
    rw [hflags]
    exact foundInLists_said hconf r
  exact ⟨hsaid.honeypot.trans (looksDecoyed_iff hnul), hsaid.allowlisted, hsaid.datacenterAsn,
    hsaid.c2ipFlagged, hsaid.ja3Flagged, hsaid.ja4Flagged, hsaid.ja4tFlagged⟩

end Exact

namespace Ref

/-- `ngx_ptocidr` for the text of an IPv4 network. -/
def ptocidr (text : Bytes) : Option Cidr :=
  match inetAddr (text.takeWhile (· ≠ ch '/')) with
  | none => none
  | some addr =>
      let net := addrBits (be32 addr.toNat)
      match text.dropWhile (· ≠ ch '/') with
      | [] => some ⟨.inet, net⟩
      | _ :: mask =>
          match atoi mask with
          | none => none
          | some n => if n > 32 then none else some ⟨.inet, net.take n⟩

def cidrMatch (sockaddr : SockAddr) (cidrs : List Cidr) : NgxRc :=
  let (family, addr) := cidrAddr sockaddr
  if cidrs.any fun cidr => cidr.family = family ∧ cidr.net.isPrefixOf addr then .ok
  else .declined

def lists : ListCore where
  toJa4hCore := ja4h
  ptocidr := ptocidr
  cidrMatch := cidrMatch
  cidrMatch_ok := by
    intro sockaddr cidrs
    simp only [cidrMatch, ite_eq_left_iff, reduceCtorEq, imp_false, not_not, List.any_eq_true,
      decide_eq_true_eq, List.isPrefixOf_iff_prefix]
  radixFind := fun nets key => (nets.foldl PrefixTree.insert .leaf).covers key
  radixFind_iff := by simp [PrefixTree.covers_foldl_insert]
  compileComplexValue := fun _ => true

end Ref

section Probe

/-- The decoys of the http block give way to those of the location. -/
def probeHttp : List ListDirective :=
  [.list .honeypot [str "/xmlrpc.php"], .source .asn (str "$geoip2_asn"),
    .list .datacenterAsn [str "16509", str "14618"]]

def probeServer : List ListDirective :=
  [.list .allowlist [str "10.0.0.0/8"], .list .c2ipDeny [str "192.0.2.4", str "198.51.100.0/24"],
    .source .ja3 (str "$http_x_ja3"), .list .ja3Deny [str "e7d705a3"]]

def probeLocation : List ListDirective :=
  [.list .honeypot [str "/wp-login.php"], .list .honeypot [str "/.env"]]

def probeBlocks : List (List ListDirective) := [probeHttp, probeServer, probeLocation]

def probeLists : ListConf where
  decoyPaths := [str "/wp-login.php", str "/.env"]
  allowCidrs := [⟨.inet, byteBits 10⟩]
  asnSource := some (str "$geoip2_asn")
  asnList := [16509, 14618]
  c2ipTree := some [addrBits [192, 0, 2, 4], addrBits [198, 51, 100]]
  c2ipTree6 := none
  ja3 := ⟨some (str "$http_x_ja3"), [str "e7d705a3"]⟩
  ja4 := ⟨none, []⟩
  ja4t := ⟨none, []⟩

theorem probeBlocks_read : nestedLists Ref.lists .unset probeBlocks = .ok probeLists := by
  decide +kernel

theorem probeAddr_length : ([198, 51, 100, 7] : Bytes).length = 4 := rfl

/-- The variables of the request; its fingerprint is in upper case. -/
def probeValue (source : Bytes) : Option Bytes :=
  if source = str "$geoip2_asn" then some (str "14618")
  else if source = str "$http_x_ja3" then some (str "E7D705A3")
  else none

def probeRequest : SignalRequest where
  addrText := str "198.51.100.7"
  sockaddr := .inet [198, 51, 100, 7] probeAddr_length
  uri := str "/.env.bak"
  method := .get
  httpVersion := 1001
  headers := [[⟨1, str "Host"⟩]]
  host := true
  contentLength := false
  transferEncoding := false
  userAgent := none
  accept := none
  acceptLanguage := none
  acceptEncoding := none
  complexValue := probeValue

/-- One request against all lists of three nested blocks. -/
theorem lists_exact_probe :
    let inputs := (gatherAll Ref.lists ⟨defaultConf, ⟨none, 0, []⟩, probeLists⟩
      probeRequest 0 fun _ => sentinelShmInitZone).1
    inputs.honeypot = true ∧ inputs.allowlisted = false ∧ inputs.datacenterAsn = true ∧
      inputs.c2ipFlagged = true ∧ inputs.ja3Flagged = true ∧ inputs.ja4Flagged = false := by
  intro inputs
  obtain ⟨hhoneypot, hallowed, hasn, hc2ip, hja3, hja4, -⟩ :=
    lists_exact Ref.lists probeBlocks_read (by decide +kernel) defaultConf ⟨none, 0, []⟩
      probeRequest 0 fun _ => sentinelShmInitZone
  refine ⟨hhoneypot.mpr ?_, Bool.eq_false_iff.mpr (mt hallowed.mp ?_), hasn.mpr ?_, hc2ip.mpr ?_,
    hja3.mpr ?_, Bool.eq_false_iff.mpr (mt hja4.mp ?_)⟩
  · exact ⟨str "/.env", by decide +kernel, by decide +kernel⟩
  · intro htrusted
    obtain ⟨arg, harg, cidr, hcidr, -, hnet⟩ := htrusted
    have hten : arg = str "10.0.0.0/8" := by
      rwa [show inForce .allowlist probeBlocks = [str "10.0.0.0/8"] by decide +kernel,
        List.mem_singleton] at harg
    subst hten
    have hbits : some ⟨.inet, byteBits 10⟩ = some cidr := by
      rw [← hcidr]
      decide +kernel
    cases hbits
    revert hnet
    decide +kernel
  · exact ⟨str "14618", 14618, ⟨str "$geoip2_asn", by decide +kernel, by decide +kernel,
      by decide +kernel⟩, by decide +kernel, by decide, str "14618", by decide +kernel,
      by decide +kernel⟩
  · exact ⟨[addrBits [192, 0, 2, 4], addrBits [198, 51, 100]], by decide +kernel,
      addrBits [198, 51, 100], by decide +kernel, by decide +kernel⟩
  · exact ⟨str "E7D705A3", ⟨str "$http_x_ja3", by decide +kernel, by decide +kernel,
      by decide +kernel⟩, str "e7d705a3", by decide +kernel, by decide +kernel, by decide +kernel⟩
  · intro hlisted
    obtain ⟨val, ⟨source, hsource, -⟩, -⟩ := hlisted
    have hnone : sourceInForce .ja4 probeBlocks = none := by decide +kernel
    rw [hnone] at hsource
    contradiction

end Probe
end Sentinel
