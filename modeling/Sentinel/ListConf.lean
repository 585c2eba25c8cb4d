import Sentinel.Ja4h
import Sentinel.Lib.Inherit
import Sentinel.Lib.Run
import Sentinel.PowGate

/-!
The lists of `ngx_http_sentinel_module.c` that a request is held against: the
directives that fill them, and how a block takes them over from the one around it.

Addresses are read by nginx and looked up by it, in arrays and in its radix trees;
a tree goes by what has been inserted into it. Left out: allocation failures of the
configuration pool, and the warning about low address bits.
-/

namespace Sentinel

inductive CidrFamily where
  | inet | inet6 | unix
  deriving DecidableEq, Repr

/-- `ngx_cidr_t`; of the address, the bits that the mask keeps. -/
structure Cidr where
  family : CidrFamily
  net : List Bool
  deriving DecidableEq, Repr

/-- The bits of an address. -/
def addrBits (addr : Bytes) : List Bool := addr.flatMap byteBits

/-- `IN6_IS_ADDR_V4MAPPED` -/
def in6IsAddrV4mapped (addr : Bytes) : Bool :=
  addr.take 12 = List.replicate 10 0 ++ [0xff, 0xff]

/-- The family and the address that `ngx_cidr_match` compares. -/
def cidrAddr (sockaddr : SockAddr) : CidrFamily × List Bool :=
  match sockaddr with
  | .inet addr _ => (.inet, addrBits addr)
  | .inet6 addr _ =>
      if in6IsAddrV4mapped addr then (.inet, addrBits (addr.drop 12)) else (.inet6, addrBits addr)
  | .other _ => (.unix, [])

/-- The lists also take these from nginx. -/
structure ListCore extends Ja4hCore where
  /-- `ngx_ptocidr`; `none` is `NGX_ERROR`. -/
  ptocidr : Bytes → Option Cidr
  /-- `ngx_cidr_match` -/
  cidrMatch : SockAddr → List Cidr → NgxRc
  cidrMatch_ok : ∀ sockaddr cidrs, cidrMatch sockaddr cidrs = .ok ↔
    ∃ cidr ∈ cidrs, cidr.family = (cidrAddr sockaddr).1 ∧ cidr.net <+: (cidrAddr sockaddr).2
  /-- Whether `ngx_radix32tree_find` or `ngx_radix128tree_find` finds a value for a key
  in the tree into which these networks have been inserted, one after the other. -/
  radixFind : List (List Bool) → List Bool → Bool
  radixFind_iff : ∀ nets key, radixFind nets key = true ↔ ∃ net ∈ nets, net <+: key
  /-- Whether `ngx_http_compile_complex_value` takes a text. -/
  compileComplexValue : Bytes → Bool

/-- Where a fingerprint comes from, and the ones that are denied. -/
structure FpConf where
  source : Option Bytes
  list : List Bytes
  deriving DecidableEq, Repr

/-- The fields of `ngx_sentinel_loc_conf_t` for lists. -/
structure ListConf where
  decoyPaths : List Bytes
  allowCidrs : List Cidr
  asnSource : Option Bytes
  asnList : List Nat
  c2ipTree : Option (List (List Bool))
  c2ipTree6 : Option (List (List Bool))
  ja3 : FpConf
  ja4 : FpConf
  ja4t : FpConf
  deriving DecidableEq, Repr

/-- What `ngx_pcalloc` leaves. -/
def ListConf.unset : ListConf := ⟨[], [], none, [], none, none, ⟨none, []⟩, ⟨none, []⟩, ⟨none, []⟩⟩

/-- The directives with a list of arguments. -/
inductive ListKind where
  | honeypot | allowlist | datacenterAsn | c2ipDeny | ja3Deny | ja4Deny | ja4tDeny
  deriving DecidableEq, Repr

/-- The directives that name a source. -/
inductive SourceKind where
  | asn | ja3 | ja4 | ja4t
  deriving DecidableEq, Repr

inductive ListDirective where
  | list (kind : ListKind) (args : List Bytes)
  | source (kind : SourceKind) (value : Bytes)
  deriving DecidableEq, Repr

section Handlers
variable (ngx : ListCore)

/-- The loop of the handlers that push what they read of each argument. -/
def pushArgs {α : Type} (read : Bytes → Except Bytes α) (list : List α) (args : List Bytes) :
    Except Bytes (List α) :=
  Run.tryExec (fun list arg => (read arg).map fun a => list ++ [a]) list args

def readText (error : Bytes) (arg : Bytes) : Except Bytes Bytes :=
  if arg.length = 0 then .error error else .ok arg

def sentinelConfHoneypot (conf : ListConf) (args : List Bytes) : Except Bytes ListConf :=
  (pushArgs (readText (str "sentinel_honeypot: empty path argument")) conf.decoyPaths args).map
    fun list => { conf with decoyPaths := list }

def readAllowed (arg : Bytes) : Except Bytes Cidr :=
  if arg.length = 0 then .error (str "sentinel_allowlist: empty argument")
  else
    match ngx.ptocidr arg with
    | none => .error (str "sentinel_allowlist: invalid address \"" ++ arg ++ str "\"")
    | some cidr => .ok cidr

def sentinelConfAllowlist (conf : ListConf) (args : List Bytes) : Except Bytes ListConf :=
  (pushArgs (readAllowed ngx) conf.allowCidrs args).map fun list => { conf with allowCidrs := list }

/-- The handlers of the four sources. nginx itself reports a text that it does not take. -/
def confSource (source : Option Bytes) (value : Bytes) : Except Bytes (Option Bytes) :=
  match source with
  | some _ => .error (str "is duplicate")
  | none => if ngx.compileComplexValue value then .ok (some value) else .error []

def sentinelConfAsnSource (conf : ListConf) (value : Bytes) : Except Bytes ListConf :=
  (confSource ngx conf.asnSource value).map fun source => { conf with asnSource := source }

def readAsn (arg : Bytes) : Except Bytes Nat :=
  match ngx.atoi arg with
  | none => .error (str "sentinel_datacenter_asn: invalid ASN \"" ++ arg ++ str "\"")
  | some v =>
      if v ≤ 0 then .error (str "sentinel_datacenter_asn: invalid ASN \"" ++ arg ++ str "\"")
      else .ok v

def sentinelConfDatacenterAsn (conf : ListConf) (args : List Bytes) : Except Bytes ListConf :=
  (pushArgs (readAsn ngx) conf.asnList args).map fun list => { conf with asnList := list }

/-- One argument; each family has a tree of its own, made when it is first needed. -/
def c2ipDenyArg (conf : ListConf) (arg : Bytes) : Except Bytes ListConf :=
  match ngx.ptocidr arg with
  | none => .error (str "sentinel_c2ip_deny: invalid address \"" ++ arg ++ str "\"")
  | some cidr =>
      match cidr.family with
      | .inet => .ok { conf with c2ipTree := some (conf.c2ipTree.getD [] ++ [cidr.net]) }
      | .inet6 => .ok { conf with c2ipTree6 := some (conf.c2ipTree6.getD [] ++ [cidr.net]) }
      | .unix =>
          .error (str "sentinel_c2ip_deny: unsupported address family for \"" ++ arg ++ str "\"")

def sentinelConfC2ipDeny (conf : ListConf) (args : List Bytes) : Except Bytes ListConf :=
  Run.tryExec (c2ipDenyArg ngx) conf args

/-- `sentinel_conf_ja3_source` and its like. -/
def confFpSource (fp : FpConf) (value : Bytes) : Except Bytes FpConf :=
  (confSource ngx fp.source value).map fun source => { fp with source := source }

/-- `sentinel_conf_ja3_deny` and its like. -/
def confFpDeny (error : Bytes) (fp : FpConf) (args : List Bytes) : Except Bytes FpConf :=
  (pushArgs (readText error) fp.list args).map fun list => { fp with list := list }

def sentinelConfJa3Source (conf : ListConf) (value : Bytes) : Except Bytes ListConf :=
  (confFpSource ngx conf.ja3 value).map fun fp => { conf with ja3 := fp }

def sentinelConfJa3Deny (conf : ListConf) (args : List Bytes) : Except Bytes ListConf :=
  (confFpDeny (str "sentinel_ja3_deny: empty fingerprint") conf.ja3 args).map
    fun fp => { conf with ja3 := fp }

def sentinelConfJa4Source (conf : ListConf) (value : Bytes) : Except Bytes ListConf :=
  (confFpSource ngx conf.ja4 value).map fun fp => { conf with ja4 := fp }

def sentinelConfJa4Deny (conf : ListConf) (args : List Bytes) : Except Bytes ListConf :=
  (confFpDeny (str "sentinel_ja4_deny: empty fingerprint") conf.ja4 args).map
    fun fp => { conf with ja4 := fp }

def sentinelConfJa4tSource (conf : ListConf) (value : Bytes) : Except Bytes ListConf :=
  (confFpSource ngx conf.ja4t value).map fun fp => { conf with ja4t := fp }

def sentinelConfJa4tDeny (conf : ListConf) (args : List Bytes) : Except Bytes ListConf :=
  (confFpDeny (str "sentinel_ja4t_deny: empty fingerprint") conf.ja4t args).map
    fun fp => { conf with ja4t := fp }

def listDirective (conf : ListConf) : ListDirective → Except Bytes ListConf
  | .list .honeypot args => sentinelConfHoneypot conf args
  | .list .allowlist args => sentinelConfAllowlist ngx conf args
  | .list .datacenterAsn args => sentinelConfDatacenterAsn ngx conf args
  | .list .c2ipDeny args => sentinelConfC2ipDeny ngx conf args
  | .list .ja3Deny args => sentinelConfJa3Deny conf args
  | .list .ja4Deny args => sentinelConfJa4Deny conf args
  | .list .ja4tDeny args => sentinelConfJa4tDeny conf args
  | .source .asn value => sentinelConfAsnSource ngx conf value
  | .source .ja3 value => sentinelConfJa3Source ngx conf value
  | .source .ja4 value => sentinelConfJa4Source ngx conf value
  | .source .ja4t value => sentinelConfJa4tSource ngx conf value

/-- One block as it is read. -/
def readLists (block : List ListDirective) : Except Bytes ListConf :=
  Run.tryExec (listDirective ngx) ListConf.unset block

end Handlers
section Merge

/-- `if (conf->list.nelts == 0 && prev->list.nelts > 0)` -/
def inheritList {α : Type} (prev conf : List α) : List α :=
  if conf.length = 0 ∧ prev.length > 0 then prev else conf

/-- `if (conf->p == NULL)` -/
def inheritPtr {α : Type} (prev conf : Option α) : Option α :=
  match conf with
  | none => prev
  | some a => some a

def inheritFp (prev conf : FpConf) : FpConf :=
  ⟨inheritPtr prev.source conf.source, inheritList prev.list conf.list⟩

/-- The part of `ngx_sentinel_merge_loc_conf` that takes lists over. -/
def ngxSentinelMergeLists (prev conf : ListConf) : ListConf where
  decoyPaths := inheritList prev.decoyPaths conf.decoyPaths
  allowCidrs := inheritList prev.allowCidrs conf.allowCidrs
  asnSource := inheritPtr prev.asnSource conf.asnSource
  asnList := inheritList prev.asnList conf.asnList
  c2ipTree := inheritPtr prev.c2ipTree conf.c2ipTree
  c2ipTree6 := inheritPtr prev.c2ipTree6 conf.c2ipTree6
  ja3 := inheritFp prev.ja3 conf.ja3
  ja4 := inheritFp prev.ja4 conf.ja4
  ja4t := inheritFp prev.ja4t conf.ja4t

/-- What a block has in the end, from the blocks that it stands in, the outermost
first. The http block itself is not merged with anything, which is a merge with
nothing set. -/
def nestedLists (ngx : ListCore) : ListConf → List (List ListDirective) → Except Bytes ListConf
  | prev, [] => .ok prev
  | prev, block :: blocks =>
      readLists ngx block >>= fun conf =>
        nestedLists ngx (ngxSentinelMergeLists prev conf) blocks

end Merge
end Sentinel
