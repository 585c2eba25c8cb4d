import Sentinel.ScoreSum
import Sentinel.SignalLists

/-!
What more denials do to verdicts. A block that wrote nothing of a list had the one
of the block around it, and loses that list with its first argument; the networks of
either family are lost by themselves. Short of that, a directive that is added to a
block makes no request's score lower.
-/

namespace Sentinel

section Tighter
variable (ngx : ListCore) (blocks blocks' : List (List ListDirective))

/-- The second blocks deny all that the first ones do, trust no more, and ask the
same sources. -/
structure Tighter : Prop where
  denied : ∀ kind, kind ≠ .allowlist → kind ≠ .c2ipDeny →
    inForce kind blocks ⊆ inForce kind blocks'
  nets : ∀ family,
    (netsInForce ngx family blocks).getD [] ⊆ (netsInForce ngx family blocks').getD []
  trusted : inForce .allowlist blocks' ⊆ inForce .allowlist blocks
  sources : ∀ kind, sourceInForce kind blocks' = sourceInForce kind blocks

variable {ngx blocks blocks'} {r : SignalRequest} {kind : ListKind} {source : SourceKind}

theorem Announces.congr (h : sourceInForce source blocks' = sourceInForce source blocks)
    {val : Bytes} (hval : Announces blocks r source val) : Announces blocks' r source val := by
  obtain ⟨text, hsource, hval⟩ := hval
  exact ⟨text, h.trans hsource, hval⟩

namespace Tighter

theorem looksDecoyed (h : Tighter ngx blocks blocks') (hlooks : LooksDecoyed blocks r) :
    LooksDecoyed blocks' r := by
  obtain ⟨decoy, hdecoy, hlike⟩ := hlooks
  exact ⟨decoy, h.denied .honeypot (by decide) (by decide) hdecoy, hlike⟩

theorem of_trusted (h : Tighter ngx blocks blocks') (htrusted : Trusted ngx blocks' r) :
    Trusted ngx blocks r := by
  obtain ⟨arg, harg, htrusted⟩ := htrusted
  exact ⟨arg, h.trusted harg, htrusted⟩

theorem asnListed (h : Tighter ngx blocks blocks') (hlisted : AsnListed ngx blocks r) :
    AsnListed ngx blocks' r := by
  obtain ⟨val, n, hval, hn, hpos, arg, harg, hread⟩ := hlisted
  exact ⟨val, n, hval.congr (h.sources .asn), hn, hpos, arg,
    h.denied .datacenterAsn (by decide) (by decide) harg, hread⟩

theorem fpListed (h : Tighter ngx blocks blocks') (hallow : kind ≠ .allowlist)
    (hc2ip : kind ≠ .c2ipDeny) (hlisted : FpListed blocks r source kind) :
    FpListed blocks' r source kind := by
  obtain ⟨val, hval, deny, hdeny, halike⟩ := hlisted
  exact ⟨val, hval.congr (h.sources source), deny, h.denied kind hallow hc2ip hdeny, halike⟩

theorem inNets (h : Tighter ngx blocks blocks') {family : CidrFamily} {addr : List Bool}
    (hin : ∃ nets, netsInForce ngx family blocks = some nets ∧ ∃ net ∈ nets, net <+: addr) :
    ∃ nets, netsInForce ngx family blocks' = some nets ∧ ∃ net ∈ nets, net <+: addr := by
  obtain ⟨nets, hnets, net, hnet, hprefix⟩ := hin
  have hmem : net ∈ (netsInForce ngx family blocks').getD [] := by
    refine h.nets family ?_
    rwa [hnets]
  cases hnew : netsInForce ngx family blocks' with
  | none =>
      rw [hnew] at hmem
      contradiction
  | some nets' =>
      rw [hnew] at hmem
      exact ⟨nets', rfl, net, hmem, hprefix⟩

theorem ofDenied (h : Tighter ngx blocks blocks') (hdenied : Denied ngx blocks r) :
    Denied ngx blocks' r := by
  rw [Denied] at hdenied ⊢
  cases hsockaddr : r.sockaddr with
  | inet addr hlen =>
      rw [hsockaddr] at hdenied
      exact h.inNets hdenied
  | inet6 addr hlen =>
      rw [hsockaddr] at hdenied
      exact h.inNets hdenied
  | other addrText =>
      rw [hsockaddr] at hdenied
      exact hdenied

/-- Every flag against the request stays up, and no excuse is new. -/
theorem worse (h : Tighter ngx blocks blocks') {f g : ListFlags}
    (hf : SaidBy ngx blocks r f) (hg : SaidBy ngx blocks' r g) (inputs : Inputs) :
    Worse (inputs.withListFlags f) (inputs.withListFlags g) where
  errrateCount := Nat.le_refl _
  errrateBlocked := id
  scannerPath := id
  botUa := id
  headerAnomaly := id
  honeypot := fun hup => hg.honeypot.mpr (h.looksDecoyed (hf.honeypot.mp hup))
  velocityExceeded := id
  datacenterAsn := fun hup => hg.datacenterAsn.mpr (h.asnListed (hf.datacenterAsn.mp hup))
  uaIncoherent := id
  ja3Flagged := fun hup =>
    hg.ja3Flagged.mpr (h.fpListed (by decide) (by decide) (hf.ja3Flagged.mp hup))
  ja4Flagged := fun hup =>
    hg.ja4Flagged.mpr (h.fpListed (by decide) (by decide) (hf.ja4Flagged.mp hup))
  ja4tFlagged := fun hup =>
    hg.ja4tFlagged.mpr (h.fpListed (by decide) (by decide) (hf.ja4tFlagged.mp hup))
  c2ipFlagged := fun hup => hg.c2ipFlagged.mpr (h.ofDenied (hf.c2ipFlagged.mp hup))
  crowdsec := Nat.le_refl _
  knownGoodUa := id
  allowlisted := fun hup => hf.allowlisted.mpr (h.of_trusted (hg.allowlisted.mp hup))
  fcrdnsSpoofed := id

/-- The score and the verdict of a request do not drop. -/
theorem ctx_le (h : Tighter ngx blocks blocks') {lists lists' : ListConf}
    (hconf : nestedLists ngx .unset blocks = .ok lists)
    (hconf' : nestedLists ngx .unset blocks' = .ok lists') {lcf : RequestConf}
    (hw : lcf.weights.Accepted) (fcrdns : FcrdnsConf) (r : SignalRequest) (now : Nat)
    (shm : Segments) :
    (requestCtx ngx ⟨lcf, fcrdns, lists⟩ r now shm).score ≤
        (requestCtx ngx ⟨lcf, fcrdns, lists'⟩ r now shm).score ∧
      (requestCtx ngx ⟨lcf, fcrdns, lists⟩ r now shm).verdict.level ≤
        (requestCtx ngx ⟨lcf, fcrdns, lists'⟩ r now shm).verdict.level := by
  have hworse := h.worse (foundInLists_said hconf r) (foundInLists_said hconf' r)
    (gatherOthers ngx lcf fcrdns r now shm).1
  have hscore := score_mono hw hworse (Int.le_refl _)
  simp only [requestCtx, scoredCtx, gatherAll_eq]
  exact ⟨hscore, level_mono lcf.threshold hscore⟩

end Tighter
end Tighter
section Append
variable {ngx : ListCore} {outer : List (List ListDirective)} {block : List ListDirective}
  {kind : ListKind} {args : List Bytes}

/-- A list of the innermost block, or else the one around it. -/
theorem innermost_snoc {α : Type} (said : List ListDirective → List α) :
    (Inherit.innermost ((outer ++ [block]).map fun b => setList (said b))).getD [] =
      if said block = [] then (Inherit.innermost (outer.map fun b => setList (said b))).getD []
      else said block := by
  rw [List.map_append, Inherit.innermost_append, List.map_singleton, Inherit.innermost,
    Inherit.innermost_nil, Option.none_or, setList]
  split
  · rw [Option.none_or]
  · rw [Option.some_or, Option.getD_some]

theorem written_append (k : ListKind) :
    written k (block ++ [.list kind args]) = written k block ++ if kind = k then args else [] := by
  simp [written]

theorem named_append (k : SourceKind) : named k (block ++ [.list kind args]) = named k block := by
  simp [named, List.findSome?_append]

/-- Nothing around is lost to what a block has more, if it has something already or
repeats what is around. -/
theorem settled_subset {α : Type} {around old new : List α}
    (h : old = [] → new = [] ∨ around ⊆ new) :
    (if old = [] then around else old) ⊆ if old ++ new = [] then around else old ++ new := by
  by_cases hold : old = []
  · rw [if_pos hold, hold, List.nil_append]
    by_cases hnew : new = []
    · rw [if_pos hnew]
      exact List.Subset.refl _
    · rw [if_neg hnew]
      exact (h hold).resolve_left hnew
  · have happend : old ++ new ≠ [] := fun hnil => hold (List.append_eq_nil_iff.mp hnil).1
    rw [if_neg hold, if_neg happend]
    exact List.subset_append_left _ _

/-- The directive takes nothing away that the blocks around have put in force. -/
def Keeps (ngx : ListCore) (outer : List (List ListDirective)) (block : List ListDirective)
    (kind : ListKind) (args : List Bytes) : Prop :=
  if kind = .c2ipDeny then
    ∀ family, (written .c2ipDeny block).filterMap (netOf ngx family) = [] →
      args.filterMap (netOf ngx family) = [] ∨
        (netsInForce ngx family outer).getD [] ⊆ args.filterMap (netOf ngx family)
  else written kind block = [] → args = [] ∨ inForce kind outer ⊆ args

theorem tighter_append (hdeny : kind ≠ .allowlist) (hkeeps : Keeps ngx outer block kind args) :
    Tighter ngx (outer ++ [block]) (outer ++ [block ++ [.list kind args]]) where
  denied := by
    intro k _ hc2ip
    rw [inForce, inForce, innermost_snoc, innermost_snoc, written_append]
    refine settled_subset ?_
    split
    next hkind =>
      subst hkind
      rwa [Keeps, if_neg hc2ip] at hkeeps
    next => exact fun _ => .inl rfl
  nets := by
    intro family
    rw [netsInForce, netsInForce, innermost_snoc, innermost_snoc, written_append,
      List.filterMap_append]
    refine settled_subset ?_
    split
    next hkind =>
      rw [Keeps, if_pos hkind] at hkeeps
      exact hkeeps family
    next => exact fun _ => .inl rfl
  trusted := by
    rw [inForce, inForce, innermost_snoc, innermost_snoc, written_append, if_neg hdeny,
      List.append_nil]
    exact List.Subset.refl _
  sources := by
    intro k
    rw [sourceInForce, sourceInForce, List.map_append, List.map_append, List.map_singleton,
      List.map_singleton, named_append]

/-- A directive of denials more in a block, and no request's score or verdict drops,
whatever the zones hold; what is put into the zones and the name that is looked up
stay the same. -/
theorem added_denial_never_excuses (ngx : ListCore) {outer : List (List ListDirective)}
    {block : List ListDirective} {kind : ListKind} {args : List Bytes} {lists lists' : ListConf}
    (hconf : nestedLists ngx .unset (outer ++ [block]) = .ok lists)
    (hconf' : nestedLists ngx .unset (outer ++ [block ++ [.list kind args]]) = .ok lists')
    (hdeny : kind ≠ .allowlist) (hkeeps : Keeps ngx outer block kind args) {lcf : RequestConf}
    (hw : lcf.weights.Accepted) (fcrdns : FcrdnsConf) (r : SignalRequest) (now : Nat)
    (shm : Segments) :
    let ctx := requestCtx ngx ⟨lcf, fcrdns, lists⟩ r now shm
    let ctx' := requestCtx ngx ⟨lcf, fcrdns, lists'⟩ r now shm
    ctx.score ≤ ctx'.score ∧ ctx.verdict.level ≤ ctx'.verdict.level ∧
      (gatherAll ngx ⟨lcf, fcrdns, lists'⟩ r now shm).2 =
        (gatherAll ngx ⟨lcf, fcrdns, lists⟩ r now shm).2 := by
  intro ctx ctx'
  obtain ⟨hscore, hverdict⟩ :=
    (tighter_append hdeny hkeeps).ctx_le hconf hconf' hw fcrdns r now shm
  refine ⟨hscore, hverdict, ?_⟩
  rw [gatherAll_eq, gatherAll_eq]

/-- One decoy more in a block that has some. -/
def probeMore : ListConf :=
  { probeLists with decoyPaths := [str "/wp-login.php", str "/.env", str "/.git"] }

theorem probeMore_read :
    nestedLists Ref.lists .unset
      ([probeHttp, probeServer] ++ [probeLocation ++ [.list .honeypot [str "/.git"]]]) =
        .ok probeMore := by
  decide +kernel

theorem probeMore_keeps :
    Keeps Ref.lists [probeHttp, probeServer] probeLocation .honeypot [str "/.git"] := by
  rw [Keeps, if_neg (by decide)]
  intro hnone
  exact absurd hnone (by decide +kernel)

theorem added_denial_never_excuses_probe :
    let ctx := requestCtx Ref.lists ⟨defaultConf, ⟨none, 0, []⟩, probeLists⟩ probeRequest 0
      fun _ => sentinelShmInitZone
    let ctx' := requestCtx Ref.lists ⟨defaultConf, ⟨none, 0, []⟩, probeMore⟩ probeRequest 0
      fun _ => sentinelShmInitZone
    ctx.score ≤ ctx'.score ∧ ctx.verdict.level ≤ ctx'.verdict.level := by
  have hconf : nestedLists Ref.lists .unset ([probeHttp, probeServer] ++ [probeLocation]) =
      .ok probeLists := probeBlocks_read
  have hweights : defaultConf.weights.Accepted := defaultWeights_accepted
  obtain ⟨hscore, hverdict, -⟩ := added_denial_never_excuses Ref.lists hconf probeMore_read
    (by decide) probeMore_keeps hweights ⟨none, 0, []⟩ probeRequest 0
    fun _ => sentinelShmInitZone
  exact ⟨hscore, hverdict⟩

/-- The first decoy of a location, which takes those of the http block away. -/
theorem first_decoy_excuses :
    let http : List ListDirective := [.list .honeypot [str "/.env"]]
    let lists : ListConf := { ListConf.unset with decoyPaths := [str "/.env"] }
    let lists' : ListConf := { ListConf.unset with decoyPaths := [str "/.git"] }
    let score := fun lists => (requestCtx Ref.lists ⟨defaultConf, ⟨none, 0, []⟩, lists⟩ probeRequest
      0 fun _ => sentinelShmInitZone).score
    nestedLists Ref.lists .unset [http, []] = .ok lists ∧
      nestedLists Ref.lists .unset [http, [.list .honeypot [str "/.git"]]] = .ok lists' ∧
      score lists' < score lists := by
  refine ⟨by decide +kernel, by decide +kernel, by decide +kernel⟩

end Append
end Sentinel
