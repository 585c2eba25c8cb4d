import Sentinel.ListConf

/-!
What the nested blocks of a configuration make of the lists. Each list is the one
of the innermost block that writes it, with all arguments of all its directives in
their order; each source is the one of the innermost block that names one. A list
of networks has one part a family, and each part is taken over by itself.
-/

namespace Sentinel

section Written

/-- The arguments of all directives of one kind. -/
def written (kind : ListKind) (block : List ListDirective) : List Bytes :=
  block.flatMap fun d =>
    match d with
    | .list k args => if k = kind then args else []
    | .source _ _ => []

/-- The source that a block names. -/
def named (kind : SourceKind) (block : List ListDirective) : Option Bytes :=
  block.findSome? fun d =>
    match d with
    | .list _ _ => none
    | .source k value => if k = kind then some value else none

/-- The network of an argument, if it is of this family. -/
def netOf (ngx : ListCore) (family : CidrFamily) (arg : Bytes) : Option (List Bool) :=
  match ngx.ptocidr arg with
  | none => none
  | some cidr => if cidr.family = family then some cidr.net else none

/-- A list that is set, if anything is in it. -/
def setList {α : Type} (list : List α) : Option (List α) := if list = [] then none else some list

/-- The list that holds in the innermost of some nested blocks. -/
def inForce (kind : ListKind) (blocks : List (List ListDirective)) : List Bytes :=
  (Inherit.innermost (blocks.map fun block => setList (written kind block))).getD []

/-- The source that does. -/
def sourceInForce (kind : SourceKind) (blocks : List (List ListDirective)) : Option Bytes :=
  Inherit.innermost (blocks.map (named kind))

/-- The denied networks that do, of one family. -/
def netsInForce (ngx : ListCore) (family : CidrFamily) (blocks : List (List ListDirective)) :
    Option (List (List Bool)) :=
  Inherit.innermost (blocks.map fun block =>
    setList ((written .c2ipDeny block).filterMap (netOf ngx family)))

end Written
section Directives
variable {ngx : ListCore}

/-- A tree, or a first one, with one more network. -/
def growTree (tree : Option (List (List Bool))) (net : List Bool) : Option (List (List Bool)) :=
  some (tree.getD [] ++ [net])

/-- Both trees with the networks of some arguments. -/
def ListConf.deny (ngx : ListCore) (conf : ListConf) (args : List Bytes) : ListConf :=
  { conf with
    c2ipTree := (args.filterMap (netOf ngx .inet)).foldl growTree conf.c2ipTree
    c2ipTree6 := (args.filterMap (netOf ngx .inet6)).foldl growTree conf.c2ipTree6 }

/-- A directive that is accepted, by what it leaves. -/
def ListConf.add (ngx : ListCore) (conf : ListConf) : ListDirective → ListConf
  | .list .honeypot args => { conf with decoyPaths := conf.decoyPaths ++ args }
  | .list .allowlist args =>
      { conf with allowCidrs := conf.allowCidrs ++ args.filterMap ngx.ptocidr }
  | .list .datacenterAsn args => { conf with asnList := conf.asnList ++ args.filterMap ngx.atoi }
  | .list .c2ipDeny args => conf.deny ngx args
  | .list .ja3Deny args => { conf with ja3 := ⟨conf.ja3.source, conf.ja3.list ++ args⟩ }
  | .list .ja4Deny args => { conf with ja4 := ⟨conf.ja4.source, conf.ja4.list ++ args⟩ }
  | .list .ja4tDeny args => { conf with ja4t := ⟨conf.ja4t.source, conf.ja4t.list ++ args⟩ }
  | .source .asn value => { conf with asnSource := some value }
  | .source .ja3 value => { conf with ja3 := ⟨some value, conf.ja3.list⟩ }
  | .source .ja4 value => { conf with ja4 := ⟨some value, conf.ja4.list⟩ }
  | .source .ja4t value => { conf with ja4t := ⟨some value, conf.ja4t.list⟩ }

/-- An argument that the handler of its directive takes. -/
def GoodArg (ngx : ListCore) (kind : ListKind) (arg : Bytes) : Prop :=
  match kind with
  | .honeypot | .ja3Deny | .ja4Deny | .ja4tDeny => arg ≠ []
  | .allowlist => arg ≠ [] ∧ (ngx.ptocidr arg).isSome
  | .datacenterAsn => ∃ v, ngx.atoi arg = some v ∧ 0 < v
  | .c2ipDeny => ∃ cidr, ngx.ptocidr arg = some cidr ∧ cidr.family ≠ .unix

/-- The source of a kind that has been named. -/
def ListConf.source (conf : ListConf) : SourceKind → Option Bytes
  | .asn => conf.asnSource
  | .ja3 => conf.ja3.source
  | .ja4 => conf.ja4.source
  | .ja4t => conf.ja4t.source

/-- A directive that is accepted: its arguments are good, and a source is the first of
its kind in the block. -/
def Acceptable (ngx : ListCore) (conf : ListConf) : ListDirective → Prop
  | .list kind args => ∀ arg ∈ args, GoodArg ngx kind arg
  | .source kind value => conf.source kind = none ∧ ngx.compileComplexValue value = true

/-- The loop of a list, by what each argument is read as. -/
theorem pushArgs_eq_ok {α : Type} {read : Bytes → Except Bytes α} {good : Bytes → Prop}
    {value : Bytes → Option α} (hgood : ∀ arg, good arg → (value arg).isSome)
    (hread : ∀ arg a, read arg = .ok a ↔ good arg ∧ value arg = some a) {list list' : List α}
    {args : List Bytes} :
    pushArgs read list args = .ok list' ↔
      (∀ arg ∈ args, good arg) ∧ list' = list ++ args.filterMap value := by
  have hstep : ∀ list arg list',
      ((read arg).map fun a => list ++ [a]) = .ok list' ↔
        good arg ∧ list' = list ++ (value arg).toList := by
    intro list arg list'
    rw [Run.map_ok]
    simp only [hread]
    constructor
    · intro ⟨a, ⟨harg, ha⟩, hlist⟩
      rw [ha, Option.toList_some, hlist]
      exact ⟨harg, rfl⟩
    · intro ⟨harg, hlist⟩
      obtain ⟨a, ha⟩ := Option.isSome_iff_exists.mp (hgood arg harg)
      rw [ha, Option.toList_some] at hlist
      exact ⟨a, ⟨harg, ha⟩, hlist.symm⟩
  have hexec : Run.exec (fun list arg => list ++ (value arg).toList) list args =
      list ++ args.filterMap value := by
    induction args generalizing list with
    | nil => simp
    | cons arg args ih =>
        rw [Run.exec_cons, ih]
        cases harg : value arg with
        | none => simp [harg]
        | some a => simp [harg]
  rw [pushArgs, Run.tryExec_eq_ok_iff hstep, hexec, Run.along_iff_forall]

theorem taken_iff {α β : Type} {P : Prop} {b : α} {f : α → β} {c : β} :
    (∃ a, (P ∧ a = b) ∧ f a = c) ↔ P ∧ c = f b := by
  constructor
  · intro ⟨a, ⟨h, ha⟩, hc⟩
    rw [ha] at hc
    exact ⟨h, hc.symm⟩
  · intro ⟨h, hc⟩
    exact ⟨b, ⟨h, rfl⟩, hc.symm⟩

theorem pushTexts_eq_ok (error : Bytes) {list list' args : List Bytes} :
    pushArgs (readText error) list args = .ok list' ↔
      (∀ arg ∈ args, arg ≠ []) ∧ list' = list ++ args := by
  have hread : ∀ arg a, readText error arg = .ok a ↔ arg ≠ [] ∧ some arg = some a := by
    intro arg a
    cases arg with
    | nil => simp [readText]
    | cons b arg => simp [readText]
  rw [pushArgs_eq_ok (fun _ _ => rfl) hread, List.filterMap_some]

theorem pushAllowed_eq_ok {list list' : List Cidr} {args : List Bytes} :
    pushArgs (readAllowed ngx) list args = .ok list' ↔
      (∀ arg ∈ args, GoodArg ngx .allowlist arg) ∧ list' = list ++ args.filterMap ngx.ptocidr := by
  apply pushArgs_eq_ok (fun _ h => h.2)
  intro arg a
  cases arg with
  | nil => simp [readAllowed, GoodArg]
  | cons b arg =>
      cases hcidr : ngx.ptocidr (b :: arg) with
      | none => simp [readAllowed, GoodArg, hcidr]
      | some cidr => simp [readAllowed, GoodArg, hcidr]

theorem pushAsn_eq_ok {list list' : List Nat} {args : List Bytes} :
    pushArgs (readAsn ngx) list args = .ok list' ↔
      (∀ arg ∈ args, GoodArg ngx .datacenterAsn arg) ∧ list' = list ++ args.filterMap ngx.atoi := by
  apply pushArgs_eq_ok
  · intro arg h
    obtain ⟨v, hv, -⟩ := h
    rw [hv, Option.isSome_some]
  · intro arg a
    cases hv : ngx.atoi arg with
    | none => simp [readAsn, GoodArg, hv]
    | some v =>
        by_cases hpos : v ≤ 0
        · simp [readAsn, GoodArg, hv, hpos]
        · simp [readAsn, GoodArg, hv, hpos, Nat.lt_of_not_le hpos]

/-- A source is taken where none is named yet. -/
theorem confSource_eq_ok {source source' : Option Bytes} {value : Bytes} :
    confSource ngx source value = .ok source' ↔
      (source = none ∧ ngx.compileComplexValue value = true) ∧ source' = some value := by
  cases source with
  | some s => simp [confSource]
  | none =>
      rw [confSource]
      by_cases h : ngx.compileComplexValue value = true
      · simp [h, eq_comm]
      · simp [h]

theorem deny_cons (conf : ListConf) (arg : Bytes) (args : List Bytes) :
    conf.deny ngx (arg :: args) = (conf.deny ngx [arg]).deny ngx args := by
  simp only [ListConf.deny, List.filterMap_cons, List.filterMap_nil]
  cases netOf ngx .inet arg with
  | none =>
      cases netOf ngx .inet6 arg with
      | none => rfl
      | some net => rfl
  | some net =>
      cases netOf ngx .inet6 arg with
      | none => rfl
      | some net => rfl

theorem c2ipDenyArg_eq_ok (conf : ListConf) (arg : Bytes) (conf' : ListConf) :
    c2ipDenyArg ngx conf arg = .ok conf' ↔
      GoodArg ngx .c2ipDeny arg ∧ conf' = conf.deny ngx [arg] := by
  cases hcidr : ngx.ptocidr arg with
  | none => simp [c2ipDenyArg, GoodArg, hcidr]
  | some cidr =>
      cases hfamily : cidr.family with
      | inet => simp [c2ipDenyArg, GoodArg, hcidr, hfamily, ListConf.deny, netOf, growTree, eq_comm]
      | inet6 =>
          simp [c2ipDenyArg, GoodArg, hcidr, hfamily, ListConf.deny, netOf, growTree, eq_comm]
      | unix => simp [c2ipDenyArg, GoodArg, hcidr, hfamily]

theorem c2ipDeny_eq_ok {conf conf' : ListConf} {args : List Bytes} :
    sentinelConfC2ipDeny ngx conf args = .ok conf' ↔
      (∀ arg ∈ args, GoodArg ngx .c2ipDeny arg) ∧ conf' = conf.deny ngx args := by
  have hexec : Run.exec (fun conf arg => conf.deny ngx [arg]) conf args = conf.deny ngx args := by
    induction args generalizing conf with
    | nil => rfl
    | cons arg args ih => rw [Run.exec_cons, ih, ← deny_cons]
  rw [sentinelConfC2ipDeny, Run.tryExec_eq_ok_iff c2ipDenyArg_eq_ok, hexec, Run.along_iff_forall]

/-- Which directives are accepted, and what they leave. -/
theorem listDirective_eq_ok (conf : ListConf) (d : ListDirective) (conf' : ListConf) :
    listDirective ngx conf d = .ok conf' ↔ Acceptable ngx conf d ∧ conf' = conf.add ngx d := by
  cases d with
  | list kind args =>
      cases kind with
      | honeypot =>
          simp only [listDirective, sentinelConfHoneypot, Run.map_ok, pushTexts_eq_ok, taken_iff]
          rfl
      | allowlist =>
          simp only [listDirective, sentinelConfAllowlist, Run.map_ok, pushAllowed_eq_ok, taken_iff]
          rfl
      | datacenterAsn =>
          simp only [listDirective, sentinelConfDatacenterAsn, Run.map_ok, pushAsn_eq_ok, taken_iff]
          rfl
      | c2ipDeny => exact c2ipDeny_eq_ok
      | ja3Deny =>
          simp only [listDirective, sentinelConfJa3Deny, confFpDeny, Run.map_ok, pushTexts_eq_ok,
            taken_iff]
          rfl
      | ja4Deny =>
          simp only [listDirective, sentinelConfJa4Deny, confFpDeny, Run.map_ok, pushTexts_eq_ok,
            taken_iff]
          rfl
      | ja4tDeny =>
          simp only [listDirective, sentinelConfJa4tDeny, confFpDeny, Run.map_ok, pushTexts_eq_ok,
            taken_iff]
          rfl
  | source kind value =>
      cases kind with
      | asn =>
          simp only [listDirective, sentinelConfAsnSource, Run.map_ok, confSource_eq_ok, taken_iff]
          rfl
      | ja3 =>
          simp only [listDirective, sentinelConfJa3Source, confFpSource, Run.map_ok,
            confSource_eq_ok, taken_iff]
          rfl
      | ja4 =>
          simp only [listDirective, sentinelConfJa4Source, confFpSource, Run.map_ok,
            confSource_eq_ok, taken_iff]
          rfl
      | ja4t =>
          simp only [listDirective, sentinelConfJa4tSource, confFpSource, Run.map_ok,
            confSource_eq_ok, taken_iff]
          rfl

end Directives
section Blocks
variable {ngx : ListCore} {conf : ListConf} {block : List ListDirective}

theorem written_list (kind k : ListKind) (args : List Bytes) (block : List ListDirective) :
    written kind (.list k args :: block) = (if k = kind then args else []) ++ written kind block :=
  rfl

theorem written_source (kind : ListKind) (k : SourceKind) (value : Bytes)
    (block : List ListDirective) : written kind (.source k value :: block) = written kind block :=
  rfl

theorem named_list (kind : SourceKind) (k : ListKind) (args : List Bytes)
    (block : List ListDirective) : named kind (.list k args :: block) = named kind block :=
  rfl

theorem named_source (kind k : SourceKind) (value : Bytes) (block : List ListDirective) :
    named kind (.source k value :: block) = if k = kind then some value else named kind block := by
  rw [named, List.findSome?_cons]
  by_cases h : k = kind
  · simp only [h, if_true]
  · simp only [h, if_false]
    rfl

/-- What the directives of a block add to what is there. -/
def ListConf.grown (ngx : ListCore) (conf : ListConf) (block : List ListDirective) : ListConf where
  decoyPaths := conf.decoyPaths ++ written .honeypot block
  allowCidrs := conf.allowCidrs ++ (written .allowlist block).filterMap ngx.ptocidr
  asnSource := conf.asnSource.or (named .asn block)
  asnList := conf.asnList ++ (written .datacenterAsn block).filterMap ngx.atoi
  c2ipTree := ((written .c2ipDeny block).filterMap (netOf ngx .inet)).foldl growTree conf.c2ipTree
  c2ipTree6 :=
    ((written .c2ipDeny block).filterMap (netOf ngx .inet6)).foldl growTree conf.c2ipTree6
  ja3 := ⟨conf.ja3.source.or (named .ja3 block), conf.ja3.list ++ written .ja3Deny block⟩
  ja4 := ⟨conf.ja4.source.or (named .ja4 block), conf.ja4.list ++ written .ja4Deny block⟩
  ja4t := ⟨conf.ja4t.source.or (named .ja4t block), conf.ja4t.list ++ written .ja4tDeny block⟩

theorem grown_nil : conf.grown ngx [] = conf := by
  simp [ListConf.grown, written, named]

theorem grown_cons {d : ListDirective} (h : Acceptable ngx conf d) :
    (conf.add ngx d).grown ngx block = conf.grown ngx (d :: block) := by
  cases d with
  | list kind args =>
      cases kind with
      | _ => simp [ListConf.add, ListConf.deny, ListConf.grown, written_list, named_list]
  | source kind value =>
      have hnone := h.1
      cases kind with
      | _ =>
          simp only [ListConf.source] at hnone
          simp [ListConf.add, ListConf.grown, written_source, named_source, hnone]

/-- A block, directive by directive and as a whole. -/
theorem exec_add (h : Run.Along (Acceptable ngx) (ListConf.add ngx) conf block) :
    Run.exec (ListConf.add ngx) conf block = conf.grown ngx block ∧
      ∀ kind, ∀ arg ∈ written kind block, GoodArg ngx kind arg := by
  induction block generalizing conf with
  | nil => exact ⟨grown_nil.symm, fun kind arg harg => absurd harg List.not_mem_nil⟩
  | cons d block ih =>
      obtain ⟨hgrown, hgood⟩ := ih h.2
      refine ⟨?_, ?_⟩
      · rw [Run.exec_cons, hgrown, grown_cons h.1]
      · intro kind arg harg
        cases d with
        | list k args =>
            rw [written_list] at harg
            cases List.mem_append.mp harg with
            | inl hhere =>
                split at hhere
                next hk => exact hk ▸ h.1 arg hhere
                next => exact absurd hhere List.not_mem_nil
            | inr hrest => exact hgood kind arg hrest
        | source k value => exact hgood kind arg harg

theorem readLists_eq_ok (h : readLists ngx block = .ok conf) :
    conf = ListConf.unset.grown ngx block ∧
      ∀ kind, ∀ arg ∈ written kind block, GoodArg ngx kind arg := by
  obtain ⟨halong, hexec⟩ := (Run.tryExec_eq_ok_iff listDirective_eq_ok).mp h
  obtain ⟨hgrown, hgood⟩ := exec_add halong
  exact ⟨hexec.trans hgrown, hgood⟩

end Blocks
section Nested
variable {ngx : ListCore} {prev lists : ListConf} {blocks : List (List ListDirective)}

@[simp] theorem getD_setList {α : Type} (l : List α) : (setList l).getD [] = l := by
  cases l with
  | nil => rfl
  | cons a l => rfl

theorem setList_inherit {α : Type} (prev conf : List α) :
    setList (inheritList prev conf) = (setList conf).or (setList prev) := by
  cases conf with
  | nil =>
      cases prev with
      | nil => rfl
      | cons a prev => rfl
  | cons a conf => simp [inheritList, setList]

theorem inheritPtr_eq {α : Type} (prev conf : Option α) : inheritPtr prev conf = conf.or prev := by
  cases conf with
  | none => rfl
  | some a => rfl

/-- Arguments that are all taken make a list exactly where they are. -/
theorem setList_filterMap {α : Type} {value : Bytes → Option α} {args : List Bytes}
    (h : ∀ arg ∈ args, (value arg).isSome) :
    setList (args.filterMap value) = (setList args).map fun args => args.filterMap value := by
  cases args with
  | nil => rfl
  | cons arg args =>
      obtain ⟨a, ha⟩ := Option.isSome_iff_exists.mp (h arg List.mem_cons_self)
      simp [setList, ha]

/-- The tree that is made of some networks, if there are any. -/
theorem foldl_growTree (nets : List (List Bool)) : nets.foldl growTree none = setList nets := by
  have hsome : ∀ tree nets : List (List Bool),
      nets.foldl growTree (some tree) = some (tree ++ nets) := by
    intro tree nets
    induction nets generalizing tree with
    | nil => rw [List.append_nil, List.foldl_nil]
    | cons net nets ih =>
        rw [List.foldl_cons, growTree, Option.getD_some, ih, List.append_assoc,
          List.singleton_append]
  cases nets with
  | nil => rfl
  | cons net nets => exact hsome [net] nets

/-- A setting that a block takes over when it does not have it itself. -/
theorem nested_setting {β : Type} (setting : ListConf → Option β)
    (said : List ListDirective → Option β)
    (hread : ∀ block conf, readLists ngx block = .ok conf → setting conf = said block)
    (hmerge : ∀ prev conf,
      setting (ngxSentinelMergeLists prev conf) = (setting conf).or (setting prev))
    (h : nestedLists ngx prev blocks = .ok lists) :
    setting lists = (Inherit.innermost (blocks.map said)).or (setting prev) := by
  induction blocks generalizing prev with
  | nil =>
      obtain rfl := Except.ok.inj h
      simp
  | cons block blocks ih =>
      obtain ⟨conf, hconf, hrest⟩ := Run.bind_ok.mp h
      rw [ih hrest, hmerge, hread block conf hconf, List.map_cons, Inherit.innermost,
        Option.or_assoc]

/-- A list that holds what its arguments are read as. -/
theorem list_inForce {α : Type} (kind : ListKind) (value : Bytes → Option α)
    (list : ListConf → List α) (hunset : list .unset = [])
    (hgood : ∀ arg, GoodArg ngx kind arg → (value arg).isSome)
    (hgrown : ∀ block, list (ListConf.unset.grown ngx block) = (written kind block).filterMap value)
    (hmerge : ∀ prev conf,
      list (ngxSentinelMergeLists prev conf) = inheritList (list prev) (list conf))
    (h : nestedLists ngx .unset blocks = .ok lists) :
    list lists = (inForce kind blocks).filterMap value := by
  have hsetting := nested_setting (fun conf => setList (list conf))
    (fun block => (setList (written kind block)).map fun args => args.filterMap value)
    (fun block conf hconf => by
      obtain ⟨rfl, hargs⟩ := readLists_eq_ok hconf
      rw [hgrown]
      exact setList_filterMap fun arg harg => hgood arg (hargs kind arg harg))
    (fun prev conf => by rw [hmerge, setList_inherit]) h
  rw [hunset, show setList ([] : List α) = none from rfl, Option.or_none,
    Inherit.innermost_map] at hsetting
  have hlist := congrArg (fun l => l.getD []) hsetting
  simp only [getD_setList] at hlist
  rw [hlist, inForce]
  cases Inherit.innermost (blocks.map fun block => setList (written kind block)) with
  | none => rfl
  | some args => rfl

theorem source_inForce (kind : SourceKind) (source : ListConf → Option Bytes)
    (hunset : source .unset = none)
    (hgrown : ∀ block, source (ListConf.unset.grown ngx block) = named kind block)
    (hmerge : ∀ prev conf,
      source (ngxSentinelMergeLists prev conf) = inheritPtr (source prev) (source conf))
    (h : nestedLists ngx .unset blocks = .ok lists) :
    source lists = sourceInForce kind blocks := by
  have hsetting := nested_setting source (named kind)
    (fun block conf hconf => by rw [(readLists_eq_ok hconf).1, hgrown])
    (fun prev conf => by rw [hmerge, inheritPtr_eq]) h
  rw [hsetting, hunset, Option.or_none, sourceInForce]

theorem tree_inForce (family : CidrFamily) (tree : ListConf → Option (List (List Bool)))
    (hunset : tree .unset = none)
    (hgrown : ∀ block, tree (ListConf.unset.grown ngx block) =
      ((written .c2ipDeny block).filterMap (netOf ngx family)).foldl growTree none)
    (hmerge : ∀ prev conf,
      tree (ngxSentinelMergeLists prev conf) = inheritPtr (tree prev) (tree conf))
    (h : nestedLists ngx .unset blocks = .ok lists) :
    tree lists = netsInForce ngx family blocks := by
  have hsetting := nested_setting tree
    (fun block => setList ((written .c2ipDeny block).filterMap (netOf ngx family)))
    (fun block conf hconf => by rw [(readLists_eq_ok hconf).1, hgrown, foldl_growTree])
    (fun prev conf => by rw [hmerge, inheritPtr_eq]) h
  rw [hsetting, hunset, Option.or_none, netsInForce]

/-- What the innermost block has in the end, list by list. -/
theorem nestedLists_eq (h : nestedLists ngx .unset blocks = .ok lists) :
    lists =
      { decoyPaths := inForce .honeypot blocks
        allowCidrs := (inForce .allowlist blocks).filterMap ngx.ptocidr
        asnSource := sourceInForce .asn blocks
        asnList := (inForce .datacenterAsn blocks).filterMap ngx.atoi
        c2ipTree := netsInForce ngx .inet blocks
        c2ipTree6 := netsInForce ngx .inet6 blocks
        ja3 := ⟨sourceInForce .ja3 blocks, inForce .ja3Deny blocks⟩
        ja4 := ⟨sourceInForce .ja4 blocks, inForce .ja4Deny blocks⟩
        ja4t := ⟨sourceInForce .ja4t blocks, inForce .ja4tDeny blocks⟩ } := by
  have htext : ∀ (kind : ListKind) (list : ListConf → List Bytes), list .unset = [] →
      (∀ block, list (ListConf.unset.grown ngx block) = written kind block) →
      (∀ prev conf, list (ngxSentinelMergeLists prev conf) = inheritList (list prev) (list conf)) →
      list lists = inForce kind blocks := by
    intro kind list hunset hgrown hmerge
    have hlist := list_inForce kind some list hunset (fun _ _ => rfl)
      (fun block => by rw [hgrown, List.filterMap_some]) hmerge h
    rwa [List.filterMap_some] at hlist
  have hasn : ∀ arg, GoodArg ngx .datacenterAsn arg → (ngx.atoi arg).isSome := by
    intro arg hgood
    obtain ⟨v, hv, -⟩ := hgood
    rw [hv, Option.isSome_some]
  have h₁ := htext .honeypot ListConf.decoyPaths rfl (fun _ => rfl) (fun _ _ => rfl)
  have h₂ := list_inForce .allowlist ngx.ptocidr ListConf.allowCidrs rfl (fun _ hgood => hgood.2)
    (fun _ => rfl) (fun _ _ => rfl) h
  have h₃ := source_inForce .asn ListConf.asnSource rfl (fun _ => rfl) (fun _ _ => rfl) h
  have h₄ := list_inForce .datacenterAsn ngx.atoi ListConf.asnList rfl hasn (fun _ => rfl)
    (fun _ _ => rfl) h
  have h₅ := tree_inForce .inet ListConf.c2ipTree rfl (fun _ => rfl) (fun _ _ => rfl) h
  have h₆ := tree_inForce .inet6 ListConf.c2ipTree6 rfl (fun _ => rfl) (fun _ _ => rfl) h
  have hfp : ∀ (source : SourceKind) (kind : ListKind) (fp : ListConf → FpConf),
      fp .unset = ⟨none, []⟩ →
      (∀ block, fp (ListConf.unset.grown ngx block) = ⟨named source block, written kind block⟩) →
      (∀ prev conf, fp (ngxSentinelMergeLists prev conf) = inheritFp (fp prev) (fp conf)) →
      fp lists = ⟨sourceInForce source blocks, inForce kind blocks⟩ := by
    intro source kind fp hunset hgrown hmerge
    have hsource := source_inForce source (fun conf => (fp conf).source) (by rw [hunset])
      (fun block => by rw [hgrown]) (fun prev conf => by rw [hmerge, inheritFp]) h
    have hlist := htext kind (fun conf => (fp conf).list) (by rw [hunset])
      (fun block => by rw [hgrown]) (fun prev conf => by rw [hmerge, inheritFp])
    rw [← hsource, ← hlist]
  have h₇ := hfp .ja3 .ja3Deny ListConf.ja3 rfl (fun _ => rfl) (fun _ _ => rfl)
  have h₈ := hfp .ja4 .ja4Deny ListConf.ja4 rfl (fun _ => rfl) (fun _ _ => rfl)
  have h₉ := hfp .ja4t .ja4tDeny ListConf.ja4t rfl (fun _ => rfl) (fun _ _ => rfl)
  rw [← h₁, ← h₂, ← h₃, ← h₄, ← h₅, ← h₆, ← h₇, ← h₈, ← h₉]

end Nested
end Sentinel
