import Mathlib.Data.List.Nodup
import Mathlib.Data.List.Pairwise
import Sentinel.HttpConf
import Sentinel.Ngx

/-!
`sentinel_feed_collect`: the list of feeds that the loader timers are armed from.
It walks the tree of every server, and neither the server itself nor the regex
locations nor what is nested below a location.
-/

namespace Sentinel
open Collect

section Model

/-- What the collector reads of a location: the path, and which zone is bound. -/
structure FeedSource where
  csFeed : Bytes
  csZone : Option Nat
  deriving DecidableEq, Repr

/-- `ngx_strncmp` finds the first `n` bytes equal. -/
def ngxStrncmpEq (s1 s2 : Bytes) (n : Nat) : Bool := cString (s1.take n) = cString (s2.take n)

/-- The test of `sentinel_feed_add`; the same configuration passes it as well. -/
def sameFeed (existing lcf : FeedSource) : Bool :=
  existing.csZone = lcf.csZone ∧ existing.csFeed.length = lcf.csFeed.length ∧
    ngxStrncmpEq existing.csFeed lcf.csFeed lcf.csFeed.length

def sentinelFeedAdd (out : List FeedSource) (lcf : FeedSource) : List FeedSource :=
  if lcf.csFeed.length = 0 ∨ lcf.csZone = none then out else add sameFeed out lcf

def sentinelFeedCollectLoc (node : Ternary (CoreLoc FeedSource)) (out : List FeedSource) :
    List FeedSource :=
  node.fold (fun out clcf => sentinelFeedAdd out clcf.sentinel) out

def sentinelFeedCollect (servers : List (CoreSrv FeedSource)) : List FeedSource :=
  servers.foldl (fun out s => sentinelFeedCollectLoc s.loc.statics out) []

def sentinelFeedMaxTimers : Nat := 256

/-- The timers of `sentinel_crowdsec_init_process`, by the feed that each loads. -/
def sentinelCrowdsecInitProcess (servers : List (CoreSrv FeedSource)) : List FeedSource :=
  (sentinelFeedCollect servers).take sentinelFeedMaxTimers

end Model

section Complete
variable {servers : List (CoreSrv FeedSource)}

def FeedSource.HasFeed (lcf : FeedSource) : Prop := lcf.csFeed ≠ [] ∧ lcf.csZone ≠ none

instance (lcf : FeedSource) : Decidable lcf.HasFeed := inferInstanceAs (Decidable (_ ∧ _))

/-- Every feed of a configuration that serves requests is in the list once, and
nothing else is; as far as there are timers, each has one. -/
structure FeedsComplete (servers : List (CoreSrv FeedSource)) : Prop where
  once : ∀ lcf, Serves servers lcf → lcf.HasFeed → (sentinelFeedCollect servers).count lcf = 1
  only : ∀ lcf ∈ sentinelFeedCollect servers, Serves servers lcf ∧ lcf.HasFeed
  timers : (sentinelFeedCollect servers).length ≤ sentinelFeedMaxTimers →
    sentinelCrowdsecInitProcess servers = sentinelFeedCollect servers

/-- The configurations that the walk comes upon. -/
def walkedFeeds (servers : List (CoreSrv FeedSource)) : List FeedSource :=
  (servers.flatMap CoreSrv.treeConfs).filter fun lcf => lcf.HasFeed

theorem foldl_feedAdd (l out : List FeedSource) :
    l.foldl sentinelFeedAdd out =
      (l.filter fun lcf => lcf.HasFeed).foldl (add sameFeed) out := by
  induction l generalizing out with
  | nil => rfl
  | cons lcf l ih =>
      by_cases hfeed : lcf.HasFeed
      · have hskip : ¬ (lcf.csFeed.length = 0 ∨ lcf.csZone = none) := by
          rw [not_or, List.length_eq_zero_iff]
          exact hfeed
        rw [List.foldl_cons, sentinelFeedAdd, if_neg hskip, ih,
          List.filter_cons_of_pos (by simpa using hfeed), List.foldl_cons]
      · have hskip : lcf.csFeed.length = 0 ∨ lcf.csZone = none := by
          rw [FeedSource.HasFeed, not_and_or, not_not, not_not] at hfeed
          rwa [List.length_eq_zero_iff]
        rw [List.foldl_cons, sentinelFeedAdd, if_pos hskip, ih,
          List.filter_cons_of_neg (by simpa using hfeed)]

theorem feedCollect_eq (servers : List (CoreSrv FeedSource)) :
    sentinelFeedCollect servers = (walkedFeeds servers).foldl (add sameFeed) [] := by
  have hwalk : ∀ (out : List FeedSource) (s : CoreSrv FeedSource),
      sentinelFeedCollectLoc s.loc.statics out = s.treeConfs.foldl sentinelFeedAdd out := by
    intro out s
    rw [sentinelFeedCollectLoc, fold_eq, CoreSrv.treeConfs, List.foldl_map]
  simp only [sentinelFeedCollect, hwalk, ← List.foldl_flatMap]
  rw [foldl_feedAdd, walkedFeeds]

theorem mem_walkedFeeds {lcf : FeedSource} :
    lcf ∈ walkedFeeds servers ↔ (∃ s ∈ servers, lcf ∈ s.treeConfs) ∧ lcf.HasFeed := by
  simp [walkedFeeds]

theorem sameFeed_refl (lcf : FeedSource) : sameFeed lcf lcf = true := by
  simp [sameFeed, ngxStrncmpEq]

theorem sameFeed_symm {lcf lcf' : FeedSource} (h : sameFeed lcf lcf' = true) :
    sameFeed lcf' lcf = true := by
  simp only [sameFeed, ngxStrncmpEq, decide_eq_true_eq] at h ⊢
  obtain ⟨hzone, hlen, hcmp⟩ := h
  exact ⟨hzone.symm, hlen.symm, hlen.symm ▸ hcmp.symm⟩

theorem mem_feedCollect {lcf : FeedSource} (h : lcf ∈ sentinelFeedCollect servers) :
    lcf ∈ walkedFeeds servers := by
  rw [feedCollect_eq] at h
  exact (mem_foldl_add h).resolve_left List.not_mem_nil

theorem serves_of_walked {lcf : FeedSource} (h : lcf ∈ walkedFeeds servers) :
    Serves servers lcf ∧ lcf.HasFeed := by
  obtain ⟨⟨s, hs, hlcf⟩, hfeed⟩ := mem_walkedFeeds.mp h
  exact ⟨serves_tree hs hlcf, hfeed⟩

theorem hasFeed_of_same {lcf lcf' : FeedSource} (h : sameFeed lcf lcf' = true)
    (hfeed : lcf.HasFeed) : lcf'.HasFeed := by
  simp only [sameFeed, decide_eq_true_eq] at h
  obtain ⟨hzone, hlen, -⟩ := h
  refine ⟨fun hnil => hfeed.1 ?_, hzone ▸ hfeed.2⟩
  rw [hnil] at hlen
  exact List.eq_nil_of_length_eq_zero hlen

theorem feedCollect_distinct {lcf lcf' : FeedSource} (h : lcf ∈ sentinelFeedCollect servers)
    (h' : lcf' ∈ sentinelFeedCollect servers) (hsame : sameFeed lcf lcf' = true) : lcf = lcf' := by
  by_contra hne
  have hdiff : (sentinelFeedCollect servers).Pairwise fun a b => ¬ sameFeed a b = true := by
    rw [feedCollect_eq]
    exact pairwise_foldl_add List.Pairwise.nil _
  have hsymm : Std.Symm fun a b => ¬ sameFeed a b = true :=
    ⟨fun a b hdiff hsame => hdiff (sameFeed_symm hsame)⟩
  exact hdiff.forall h h' hne hsame

/-- Where feeds that the test takes for one are one, the list has each that the
walk comes upon, and has it once. -/
theorem count_feedCollect (hpaths : ∀ lcf ∈ walkedFeeds servers, ∀ lcf' ∈ walkedFeeds servers,
    sameFeed lcf lcf' = true → lcf = lcf') {lcf : FeedSource} (h : lcf ∈ walkedFeeds servers) :
    (sentinelFeedCollect servers).count lcf = 1 := by
  have hmem : lcf ∈ sentinelFeedCollect servers := by
    obtain ⟨e, he, hsame⟩ := exists_foldl_add sameFeed_refl h []
    rw [← feedCollect_eq] at he
    exact hpaths e (mem_feedCollect he) lcf h hsame ▸ he
  have hnodup : (sentinelFeedCollect servers).Nodup := by
    rw [feedCollect_eq]
    refine (pairwise_foldl_add List.Pairwise.nil _).imp fun hdiff heq => ?_
    exact hdiff (heq ▸ sameFeed_refl _)
  exact List.count_eq_one_of_mem hnodup hmem

/-- The collection is complete exactly when every feed that serves requests is
also that of a location in the tree of some server, and the test of the
collector tells any two of these apart that are two. -/
theorem feed_collect_complete_iff (servers : List (CoreSrv FeedSource)) :
    FeedsComplete servers ↔
      (∀ lcf, Serves servers lcf → lcf.HasFeed → ∃ s ∈ servers, lcf ∈ s.treeConfs) ∧
        ∀ s ∈ servers, ∀ lcf ∈ s.treeConfs, ∀ s' ∈ servers, ∀ lcf' ∈ s'.treeConfs, lcf.HasFeed →
          sameFeed lcf lcf' = true → lcf = lcf' := by
  constructor
  · intro hcomplete
    refine ⟨fun lcf hserves hfeed => ?_, ?_⟩
    · have hcount := hcomplete.once lcf hserves hfeed
      have hmem : lcf ∈ sentinelFeedCollect servers :=
        List.count_pos_iff.mp (hcount.symm ▸ Nat.one_pos)
      exact (mem_walkedFeeds.mp (mem_feedCollect hmem)).1
    · intro s hs lcf hlcf s' hs' lcf' hlcf' hfeed hsame
      have hfeed' : lcf'.HasFeed := hasFeed_of_same hsame hfeed
      have hcount := hcomplete.once lcf (serves_tree hs hlcf) hfeed
      have hcount' := hcomplete.once lcf' (serves_tree hs' hlcf') hfeed'
      have hmem : lcf ∈ sentinelFeedCollect servers :=
        List.count_pos_iff.mp (hcount.symm ▸ Nat.one_pos)
      have hmem' : lcf' ∈ sentinelFeedCollect servers :=
        List.count_pos_iff.mp (hcount'.symm ▸ Nat.one_pos)
      -- The list has no two that are alike.
      exact feedCollect_distinct hmem hmem' hsame
  · intro ⟨hwalked, hpaths⟩
    refine ⟨fun lcf hserves hfeed => ?_, fun lcf hmem => ?_, fun hlen => ?_⟩
    · refine count_feedCollect ?_ (mem_walkedFeeds.mpr ⟨hwalked lcf hserves hfeed, hfeed⟩)
      intro lcf hlcf lcf' hlcf' hsame
      obtain ⟨⟨s, hs, hs_lcf⟩, hlcfFeed⟩ := mem_walkedFeeds.mp hlcf
      obtain ⟨⟨s', hs', hs_lcf'⟩, -⟩ := mem_walkedFeeds.mp hlcf'
      exact hpaths s hs lcf hs_lcf s' hs' lcf' hs_lcf' hlcfFeed hsame
    · exact serves_of_walked (mem_feedCollect hmem)
    · exact List.take_of_length_le hlen

/-- A server without locations whose own block has the feed. -/
def serverFeed : FeedSource := ⟨str "/feed", some 0⟩

theorem server_feed_not_collected : ¬ FeedsComplete [⟨.mk serverFeed .nil [], []⟩] := by
  intro h
  have hserves : Serves [⟨.mk serverFeed .nil [], []⟩] serverFeed :=
    serves_server List.mem_cons_self
  have hcount := h.once serverFeed hserves (by decide)
  exact absurd hcount (by decide)

end Complete

end Sentinel
