import Sentinel.Lib.Collect

/-!
The configuration that nginx has of an http block when its workers start: the
servers, and below each of them its locations. Exact and prefix locations stand
in a tree, regex locations in an array, and every location may have such a tree
and such an array of its own; named locations belong to the server.

`α` is what this module keeps of its own configuration of a location. Pointers
that nginx never leaves unset are not tested for it.
-/

namespace Sentinel
open Collect
universe u
variable {α : Type u}

/-- `ngx_http_core_loc_conf_t`, with the module's slot of its `loc_conf`. -/
inductive CoreLoc (α : Type u) where
  | mk (sentinel : α) (staticLocations : Ternary (CoreLoc α)) (regexLocations : List (CoreLoc α))

namespace CoreLoc

def sentinel : CoreLoc α → α
  | mk sentinel _ _ => sentinel

/-- `static_locations` -/
def statics : CoreLoc α → Ternary (CoreLoc α)
  | mk _ staticLocations _ => staticLocations

/-- `regex_locations` -/
def regexes : CoreLoc α → List (CoreLoc α)
  | mk _ _ regexLocations => regexLocations

/-- A configuration of the location or of one below it. -/
inductive Has : CoreLoc α → α → Prop
  | self (clcf : CoreLoc α) : Has clcf clcf.sentinel
  | static {clcf clcf' : CoreLoc α} {lcf : α} : clcf' ∈ clcf.statics.entries → Has clcf' lcf →
      Has clcf lcf
  | regex {clcf clcf' : CoreLoc α} {lcf : α} : clcf' ∈ clcf.regexes → Has clcf' lcf →
      Has clcf lcf

end CoreLoc

/-- `ngx_http_core_srv_conf_t`; `loc` is what its own context has for locations. -/
structure CoreSrv (α : Type u) where
  loc : CoreLoc α
  named : List (CoreLoc α)

/-- A request can be served by that configuration. -/
def Serves (servers : List (CoreSrv α)) (lcf : α) : Prop :=
  ∃ s ∈ servers, s.loc.Has lcf ∨ ∃ clcf ∈ s.named, clcf.Has lcf

/-- The configurations of a server's tree, which is not those of the trees below. -/
def CoreSrv.treeConfs (s : CoreSrv α) : List α := s.loc.statics.entries.map CoreLoc.sentinel

theorem serves_server {servers : List (CoreSrv α)} {s : CoreSrv α} (hs : s ∈ servers) :
    Serves servers s.loc.sentinel :=
  ⟨s, hs, .inl (.self s.loc)⟩

theorem serves_tree {servers : List (CoreSrv α)} {s : CoreSrv α} (hs : s ∈ servers) {lcf : α}
    (h : lcf ∈ s.treeConfs) : Serves servers lcf := by
  obtain ⟨clcf, hclcf, rfl⟩ := List.mem_map.mp h
  exact ⟨s, hs, .inl (.static hclcf (.self clcf))⟩

end Sentinel
