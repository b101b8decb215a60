import PathObservatory.Domain.Finalize

/-! # Finalising a finalised generation again

An encoding carries a generation without its digests. What is left of a finalised
generation is sorted and has unique members, so finalising it stamps the same digests.
-/
namespace PathObservatory
open Ranking

namespace TopologyGeneration

/-- A generation without its digest. -/
def bare (g : TopologyGeneration) : TopologyGeneration := { g with digest := {} }

theorem finalize_bare {plan g : TopologyGeneration} {limits : Limits}
    (h : plan.finalize limits = .ok g) : g.bare.finalize limits = .ok g :=
  finalize_again h (finalize_accepted h) {}

end TopologyGeneration

def ExpectedPath.bare (path : ExpectedPath) : ExpectedPath := { path with digest := {} }

namespace RouteGeneration

/-- A generation without its digest and those of its paths. -/
def bare (g : RouteGeneration) : RouteGeneration :=
  { g with digest := {}, paths := g.paths.map ExpectedPath.bare }

theorem restates_bare (g : RouteGeneration) : Restates g.bare g where
  rest := rfl
  paths := List.map_map

theorem finalize_bare {plan g : RouteGeneration} {limits : Limits}
    (h : plan.finalize limits = .ok g) : g.bare.finalize limits = .ok g :=
  finalize_again h (finalize_accepted h) (restates_bare g)

/-- The groups of a finalised generation are those of the plan, with members within the
bound. -/
theorem finalize_groups {plan g : RouteGeneration} {limits : Limits}
    (h : plan.finalize limits = .ok g) :
    (∀ group ∈ g.groups, group.members.length ≤ limits.maxMembersPerGroup) ∧
      (g.groups.map (·.label)).Perm (plan.groups.map (·.label)) := by
  refine ⟨fun group hgroup => ((finalize_accepted h).groups_pass group hgroup).members_le,?_⟩
  obtain ⟨-,rfl⟩ := finalize_eq_ok.mp h
  show (((plan.groups.insertionSort _).map PathGroup.tidied).map (·.label)).Perm _
  rw [List.map_map]
  exact (List.perm_insertionSort _ plan.groups).map _

end RouteGeneration

end PathObservatory
