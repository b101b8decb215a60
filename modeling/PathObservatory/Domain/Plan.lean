import PathObservatory.Domain.Finalize

/-! # What a finalised plan guarantees

Every path has hops whose indices are their positions, and every group has
members that are paths of that group.
-/
namespace PathObservatory
open Ranking

namespace RouteGeneration

/-- A path as the plan keeps it. -/
structure PathWellFormed (path : ExpectedPath) : Prop where
  id_valid : path.id.valid = true
  hops_ne_nil : path.hops ≠ []
  index_eq : ∀ (i : ℕ) (hop : ExpectedHop), path.hops[i]? = some hop → hop.index.toNat = i

/-- A plan finalised under some limits keeps to their hop bound. -/
theorem finalize_hops {plan routes : RouteGeneration} {limits : Limits}
    (h : plan.finalize limits = .ok routes) :
    ∀ path ∈ routes.paths, path.hops.length ≤ limits.maxHopsPerPath :=
  fun path hpath => ((finalize_accepted h).paths_pass path hpath).hops_le

/-- A group as the plan keeps it, given the paths of the plan. -/
structure GroupWellFormed (paths : List ExpectedPath) (group : PathGroup) : Prop where
  members_ne_nil : group.members ≠ []
  members_known : ∀ member ∈ group.members, ∃ path,
    lookupSorted ExpectedPath.id member paths = some path ∧ path.group = group.id

theorem Finalised.wellFormed {routes : RouteGeneration} (h : routes.Finalised) :
    (∀ path ∈ routes.paths, PathWellFormed path) ∧
      ∀ group ∈ routes.groups, GroupWellFormed routes.paths group := by
  obtain ⟨plan,limits,h⟩ := h
  have haccepted := finalize_accepted h
  refine ⟨fun path hpath => ?_,fun group hgroup => ?_⟩
  · have hpass := haccepted.paths_pass path hpath
    exact ⟨hpass.id_valid,hpass.hops_ne_nil,fun i hop hi => (hpass.hops_pass i hop hi).index_eq⟩
  · have hpass := haccepted.groups_pass group hgroup
    refine ⟨hpass.members_ne_nil,fun member hmember => ?_⟩
    obtain ⟨path,hpath,rfl,hsame⟩ := hpass.members_known member hmember
    exact ⟨path,lookupSorted_of_mem (finalize_sorted h).1 hpath,hsame⟩

theorem Finalised.findPath {routes : RouteGeneration} (h : routes.Finalised) {id : PathId}
    {path : ExpectedPath} (hp : routes.findPath id = some path) :
    PathWellFormed path ∧ path.id = id := by
  obtain ⟨hmem,hid⟩ := mem_of_lookupSorted hp
  exact ⟨h.wellFormed.1 path hmem,hid⟩

theorem Finalised.findGroup {routes : RouteGeneration} (h : routes.Finalised) {id : PathGroupId}
    {group : PathGroup} (hg : routes.findGroup id = some group) :
    GroupWellFormed routes.paths group := by
  exact h.wellFormed.2 group (mem_of_lookupSorted hg).1

end RouteGeneration

end PathObservatory
