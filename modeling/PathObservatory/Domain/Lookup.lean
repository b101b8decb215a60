import PathObservatory.Domain.Plan

/-! # Looking groups up in a finalised plan

The groups are kept in strict order of their identity, so every group is found under
its own.
-/
namespace PathObservatory
open Ranking

namespace RouteGeneration

theorem Finalised.groups_sorted {routes : RouteGeneration} (h : routes.Finalised) :
    routes.groups.Pairwise (fun a b => a.id < b.id) ∧
      ∀ group ∈ routes.groups, group.id.valid = true := by
  obtain ⟨plan,limits,h⟩ := h
  exact ⟨(finalize_sorted h).2,
    fun group hgroup => ((finalize_accepted h).groups_pass group hgroup).id_valid⟩

/-- Every group of the plan is found under its identity. -/
theorem Finalised.findGroup_of_mem {routes : RouteGeneration} (h : routes.Finalised)
    {group : PathGroup} (hgroup : group ∈ routes.groups) :
    routes.findGroup group.id = some group :=
  lookupSorted_of_mem h.groups_sorted.1 hgroup

theorem Finalised.id_valid {routes : RouteGeneration} (h : routes.Finalised) :
    routes.id.valid = true := by
  obtain ⟨plan,limits,h⟩ := h
  have hids := (finalize_accepted h).identified
  simp only [Bool.and_eq_true] at hids
  exact hids.1.1.1.1.1

end RouteGeneration

end PathObservatory
