import PathObservatory.Engine.Bounds
import PathObservatory.Engine.OutcomeClasses

/-! # Paths and the groups that list them

To finalise a plan is to look up every member of every group. A path that no group lists is
not looked at, so it may name a group that does not list it, or one the plan does not have.
Where such a path is claimed, a trace is measured against it.
-/
namespace PathObservatory
open ComparisonEngine

namespace RouteGeneration
variable {plan g : RouteGeneration} {limits : Limits}

/-- Paths name the groups that list them, and no others. -/
structure MembershipAgrees (g : RouteGeneration) : Prop where
  both : ∀ path ∈ g.paths, ∀ group ∈ g.groups, path.group = group.id ↔ path.id ∈ group.members
  known : ∀ path ∈ g.paths, ∃ group ∈ g.groups, path.group = group.id

/-- Whatever is compared with a group, it is measured against a member of the group. -/
def MeasuresMembers (g : RouteGeneration) : Prop :=
  ∀ request group reference, resolveGroup g request = some group →
    referencePath g group request = some reference → reference ∈ memberPaths g group

/-- Every path is listed by some group. -/
def ListsPaths (g : RouteGeneration) : Prop :=
  ∀ path ∈ g.paths, ∃ group ∈ g.groups, path.id ∈ group.members

instance (g : RouteGeneration) : Decidable g.ListsPaths :=
  inferInstanceAs (Decidable (∀ path ∈ g.paths, ∃ group ∈ g.groups, path.id ∈ group.members))

/-- A path that a group lists names this group. -/
theorem Accepted.group_of_listed (hg : Accepted limits g) {path : ExpectedPath} {group : PathGroup}
    (hpath : path ∈ g.paths) (hgroup : group ∈ g.groups) (hlisted : path.id ∈ group.members) :
    path.group = group.id := by
  obtain ⟨other,hother,hid,hnames⟩ := (hg.groups_pass group hgroup).members_known path.id hlisted
  have hsame : other = path := List.inj_on_of_nodup_map hg.paths_distinct hother hpath hid
  rw [← hsame, hnames]

/-- What finalising checks of the groups leaves only the other direction open. -/
theorem Accepted.membershipAgrees_iff (hg : Accepted limits g) :
    g.MembershipAgrees ↔ g.ListsPaths := by
  constructor
  · intro hagrees path hpath
    obtain ⟨group,hgroup,hnames⟩ := hagrees.known path hpath
    exact ⟨group,hgroup,(hagrees.both path hpath group hgroup).mp hnames⟩
  · intro hlists
    refine ⟨fun path hpath group hgroup => ⟨fun hnames => ?_,hg.group_of_listed hpath hgroup⟩,
      fun path hpath => ?_⟩
    · obtain ⟨other,hother,hlisted⟩ := hlists path hpath
      have hid : other.id = group.id := (hg.group_of_listed hpath hother hlisted).symm.trans hnames
      have hsame : other = group := List.inj_on_of_nodup_map hg.groups_distinct hother hgroup hid
      exact hsame ▸ hlisted
    · obtain ⟨group,hgroup,hlisted⟩ := hlists path hpath
      exact ⟨group,hgroup,hg.group_of_listed hpath hgroup hlisted⟩

theorem listsPaths_canonical : plan.canonical.ListsPaths ↔ plan.ListsPaths := by
  have hgroups : ∀ group, group ∈ plan.canonical.groups ↔
      ∃ declared ∈ plan.groups, declared.tidied = group := by
    intro group
    simp only [canonical, sorted, List.mem_map, List.mem_insertionSort]
  constructor
  · intro hlists path hpath
    obtain ⟨group,hgroup,hlisted⟩ :=
      hlists path.stamped (mem_sorted_paths.mpr ⟨path,hpath,rfl⟩)
    obtain ⟨declared,hdeclared,rfl⟩ := (hgroups group).mp hgroup
    exact ⟨declared,hdeclared,PathGroup.mem_tidied.mp hlisted⟩
  · intro hlists path hpath
    obtain ⟨declared,hdeclared,rfl⟩ := mem_sorted_paths.mp hpath
    obtain ⟨group,hgroup,hlisted⟩ := hlists declared hdeclared
    exact ⟨group.tidied,(hgroups _).mpr ⟨group,hgroup,rfl⟩,PathGroup.mem_tidied.mpr hlisted⟩

/-- A path that is claimed for a group names it. -/
theorem MembershipAgrees.measuresMembers (hagrees : g.MembershipAgrees) : g.MeasuresMembers := by
  intro request group reference hgroup hreference
  rcases referencePath_cases hreference with ⟨path,hclaimed⟩ | hmem
  · have hnames : reference.group = group.id := by
      unfold claimedPath at hclaimed
      split_ifs at hclaimed
      exact of_decide_eq_true (Option.filter_eq_some_iff.mp hclaimed).2
    have hlisted := (hagrees.both reference (referencePath_mem hreference) group
      (mem_groups_of_resolveGroup hgroup)).mp hnames
    exact List.mem_filterMap.mpr ⟨reference.id,hlisted,referencePath_found hreference⟩
  · exact hmem

/-- In a finalised plan paths and groups agree about membership, and traces are measured
against members only, exactly when every path of the plan is listed by some group. -/
theorem membership_agrees_iff (h : plan.finalize limits = .ok g) :
    (g.MembershipAgrees ∧ g.MeasuresMembers) ↔ plan.ListsPaths := by
  obtain ⟨haccepted,rfl⟩ := finalize_eq_ok.mp h
  rw [and_iff_left_of_imp MembershipAgrees.measuresMembers]
  exact haccepted.canonical.membershipAgrees_iff.trans listsPaths_canonical

/-- The one path of the sample plan is listed. -/
theorem sample_membership_agrees :
    sampleRoutes.MembershipAgrees ∧ sampleRoutes.MeasuresMembers := by
  have hfinalised : samplePlan.finalize {} = .ok sampleRoutes :=
    finalize_finalisedPlan (by decide)
  exact (membership_agrees_iff hfinalised).mpr (by decide)

/-- A plan is finalised in which a path names a group that does not list it, and a trace is
measured against this path. -/
theorem unlisted_path_is_measured_against :
    ¬ ∀ (plan g : RouteGeneration) (limits : Limits), plan.finalize limits = .ok g →
      g.MembershipAgrees ∧ g.MeasuresMembers := by
  intro hclaim
  have hfinalised : RouteGeneration.finalize { forkedPlan with groups := samplePlan.groups } {} =
      .ok unlistedRoutes := finalize_finalisedPlan (by decide)
  have hmeasures := (hclaim _ _ _ hfinalised).2
  have hreference : (referencePath unlistedRoutes sampleGroup (sampleRequest unlistedEvidence)).any
      (· ∉ memberPaths unlistedRoutes sampleGroup) = true := by decide
  obtain ⟨reference,hreference,hforeign⟩ := (Option.any_eq_true _ _).mp hreference
  exact of_decide_eq_true hforeign
    (hmeasures _ _ _ (unlisted_resolveGroup unlistedEvidence) hreference)

end RouteGeneration

end PathObservatory
