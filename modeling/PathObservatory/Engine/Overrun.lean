import Mathlib.Order.Bounds.Basic
import PathObservatory.Engine.Traces

/-! # Traces that go on past the end

The loop of `compare_trace` runs over the common length and the verdict is read off
the lengths afterwards. It is exact for a trace that is no longer than the path; a
trace that covers the path and goes on is taken for one that ends with it.
-/
namespace PathObservatory

/-- The observed hop is the declared one: the same device, the ports it reports,
and the link it states where the plan declares one. -/
structure HopFollows (expected : ExpectedHop) (observed : ObservedHop) : Prop where
  device : expected.device = observed.device
  ingress : observed.ingress.valid = true → expected.ingress = observed.ingress
  egress : observed.egress.valid = true → expected.egress = observed.egress
  link : expected.hasEgressLink = true → observed.statesLink = true →
    expected.egressLink = observed.link

theorem hopsAgree_iff {expected : ExpectedHop} {observed : ObservedHop} :
    hopsAgree expected observed = true ↔ HopFollows expected observed := by
  unfold hopsAgree
  simp only [Bool.and_eq_true, Bool.or_eq_true, Bool.not_eq_true', decide_eq_true_eq,
    Bool.and_eq_false_imp]
  constructor
  · rintro ⟨⟨⟨hdevice,hingress⟩,hegress⟩,hlink⟩
    refine ⟨hdevice,fun h => ?_,fun h => ?_,fun h hstates => ?_⟩
    · exact hingress.resolve_left (by simp [h])
    · exact hegress.resolve_left (by simp [h])
    · exact hlink.resolve_left (fun hnot => by simp [hnot h] at hstates)
  · intro h
    refine ⟨⟨⟨h.device,?_⟩,?_⟩,?_⟩
    · cases hvalid : observed.ingress.valid with
      | true => exact Or.inr (h.ingress hvalid)
      | false => exact Or.inl rfl
    · cases hvalid : observed.egress.valid with
      | true => exact Or.inr (h.egress hvalid)
      | false => exact Or.inl rfl
    · cases hstates : observed.statesLink with
      | true =>
        cases hdeclared : expected.hasEgressLink with
        | true => exact Or.inr (h.link hdeclared hstates)
        | false => exact Or.inl (by simp)
      | false => exact Or.inl (by simp)

/-- The trace has a hop at this position that is not the hop the path declares
there; past the end of the path there is none to agree with. -/
def DisagreesAt (member : ExpectedPath) (hops : List ObservedHop) (i : ℕ) : Prop :=
  ∃ o, hops[i]? = some o ∧ ∀ e, member.hops[i]? = some e → ¬ HopFollows e o

theorem tracesAgree_iff {member : ExpectedPath} {hops : List ObservedHop} :
    TracesAgree member hops ↔
      ∀ i, DisagreesAt member hops i → member.hops.length ≤ i := by
  constructor
  · rintro hagree i ⟨o,ho,hdisagrees⟩
    by_contra hlt
    have he := List.getElem?_eq_getElem (not_le.mp hlt)
    exact hdisagrees _ he (hopsAgree_iff.mp (hagree i _ o he ho))
  · intro h i e o he ho
    by_contra hdiffer
    have hpast := h i ⟨o,ho,fun e' he' hfollows => ?_⟩
    · rw [List.getElem?_eq_none hpast] at he
      cases he
    · obtain rfl : e = e' := Option.some.inj (he.symm.trans he')
      exact hdiffer (hopsAgree_iff.mpr hfollows)

/-- A mismatch reports the index that the path declares for the first hop that
disagrees. -/
theorem firstDifference_of_disagreement {member : ExpectedPath} {hops : List ObservedHop}
    (h : ¬ TracesAgree member hops) : ∃ i e, IsLeast {i | DisagreesAt member hops i} i ∧
      member.hops[i]? = some e ∧ (compareTrace member hops).firstDifference = e.index := by
  obtain ⟨i,e,o,he,ho,hdiffer⟩ : ∃ i e o, member.hops[i]? = some e ∧ hops[i]? = some o ∧
      hopsAgree e o ≠ true := by
    simp only [TracesAgree] at h
    push Not at h
    exact h
  have hguard : ¬ (member.hops = [] ∨ hops = []) := by
    rintro (hnil | hnil)
    · simp [hnil] at he
    · simp [hnil] at ho
  cases hfind : (member.hops.zip hops).find? (fun pair => !hopsAgree pair.1 pair.2) with
  | none =>
    have hall := List.find?_eq_none.mp hfind (e,o) (mem_zip_iff.mpr ⟨i,he,ho⟩)
    simp [hdiffer] at hall
  | some pair =>
    obtain ⟨hpair,j,hj,heq,hbefore⟩ := List.find?_eq_some_iff_getElem.mp hfind
    obtain ⟨hje,hjo⟩ := List.getElem?_zip_eq_some.mp ((List.getElem?_eq_getElem hj).trans
      (congrArg some heq))
    refine ⟨j,pair.1,⟨⟨pair.2,hjo,?_⟩,?_⟩,hje,by simp only [compareTrace, if_neg hguard, hfind]⟩
    · rintro e' he' hfollows
      obtain rfl : pair.1 = e' := Option.some.inj (hje.symm.trans he')
      simp [hopsAgree_iff.mpr hfollows] at hpair
    · rintro k ⟨o',ho',hdisagrees⟩
      by_contra hlt
      have hk : k < j := not_le.mp hlt
      have hearlier : hopsAgree (member.hops.zip hops)[k].1 (member.hops.zip hops)[k].2 = true := by
        simpa using hbefore k hk
      obtain ⟨hke,hko⟩ := List.getElem?_zip_eq_some.mp (List.getElem?_eq_getElem (hk.trans hj))
      rw [Option.some.inj (hko.symm.trans ho')] at hearlier
      exact hdisagrees _ hke (hopsAgree_iff.mp hearlier)

/-- The verdict says how the trace compares with the path: it is the whole path, a
part from its start, or it departs at the reported position. -/
structure VerdictExact (member : ExpectedPath) (hops : List ObservedHop) : Prop where
  exact_iff : (compareTrace member hops).traceMatch = .exact_ ↔
    hops.length = member.hops.length ∧ ∀ i, ¬ DisagreesAt member hops i
  prefix_iff : (compareTrace member hops).traceMatch = .prefix_ ↔
    hops.length < member.hops.length ∧ ∀ i, ¬ DisagreesAt member hops i
  otherwise : (∃ i, DisagreesAt member hops i) →
    (compareTrace member hops).traceMatch = .mismatch ∧
      IsLeast {i | DisagreesAt member hops i} (compareTrace member hops).firstDifference.toNat

/-- A trace no longer than the path that agrees wherever both have a hop disagrees
nowhere. -/
theorem not_disagreesAt {member : ExpectedPath} {hops : List ObservedHop}
    (hagree : TracesAgree member hops) (hle : hops.length ≤ member.hops.length) (i : ℕ) :
    ¬ DisagreesAt member hops i := by
  intro hdisagrees
  have hpast := tracesAgree_iff.mp hagree i hdisagrees
  obtain ⟨o,ho,-⟩ := hdisagrees
  rw [List.getElem?_eq_none (hle.trans hpast)] at ho
  cases ho

/-- The verdict is exact unless a trace that agrees with the whole path goes on past
its end, or the path numbers the hop of the first disagreement otherwise than by its
position. -/
theorem compareTrace_exact_iff (member : ExpectedPath) (hops : List ObservedHop)
    (hm : member.hops ≠ []) (hh : hops ≠ []) :
    VerdictExact member hops ↔
      (hops.length ≤ member.hops.length ∨ ¬ TracesAgree member hops) ∧
      ∀ i e, IsLeast {i | DisagreesAt member hops i} i → member.hops[i]? = some e →
        e.index.toNat = i := by
  constructor
  · intro h
    constructor
    · by_contra hnot
      push Not at hnot
      obtain ⟨hoverrun,hagree⟩ := hnot
      rcases compareTrace_cases hops hm with ⟨hnil,-⟩ | ⟨-,hdiffer,-⟩ | ⟨-,-,hlt,-⟩ |
        ⟨-,-,-,hexact⟩
      · exact hh hnil
      · exact hdiffer hagree
      · omega
      · have hlength := (h.exact_iff.mp hexact).1
        omega
    · intro i e hleast he
      have hdiffer : ¬ TracesAgree member hops := by
        intro hagree
        rw [List.getElem?_eq_none (tracesAgree_iff.mp hagree i hleast.1)] at he
        cases he
      obtain ⟨j,e',hj,he',hreported⟩ := firstDifference_of_disagreement hdiffer
      obtain rfl := hj.unique hleast
      obtain rfl : e' = e := Option.some.inj (he'.symm.trans he)
      rw [← hreported]
      exact (h.otherwise ⟨j,hleast.1⟩).2.unique hleast
  · rintro ⟨hends,hindex⟩
    rcases compareTrace_cases hops hm with ⟨hnil,-⟩ | ⟨-,hdiffer,hmatch⟩ | ⟨-,hagree,hlt,hmatch⟩ |
      ⟨-,hagree,hle,hmatch⟩
    · exact absurd hnil hh
    · obtain ⟨i,e,hleast,he,hreported⟩ := firstDifference_of_disagreement hdiffer
      refine ⟨?_,?_,fun _ => ⟨hmatch,?_⟩⟩
      · exact ⟨fun h => by simp [hmatch] at h,fun h => absurd hleast.1 (h.2 i)⟩
      · exact ⟨fun h => by simp [hmatch] at h,fun h => absurd hleast.1 (h.2 i)⟩
      · rw [hreported, hindex i e hleast he]
        exact hleast
    · have hnone := not_disagreesAt hagree hlt.le
      refine ⟨⟨fun h => by simp [hmatch] at h,fun h => absurd h.1 hlt.ne⟩,
        ⟨fun _ => ⟨hlt,hnone⟩,fun _ => hmatch⟩,?_⟩
      rintro ⟨i,hi⟩
      exact absurd hi (hnone i)
    · have hequal : hops.length = member.hops.length :=
        le_antisymm (hends.resolve_right (not_not.mpr hagree)) hle
      have hnone := not_disagreesAt hagree hequal.le
      refine ⟨⟨fun _ => ⟨hequal,hnone⟩,fun _ => hmatch⟩,
        ⟨fun h => by simp [hmatch] at h,fun h => absurd h.1 hequal.not_lt⟩,?_⟩
      rintro ⟨i,hi⟩
      exact absurd hi (hnone i)

/-- A path of two devices. -/
def shortPath : ExpectedPath where
  id := ⟨1⟩
  hops := [{ id := ⟨1⟩, index := 0, device := ⟨1⟩, ingress := ⟨1⟩, egress := ⟨2⟩ },
    { id := ⟨2⟩, index := 1, device := ⟨2⟩, ingress := ⟨1⟩, egress := ⟨2⟩ }]

def observedDevices (devices : List UInt64) : List ObservedHop :=
  devices.zipIdx.map (fun entry => { index := UInt32.ofNat entry.2, device := ⟨entry.1⟩ })

/-- A trace that ends with the path is judged exactly. -/
theorem compareTrace_exact_sample : VerdictExact shortPath (observedDevices [1,2]) := by
  refine (compareTrace_exact_iff _ _ (by decide) (by decide)).mpr ⟨Or.inl (by decide),?_⟩
  rintro i e ⟨hdisagrees,-⟩
  refine absurd hdisagrees (not_disagreesAt ?_ (by decide) i)
  intro j e o he ho
  have hall : ∀ pair ∈ shortPath.hops.zip (observedDevices [1,2]),
      hopsAgree pair.1 pair.2 = true := by decide
  exact hall (e,o) (mem_zip_iff.mpr ⟨j,he,ho⟩)

/-- A trace that goes on to a third device is taken for the whole path of two. -/
theorem overrun_is_exact : ¬ VerdictExact shortPath (observedDevices [1,2,3]) := by
  intro h
  have hlength := (h.exact_iff.mp (by decide)).1
  exact absurd hlength (by decide)

end PathObservatory
