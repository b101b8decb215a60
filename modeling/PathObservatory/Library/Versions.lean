import PathObservatory.Library.OrderedMap

/-! # Keeping the newest version

A map that takes an entry only where it holds none under the key, or an older one,
catches up with another map when it is offered the entries that changed.
-/
namespace Versions
variable {κ α : Type} [LinearOrder κ] (newer : α → α → Bool)

/-- Take an entry unless the version that is held is not older. -/
def take (m : OrderedMap κ α) (entry : κ × α) : OrderedMap κ α :=
  match m[entry.1]? with
  | some held => if newer held entry.2 then m.insert entry.1 entry.2 else m
  | none => m.insert entry.1 entry.2

/-- The first map holds entries of the second, or older versions of them. -/
structure Behind (m n : OrderedMap κ α) : Prop where
  subset : ∀ k, k ∈ m → k ∈ n
  older : ∀ (k : κ) (v : α), n[k]? = some v → m[k]? = some v ∨
    ∀ held, m[k]? = some held → newer held v = true

variable {newer} {m n : OrderedMap κ α}

theorem getElem?_take_of_ne {entry : κ × α} {k : κ} (h : entry.1 ≠ k) :
    (take newer m entry)[k]? = m[k]? := by
  have hinsert : (m.insert entry.1 entry.2)[k]? = m[k]? :=
    (OrderedMap.getElem?_insert m entry.1 k entry.2).trans (if_neg h)
  unfold take
  split
  · split_ifs
    · exact hinsert
    · rfl
  · exact hinsert

theorem Behind.refl (m : OrderedMap κ α) : Behind newer m m := ⟨fun _ => id,fun _ _ => Or.inl⟩

/-- The entry of the second map that is offered is held afterwards. -/
theorem Behind.getElem?_take (h : Behind newer m n) {entry : κ × α}
    (hentry : n[entry.1]? = some entry.2) : (take newer m entry)[entry.1]? = some entry.2 := by
  have hinsert : (m.insert entry.1 entry.2)[entry.1]? = some entry.2 :=
    (OrderedMap.getElem?_insert m entry.1 entry.1 entry.2).trans (if_pos rfl)
  unfold take
  cases hheld : m[entry.1]? with
  | none => exact hinsert
  | some held =>
    rcases h.older _ _ hentry with hsame | hnewer
    · obtain rfl := Option.some.inj (hheld.symm.trans hsame)
      dsimp only
      split_ifs
      · exact hinsert
      · exact hheld
    · simp only [hnewer held hheld, if_true]
      exact hinsert

/-- So the map keeps behind, and what it has caught up with it keeps. -/
theorem Behind.take (h : Behind newer m n) {entry : κ × α}
    (hentry : n[entry.1]? = some entry.2) : Behind newer (take newer m entry) n := by
  constructor
  · intro k hk
    by_cases heq : entry.1 = k
    · subst heq
      exact OrderedMap.mem_iff_getElem?.mpr ⟨_,hentry⟩
    · obtain ⟨held,hheld⟩ := OrderedMap.mem_iff_getElem?.mp hk
      rw [getElem?_take_of_ne heq] at hheld
      exact h.subset k (OrderedMap.mem_iff_getElem?.mpr ⟨held,hheld⟩)
  · intro k v hv
    by_cases heq : entry.1 = k
    · subst heq
      rw [h.getElem?_take hentry]
      exact Or.inl (hentry.symm.trans hv)
    · rw [getElem?_take_of_ne heq]
      exact h.older k v hv

theorem Behind.caught_up_take (h : Behind newer m n) {entry : κ × α}
    (hentry : n[entry.1]? = some entry.2) {k : κ} (hk : m[k]? = n[k]?) :
    (Versions.take newer m entry)[k]? = n[k]? := by
  by_cases heq : entry.1 = k
  · subst heq
    rw [h.getElem?_take hentry, hentry]
  · rw [getElem?_take_of_ne heq, hk]

theorem Behind.caught_up_foldl (h : Behind newer m n) {entries : List (κ × α)}
    (hentries : ∀ entry ∈ entries, n[entry.1]? = some entry.2) {k : κ}
    (hk : m[k]? = n[k]? ∨ ∃ entry ∈ entries, entry.1 = k) :
    (entries.foldl (Versions.take newer) m)[k]? = n[k]? := by
  induction entries generalizing m with
  | nil => exact hk.resolve_right (by rintro ⟨_,hmem,-⟩; cases hmem)
  | cons entry entries ih =>
    obtain ⟨hentry,hrest⟩ := List.forall_mem_cons.mp hentries
    refine ih (h.take hentry) hrest ?_
    rcases hk with hk | ⟨other,hother,rfl⟩
    · exact Or.inl (h.caught_up_take hentry hk)
    · rcases List.mem_cons.mp hother with rfl | hother
      · exact Or.inl ((h.getElem?_take hentry).trans hentry.symm)
      · exact Or.inr ⟨other,hother,rfl⟩

/-- Offering every entry that changed makes the one map the other. -/
theorem Behind.foldl_take (h : Behind newer m n) {entries : List (κ × α)}
    (hentries : ∀ entry ∈ entries, n[entry.1]? = some entry.2)
    (hchanged : ∀ (k : κ) (v : α), n[k]? = some v → m[k]? = some v ∨ (k,v) ∈ entries) :
    entries.foldl (Versions.take newer) m = n := by
  refine Std.ExtTreeMap.ext_getElem? (fun k => h.caught_up_foldl hentries ?_)
  cases hv : n[k]? with
  | some v =>
    rcases hchanged k v hv with hsame | hmem
    · exact Or.inl hsame
    · exact Or.inr ⟨_,hmem,rfl⟩
  | none =>
    refine Or.inl (Option.eq_none_iff_forall_ne_some.mpr (fun held hheld => ?_))
    obtain ⟨v,hn⟩ := OrderedMap.mem_iff_getElem?.mp
      (h.subset k (OrderedMap.mem_iff_getElem?.mpr ⟨held,hheld⟩))
    rw [hv] at hn
    cases hn

/-- The version that is kept of the one held, if any, and the one offered. -/
def keep (newer : α → α → Bool) : Option α → α → α
  | some held, offered => if newer held offered then offered else held
  | none, offered => offered

theorem getElem?_take (m : OrderedMap κ α) (entry : κ × α) :
    (take newer m entry)[entry.1]? = some (keep newer m[entry.1]? entry.2) := by
  have hinsert : (m.insert entry.1 entry.2)[entry.1]? = some entry.2 :=
    (OrderedMap.getElem?_insert m entry.1 entry.1 entry.2).trans (if_pos rfl)
  unfold take keep
  cases hheld : m[entry.1]? with
  | none => exact hinsert
  | some held =>
    dsimp only
    split_ifs
    · exact hinsert
    · exact hheld

theorem getElem?_foldl_take_of_ne {entries : List (κ × α)} {k : κ}
    (h : ∀ entry ∈ entries, entry.1 ≠ k) : (entries.foldl (take newer) m)[k]? = m[k]? := by
  induction entries generalizing m with
  | nil => rfl
  | cons entry entries ih =>
    obtain ⟨hentry,hrest⟩ := List.forall_mem_cons.mp h
    exact Eq.trans (@ih (take newer m entry) hrest) (getElem?_take_of_ne hentry)

/-- Where every key is offered once, only the offer under a key counts for it. -/
theorem getElem?_foldl_take_of_mem {entries : List (κ × α)}
    (hkeys : (entries.map (·.1)).Nodup) {entry : κ × α} (hentry : entry ∈ entries) :
    (entries.foldl (take newer) m)[entry.1]? = (take newer m entry)[entry.1]? := by
  induction entries generalizing m with
  | nil => cases hentry
  | cons first entries ih =>
    obtain ⟨hfirst,hrest⟩ := List.nodup_cons.mp hkeys
    rcases List.mem_cons.mp hentry with rfl | hlater
    · refine @getElem?_foldl_take_of_ne _ _ _ newer (take newer m entry) entries _ ?_
      exact fun other hother hsame => hfirst (List.mem_map.mpr ⟨other,hother,hsame⟩)
    · have hne : first.1 ≠ entry.1 := fun hsame =>
        hfirst (List.mem_map.mpr ⟨entry,hlater,hsame.symm⟩)
      have hall := @ih (take newer m first) hrest hlater
      rw [getElem?_take, getElem?_take_of_ne hne, ← getElem?_take] at hall
      exact hall

/-- Offering all its entries makes a map the other exactly when it is behind. -/
theorem foldl_take_eq_iff {entries : List (κ × α)} (hkeys : (entries.map (·.1)).Nodup)
    (hentries : ∀ (k : κ) (v : α), n[k]? = some v ↔ (k,v) ∈ entries) :
    entries.foldl (take newer) m = n ↔ Behind newer m n := by
  constructor
  · intro hall
    constructor
    · intro k hk
      obtain ⟨held,hheld⟩ := OrderedMap.mem_iff_getElem?.mp hk
      by_cases hoffered : ∃ entry ∈ entries, entry.1 = k
      · obtain ⟨entry,hentry,rfl⟩ := hoffered
        exact OrderedMap.mem_iff_getElem?.mpr ⟨entry.2,(hentries _ _).mpr hentry⟩
      · have hkept := @getElem?_foldl_take_of_ne _ _ _ newer m entries k
          fun entry hentry hsame => hoffered ⟨entry,hentry,hsame⟩
        rw [hall, hheld] at hkept
        exact OrderedMap.mem_iff_getElem?.mpr ⟨held,hkept⟩
    · intro k v hv
      have hoffer := @getElem?_foldl_take_of_mem _ _ _ newer m entries hkeys (k,v)
        ((hentries k v).mp hv)
      rw [hall, hv, getElem?_take] at hoffer
      cases hheld : m[k]? with
      | none => exact Or.inr (fun _ h => by cases h)
      | some held =>
        by_cases hnewer : newer held v = true
        · refine Or.inr fun other hother => ?_
          rwa [← Option.some.inj hother]
        · rw [hheld, keep, if_neg hnewer] at hoffer
          exact Or.inl hoffer.symm
  · intro h
    exact h.foldl_take (fun entry hentry => (hentries entry.1 entry.2).mpr hentry)
      fun k v hv => Or.inr ((hentries k v).mp hv)

end Versions
