import Mathlib.Data.List.Induction

/-! # Filing records in bounded buckets

Records are filed one after the other, each at the end of the bucket of its
subject, unless the bucket is full or holds a record with the same identity.
Filing the same records again changes nothing, so that a log may be replayed over
what it produced.
-/
namespace PathObservatory
namespace Filing
variable {κ ι α : Type} [DecidableEq κ] [DecidableEq ι]

/-- Put a record at the end of a bucket. -/
def put (buckets : κ → List α) (key : κ) (x : α) : κ → List α :=
  fun other => if key = other then buckets other ++ [x] else buckets other

theorem prefix_put (buckets : κ → List α) (key : κ) (x : α) (other : κ) :
    buckets other <+: put buckets key x other := by
  unfold put
  split_ifs
  · exact List.prefix_append _ _
  · exact List.prefix_rfl

theorem mem_put_self (buckets : κ → List α) (key : κ) (x : α) : x ∈ put buckets key x key := by
  rw [put, if_pos rfl]
  exact List.mem_append_right _ (List.mem_singleton_self x)

variable (bound : ℕ) (ident : α → ι) (subject : α → Option κ)

/-- The bucket takes the record. -/
def Takes (buckets : κ → List α) (key : κ) (x : α) : Prop :=
  (buckets key).length < bound ∧ ∀ y ∈ buckets key, ident y ≠ ident x

instance (buckets : κ → List α) (key : κ) (x : α) : Decidable (Takes bound ident buckets key x) :=
  inferInstanceAs (Decidable (_ ∧ _))

omit [DecidableEq κ] [DecidableEq ι] in
/-- A bucket that does not take a record does not take it later either. -/
theorem Takes.of_extends {before after : κ → List α} {key : κ} {x : α}
    (h : before key <+: after key) (htakes : Takes bound ident after key x) :
    Takes bound ident before key x :=
  ⟨Nat.lt_of_le_of_lt h.length_le htakes.1,fun y hy => htakes.2 y (h.subset hy)⟩

omit [DecidableEq κ] [DecidableEq ι] in
/-- No bucket takes a record twice. -/
theorem not_takes_of_mem {buckets : κ → List α} {key : κ} {x : α} (h : x ∈ buckets key) :
    ¬ Takes bound ident buckets key x := fun htakes => htakes.2 x h rfl

def offer (buckets : κ → List α) (x : α) : κ → List α :=
  match subject x with
  | none => buckets
  | some key => if Takes bound ident buckets key x then put buckets key x else buckets

def fill (buckets : κ → List α) (all : List α) : κ → List α :=
  all.foldl (offer bound ident subject) buckets

/-- Offering the record changes nothing. -/
def Settled (buckets : κ → List α) (x : α) : Prop :=
  ∀ key, subject x = some key → ¬ Takes bound ident buckets key x

/-- A record is settled and changes nothing, or it goes to the bucket of its
subject. -/
theorem offer_cases (buckets : κ → List α) (x : α) :
    Settled bound ident subject buckets x ∧ offer bound ident subject buckets x = buckets ∨
      ∃ key, subject x = some key ∧ Takes bound ident buckets key x ∧
        offer bound ident subject buckets x = put buckets key x := by
  unfold offer
  cases hkey : subject x with
  | none => exact Or.inl ⟨fun key h => absurd (hkey.symm.trans h) (by simp),rfl⟩
  | some key =>
    by_cases htakes : Takes bound ident buckets key x
    · exact Or.inr ⟨key,rfl,htakes,if_pos htakes⟩
    · refine Or.inl ⟨fun other hother => ?_,if_neg htakes⟩
      obtain rfl := Option.some.inj (hkey.symm.trans hother)
      exact htakes

variable {bound ident subject} {buckets : κ → List α} {x y : α}

theorem offer_of_settled (h : Settled bound ident subject buckets x) :
    offer bound ident subject buckets x = buckets := by
  rcases offer_cases bound ident subject buckets x with ⟨-,hsame⟩ | ⟨key,hkey,htakes,-⟩
  · exact hsame
  · exact absurd htakes (h key hkey)

theorem offer_of_takes {key : κ} (hkey : subject x = some key)
    (h : Takes bound ident buckets key x) :
    offer bound ident subject buckets x = put buckets key x := by
  simp only [offer, hkey, if_pos h]

theorem prefix_offer (buckets : κ → List α) (x : α) (key : κ) :
    buckets key <+: offer bound ident subject buckets x key := by
  rcases offer_cases bound ident subject buckets x with ⟨-,hsame⟩ | ⟨other,-,-,hput⟩
  · exact ⟨[],by rw [List.append_nil, hsame]⟩
  · rw [hput]
    exact prefix_put buckets other x key

theorem prefix_fill (buckets : κ → List α) (all : List α) (key : κ) :
    buckets key <+: fill bound ident subject buckets all key := by
  induction all generalizing buckets with
  | nil => exact List.prefix_rfl
  | cons x rest ih => exact (prefix_offer buckets x key).trans (ih _)

omit [DecidableEq κ] [DecidableEq ι] in
theorem Settled.of_extends {before after : κ → List α} (h : Settled bound ident subject before x)
    (hextends : ∀ key, before key <+: after key) : Settled bound ident subject after x :=
  fun key hkey htakes => h key hkey (.of_extends bound ident (hextends key) htakes)

theorem settled_offer (buckets : κ → List α) (x : α) :
    Settled bound ident subject (offer bound ident subject buckets x) x := by
  intro key hkey
  by_cases htakes : Takes bound ident buckets key x
  · rw [offer_of_takes hkey htakes]
    exact not_takes_of_mem bound ident (mem_put_self buckets key x)
  · exact fun h => htakes (.of_extends bound ident (prefix_offer buckets x key) h)

/-- What was filed once is settled. -/
theorem settled_fill {all : List α} (hx : x ∈ all) (buckets : κ → List α) :
    Settled bound ident subject (fill bound ident subject buckets all) x := by
  induction all generalizing buckets with
  | nil => cases hx
  | cons y rest ih =>
    rcases List.mem_cons.mp hx with rfl | hrest
    · exact (settled_offer buckets x).of_extends (prefix_fill _ rest)
    · exact ih hrest _

theorem fill_concat (buckets : κ → List α) (all : List α) (x : α) :
    fill bound ident subject buckets (all ++ [x]) =
      offer bound ident subject (fill bound ident subject buckets all) x := by
  rw [fill, List.foldl_append]
  rfl

theorem mem_put {key other : κ} (h : x ∈ put buckets key y other) :
    x ∈ buckets other ∨ x = y ∧ other = key := by
  unfold put at h
  split_ifs at h with heq
  · rcases List.mem_append.mp h with hold | hnew
    · exact Or.inl hold
    · exact Or.inr ⟨List.mem_singleton.mp hnew,heq.symm⟩
  · exact Or.inl h

/-- A record is filed under its subject. -/
theorem subject_of_mem_offer {key : κ} (h : x ∈ offer bound ident subject buckets y key) :
    x ∈ buckets key ∨ subject x = some key := by
  rcases offer_cases bound ident subject buckets y with ⟨-,hsame⟩ | ⟨other,hother,-,hput⟩
  · rw [hsame] at h
    exact Or.inl h
  · rw [hput] at h
    rcases mem_put h with hold | ⟨rfl,rfl⟩
    · exact Or.inl hold
    · exact Or.inr hother

theorem subject_of_mem_fill {all : List α} {key : κ}
    (h : x ∈ fill bound ident subject buckets all key) :
    x ∈ buckets key ∨ subject x = some key := by
  induction all generalizing buckets with
  | nil => exact Or.inl h
  | cons y rest ih =>
    rcases ih h with hfirst | hsubject
    · exact subject_of_mem_offer hfirst
    · exact Or.inr hsubject

/-- Filling again by other subjects changes nothing, or puts a record where it does
not belong. -/
theorem refill {other : α → Option κ} {all again : List α}
    (hsub : ∀ x ∈ again, x ∈ all) :
    fill bound ident other (fill bound ident subject buckets all) again =
        fill bound ident subject buckets all ∨
      ∃ x key, x ∈ fill bound ident other (fill bound ident subject buckets all) again key ∧
        subject x ≠ some key := by
  induction again with
  | nil => exact Or.inl rfl
  | cons x rest ih =>
    rw [fill, List.foldl_cons]
    by_cases hsettled : Settled bound ident other (fill bound ident subject buckets all) x
    · rw [offer_of_settled hsettled]
      exact ih (fun y hy => hsub y (List.mem_cons_of_mem x hy))
    · unfold Settled at hsettled
      push Not at hsettled
      obtain ⟨key,hkey,htakes⟩ := hsettled
      refine Or.inr ⟨x,key,?_,fun hsame =>
        settled_fill (hsub x List.mem_cons_self) buckets key hsame htakes⟩
      rw [offer_of_takes hkey htakes]
      exact (prefix_fill _ rest key).subset (mem_put_self _ key x)

end Filing

end PathObservatory
