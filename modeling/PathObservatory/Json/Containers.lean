import PathObservatory.Json.Numbers
import PathObservatory.Json.Strings

/-! # Containers are read exactly

Arrays and objects share their loop. Where the reader of one entry is exact, so
is the loop over entries that are separated by commas.
-/
namespace PathObservatory.Json
variable {rest tail text before after : ByteString}

theorem isSpace_iff {c : UInt8} :
    isSpace c = true ↔ c = 0x20 ∨ c = 0x09 ∨ c = 0x0A ∨ c = 0x0D := by
  simp [isSpace, or_assoc]

theorem whitespace_iff : Whitespace text ↔ ∀ c ∈ text, isSpace c = true := by
  simp only [Whitespace, isSpace_iff]

theorem whitespace_nil : Whitespace [] := List.forall_mem_nil _

/-- The white space that is skipped, and where the reader stops. -/
theorem exists_whitespace (rest : ByteString) :
    ∃ before, Whitespace before ∧ rest = before ++ skipWhitespace rest :=
  ⟨rest.takeWhile isSpace,whitespace_iff.mpr (fun _ h => List.mem_takeWhile_imp h),
    List.takeWhile_append_dropWhile.symm⟩

theorem skipWhitespace_append (h : Whitespace before) (hrest : isSpace (peek rest) = false) :
    skipWhitespace (before ++ rest) = rest := by
  induction before with
  | nil =>
    cases rest with
    | nil => rfl
    | cons c rest => exact List.dropWhile_cons_of_neg (by simpa using hrest)
  | cons c before ih =>
    obtain ⟨hc,hbefore⟩ := List.forall_mem_cons.mp h
    exact (List.dropWhile_cons_of_pos (isSpace_iff.mpr hc)).trans (ih hbefore)

theorem EndsNumber.append (h : Whitespace after) (hrest : EndsNumber rest) :
    EndsNumber (after ++ rest) := by
  cases after with
  | nil => exact hrest
  | cons c after =>
    rcases h c List.mem_cons_self with rfl | rfl | rfl | rfl
    all_goals exact ⟨rfl,by simp,by simp⟩

/-- A byte that closes a container. -/
structure Closes (close : UInt8) : Prop where
  nonzero : close ≠ 0
  space : isSpace close = false
  comma : close ≠ 0x2C
  ends : ∀ rest, EndsNumber (close :: rest)

theorem closes_bracket : Closes 0x5D := ⟨by decide,rfl,by decide,fun _ => ⟨rfl,by simp,by simp⟩⟩

theorem closes_brace : Closes 0x7D := ⟨by decide,rfl,by decide,fun _ => ⟨rfl,by simp,by simp⟩⟩

section Entries
variable {α : Type} {limits : Limits}

/-- White space before the first entry belongs to it. -/
theorem Separated.indent {relation : ByteString → α → Prop} {entries : List α}
    (hbefore : Whitespace before) (h : Separated relation text entries) :
    Separated relation (before ++ text) entries := by
  have hmore : ∀ {more : ByteString}, Whitespace more → Whitespace (before ++ more) :=
    fun hmore => List.forall_mem_append.mpr ⟨hbefore,hmore⟩
  cases h with
  | @last before' text after a hbefore' h hafter =>
    have hlast := Separated.last (hmore hbefore') h hafter
    simpa only [List.append_assoc] using hlast
  | @cons before' text after tail a entries hbefore' h hafter hrest =>
    have hcons := Separated.cons (hmore hbefore') h hafter hrest
    simpa only [List.append_assoc] using hcons

/-- The reader of an entry, behind the entries that stand before it, reads
exactly the entries of the relation that meet their bounds. -/
structure ReadsEntry (limits : Limits) (close : UInt8)
    (entry : List α → ParserState → Result (List α × ParserState))
    (relation : ByteString → α → Prop) (cost : α → ℕ) (bounds : List α → Prop) : Prop where
  sound : ∀ {entries : List α} {state : ParserState} {result : List α} {after : ParserState},
    bounds entries → entry entries state = .ok (result,after) →
    ∃ text a, state.rest = text ++ after.rest ∧ relation text a ∧ result = entries ++ [a] ∧
      bounds result ∧ after.nodes = state.nodes + cost a ∧ after.nodes ≤ limits.maxJsonNodes
  complete : ∀ {entries : List α} {text : ByteString} {a : α} {rest : ByteString} {nodes : ℕ},
    relation text a → bounds (entries ++ [a]) → nodes + cost a ≤ limits.maxJsonNodes →
    EndsNumber rest →
    entry entries ⟨text ++ rest,nodes⟩ = .ok (entries ++ [a],⟨rest,nodes + cost a⟩)
  opens : ∀ {text : ByteString} {a : α}, relation text a →
    ∃ c more, text = c :: more ∧ isSpace c = false ∧ c ≠ close
  prefixes : ∀ {entries more : List α}, bounds (entries ++ more) → bounds entries

variable {close : UInt8} {entry : List α → ParserState → Result (List α × ParserState)}
  {relation : ByteString → α → Prop} {cost : α → ℕ} {bounds : List α → Prop}
  {unterminated : Error} {entries result new : List α} {state final : ParserState}

theorem parseEntries_sound (hclose : Closes close)
    (hentry : ReadsEntry limits close entry relation cost bounds) {fuel : ℕ}
    (hbounds : bounds entries)
    (h : parseEntries close unterminated entry fuel entries state = .ok (result,final)) :
    ∃ text new, state.rest = text ++ close :: final.rest ∧ Separated relation text new ∧
      result = entries ++ new ∧ bounds result ∧
      final.nodes = state.nodes + (new.map cost).sum ∧ final.nodes ≤ limits.maxJsonNodes := by
  induction fuel generalizing entries state with
  | zero => cases h
  | succ fuel ih =>
    obtain ⟨⟨grown,next⟩,hread,hloop⟩ := bind_eq_ok.mp h
    obtain ⟨text,a,htext,hrelation,rfl,hgrown,hnodes,hmax⟩ := hentry.sound hbounds hread
    obtain ⟨before,hbefore,hstate⟩ := exists_whitespace state.rest
    obtain ⟨after,hafter,hnext⟩ := exists_whitespace next.rest
    dsimp only at htext hnodes hloop
    rw [htext] at hstate
    split_ifs at hloop with hcomma hend
    · obtain ⟨more,hmore⟩ := (peek_eq_iff (by decide)).mp hcomma
      rw [hmore] at hnext hloop
      obtain ⟨tail,new,htail,hseparated,rfl,hresult,hsum,hmax'⟩ := ih hgrown hloop
      replace htail : more = tail ++ close :: final.rest := htail
      replace hsum : final.nodes = next.nodes + (new.map cost).sum := hsum
      refine ⟨before ++ text ++ after ++ 0x2C :: tail,a :: new,?_,
        .cons hbefore hrelation hafter hseparated,by simp,hresult,?_,hmax'⟩
      · rw [hstate, hnext, htail]
        simp
      · rw [hsum, List.map_cons, List.sum_cons]
        omega
    · obtain ⟨more,hmore⟩ := (peek_eq_iff hclose.nonzero).mp hend
      rw [hmore] at hnext hloop
      simp only [Except.ok.injEq, Prod.mk.injEq] at hloop
      obtain ⟨rfl,rfl⟩ := hloop
      refine ⟨before ++ text ++ after,[a],?_,.last hbefore hrelation hafter,rfl,hgrown,?_,hmax⟩
      · rw [hstate, hnext]
        simp
      · simpa using hnodes

theorem parseEntries_complete (hclose : Closes close)
    (hentry : ReadsEntry limits close entry relation cost bounds)
    (h : Separated relation text new) {fuel nodes : ℕ} (hfuel : text.length < fuel)
    (hbounds : bounds (entries ++ new))
    (hnodes : nodes + (new.map cost).sum ≤ limits.maxJsonNodes) :
    parseEntries close unterminated entry fuel entries ⟨text ++ close :: rest,nodes⟩ =
      .ok (entries ++ new,⟨rest,nodes + (new.map cost).sum⟩) := by
  induction h generalizing entries fuel nodes with
  | @last before text after a hbefore h hafter =>
    obtain ⟨fuel,rfl⟩ := Nat.exists_eq_add_one_of_ne_zero (Nat.ne_zero_of_lt hfuel)
    obtain ⟨c,more,hcons,hspace,-⟩ := hentry.opens h
    simp only [List.map_cons, List.map_nil, List.sum_cons, List.sum_nil, Nat.add_zero] at hnodes ⊢
    have hskip : skipWhitespace (before ++ (text ++ (after ++ close :: rest))) =
        text ++ (after ++ close :: rest) := skipWhitespace_append hbefore (by rw [hcons]; exact hspace)
    have hskip' : skipWhitespace (after ++ close :: rest) = close :: rest :=
      skipWhitespace_append hafter hclose.space
    have hread := hentry.complete h hbounds hnodes ((hclose.ends rest).append hafter)
    refine bind_eq_ok.mpr ⟨_,by simpa only [List.append_assoc, hskip] using hread,?_⟩
    simp only [hskip', peek_cons, hclose.comma, if_false, if_true, List.drop_succ_cons,
      List.drop_zero]
  | @cons before text after tail a new hbefore h hafter hseparated ih =>
    obtain ⟨fuel,rfl⟩ := Nat.exists_eq_add_one_of_ne_zero (Nat.ne_zero_of_lt hfuel)
    obtain ⟨c,more,hcons,hspace,-⟩ := hentry.opens h
    simp only [List.map_cons, List.sum_cons] at hnodes ⊢
    have hskip : skipWhitespace (before ++ (text ++ (after ++ 0x2C :: (tail ++ close :: rest)))) =
        text ++ (after ++ 0x2C :: (tail ++ close :: rest)) :=
      skipWhitespace_append hbefore (by rw [hcons]; exact hspace)
    have hskip' : skipWhitespace (after ++ 0x2C :: (tail ++ close :: rest)) =
        0x2C :: (tail ++ close :: rest) := skipWhitespace_append hafter rfl
    have hends : EndsNumber (0x2C :: (tail ++ close :: rest)) := ⟨rfl,by simp,by simp⟩
    have hgrown : bounds (entries ++ [a] ++ new) := by simpa using hbounds
    have hroom : nodes + cost a ≤ limits.maxJsonNodes := by omega
    have hread := hentry.complete h (hentry.prefixes hgrown) hroom (hends.append hafter)
    refine bind_eq_ok.mpr ⟨_,by simpa only [List.append_assoc, List.cons_append, hskip] using hread,?_⟩
    have hloop := @ih (entries ++ [a]) fuel (nodes + cost a) (by simp at hfuel; omega) hgrown
      (by omega)
    simp only [hskip', peek_cons, if_true, List.drop_succ_cons, List.drop_zero]
    simpa [Nat.add_assoc] using hloop

/-- A container is its opening byte, the entries and the closing byte. -/
theorem parseContainer_sound {opening : UInt8} (hclose : Closes close)
    (hentry : ReadsEntry limits close entry relation cost bounds) (hbounds : bounds [])
    (hmax : state.nodes ≤ limits.maxJsonNodes) (hopening : state.rest = opening :: rest)
    (h : parseContainer close unterminated entry state = .ok (result,final)) :
    ∃ text, rest = text ++ close :: final.rest ∧
      (result = [] ∧ Whitespace text ∨ Separated relation text result) ∧ bounds result ∧
      final.nodes = state.nodes + (result.map cost).sum ∧ final.nodes ≤ limits.maxJsonNodes := by
  obtain ⟨before,hbefore,hrest⟩ := exists_whitespace rest
  rw [parseContainer, hopening, List.drop_succ_cons, List.drop_zero] at h
  split_ifs at h with hend
  · obtain ⟨more,hmore⟩ := (peek_eq_iff hclose.nonzero).mp hend
    rw [hmore] at h hrest
    simp only [Except.ok.injEq, Prod.mk.injEq] at h
    obtain ⟨rfl,rfl⟩ := h
    exact ⟨before,hrest,Or.inl ⟨rfl,hbefore⟩,hbounds,rfl,hmax⟩
  · obtain ⟨text,new,htext,hseparated,rfl,hresult,hnodes,hfinal⟩ :=
      parseEntries_sound hclose hentry hbounds h
    replace htext : skipWhitespace rest = text ++ close :: final.rest := htext
    refine ⟨before ++ text,by rw [hrest, htext]; simp,Or.inr ?_,hresult,hnodes,hfinal⟩
    exact hseparated.indent hbefore

theorem parseContainer_empty {opening : UInt8} {nodes : ℕ} (hclose : Closes close)
    (h : Whitespace text) :
    parseContainer close unterminated entry ⟨opening :: (text ++ close :: rest),nodes⟩ =
      .ok ([],⟨rest,nodes⟩) := by
  have hskip : skipWhitespace (text ++ close :: rest) = close :: rest :=
    skipWhitespace_append h hclose.space
  simp only [parseContainer, List.drop_succ_cons, List.drop_zero, hskip, peek_cons, if_true]

/-- Behind the white space before it, a list of entries opens with an entry. -/
theorem Separated.exists_opening {entries : List α}
    (hentry : ReadsEntry limits close entry relation cost bounds)
    (h : Separated relation text entries) :
    ∃ before c more, Whitespace before ∧ text = before ++ c :: more ∧ isSpace c = false ∧
      c ≠ close ∧ Separated relation (c :: more) entries := by
  cases h with
  | @last before text after a hbefore h hafter =>
    obtain ⟨c,more,rfl,hspace,hne⟩ := hentry.opens h
    exact ⟨before,c,more ++ after,hbefore,by simp,hspace,hne,.last whitespace_nil h hafter⟩
  | @cons before text after tail a entries hbefore h hafter hrest =>
    obtain ⟨c,more,rfl,hspace,hne⟩ := hentry.opens h
    exact ⟨before,c,more ++ after ++ 0x2C :: tail,hbefore,by simp,hspace,hne,
      .cons whitespace_nil h hafter hrest⟩

theorem parseContainer_complete {opening : UInt8} {nodes : ℕ} (hclose : Closes close)
    (hentry : ReadsEntry limits close entry relation cost bounds)
    (h : Separated relation text new) (hbounds : bounds new)
    (hnodes : nodes + (new.map cost).sum ≤ limits.maxJsonNodes) :
    parseContainer close unterminated entry ⟨opening :: (text ++ close :: rest),nodes⟩ =
      .ok (new,⟨rest,nodes + (new.map cost).sum⟩) := by
  obtain ⟨before,c,more,hbefore,rfl,hspace,hne,hseparated⟩ := h.exists_opening hentry
  have hskip : skipWhitespace (before ++ c :: more ++ close :: rest) =
      c :: more ++ close :: rest := by
    rw [List.append_assoc]
    exact skipWhitespace_append hbefore hspace
  have hloop : parseEntries close unterminated entry ((c :: more ++ close :: rest).length + 1) []
      ⟨c :: more ++ close :: rest,nodes⟩ = .ok ([] ++ new,⟨rest,nodes + (new.map cost).sum⟩) :=
    parseEntries_complete hclose hentry hseparated
      (by simp only [List.length_append, List.length_cons]; omega) hbounds hnodes
  have hpeek : ¬ peek (c :: more ++ close :: rest) = close := hne
  simp only [parseContainer, List.drop_succ_cons, List.drop_zero, hskip, if_neg hpeek]
  exact hloop

end Entries

end PathObservatory.Json
