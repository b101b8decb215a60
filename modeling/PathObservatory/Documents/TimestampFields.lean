import PathObservatory.Documents.Timestamps

/-! # What an accepted timestamp is computed from

An accepted text has fields and a fraction. The instant is computed from these in
machine words, which may turn over on the way.
-/
namespace PathObservatory

namespace Rfc3339

/-- The text is accepted with these fields and this fraction. -/
structure Accepts (text : ByteString) (civil : CivilTime) (fraction : ℤ) : Prop where
  length : 20 ≤ text.length
  fields : parseCivil text = some civil
  inRange : civil.inRange = true
  rest : ∃ rest, parseFraction (text.drop 19) = .ok (fraction,rest) ∧
    hasByte rest 0 [0x5A,0x7A] = true ∧ rest.length ≤ 1

theorem Accepts.unique {text : ByteString} {a b : CivilTime} {x y : ℤ} (ha : Accepts text a x)
    (hb : Accepts text b y) : a = b ∧ x = y := by
  obtain ⟨rest,hrest,-⟩ := ha.rest
  obtain ⟨other,hother,-⟩ := hb.rest
  rw [hrest] at hother
  exact ⟨Option.some.inj (ha.fields.symm.trans hb.fields),
    congrArg Prod.fst (Except.ok.inj hother)⟩

/-- The nanoseconds of the fields, in the words of the machine. -/
def machineNanos (civil : CivilTime) (fraction : ℤ) : Int64 :=
  let days := Int64.ofInt (daysFromCivil civil.year civil.month civil.day)
  let seconds := days * 86400 + Int64.ofInt civil.hour * 3600 + Int64.ofInt (civil.minute * 60) +
    Int64.ofInt civil.second
  seconds * 1000000000 + Int64.ofInt fraction

/-- However often the words turn over, the outcome is the reduced exact value. -/
theorem machineNanos_eq (civil : CivilTime) (fraction : ℤ) :
    machineNanos civil fraction = Int64.ofInt (civil.seconds * 1000000000 + fraction) := by
  simp only [machineNanos, CivilTime.seconds, Int64.ofInt_add, Int64.ofInt_mul]
  rfl

end Rfc3339

namespace TimePoint
open Rfc3339

/-- A text is read as an instant when it is accepted, and as the instant that the
machine computes from its fields. -/
theorem parseRfc3339_eq_ok {text : ByteString} {point : TimePoint} :
    parseRfc3339 text = .ok point ↔
      ∃ civil fraction, Accepts text civil fraction ∧ point = ⟨machineNanos civil fraction⟩ := by
  unfold parseRfc3339
  rw [require_bind_eq_ok, decide_eq_true_eq]
  cases hfields : parseCivil text with
  | none =>
    refine iff_of_false (fun h => by cases h.2) ?_
    rintro ⟨civil,fraction,haccepts,-⟩
    cases hfields.symm.trans haccepts.fields
  | some civil =>
    simp only [↓require_bind_eq_ok, bind_eq_ok, pure_eq_ok, decide_eq_true_eq, Prod.exists]
    constructor
    · rintro ⟨hlength,hrange,fraction,rest,hrest,hend,hlast,rfl⟩
      exact ⟨civil,fraction,⟨hlength,hfields,hrange,rest,hrest,hend,hlast⟩,
        by rw [machineNanos_eq]⟩
    · rintro ⟨other,fraction,⟨hlength,hother,hrange,rest,hrest,hend,hlast⟩,rfl⟩
      obtain rfl := Option.some.inj (hfields.symm.trans hother)
      exact ⟨hlength,hrange,fraction,rest,hrest,hend,hlast,by rw [machineNanos_eq]⟩

/-- An instant that is set is read back from its text, and it is what the machine
computes from the fields of the text. -/
theorem text_of_set_instant_reads_back {point : TimePoint} (h : point.isSet = true) :
    parseRfc3339 point.toRfc3339 = .ok point ∧
      ∃ civil fraction, Accepts point.toRfc3339 civil fraction ∧
        machineNanos civil fraction = point.unixNanos := by
  have hread := parse_toRfc3339 h
  obtain ⟨civil,fraction,haccepts,hpoint⟩ := parseRfc3339_eq_ok.mp hread
  exact ⟨hread,civil,fraction,haccepts,(congrArg TimePoint.unixNanos hpoint).symm⟩

/-- The seconds of the first instant there is are below the least word. -/
theorem first_instant_reads_back :
    parseRfc3339 (⟨-9223372036854775807⟩ : TimePoint).toRfc3339 =
      .ok ⟨-9223372036854775807⟩ :=
  (@text_of_set_instant_reads_back ⟨-9223372036854775807⟩ (by decide)).1

end TimePoint

end PathObservatory
