import Mathlib.Data.Bool.AllAny
import PathObservatory.Documents.EvidenceRoundTrip

/-! # Streams of evidence documents

A compact export has no line break, so that a stream of them is read record by
record, whatever blank lines and comments stand between.
-/
namespace PathObservatory

namespace Json
variable {text : ByteString}

theorem Digits.printable (h : Digits text) : ∀ c ∈ text, 0x20 ≤ c :=
  fun c hc => UInt8.le_trans (by decide) (h.2 c hc).1

theorem NumberText.printable (h : NumberText text) : ∀ c ∈ text, 0x20 ≤ c := by
  obtain ⟨hminus,hinteger,hfraction,hexponent⟩ := h
  simp only [List.forall_mem_append]
  refine ⟨⟨⟨?_,?_⟩,?_⟩,?_⟩
  · rcases hminus with rfl | rfl
    · exact List.forall_mem_nil _
    · exact List.forall_mem_singleton.mpr (by decide)
  · rcases hinteger with rfl | ⟨hdigits,-⟩
    · exact List.forall_mem_singleton.mpr (by decide)
    · exact hdigits.printable
  · rcases hfraction with rfl | ⟨digits,hdigits,rfl⟩
    · exact List.forall_mem_nil _
    · exact List.forall_mem_cons.mpr ⟨by decide,hdigits.printable⟩
  · rcases hexponent with rfl | ⟨e,sign,digits,he,hsign,hdigits,rfl⟩
    · exact List.forall_mem_nil _
    · refine List.forall_mem_append.mpr ⟨List.forall_mem_cons.mpr ⟨?_,?_⟩,hdigits.printable⟩
      · rcases he with rfl | rfl <;> decide
      · rcases hsign with rfl | rfl | rfl <;> exact List.all_iff_forall_prop.mp rfl

theorem hexDigit_printable {value : UInt8} (h : value.toNat < 16) :
    0x20 ≤ JsonValue.hexDigit value := by
  rw [UInt8.le_iff_toNat_le]
  unfold JsonValue.hexDigit
  split_ifs with hdecimal
  · rw [UInt8.toNat_add]
    simp only [UInt8.reduceToNat]
    omega
  · rw [UInt8.lt_iff_toNat_lt] at hdecimal
    rw [UInt8.toNat_add, UInt8.toNat_sub]
    simp only [UInt8.reduceToNat] at hdecimal ⊢
    omega

theorem escapeByte_printable (b : UInt8) : ∀ c ∈ JsonValue.escapeByte b, 0x20 ≤ c := by
  have hnibble : ∀ byte : UInt8, 0x20 ≤ JsonValue.hexDigit (byte &&& 0x0F) := by
    intro byte
    apply hexDigit_printable
    rw [UInt8.toNat_and]
    exact Nat.and_lt_two_pow _ (by decide : (0x0F : UInt8).toNat < 2 ^ 4)
  unfold JsonValue.escapeByte
  split_ifs with hquote hcontrol
  · rcases hquote with rfl | rfl <;> exact List.all_iff_forall_prop.mp rfl
  · cases hshort : JsonValue.shortEscape b with
    | none => simp [hnibble]
    | some short =>
      unfold JsonValue.shortEscape at hshort
      split_ifs at hshort
      all_goals
        cases hshort
        exact List.all_iff_forall_prop.mp rfl
  · exact List.forall_mem_singleton.mpr (UInt8.not_lt.mp hcontrol)

theorem escape_printable (text : ByteString) : ∀ c ∈ JsonValue.escape text, 0x20 ≤ c := by
  refine List.forall_mem_append.mpr ⟨List.forall_mem_cons.mpr ⟨by decide,fun c hc => ?_⟩,
    List.forall_mem_singleton.mpr (by decide)⟩
  obtain ⟨b,-,hb⟩ := List.mem_flatMap.mp hc
  exact escapeByte_printable b c hb

end Json

namespace JsonValue
variable {indent : ℕ}

theorem dumpItems_printable {items : List JsonValue}
    (h : ∀ item ∈ items, ∀ indent, ∀ c ∈ dumpInto false indent item, 0x20 ≤ c) :
    ∀ c ∈ dumpItems false indent items, 0x20 ≤ c := by
  induction items with
  | nil => exact List.forall_mem_nil _
  | cons item items ih =>
    obtain ⟨hitem,hitems⟩ := List.forall_mem_cons.mp h
    rw [dumpItems]
    simp only [List.forall_mem_append, List.forall_mem_singleton]
    exact ⟨⟨⟨by decide,List.forall_mem_nil _⟩,hitem _⟩,ih hitems⟩

theorem dumpFields_printable {fields : List (ByteString × JsonValue)}
    (h : ∀ field ∈ fields, ∀ indent, ∀ c ∈ dumpInto false indent field.2, 0x20 ≤ c) :
    ∀ c ∈ dumpFields false indent fields, 0x20 ≤ c := by
  induction fields with
  | nil => exact List.forall_mem_nil _
  | cons field fields ih =>
    obtain ⟨hfield,hfields⟩ := List.forall_mem_cons.mp h
    rw [dumpFields]
    simp only [List.forall_mem_append, List.forall_mem_singleton]
    exact ⟨⟨⟨⟨⟨⟨by decide,List.forall_mem_nil _⟩,Json.escape_printable _⟩,by decide⟩,
      List.forall_mem_nil _⟩,hfield _⟩,ih hfields⟩

theorem number_printable {text : ByteString} (h : Json.NumberText text) :
    ∀ c ∈ dumpInto false indent (.number text), 0x20 ≤ c := by
  obtain ⟨c,more,rfl,-⟩ := h.exists_head
  exact h.printable

/-- The compact form has no control bytes. -/
theorem Built.printable {value : JsonValue} (h : value.Built) (indent : ℕ) :
    ∀ c ∈ dumpInto false indent value, 0x20 ≤ c := by
  induction h generalizing indent with
  | null =>
    rw [dumpInto]
    exact List.all_iff_forall_prop.mp rfl
  | boolean value =>
    cases value <;> rw [dumpInto] <;> exact List.all_iff_forall_prop.mp rfl
  | int64 value =>
    obtain ⟨text,heq,htext⟩ := numberText_makeNumber value
    rw [heq]
    exact number_printable htext
  | uint64 value => exact number_printable (Json.numberText_decimal _)
  | lexeme h => exact number_printable h
  | string h => exact Json.escape_printable _
  | @array items h ih =>
    cases items with
    | nil =>
      rw [dumpInto]
      exact List.all_iff_forall_prop.mp rfl
    | cons item items =>
      obtain ⟨hitem,hitems⟩ := List.forall_mem_cons.mp ih
      rw [dumpInto]
      simp only [List.forall_mem_append, List.forall_mem_singleton]
      exact ⟨⟨⟨⟨⟨by decide,List.forall_mem_nil _⟩,hitem _⟩,dumpItems_printable hitems⟩,
        List.forall_mem_nil _⟩,by decide⟩
  | @object fields hkeys htexts h ih =>
    cases fields with
    | nil =>
      rw [dumpInto]
      exact List.all_iff_forall_prop.mp rfl
    | cons field fields =>
      obtain ⟨hfield,hfields⟩ := List.forall_mem_cons.mp ih
      rw [dumpInto]
      simp only [List.forall_mem_append, List.forall_mem_singleton]
      exact ⟨⟨⟨⟨⟨⟨⟨⟨by decide,List.forall_mem_nil _⟩,Json.escape_printable _⟩,by decide⟩,
        List.forall_mem_nil _⟩,hfield _⟩,dumpFields_printable hfields⟩,List.forall_mem_nil _⟩,
        by decide⟩

theorem exists_braces {value : JsonValue} (h : value.isObject = true) (pretty : Bool) :
    ∃ body, value.dump pretty = 0x7B :: body ++ [0x7D] := by
  cases value with
  | object fields =>
    cases fields with
    | nil => exact ⟨[],by rw [dump, dumpInto]; rfl⟩
    | cons field fields =>
      rw [dump, dumpInto]
      exact ⟨_,rfl⟩
  | null | boolean _ | number _ | string _ | array _ => cases h

end JsonValue

namespace Documents

/-- White space only, or a comment behind white space. -/
inductive Skipped : ByteString → Prop
  | blank {line : ByteString} (h : ∀ c ∈ line, c = 0x0D ∨ c = 0x20 ∨ c = 0x09) : Skipped line
  | comment {before after : ByteString} (hbefore : ∀ c ∈ before, c = 0x20 ∨ c = 0x09)
      (hafter : 0x0A ∉ after) : Skipped (before ++ 0x23 :: after)

/-- The compact exports of the records in their order, with skipped lines anywhere. -/
inductive Interspersed : List ObservedPathEvidence → List ByteString → Prop
  | nil : Interspersed [] []
  | skipped {records : List ObservedPathEvidence} {lines : List ByteString} {line : ByteString}
      (hline : Skipped line) (h : Interspersed records lines) :
      Interspersed records (line :: lines)
  | record (e : ObservedPathEvidence) {records : List ObservedPathEvidence}
      {lines : List ByteString} (h : Interspersed records lines) :
      Interspersed (e :: records) (evidenceToJson e false :: lines)

variable {limits : Limits} {records : List ObservedPathEvidence} {lines : List ByteString}
  {line : ByteString}

theorem Skipped.one_line (h : Skipped line) : 0x0A ∉ line := by
  cases h with
  | blank h =>
    intro hmem
    rcases h _ hmem with h | h | h <;> cases h
  | @comment before after hbefore hafter =>
    simp only [List.mem_append, List.mem_cons, not_or]
    refine ⟨fun hmem => ?_,by decide,hafter⟩
    rcases hbefore _ hmem with h | h <;> cases h

theorem rdropWhile_append_cons {p : UInt8 → Bool} {c : UInt8} (h : ¬ p c = true)
    (before after : ByteString) :
    (before ++ c :: after).rdropWhile p = before ++ c :: after.rdropWhile p := by
  induction after using List.reverseRecOn with
  | nil => exact List.rdropWhile_concat_neg p before c h
  | append_singleton after last ih =>
    rw [← List.cons_append, ← List.append_assoc, List.rdropWhile_concat, List.rdropWhile_concat, ih]
    split_ifs
    · rfl
    · rw [List.append_assoc, List.cons_append]

/-- A line that is skipped is empty, or a comment, without the white space. -/
theorem Skipped.trimLine (h : Skipped line) :
    (trimLine line).isEmpty = true ∨ (trimLine line).head? = some 0x23 := by
  cases h with
  | blank h =>
    have hall : line.rdropWhile (fun c => c = 0x0D || c = 0x20 || c = 0x09) = [] :=
      List.rdropWhile_eq_nil_iff.mpr (fun c hc => by simpa [or_assoc] using h c hc)
    rw [Documents.trimLine, hall]
    exact Or.inl rfl
  | @comment before after hbefore hafter =>
    rw [Documents.trimLine, rdropWhile_append_cons (by decide),
      List.dropWhile_append_of_pos (fun c hc => by simpa using hbefore c hc)]
    exact Or.inr rfl

/-- Nothing is trimmed from an export. -/
theorem trimLine_braces (body : ByteString) :
    trimLine (0x7B :: body ++ [0x7D]) = 0x7B :: body ++ [0x7D] := by
  rw [trimLine, List.rdropWhile_concat_neg _ _ _ (by decide)]
  rfl

theorem exists_evidenceToJson (e : ObservedPathEvidence) (pretty : Bool) :
    ∃ body, evidenceToJson e pretty = 0x7B :: body ++ [0x7D] :=
  JsonValue.exists_braces (isObject_set _ _ _) pretty

theorem evidenceToJson_one_line {e : ObservedPathEvidence}
    (h : Json.isValidUtf8 e.note = true) : 0x0A ∉ evidenceToJson e false :=
  fun hmem => absurd ((built_evidenceJson h).printable 0 _ hmem) (by decide)

theorem Interspersed.one_line (h : Interspersed records lines)
    (hnotes : ∀ e ∈ records, Json.isValidUtf8 e.note = true) : ∀ line ∈ lines, 0x0A ∉ line := by
  induction h with
  | nil => exact List.forall_mem_nil _
  | skipped hline h ih => exact List.forall_mem_cons.mpr ⟨hline.one_line,ih hnotes⟩
  | record e h ih =>
    obtain ⟨hnote,hnotes⟩ := List.forall_mem_cons.mp hnotes
    exact List.forall_mem_cons.mpr ⟨evidenceToJson_one_line hnote,ih hnotes⟩

/-- The first line of a text and the lines behind it. -/
theorem nextLine (hline : 0x0A ∉ line) (lines : List ByteString) :
    (List.intercalate [0x0A] (line :: lines)).takeWhile (· ≠ 0x0A) = line ∧
      ((List.intercalate [0x0A] (line :: lines)).dropWhile (· ≠ 0x0A)).drop 1 =
        List.intercalate [0x0A] lines := by
  have hall : ∀ c ∈ line, decide (c ≠ 0x0A) = true :=
    fun c hc => decide_eq_true (fun heq => hline (heq ▸ hc))
  cases lines with
  | nil =>
    have htake := List.takeWhile_eq_self_iff.mpr hall
    have hdrop := List.dropWhile_eq_nil_iff.mpr hall
    rw [List.intercalate_singleton, htake, hdrop]
    exact ⟨rfl,rfl⟩
  | cons next lines =>
    rw [List.intercalate_cons_cons, List.append_assoc, List.takeWhile_append_of_pos hall,
      List.dropWhile_append_of_pos hall]
    exact ⟨List.append_nil line,rfl⟩

/-- What is behind the first line is shorter than a text that is not empty. -/
theorem length_intercalate_lt (hline : 0x0A ∉ line)
    (hne : List.intercalate [0x0A] (line :: lines) ≠ []) :
    (List.intercalate [0x0A] lines).length <
      (List.intercalate [0x0A] (line :: lines)).length := by
  have hdrop := (nextLine hline lines).2
  have hle := (@List.dropWhile_suffix UInt8 (List.intercalate [0x0A] (line :: lines))
    (fun c => decide (c ≠ 0x0A))).length_le
  have hpos := List.length_pos_iff.mpr hne
  rw [← hdrop, List.length_drop]
  omega

section Loop
variable {fuel lineNumber : ℕ} {out : List ObservedPathEvidence}

theorem evidenceLines_nil : evidenceLines limits fuel lineNumber out [] = .ok out := by
  cases fuel <;> rfl

theorem evidenceLines_skipped (hline : Skipped line)
    (hne : List.intercalate [0x0A] (line :: lines) ≠ []) :
    evidenceLines limits (fuel + 1) lineNumber out (List.intercalate [0x0A] (line :: lines)) =
      evidenceLines limits fuel (lineNumber + 1) out (List.intercalate [0x0A] lines) := by
  obtain ⟨htake,hdrop⟩ := nextLine hline.one_line lines
  have hskip : ((trimLine line).isEmpty || decide ((trimLine line).head? = some 0x23)) = true := by
    rcases hline.trimLine with h | h
    · rw [h, Bool.true_or]
    · rw [h, decide_eq_true rfl, Bool.or_true]
  rw [evidenceLines, if_neg (by simpa using hne), htake, hdrop]
  exact if_pos hskip

theorem evidenceLines_record {e : ObservedPathEvidence}
    (hnote : Json.isValidUtf8 e.note = true) :
    evidenceLines limits (fuel + 1) lineNumber out
        (List.intercalate [0x0A] (evidenceToJson e false :: lines)) =
      match parseEvidence (evidenceToJson e false) limits with
      | .error error =>
        throw { error with message := "evidence line " ++ toString (lineNumber + 1) ++ ": " ++
                  error.message }
      | .ok evidence =>
        if limits.maxEvidencePerIngestBatch < (out ++ [evidence]).length then
          throw { code := .capacityExceeded,
                  message := "evidence document exceeds the ingest bound" }
        else evidenceLines limits fuel (lineNumber + 1) (out ++ [evidence])
          (List.intercalate [0x0A] lines) := by
  obtain ⟨htake,hdrop⟩ := nextLine (evidenceToJson_one_line hnote) lines
  obtain ⟨body,hbody⟩ := exists_evidenceToJson e false
  have htrim : trimLine (evidenceToJson e false) = evidenceToJson e false := by
    rw [hbody, trimLine_braces]
  have hne : List.intercalate [0x0A] (evidenceToJson e false :: lines) ≠ [] := by
    intro hnil
    rw [hnil, hbody] at htake
    cases htake
  rw [evidenceLines, if_neg (by simpa using hne), htake, hdrop, htrim]
  refine if_neg ?_
  rw [hbody]
  exact Bool.false_ne_true

/-- The lines are read as their records when both times of each are stated, and
refused otherwise. -/
theorem evidenceLines_eq_ok (h : Interspersed records lines)
    (hrecords : ∀ e ∈ records, Exportable limits false e)
    (hbound : out.length + records.length ≤ limits.maxEvidencePerIngestBatch)
    (hfuel : (List.intercalate [0x0A] lines).length ≤ fuel) {read : List ObservedPathEvidence} :
    evidenceLines limits fuel lineNumber out (List.intercalate [0x0A] lines) = .ok read ↔
      (∀ e ∈ records, Timed e) ∧ out ++ records = read := by
  induction h generalizing fuel lineNumber out with
  | nil =>
    rw [List.intercalate_nil, evidenceLines_nil, Except.ok.injEq, List.append_nil]
    exact (and_iff_right (List.forall_mem_nil _)).symm
  | @skipped records lines line hline h ih =>
    by_cases hempty : List.intercalate [0x0A] (line :: lines) = []
    · have hrest := (nextLine hline.one_line lines).2
      rw [hempty, List.dropWhile_nil, List.drop_nil] at hrest
      have hnil := @ih fuel lineNumber out hrecords hbound (by rw [← hrest]; exact Nat.zero_le _)
      rw [hempty, evidenceLines_nil]
      rwa [← hrest, evidenceLines_nil] at hnil
    · have hlength := length_intercalate_lt hline.one_line hempty
      obtain ⟨fuel,rfl⟩ := Nat.exists_eq_succ_of_ne_zero (by omega : fuel ≠ 0)
      rw [Nat.succ_eq_add_one, evidenceLines_skipped hline hempty]
      exact ih hrecords hbound (by omega)
  | @record e records lines h ih =>
    obtain ⟨he,hrecords⟩ := List.forall_mem_cons.mp hrecords
    obtain ⟨body,hbody⟩ := exists_evidenceToJson e false
    have hline := evidenceToJson_one_line he.note
    have hne : List.intercalate [0x0A] (evidenceToJson e false :: lines) ≠ [] := by
      intro hnil
      have htake := (nextLine hline lines).1
      rw [hnil, hbody] at htake
      cases htake
    have hlength := length_intercalate_lt hline hne
    obtain ⟨fuel,rfl⟩ := Nat.exists_eq_succ_of_ne_zero (by omega : fuel ≠ 0)
    rw [Nat.succ_eq_add_one, evidenceLines_record he.note, List.forall_mem_cons]
    by_cases htimed : Timed e
    · have hparse := (parseEvidence_eq_ok he).mpr ⟨htimed,rfl⟩
      rw [List.length_cons] at hbound
      rw [hparse]
      dsimp only
      rw [List.length_append, List.length_singleton, if_neg (by omega),
        ih hrecords (by rw [List.length_append, List.length_singleton]; omega) (by omega),
        List.append_assoc, List.singleton_append, and_iff_right htimed]
    · cases hparse : parseEvidence (evidenceToJson e false) limits with
      | error error =>
        exact iff_of_false (fun hok => by cases hok) (fun hall => htimed hall.1.1)
      | ok evidence => exact absurd ((parseEvidence_eq_ok he).mp hparse).1 htimed

end Loop

/-- The export of a record, in either form, is read as the record exactly when
both its times are stated, and a stream of at most as many exports as a batch
may hold exactly when those of every record are. -/
theorem evidence_documents_read_back_iff (limits : Limits) :
    (∀ pretty e, Exportable limits pretty e →
      (parseEvidence (evidenceToJson e pretty) limits = .ok e ↔ Timed e)) ∧
    ∀ records lines, (∀ e ∈ records, Exportable limits false e) →
      records.length ≤ limits.maxEvidencePerIngestBatch → Interspersed records lines →
      (parseEvidenceLines (List.intercalate [0x0A] lines) limits = .ok records ↔
        ∀ e ∈ records, Timed e) := by
  refine ⟨fun pretty e h => ?_,fun records lines hrecords hbound h => ?_⟩
  · exact (parseEvidence_eq_ok h).trans (and_iff_left rfl)
  · exact (evidenceLines_eq_ok h hrecords (by simpa using hbound) le_rfl).trans
      (and_iff_left (List.nil_append records))

/-- A sealed record is checked without its identity. -/
theorem Exportable.intro {limits : Limits} {pretty : Bool} {e : ObservedPathEvidence}
    (is_sealed : e.id = e.computeEvidenceId)
    (valid : ({ e with id := {} } : ObservedPathEvidence).validate limits = .ok ())
    (note : Json.isValidUtf8 e.note = true)
    (within : (evidenceJson e).Within limits (evidenceToJson e pretty)) :
    Exportable limits pretty e := by
  have hvalid := ObservedPathEvidence.validate_seal valid
  rw [seal_clearId is_sealed] at hvalid
  exact ⟨hvalid,is_sealed,note,within⟩

/-- A record with optional parts and two hops. -/
def fullRecord : ObservedPathEvidence :=
  { id := ⟨[196,166,115,205,218,175,6,87,106,132,43,140,14,36,106,77],rfl⟩,
    source := ⟨4⟩, incarnation := ⟨1⟩, sequence := ⟨7⟩, surface := .synthetic,
    authority := .advisory, path := ⟨⟨9⟩⟩, group := ⟨⟨3⟩⟩, origin := ⟨⟨1⟩⟩,
    destination := ⟨⟨2⟩⟩, epoch := ⟨1⟩, claimedIncarnation := ⟨1⟩, routeGeneration := ⟨⟨5⟩⟩,
    topologyGeneration := ⟨⟨6⟩⟩, revision := ⟨1⟩, observedAt := ⟨1500⟩, receivedAt := ⟨-1⟩,
    hops := [{ device := ⟨1⟩, egress := ⟨2⟩, link := ⟨8⟩, linkProvenance := .observed,
               atTime := ⟨1000000000⟩ },{ index := 1, device := ⟨2⟩, ingress := ⟨3⟩ }],
    sourceTruncated := true, declaredCompleteness := .partial_, note := [0xC3,0xA9,0x22] }

/-- A record that states only when it was received. -/
def receivedRecord : ObservedPathEvidence :=
  { id := ⟨[60,224,225,97,73,56,83,14,196,139,94,46,94,152,200,175],rfl⟩,
    source := ⟨4⟩, incarnation := ⟨1⟩, sequence := ⟨7⟩, surface := .real,
    authority := .authoritative, epoch := ⟨1⟩, claimedIncarnation := ⟨1⟩, revision := ⟨1⟩,
    receivedAt := ⟨1500⟩, hops := [{ device := ⟨1⟩ }] }

theorem fullRecord_exportable (pretty : Bool) : Exportable {} pretty fullRecord := by
  refine Exportable.intro (by decide +kernel) (by decide +kernel) (by decide)
    ⟨?_,by decide +kernel,by decide +kernel,by decide +kernel⟩
  cases pretty <;> decide +kernel

theorem receivedRecord_exportable (pretty : Bool) : Exportable {} pretty receivedRecord := by
  refine Exportable.intro (by decide +kernel) (by decide +kernel) (by decide)
    ⟨?_,by decide +kernel,by decide +kernel,by decide +kernel⟩
  cases pretty <;> decide +kernel

/-- Two records with a comment before them and a blank line between them. -/
theorem full_stream_read_back :
    (∀ pretty, parseEvidence (evidenceToJson fullRecord pretty) {} = .ok fullRecord) ∧
      parseEvidenceLines (List.intercalate [0x0A] [[0x20,0x23,0x41],evidenceToJson fullRecord false,
        [0x09,0x0D],evidenceToJson fullRecord false]) {} = .ok [fullRecord,fullRecord] := by
  obtain ⟨hrecord,hstream⟩ := evidence_documents_read_back_iff {}
  have htimed : Timed fullRecord := ⟨rfl,rfl⟩
  refine ⟨fun pretty => (hrecord pretty _ (fullRecord_exportable pretty)).mpr htimed,
    (hstream _ _ ?_ (by decide) ?_).mpr ?_⟩
  · exact List.forall_mem_cons.mpr ⟨fullRecord_exportable false,
      List.forall_mem_singleton.mpr (fullRecord_exportable false)⟩
  · exact .skipped (@Skipped.comment [0x20] [0x41] (List.all_iff_forall_prop.mp rfl) (by decide))
      (.record fullRecord (.skipped (.blank (List.all_iff_forall_prop.mp rfl))
        (.record fullRecord .nil)))
  · exact List.forall_mem_cons.mpr ⟨htimed,List.forall_mem_singleton.mpr htimed⟩

/-- The checks accept a record that does not say when it was observed, and
neither form of its export is read. -/
theorem received_record_not_read_back :
    receivedRecord.validate {} = .ok () ∧
      receivedRecord.id = receivedRecord.computeEvidenceId ∧
      ∀ pretty, (evidenceJson receivedRecord).Within {} (evidenceToJson receivedRecord pretty) ∧
        parseEvidence (evidenceToJson receivedRecord pretty) {} ≠ .ok receivedRecord := by
  refine ⟨(receivedRecord_exportable true).valid,(receivedRecord_exportable true).is_sealed,
    fun pretty => ⟨(receivedRecord_exportable pretty).within,fun hread => ?_⟩⟩
  have htimed := ((parseEvidence_eq_ok (receivedRecord_exportable pretty)).mp hread).1
  exact absurd htimed.1 (by decide)

end Documents

end PathObservatory
