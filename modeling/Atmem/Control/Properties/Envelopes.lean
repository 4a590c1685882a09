import Atmem.Control.Helpers.Acceptance
import Atmem.Control.Model.Blackbox
/-!
# What a normalised event is answered

An envelope of `normalize_event` is taken where the texts its rows keep can
be encoded, unless it reports a gap: `normalize_event` cuts and clamps the
fields of a gap, and `CoverageGap` refuses what is left where a bound is
zero, the bounds are in the wrong order or a name is blank. Who is refused is
refused again.
-/

namespace Atmem.Control

open History Relational Transactional

variable {E : Engine} {R : Reader} {w : ControlWorld} {a : EventArgs}

/-! ## What is normalised -/

/-- The fields of a payload that are there, by their kinds. -/
theorem lookup_normalizeFields {kvs out : List (String × Json)} (hnodup : (kvs.map (·.1)).Nodup)
    (h : normalizeFields R kvs = .ok out) (key : String) :
    ((kvs.lookup key).getD .null = .null ∧ out.lookup key = none) ∨
      ∃ v x, kvs.lookup key = some v ∧ v ≠ .null ∧ normalizeValue R key v = .ok x ∧
        out.lookup key = some x := by
  induction kvs generalizing out with
  | nil =>
    cases h
    exact Or.inl ⟨rfl, rfl⟩
  | cons kv kvs ih =>
    obtain ⟨name, value⟩ := kv
    obtain ⟨hnot, hrest⟩ := List.nodup_cons.mp hnodup
    unfold normalizeFields at h
    by_cases hnull : value = .null
    · rw [if_pos hnull] at h
      by_cases hname : key = name
      · -- the field is `None`, and there is no other of its name
        subst hname
        rcases ih hrest h with hnone | ⟨v, x, hv, -⟩
        · refine Or.inl ⟨?_, hnone.2⟩
          rw [List.lookup_cons_self, hnull]
          rfl
        · obtain ⟨before, after, hsplit, -⟩ := List.lookup_eq_some_iff.mp hv
          rw [hsplit] at hnot
          simp at hnot
      · rw [List.lookup_cons, beq_false_of_ne hname]
        exact ih hrest h
    · rw [if_neg hnull] at h
      simp only [Checked.bind_eq_ok_iff] at h
      obtain ⟨x, hx, rest, hfields, h⟩ := h
      cases h
      by_cases hname : key = name
      · subst hname
        exact Or.inr ⟨value, x, List.lookup_cons_self, hnull, hx, List.lookup_cons_self⟩
      · rw [List.lookup_cons, List.lookup_cons, beq_false_of_ne hname]
        exact ih hrest hfields

/-- A field of the payload. -/
def EventArgs.field (a : EventArgs) (name : String) : Json := (a.payload.lookup name).getD .null

/-- `int` of a field that is there. -/
def EventArgs.count (R : Reader) (a : EventArgs) (name : String) : Option ℤ :=
  if a.field name = .null then none else (R.toInt (a.field name)).toOption

/-- A text the payload gives, cut, or nothing. -/
def EventArgs.note (R : Reader) (a : EventArgs) (name : String) : String :=
  if a.field name = .null then "" else cut 512 (R.text (a.field name))

/-- The reason of a gap. -/
def EventArgs.reason (R : Reader) (a : EventArgs) : String := a.note R "reason"

/-- What is told of a gap: the error, or else the reason. -/
def EventArgs.detail (R : Reader) (a : EventArgs) : String :=
  if a.note R "error_reason" = "" then a.reason R else a.note R "error_reason"

/-- How a count is normalized. -/
theorem field_of_count {out : List (String × Json)} (h : normalizeFields R a.payload = .ok out)
    (name : String) (hkind : name ∈ countKeys ∧ name ∉ digestKeys ∧ name ∉ textKeys) :
    (out.lookup name).getD .null = Json.ofOption .int ((a.count R name).map (max 0)) := by
  unfold EventArgs.count
  rcases lookup_normalizeFields a.nodup h name with ⟨hnone, hout⟩ | ⟨v, x, hv, hne, hx, hout⟩
  · have hnull : a.field name = .null := hnone
    rw [if_pos hnull, hout]
    rfl
  · have hfield : a.field name = v := by rw [EventArgs.field, hv, Option.getD_some]
    rw [hfield, if_neg hne, hout]
    unfold normalizeValue at hx
    rw [if_neg hkind.2.1, if_neg hkind.2.2, if_pos hkind.1] at hx
    unfold normalizeCount at hx
    simp only [Checked.bind_eq_ok_iff] at hx
    obtain ⟨n, hn, hx⟩ := hx
    cases hx
    rw [hn]
    rfl

/-- How a text is normalized. -/
theorem field_of_note {out : List (String × Json)} (h : normalizeFields R a.payload = .ok out)
    (name : String) (hkind : name ∉ digestKeys ∧ name ∈ textKeys) :
    (out.lookup name).getD .null =
      if a.field name = .null then .null else .str (a.note R name) := by
  unfold EventArgs.note
  rcases lookup_normalizeFields a.nodup h name with ⟨hnone, hout⟩ | ⟨v, x, hv, hne, hx, hout⟩
  · have hnull : a.field name = .null := hnone
    rw [if_pos hnull, hout]
    rfl
  · have hfield : a.field name = v := by rw [EventArgs.field, hv, Option.getD_some]
    rw [hfield, if_neg hne, if_neg hne, hout]
    unfold normalizeValue at hx
    rw [if_neg hkind.1, if_pos hkind.2] at hx
    cases hx
    rfl

/-- A text, or another value where it is not there or empty. -/
theorem orElse_note (name : String) (other : Json) :
    orElse (if a.field name = .null then .null else .str (a.note R name)) other =
      if a.note R name = "" then other else .str (a.note R name) := by
  by_cases hnull : a.field name = .null
  · have hempty : a.note R name = "" := if_pos hnull
    rw [if_pos hnull, if_pos hempty]
    rfl
  · rw [if_neg hnull]
    unfold orElse Json.truthy
    by_cases hempty : a.note R name = ""
    · rw [if_neg (by simpa using hempty), if_pos hempty]
    · rw [if_pos (by simpa using hempty), if_neg hempty]

/-- A reason that is blank is the default one. -/
theorem field_of_reason {out : List (String × Json)} (h : normalizeFields R a.payload = .ok out) :
    R.text (orElse ((out.lookup "reason").getD .null) (.str "capture_gap")) =
      if a.reason R = "" then "capture_gap" else a.reason R := by
  rw [field_of_note h "reason" (by decide), orElse_note]
  unfold EventArgs.reason
  split <;> rfl

/-! ## Texts that can be encoded -/

/-- A text can be bound exactly if it can be encoded. -/
theorem bindable_str {text : String} : bindable E (.str text) = .ok () ↔ E.encodes text = true := by
  unfold bindable
  split <;> simp_all

/-- So with a text or nothing. -/
theorem bindable_ofText {text : Option String} :
    bindable E (.ofOption .str text) = .ok () ↔ ∀ t ∈ text, E.encodes t = true := by
  rcases text with - | text
  · exact iff_of_true rfl fun t ht => absurd ht (Option.not_mem_none t)
  · exact bindable_str.trans ⟨fun h t ht => Option.mem_some.mp ht ▸ h, fun h => h text rfl⟩

/-- What is left of a text that can be encoded. -/
theorem encodes_of_subset {text : String} {cs : List Char} (h : E.encodes text = true)
    (hcs : cs ⊆ text.toList) : E.encodes (String.ofList cs) = true := by
  refine List.all_eq_true.mpr fun c hc => ?_
  rw [String.toList_ofList] at hc
  exact List.all_eq_true.mp h c (hcs hc)

theorem strip_subset (text : String) : strip text ⊆ text.toList := by
  intro c hc
  unfold strip at hc
  have hinner := (List.dropWhile_sublist _).subset (List.mem_reverse.mp hc)
  exact (List.dropWhile_sublist _).subset (List.mem_reverse.mp hinner)

/-! ## Gaps -/

/-- A name that is not blank, and not too long. -/
def Named (value : String) : Prop := strip value ≠ [] ∧ (strip value).length ≤ 512

/-- What a name in a gap is. -/
theorem gapName_eq_ok {name value text : String} :
    gapName name value = .ok text ↔ Named value ∧ text = String.ofList (strip value) := by
  unfold gapName Named
  dsimp only
  split
  · rename_i h
    refine iff_of_false (fun hok => by cases hok) fun hnamed => ?_
    rcases h with hblank | hlong
    · exact hnamed.1.1 hblank
    · exact absurd hnamed.1.2 (not_le.mpr hlong)
  · rename_i h
    rw [not_or, not_lt] at h
    rw [and_iff_right h, Except.ok.injEq, eq_comm]

/-- A number, if there is one, is positive. -/
theorem checkPositive_iff (name : String) {n : Option ℤ} :
    checkPositive E name (Json.ofOption .int n) = .ok () ↔ ∀ m ∈ n, 1 ≤ m := by
  rcases n with - | n
  · exact ⟨fun _ m hm => absurd hm (Option.not_mem_none m), fun _ => rfl⟩
  · have hcheck : checkPositive E name (.int n) =
        if n < 1 then .error (.valueError (name ++ " must be positive")) else .ok () := by
      unfold checkPositive
      rw [if_pos (by simp)]
      show (if decide (n < 1) = true then _ else _) = _
      by_cases hn : n < 1 <;> simp [hn] <;> rfl
    show checkPositive E name (.int n) = .ok () ↔ _
    rw [hcheck]
    by_cases hn : n < 1
    · simp [hn]
    · simp [hn, not_lt.mp hn]

/-- A positive number can be bound below 2^63. -/
theorem bindable_ofOption {n : Option ℤ} (h : ∀ m ∈ n, 1 ≤ m) :
    bindable E (Json.ofOption .int n) = .ok () ↔ ∀ m ∈ n, m < 2 ^ 63 := by
  rcases n with - | n
  · exact ⟨fun _ m hm => absurd hm (Option.not_mem_none m), fun _ => rfl⟩
  · have hn := h n rfl
    show (if -2 ^ 63 ≤ n ∧ n < 2 ^ 63 then _ else _) = _ ↔ _
    have hlow : -2 ^ 63 ≤ n := by omega
    by_cases hhigh : n < 2 ^ 63
    · rw [if_pos ⟨hlow, hhigh⟩]
      exact ⟨fun _ m hm => Option.mem_some.mp hm ▸ hhigh, fun _ => rfl⟩
    · rw [if_neg fun hboth => hhigh hboth.2]
      exact ⟨fun hraised => absurd hraised (by simp), fun hall => absurd (hall n rfl) hhigh⟩

/-- Two bounds are in order. -/
def InOrder (first last : Option ℤ) : Prop := ∀ m ∈ first, ∀ n ∈ last, m ≤ n

/-- What a gap keeps as its detail. -/
def keptDetail (E : Engine) (detail : Json) : Option String :=
  let text := (strip (E.text detail)).take 512
  if detail = .null ∨ text = [] then none else some (String.ofList text)

/-- Of a detail the first 512 characters are kept. -/
theorem encodes_keptDetail (text : String) : (∀ t ∈ keptDetail E (.str text), E.encodes t = true) ↔
    E.encodes (String.ofList ((strip text).take 512)) = true := by
  have hkept : keptDetail E (.str text) = if (strip text).take 512 = [] then none
      else some (String.ofList ((strip text).take 512)) := by
    unfold keptDetail Engine.text
    simp
  rw [hkept]
  by_cases hempty : (strip text).take 512 = []
  · rw [if_pos hempty, hempty]
    exact iff_of_true (fun t ht => absurd ht (Option.not_mem_none t)) rfl
  · rw [if_neg hempty]
    exact ⟨fun h => h _ rfl, fun h t ht => Option.mem_some.mp ht ▸ h⟩

/-- The end of `CoverageGap`: its names are there, and its bounds positive. -/
theorem make_of_checked (detail : Json) {reason instanceId epoch text₁ text₂ text₃ : String}
    {first last : Option ℤ} (h₁ : gapName "reason" reason = .ok text₁)
    (h₂ : gapName "producer_instance_id" instanceId = .ok text₂)
    (h₃ : gapName "producer_epoch" epoch = .ok text₃)
    (h₄ : checkPositive E "first_sequence" (Json.ofOption .int first) = .ok ())
    (h₅ : checkPositive E "last_sequence" (Json.ofOption .int last) = .ok ()) :
    (InOrder first last → CoverageGap.make E ⟨reason, instanceId, epoch,
        Json.ofOption .int first, Json.ofOption .int last, none⟩ detail =
      .ok ⟨text₁, text₂, text₃, Json.ofOption .int first, Json.ofOption .int last,
        keptDetail E detail⟩) ∧
    (¬ InOrder first last → CoverageGap.make E ⟨reason, instanceId, epoch,
        Json.ofOption .int first, Json.ofOption .int last, none⟩ detail =
      .error (.valueError "last_sequence must not precede first_sequence")) := by
  unfold CoverageGap.make
  dsimp only
  rw [h₁, h₂, h₃, h₄, h₅]
  -- an order is only asked of two bounds that are there
  rcases first with - | m
  · exact ⟨fun _ => rfl,
      fun hnot => absurd (fun m hm => absurd hm (Option.not_mem_none m)) hnot⟩
  rcases last with - | n
  · exact ⟨fun _ => rfl,
      fun hnot => absurd (fun _ _ n hn => absurd hn (Option.not_mem_none n)) hnot⟩
  have horder : InOrder (some m) (some n) ↔ m ≤ n := by
    unfold InOrder
    simp
  have hthere : Json.ofOption .int (some m) ≠ .null ∧ Json.ofOption .int (some n) ≠ .null := by
    simp [Json.ofOption]
  have hless : less E (Json.ofOption .int (some n)) (Json.ofOption .int (some m)) =
      .ok (decide (n < m)) := rfl
  rw [horder]
  by_cases hlt : n < m
  · refine ⟨fun hle => absurd hlt (not_lt.mpr hle), fun _ => ?_⟩
    simp only [hthere, hless, decide_eq_true hlt, ne_eq, not_false_eq_true, and_self, if_true]
    rfl
  · refine ⟨fun _ => ?_, fun hnot => absurd (not_lt.mp hlt) hnot⟩
    simp only [hthere, hless, decide_eq_false hlt, ne_eq, not_false_eq_true, and_self, if_true]
    rfl

/-- What is stored of a gap can be bound. -/
theorem bindable_parameters {migrationId reason instanceId epoch : String} {first last : Option ℤ}
    {detail : Option String} (hfirst : ∀ m ∈ first, 1 ≤ m) (hlast : ∀ n ∈ last, 1 ≤ n) :
    (∀ p ∈ CoverageGap.parameters migrationId ⟨reason, instanceId, epoch,
        Json.ofOption .int first, Json.ofOption .int last, detail⟩, bindable E p = .ok ()) ↔
      (∀ text ∈ [migrationId, instanceId, epoch, reason], E.encodes text = true) ∧
        (∀ m ∈ first, m < 2 ^ 63) ∧ (∀ n ∈ last, n < 2 ^ 63) ∧
        ∀ text ∈ detail, E.encodes text = true := by
  unfold CoverageGap.parameters
  simp only [List.forall_mem_cons, bindable_str, bindable_ofOption hfirst, bindable_ofOption hlast,
    bindable_ofText, and_assoc, List.not_mem_nil, false_imp_iff, implies_true, and_true]

/-- **A gap of counts can be made and stored** where its names are not blank,
its bounds are positive, in order and in range, and its texts can be
encoded. -/
theorem make_iff {migrationId reason instanceId epoch : String} {first last : Option ℤ}
    {detail : Json} :
    (∃ gap, CoverageGap.make E ⟨reason, instanceId, epoch, Json.ofOption .int first,
        Json.ofOption .int last, none⟩ detail = .ok gap ∧
      ∀ p ∈ gap.parameters migrationId, bindable E p = .ok ()) ↔
    (Named reason ∧ Named instanceId ∧ Named epoch) ∧ (∀ m ∈ first, 1 ≤ m ∧ m < 2 ^ 63) ∧
      (∀ n ∈ last, 1 ≤ n ∧ n < 2 ^ 63) ∧ InOrder first last ∧
      (∀ text ∈ [migrationId, String.ofList (strip instanceId), String.ofList (strip epoch),
        String.ofList (strip reason)], E.encodes text = true) ∧
      ∀ text ∈ keptDetail E detail, E.encodes text = true := by
  constructor
  · rintro ⟨gap, hmake, hbound⟩
    -- the checks of the source, one after the other; the order of the bounds is last
    have hchecked := hmake
    unfold CoverageGap.make at hchecked
    obtain ⟨text₁, h₁, hchecked⟩ := Checked.bind_eq_ok_iff.mp hchecked
    obtain ⟨text₂, h₂, hchecked⟩ := Checked.bind_eq_ok_iff.mp hchecked
    obtain ⟨text₃, h₃, hchecked⟩ := Checked.bind_eq_ok_iff.mp hchecked
    obtain ⟨⟨⟩, h₄, hchecked⟩ := Checked.bind_eq_ok_iff.mp hchecked
    obtain ⟨⟨⟩, h₅, -⟩ := Checked.bind_eq_ok_iff.mp hchecked
    obtain ⟨hordered, hdisordered⟩ := make_of_checked detail h₁ h₂ h₃ h₄ h₅
    by_cases horder : InOrder first last
    · obtain ⟨hreason, rfl⟩ := gapName_eq_ok.mp h₁
      obtain ⟨hinstance, rfl⟩ := gapName_eq_ok.mp h₂
      obtain ⟨hepoch, rfl⟩ := gapName_eq_ok.mp h₃
      obtain rfl := Except.ok.inj (hmake.symm.trans (hordered horder))
      have hpositive := (checkPositive_iff _).mp h₄
      have hpositive' := (checkPositive_iff _).mp h₅
      obtain ⟨htexts, hfirst, hlast, hdetail⟩ := (bindable_parameters hpositive hpositive').mp hbound
      exact ⟨⟨hreason, hinstance, hepoch⟩, fun m hm => ⟨hpositive m hm, hfirst m hm⟩,
        fun n hn => ⟨hpositive' n hn, hlast n hn⟩, horder, htexts, hdetail⟩
    · rw [hdisordered horder] at hmake
      cases hmake
  · rintro ⟨⟨hreason, hinstance, hepoch⟩, hfirst, hlast, horder, htexts, hdetail⟩
    have hpositive : ∀ m ∈ first, 1 ≤ m := fun m hm => (hfirst m hm).1
    have hpositive' : ∀ n ∈ last, 1 ≤ n := fun n hn => (hlast n hn).1
    refine ⟨_, (make_of_checked detail (gapName_eq_ok.mpr ⟨hreason, rfl⟩)
      (gapName_eq_ok.mpr ⟨hinstance, rfl⟩) (gapName_eq_ok.mpr ⟨hepoch, rfl⟩)
      ((checkPositive_iff _).mpr hpositive) ((checkPositive_iff _).mpr hpositive')).1 horder, ?_⟩
    exact (bindable_parameters hpositive hpositive').mpr
      ⟨htexts, fun m hm => (hfirst m hm).2, fun n hn => (hlast n hn).2, hdetail⟩

/-! ## Every event -/

/-- What an event is known by can be encoded. -/
def KeysEncode (R : Reader) (a : EventArgs) : Prop :=
  ∀ text ∈ [a.migrationId, a.producerInstanceId.getD "None", a.producerEpoch.getD "None",
    a.eventId.getD ""], R.encodes text = true

/-- The names that are kept beside it can be, as they are cut. -/
def NamesEncode (R : Reader) (a : EventArgs) : Prop :=
  R.encodes (String.ofList (strip a.runId)) = true ∧ ∀ name ∈ [a.subjectId, a.executionId],
    ∀ text ∈ name, R.encodes (String.ofList ((strip text).take 512)) = true

/-- What a gap has to be for its envelope to be taken: its producer is named,
its reason is not blank, its bounds are positive, in order and in range, and
its reason and its detail can be encoded. -/
structure GapFits (R : Reader) (a : EventArgs) : Prop where
  producer : Named (a.producerInstanceId.getD "None") ∧ Named (a.producerEpoch.getD "None")
  reason : a.reason R = "" ∨ strip (a.reason R) ≠ []
  first : ∀ m ∈ a.count R "first_sequence", 1 ≤ m ∧ m < 2 ^ 63
  last : ∀ n ∈ a.count R "last_sequence", 1 ≤ n ∧ n < 2 ^ 63
  ordered : InOrder (a.count R "first_sequence") (a.count R "last_sequence")
  encodes : R.encodes (String.ofList (strip (a.reason R))) = true ∧
    R.encodes (String.ofList ((strip (a.detail R)).take 512)) = true

/-- What is read of an envelope. -/
structure Envelope (R : Reader) (a : EventArgs) (body : List (String × Json)) : Prop where
  eventType : body.lookup "event_type" = some (.str (String.ofList (strip a.eventType)))
  payload : ∃ payload, normalizeFields R a.payload = .ok payload ∧
    body.lookup "payload" = some (.obj payload)
  subjectId : body.lookup "subject_id" = some (boundedOptional a.subjectId 512)
  executionId : body.lookup "execution_id" = some (boundedOptional a.executionId 512)
  runId : body.lookup "run_id" = some (.str (String.ofList (strip a.runId)))
  sequence : ∀ n ∈ a.producerSequence, 1 ≤ n

/-- So of a text, up to its limit. -/
theorem bindable_boundedOptional (value : Option String) (limit : ℕ) :
    bindable E (boundedOptional value limit) = .ok () ↔
      ∀ text ∈ value, E.encodes (String.ofList ((strip text).take limit)) = true := by
  rcases value with - | text
  · exact iff_of_true rfl fun t ht => absurd ht (Option.not_mem_none t)
  · have hone : (∀ t ∈ some text, E.encodes (String.ofList ((strip t).take limit)) = true) ↔
        E.encodes (String.ofList ((strip text).take limit)) = true :=
      ⟨fun h => h text rfl, fun h t ht => Option.mem_some.mp ht ▸ h⟩
    rw [hone]
    unfold boundedOptional
    dsimp only
    by_cases hblank : strip text = []
    · rw [if_pos hblank, hblank, List.take_nil]
      exact iff_of_true rfl rfl
    · rw [if_neg hblank]
      exact bindable_str

/-- The names of an envelope's row. -/
theorem Envelope.namesBound {body : List (String × Json)} (h : Envelope R a body) :
    NamesBound R.toEngine (a.delivery body) ↔ NamesEncode R a := by
  have hlookup (name : String) : (a.delivery body).body.lookup name = body.lookup name := rfl
  unfold NamesBound NamesEncode
  simp only [List.forall_mem_cons, List.not_mem_nil, false_imp_iff, implies_true, and_true, hlookup,
    h.subjectId, h.executionId, h.runId, Option.getD_some, bindable_boundedOptional, bindable_str]
  constructor
  · rintro ⟨hsubject, hexecution, hrun⟩
    exact ⟨hrun, hsubject, hexecution⟩
  · rintro ⟨hrun, hsubject, hexecution⟩
    exact ⟨hsubject, hexecution, hrun⟩

theorem checkProducer_eq_ok (h : checkProducer a = .ok ()) : ∀ n ∈ a.producerSequence, 1 ≤ n := by
  intro n hn
  by_contra hlt
  have hany : a.producerSequence.any (· < 1) = true := by
    rw [Option.mem_def.mp hn]
    exact decide_eq_true (not_le.mp hlt)
  unfold checkProducer at h
  rw [if_pos hany] at h
  cases h

/-- What is normalized is an envelope. -/
theorem envelope_of_normalizeEvent {receivedAt : String} {body : List (String × Json)}
    (h : normalizeEvent R receivedAt a = .ok body) : Envelope R a body := by
  unfold normalizeEvent at h
  dsimp only at h
  split at h
  · cases h
  split at h
  · cases h
  obtain ⟨⟨⟩, hproducer, h⟩ := Checked.bind_eq_ok_iff.mp h
  obtain ⟨eventTime, -, h⟩ := Checked.bind_eq_ok_iff.mp h
  split at h
  · cases h
  split at h
  · cases h
  obtain ⟨payload, hpayload, h⟩ := Checked.bind_eq_ok_iff.mp h
  cases h
  refine ⟨rfl, ⟨payload, ?_, rfl⟩, rfl, rfl, rfl, checkProducer_eq_ok hproducer⟩
  unfold normalizePayload at hpayload
  dsimp only at hpayload
  split at hpayload
  · cases hpayload
  · obtain ⟨⟨⟩, -, hfields⟩ := Checked.bind_eq_ok_iff.mp hpayload
    exact hfields

/-- What is cut is not too long for a name. -/
theorem named_reason : Named (if a.reason R = "" then "capture_gap" else a.reason R) ↔
    a.reason R = "" ∨ strip (a.reason R) ≠ [] := by
  by_cases hempty : a.reason R = ""
  · rw [if_pos hempty]
    exact ⟨fun _ => Or.inl hempty, fun _ => ⟨by decide, by decide⟩⟩
  · rw [if_neg hempty]
    refine ⟨fun h => Or.inr h.1, fun h => ⟨h.resolve_left hempty, ?_⟩⟩
    refine (length_strip_le _).trans ?_
    unfold EventArgs.reason EventArgs.note
    split
    · exact Nat.zero_le _
    · unfold cut
      rw [String.toList_ofList]
      exact List.length_take_le _ _

/-- Numbers that are positive are not clamped. -/
theorem inOrder_clamped {first last : Option ℤ} (hfirst : ∀ m ∈ first, 1 ≤ m)
    (hlast : ∀ n ∈ last, 1 ≤ n) :
    InOrder (first.map (max 0)) (last.map (max 0)) ↔ InOrder first last := by
  unfold InOrder
  rcases first with - | m <;> rcases last with - | n <;> simp
  have hm := hfirst m rfl
  have hn := hlast n rfl
  omega

/-- A clamped bound is positive where the bound is. -/
theorem clamped_iff {n : Option ℤ} :
    (∀ m ∈ n.map (max 0), 1 ≤ m ∧ m < 2 ^ 63) ↔ ∀ m ∈ n, 1 ≤ m ∧ m < 2 ^ 63 := by
  rcases n with - | n
  · simp
  · simp only [Option.map_some, Option.mem_some_iff, forall_eq']
    omega

/-- What is told of a gap, as it is kept. -/
theorem encodes_detail {out : List (String × Json)} (h : normalizeFields R a.payload = .ok out) :
    (∀ text ∈ keptDetail R.toEngine (orElse ((out.lookup "error_reason").getD .null)
        ((out.lookup "reason").getD .null)), R.encodes text = true) ↔
      R.encodes (String.ofList ((strip (a.detail R)).take 512)) = true := by
  rw [field_of_note h "error_reason" (by decide), field_of_note h "reason" (by decide), orElse_note]
  unfold EventArgs.detail EventArgs.reason
  by_cases herror : a.note R "error_reason" = ""
  · rw [if_pos herror, if_pos herror]
    by_cases hnull : a.field "reason" = .null
    · have hempty : a.note R "reason" = "" := if_pos hnull
      rw [if_pos hnull, hempty]
      exact iff_of_true (fun t ht => absurd ht (Option.not_mem_none t)) rfl
    · rw [if_neg hnull]
      exact encodes_keptDetail _
  · rw [if_neg herror, if_neg herror]
    exact encodes_keptDetail _

/-- A gap's own reason is ASCII. -/
theorem encodes_reason : R.encodes (String.ofList (strip (if a.reason R = "" then "capture_gap"
      else a.reason R))) = true ↔ R.encodes (String.ofList (strip (a.reason R))) = true := by
  by_cases hempty : a.reason R = ""
  · have hascii : ((strip "capture_gap").all fun c => decide (c.toNat < 128)) = true := by decide
    rw [if_pos hempty, hempty]
    refine iff_of_true (encodes_of_ascii fun c hc => ?_) rfl
    rw [String.toList_ofList] at hc
    exact of_decide_eq_true (List.all_eq_true.mp hascii c hc)
  · rw [if_neg hempty]

/-- **A gap is reported exactly where it fits**, of an event whose keys can be
encoded. -/
theorem reportable_iff {body : List (String × Json)} (h : Envelope R a body)
    (hkeys : KeysEncode R a) : Reportable R.toEngine (a.delivery body) ↔
      (String.ofList (strip a.eventType) = "capture.gap" → GapFits R a) := by
  obtain ⟨payload, hfields, hpayload⟩ := h.payload
  unfold Reportable
  have htype : (a.delivery body).body.lookup "event_type" = some (.str "capture.gap") ↔
      String.ofList (strip a.eventType) = "capture.gap" := by
    show body.lookup "event_type" = _ ↔ _
    rw [h.eventType]
    simp
  rw [htype]
  refine imp_congr_right fun _ => ?_
  have hbody : ((a.delivery body).body.lookup "payload").getD .null = .obj payload := by
    show (body.lookup "payload").getD .null = _
    rw [hpayload]
    rfl
  have hobject : orElse (.obj payload) (.obj []) = .obj payload := by
    cases payload <;> rfl
  have hfirst := field_of_count hfields "first_sequence" (by decide)
  have hlast := field_of_count hfields "last_sequence" (by decide)
  have hreported : reportedGap R.toEngine (a.delivery body) payload =
      ⟨if a.reason R = "" then "capture_gap" else a.reason R, a.producerInstanceId.getD "None",
        a.producerEpoch.getD "None",
        Json.ofOption .int ((a.count R "first_sequence").map (max 0)),
        Json.ofOption .int ((a.count R "last_sequence").map (max 0)), none⟩ := by
    unfold reportedGap
    rw [hfirst, hlast, field_of_reason hfields]
    rfl
  have hmake : (∃ out gap, orElse (((a.delivery body).body.lookup "payload").getD .null) (.obj []) =
        .obj out ∧
      CoverageGap.make R.toEngine (reportedGap R.toEngine (a.delivery body) out) (orElse
        ((out.lookup "error_reason").getD .null) ((out.lookup "reason").getD .null)) = .ok gap ∧
      ∀ p ∈ gap.parameters (a.delivery body).migrationId, bindable R.toEngine p = .ok ()) ↔
      ∃ gap, CoverageGap.make R.toEngine (reportedGap R.toEngine (a.delivery body) payload) (orElse
        ((payload.lookup "error_reason").getD .null) ((payload.lookup "reason").getD .null)) =
          .ok gap ∧
      ∀ p ∈ gap.parameters (a.delivery body).migrationId, bindable R.toEngine p = .ok () := by
    rw [hbody, hobject]
    constructor
    · rintro ⟨out, gap, hout, hrest⟩
      obtain rfl := Json.obj.inj hout
      exact ⟨gap, hrest⟩
    · rintro ⟨gap, hrest⟩
      exact ⟨payload, gap, rfl, hrest⟩
  -- of the names, only the reason is not among the keys
  have hnames : (∀ text ∈ [(a.delivery body).migrationId,
        String.ofList (strip (a.producerInstanceId.getD "None")),
        String.ofList (strip (a.producerEpoch.getD "None")),
        String.ofList (strip (if a.reason R = "" then "capture_gap" else a.reason R))],
      R.encodes text = true) ↔ R.encodes (String.ofList (strip (a.reason R))) = true := by
    obtain ⟨hmigration, hinstance, hepoch, -⟩ : _ ∧ _ ∧ _ ∧ _ := by
      simpa only [KeysEncode, List.forall_mem_cons] using hkeys
    simp only [List.forall_mem_cons, List.not_mem_nil, false_imp_iff, implies_true, and_true,
      encodes_reason, encodes_of_subset hinstance (strip_subset _),
      encodes_of_subset hepoch (strip_subset _), true_and]
    exact and_iff_right hmigration
  rw [hmake, hreported, make_iff, clamped_iff, clamped_iff, named_reason, encodes_detail hfields,
    hnames]
  constructor
  · rintro ⟨⟨hreason, hproducer⟩, hfirst, hlast, horder, hencodes⟩
    exact ⟨hproducer, hreason, hfirst, hlast,
      (inOrder_clamped (fun m hm => (hfirst m hm).1) fun n hn => (hlast n hn).1).mp horder, hencodes⟩
  · rintro ⟨hproducer, hreason, hfirst, hlast, horder, hencodes⟩
    exact ⟨⟨hreason, hproducer⟩, hfirst, hlast,
      (inOrder_clamped (fun m hm => (hfirst m hm).1) fun n hn => (hlast n hn).1).mpr horder, hencodes⟩

/-- **An event is answered exactly where its place is in range, what it is
known by can be encoded, and it is known, or its migration is there, its
names can be encoded and its gap, if it reports one, fits**: whatever the
store holds, and for every event that is normalised with a place. -/
theorem normalized_event_answered_iff {receivedAt : String} {body : List (String × Json)}
    (hfresh : FreshIds R.toEngine w)
    (hnormal : normalizeEvent R receivedAt a = .ok body) (hplace : a.producerSequence.isSome) :
    (∃ answer, ((ControlCall.accept (a.delivery body)).body R.toEngine w).1 =
        .ok (.delivered answer)) ↔
      (a.producerSequence.getD 0 < 2 ^ 63 ∧ KeysEncode R a) ∧
        (Delivered w (a.delivery body) ∨ (a.migrationId ∈ w.store.migrations ∧ NamesEncode R a ∧
          (String.ofList (strip a.eventType) = "capture.gap" → GapFits R a))) := by
  have henvelope := envelope_of_normalizeEvent hnormal
  obtain ⟨n, hn⟩ := Option.isSome_iff_exists.mp hplace
  have hpos := henvelope.sequence n hn
  have hsequence : (a.delivery body).producerSequence = n := by
    show a.producerSequence.getD 0 = n
    rw [hn]
    rfl
  have hbound : (a.delivery body).Bound R.toEngine ↔
      a.producerSequence.getD 0 < 2 ^ 63 ∧ KeysEncode R a := by
    -- a position is positive, so only its upper bound is left to check
    have hplaced : bindable R.toEngine (.int n) = .ok () ↔ n < 2 ^ 63 := by
      have hbind := bindable_ofOption (E := R.toEngine) (n := some n)
        fun m hm => Option.mem_some.mp hm ▸ hpos
      simpa [Json.ofOption] using hbind
    unfold Delivery.Bound Delivery.parameters KeysEncode
    rw [hsequence, hn, Option.getD_some]
    simp only [List.forall_mem_cons, List.not_mem_nil, false_imp_iff, implies_true, and_true,
      bindable_str, hplaced]
    constructor
    · rintro ⟨hmigration, hinstance, hepoch, hrange, hevent⟩
      exact ⟨hrange, hmigration, hinstance, hepoch, hevent⟩
    · rintro ⟨hrange, hmigration, hinstance, hepoch, hevent⟩
      exact ⟨hmigration, hinstance, hepoch, hrange, hevent⟩
  rw [accept_answered_iff hfresh (by omega), hbound]
  refine and_congr_right ?_
  rintro ⟨-, hkeys⟩
  rw [henvelope.namesBound, reportable_iff henvelope hkeys]
  rfl

/-! ## Two gaps, and a run with half a surrogate pair -/

/-- A process that takes every time; a private character stands for half of a
pair. -/
def exampleReader : Reader where
  toEngine := { deliveryEngine with
    surrogate := fun c => decide (c.toNat = 0xE000)
    surrogate_ascii := fun c h => by have := of_decide_eq_true h; omega }
  int _ := .error (.valueError "invalid literal for int()")
  isoformat _ := true

/-- A gap between two bounds, in the place of a producer's event. -/
def exampleGap (first last : ℤ) : EventArgs where
  migrationId := "mig_1"
  host := "openclaw"
  eventType := "capture.gap"
  runId := "run_1"
  payload := [("first_sequence", .int first), ("last_sequence", .int last)]
  nodup := by simp
  eventId := some "event_1"
  producerInstanceId := some "producer_1"
  producerEpoch := some "epoch_1"
  producerSequence := some 1
  eventTime := some "2026-01-01T00:00:00.000Z"

/-- The migration is there, and nothing else. -/
def migratedWorld : ControlWorld :=
  (play (ControlCall.body deliveryEngine) [.migrate "mig_1"] deliveredWorld).2

/-- What the envelope of an event is refused with. -/
def refusal (a : EventArgs) : Option ControlError :=
  match normalizeEvent exampleReader "" a with
  | .ok body =>
    match ((ControlCall.accept (a.delivery body)).body exampleReader.toEngine migratedWorld).1 with
    | .ok _ => none
    | .error e => some e
  | .error _ => none

/-- **A gap that begins at zero is normalised, and refused** whenever it is
delivered. -/
theorem refuses_a_normalized_gap :
    ∃ body, normalizeEvent exampleReader "" (exampleGap 0 3) = .ok body ∧
      ((ControlCall.accept ((exampleGap 0 3).delivery body)).body exampleReader.toEngine
        migratedWorld).1 = .error (.valueError "first_sequence must be positive") := by
  have hrun : refusal (exampleGap 0 3) = some (.valueError "first_sequence must be positive") := by
    decide +kernel
  unfold refusal at hrun
  rcases hnormal : normalizeEvent exampleReader "" (exampleGap 0 3) with e | body
  · rw [hnormal] at hrun
    cases hrun
  · rw [hnormal] at hrun
    refine ⟨body, rfl, ?_⟩
    rcases hanswer : ((ControlCall.accept ((exampleGap 0 3).delivery body)).body
        exampleReader.toEngine migratedWorld).1 with e | answer
    · simp only [hanswer] at hrun
      rw [Option.some.inj hrun]
    · simp only [hanswer] at hrun
      cases hrun

/-- So is one that fits, of a run that half of a surrogate pair names. -/
example : refusal { exampleGap 1 3 with runId := "\uE000" } = some .unicodeEncodeError := by
  decide +kernel

/-- One that fits is taken. -/
theorem accepts_a_gap_that_fits : ∃ body answer,
    normalizeEvent exampleReader "" (exampleGap 1 3) = .ok body ∧
      ((ControlCall.accept ((exampleGap 1 3).delivery body)).body exampleReader.toEngine
        migratedWorld).1 = .ok (.delivered answer) := by
  have hfresh : FreshIds exampleReader.toEngine migratedWorld := by
    have hnone : migratedWorld.store.evidence.rows = [] ∧
        migratedWorld.store.deliveries.rows = [] := ⟨rfl, rfl⟩
    constructor
    · rw [hnone.1]
      exact fun r hr => absurd hr List.not_mem_nil
    · rw [hnone.2]
      exact fun r hr => absurd hr List.not_mem_nil
  have hfits : GapFits exampleReader (exampleGap 1 3) := by
    have hfirst : (exampleGap 1 3).count exampleReader "first_sequence" = some 1 := by decide
    have hlast : (exampleGap 1 3).count exampleReader "last_sequence" = some 3 := by decide
    refine ⟨⟨⟨by decide, by decide⟩, ⟨by decide, by decide⟩⟩, Or.inl (by decide), ?_, ?_, ?_,
      by decide +kernel⟩
    · simp [hfirst]
    · simp [hlast]
    · simp [hfirst, hlast, InOrder]
  have hkeys : KeysEncode exampleReader (exampleGap 1 3) := by
    unfold KeysEncode
    decide +kernel
  have hnames : NamesEncode exampleReader (exampleGap 1 3) :=
    ⟨by decide +kernel, by unfold exampleGap; simp⟩
  have hmigration : (exampleGap 1 3).migrationId ∈ migratedWorld.store.migrations := by
    decide +kernel
  have hok : (normalizeEvent exampleReader "" (exampleGap 1 3)).isOk = true := by decide +kernel
  rcases hnormal : normalizeEvent exampleReader "" (exampleGap 1 3) with e | body
  · rw [hnormal] at hok
    cases hok
  · have hplace : (exampleGap 1 3).producerSequence.isSome = true := rfl
    have hrange : (exampleGap 1 3).producerSequence.getD 0 < 2 ^ 63 := by decide
    obtain ⟨answer, hanswer⟩ := (normalized_event_answered_iff (R := exampleReader) hfresh hnormal hplace).mpr
      ⟨⟨hrange, hkeys⟩, Or.inr ⟨hmigration, hnames, fun _ => hfits⟩⟩
    exact ⟨body, answer, rfl, hanswer⟩

end Atmem.Control
