/-
  File:      Web/RulePayloads.lean
  Subject:   WHAT THE BODY OF A RULE FORM STORES: a field of the draft is sent when its text is not
             the text of the basis, and a field that is not sent is inherited with that text.

  * `payload_number`, `payload_note`, `payload_start` -- the fields of a body;
  * `StoresNumber` -- a column has the number of a text, as far as its decimals reach;
  * `costSnapshot_stores`, `costCorrection_stores`, `cpaSnapshot_stores`, `cpaCorrection_stores`
    -- an accepted body stores the draft;
  * `costSnapshot_accepts`, `cpaSnapshot_accepts`, … -- the body of a draft with valid numbers is
    accepted;
  * `throws_costCorrection`, `throws_cpaCorrection` -- what a correction may be refused for;
  * `costSent_payload`, `cpaSent_payload` -- the bodies of the forms.
-/
import AdsManagement.Web.RulePreview
import AdsManagement.Meta.ProductRuleWrites

namespace AdsManagement.Web

open Common Lib Meta List

/-! ## 1. The fields of a body -/

section Fields

variable {τ : Type} {effectiveFrom note : τ → String} {fields : List (String × (τ → String))}
  {draft : τ} {basis : Option τ} {mode : MetaProductRulePayloadMode}

/-- The names of the numeric fields are distinct and apart from the two others. -/
structure FieldNames (fields : List (String × (τ → String))) : Prop where
  distinct : (fields.map Prod.fst).Nodup
  start : "effectiveFrom" ∉ fields.map Prod.fst
  note : "note" ∉ fields.map Prod.fst

variable {name : String}

theorem get_changed_none (h : name ∉ fields.map Prod.fst) :
    Body.get ((fields.filter fun field => isChanged draft basis field.2).map
      fun field => (field.1, Json.str (field.2 draft))) name = none := by
  unfold Body.get
  rw [Option.map_eq_none_iff, find?_eq_none]
  intro entry hentry
  obtain ⟨field, hfield, rfl⟩ := mem_map.mp hentry
  rw [decide_eq_true_eq]
  rintro rfl
  exact h (mem_map_of_mem (mem_filter.mp hfield).1)

variable {field : String × (τ → String)}

theorem get_changed (hnd : (fields.map Prod.fst).Nodup) (hfield : field ∈ fields) :
    Body.get ((fields.filter fun field => isChanged draft basis field.2).map
      fun field => (field.1, Json.str (field.2 draft))) field.1 =
        if isChanged draft basis field.2 then some (.str (field.2 draft)) else none := by
  induction fields with
  | nil => cases hfield
  | cons first rest ih =>
    obtain ⟨hnot, hrest⟩ := nodup_cons.mp hnd
    rcases mem_cons.mp hfield with rfl | hmem
    · by_cases hc : isChanged draft basis field.2 = true
      · rw [filter_cons_of_pos (p := fun f : String × (τ → String) => isChanged draft basis f.2) hc,
          map_cons, Body.get_cons, if_pos rfl, if_pos hc]
      · rw [filter_cons_of_neg (p := fun f : String × (τ → String) => isChanged draft basis f.2) hc,
          if_neg hc]
        exact get_changed_none hnot
    · have hne : first.1 ≠ field.1 := by
        intro e
        rw [e] at hnot
        exact hnot (mem_map_of_mem hmem)
      by_cases hc : isChanged draft basis first.2 = true
      · rw [filter_cons_of_pos (p := fun f : String × (τ → String) => isChanged draft basis f.2) hc,
          map_cons, Body.get_cons, if_neg hne]
        exact ih hrest hmem
      · rw [filter_cons_of_neg (p := fun f : String × (τ → String) => isChanged draft basis f.2) hc]
        exact ih hrest hmem

variable {P : Prop}

theorem get_if_self [Decidable P] (name : String) (j : Json) :
    Body.get (if P then [(name, j)] else []) name = if P then some j else none := by
  split
  · rw [Body.get_cons, if_pos rfl]
  · rfl

theorem get_if_ne [Decidable P] {field : String} (h : name ≠ field) (j : Json) :
    Body.get (if P then [(name, j)] else []) field = none := by
  split
  · rw [Body.get_cons, if_neg h]
    rfl
  · rfl

theorem payload_number (h : FieldNames fields) (hfield : field ∈ fields) :
    Body.get (changedRulePayload effectiveFrom note fields draft basis mode) field.1 =
      if isChanged draft basis field.2 then some (.str (field.2 draft)) else none := by
  have hname : field.1 ∈ fields.map Prod.fst := mem_map_of_mem hfield
  have hstart : "effectiveFrom" ≠ field.1 := fun e => h.start (e ▸ hname)
  have hnote : "note" ≠ field.1 := fun e => h.note (e ▸ hname)
  unfold changedRulePayload
  rw [Body.get_append, Body.get_append, get_changed h.distinct hfield, get_if_ne hstart,
    get_if_ne hnote, Option.none_or, Option.or_none]

theorem payload_note (h : FieldNames fields) :
    Body.get (changedRulePayload effectiveFrom note fields draft basis mode) "note" =
      if trimmedNote (note draft) ≠ basis.bind (fun b => trimmedNote (note b)) then
        some (noteJson (trimmedNote (note draft)))
      else none := by
  unfold changedRulePayload
  rw [Body.get_append, Body.get_append, get_changed_none h.note, get_if_ne (by decide), get_if_self,
    Option.none_or, Option.none_or]

theorem payload_start (h : FieldNames fields) :
    Body.get (changedRulePayload effectiveFrom note fields draft basis mode) "effectiveFrom" =
      if mode = .snapshot ∨ dateKey (some (effectiveFrom draft)) ≠ dateKey (basis.map effectiveFrom) then
        some (.str (dateKey (some (effectiveFrom draft))))
      else none := by
  unfold changedRulePayload
  rw [Body.get_append, Body.get_append, get_changed_none h.start, get_if_self,
    get_if_ne (by decide), Option.or_none, Option.or_none]

/-- No other field is sent. -/
theorem payload_other (hs : "effectiveFrom" ≠ name) (hn : "note" ≠ name)
    (hname : name ∉ fields.map Prod.fst) :
    Body.get (changedRulePayload effectiveFrom note fields draft basis mode) name = none := by
  unfold changedRulePayload
  rw [Body.get_append, Body.get_append, get_changed_none hname, get_if_ne hs, get_if_ne hn]
  rfl

theorem fields_of_payload {entry : String × Json}
    (h : entry ∈ changedRulePayload effectiveFrom note fields draft basis mode) :
    entry.1 = "effectiveFrom" ∨ entry.1 ∈ fields.map Prod.fst ∨ entry.1 = "note" := by
  rcases mem_append.mp h with h | h
  · rcases mem_append.mp h with h | h
    · split at h
      · rw [mem_singleton.mp h]
        exact .inl rfl
      · cases h
    · obtain ⟨field, hf, rfl⟩ := mem_map.mp h
      exact .inr (.inl (mem_map_of_mem (mem_filter.mp hf).1))
  · split at h
    · rw [mem_singleton.mp h]
      exact .inr (.inr rfl)
    · cases h

/-- A form that can be sent has a changed value. -/
theorem changed_of_not_empty {names : List String}
    (h : isEmptySave (changedRulePayload effectiveFrom note fields draft basis mode) mode = false)
    (hfields : ∀ name ∈ fields.map Prod.fst, name ∈ names) (hnote : "note" ∈ names)
    (hstart : mode = .correction → "effectiveFrom" ∈ names) :
    names.any (hasProvidedField (changedRulePayload effectiveFrom note fields draft basis mode)) = true := by
  have hsent : ∀ entry ∈ changedRulePayload effectiveFrom note fields draft basis mode,
      (entry.1 = "effectiveFrom" → mode = .correction) →
        names.any (hasProvidedField (changedRulePayload effectiveFrom note fields draft basis mode)) = true := by
    intro entry hentry hs
    refine any_eq_true.mpr ⟨entry.1, ?_, Body.has_of_mem hentry⟩
    rcases fields_of_payload hentry with he | he | he
    · rw [he]
      exact hstart (hs he)
    · exact hfields _ he
    · rw [he]
      exact hnote
  cases mode with
  | snapshot =>
    obtain ⟨entry, hentry, hne⟩ := all_eq_false.mp h
    exact hsent entry hentry fun he => absurd (decide_eq_true he) hne
  | correction =>
    obtain ⟨entry, hentry⟩ := exists_mem_of_ne_nil _
      (fun e => by rw [isEmptySave, isEmpty_eq_false_iff] at h; exact h e)
    exact hsent entry hentry fun _ => rfl

variable {d : Int}

/-- A date a form sends is read back by the service. -/
theorem startDate_eq_ok {body : Body} (hd : ReadsBack d)
    (h : body.get "effectiveFrom" = some (.str (formatDateOnly d))) : startDate body = .ok d := by
  unfold startDate requiredString trimmedText
  rw [h]
  simp only
  rw [trim_formatDateOnly hd, if_neg (formatDateOnly_ne_empty hd)]
  show fromRequest (asDateOnly (formatDateOnly d)) = _
  rw [asDateOnly, toDateOnly_formatDateOnly hd]
  rfl

/-- The day of a snapshot is always sent. -/
theorem payload_startDate (h : FieldNames fields) (hd : ReadsBack d)
    (hdraft : dateKey (some (effectiveFrom draft)) = formatDateOnly d) :
    startDate (changedRulePayload effectiveFrom note fields draft basis .snapshot) = .ok d := by
  refine startDate_eq_ok hd ?_
  rw [payload_start h, if_pos (.inl rfl), hdraft]

/-- The day of a correction is sent when it is another one. -/
theorem payload_startDateOr (h : FieldNames fields) {old : Int} (hd : ReadsBack d) (ho : ReadsBack old)
    (hdraft : dateKey (some (effectiveFrom draft)) = formatDateOnly d)
    (hbasis : dateKey (basis.map effectiveFrom) = formatDateOnly old) :
    startDateOr (changedRulePayload effectiveFrom note fields draft basis .correction) old = .ok d := by
  have hget : Body.get (changedRulePayload effectiveFrom note fields draft basis .correction)
      "effectiveFrom" = _ := payload_start h
  unfold startDateOr hasProvidedField Body.has
  rw [hdraft, hbasis] at hget
  by_cases hne : formatDateOnly d = formatDateOnly old
  · have hnone : ¬ (MetaProductRulePayloadMode.correction = .snapshot ∨
        formatDateOnly d ≠ formatDateOnly old) := by
      rintro (h | h)
      · cases h
      · exact h hne
    rw [if_neg hnone] at hget
    rw [hget, formatDateOnly_inj hd ho hne]
    rfl
  · rw [if_pos (.inr hne)] at hget
    rw [hget]
    exact startDate_eq_ok hd hget

end Fields

/-! ## 2. Numbers -/

/-- A column has the number of a text: rounded to its decimals, the number itself where they
    suffice. -/
def StoresNumber {s : Nat} (text : String) (x : Scaled s) : Prop :=
  ∃ q, textNumber text = some q ∧ x = Scaled.ofRat s q ∧ ∀ y : Scaled s, y.value = q → x = y

variable {text : String}

theorem storesNumber_ofRat {s : Nat} {q : ℚ} (h : textNumber text = some q) :
    StoresNumber text (Scaled.ofRat s q) := by
  refine ⟨q, h, rfl, fun y hy => ?_⟩
  rw [← hy, Scaled.ofRat_value]

theorem storesNumber_text {s : Nat} (x : Scaled s) : StoresNumber x.text x := by
  have h := storesNumber_ofRat (s := s) (textNumber_text x)
  rwa [Scaled.ofRat_value] at h

/-- The field of a body that holds a number of a draft, against the column it may inherit. -/
def SendsNumber {s : Nat} (body : Body) (field text : String) (old : Option (Scaled s)) : Prop :=
  body.get field = if (old.map Scaled.text).all (text ≠ ·) then some (.str text) else none

variable {s : Nat} {body : Body} {field : String} {old : Option (Scaled s)}

theorem SendsNumber.cases (h : SendsNumber body field text old) :
    body.get field = some (.str text) ∨ ∃ x, old = some x ∧ text = x.text ∧ body.get field = none := by
  unfold SendsNumber at h
  split at h
  · exact .inl h
  · rename_i hall
    refine .inr ?_
    cases old with
    | none => exact absurd rfl hall
    | some x => exact ⟨x, rfl, by simpa using hall, h⟩

/-- **A number that is sent or inherited is the number of the draft.** -/
theorem SendsNumber.stores (h : SendsNumber body field text old)
    (hread : ∀ j, body.get field = some j → ∃ q, jsNumber j = some q) :
    StoresNumber text (replacedNumber s body field (old.getD 0)) := by
  unfold replacedNumber
  rcases h.cases with hsent | ⟨x, rfl, rfl, hkept⟩
  · obtain ⟨q, hq⟩ := hread _ hsent
    rw [hsent, Option.bind_some, hq]
    exact storesNumber_ofRat hq
  · rw [hkept]
    exact storesNumber_text x

/-- A number a form accepts for a column `Decimal(precision, s)`. -/
structure ValidNumber (precision s : Nat) (text : String) (q : ℚ) : Prop where
  shown : trim text ≠ ""
  reads : textNumber text = some q
  nonneg : 0 ≤ q
  fits : (Scaled.ofRat s q).units.natAbs < 10 ^ precision

variable {precision : Nat} {q : ℚ}

theorem ValidNumber.column (h : ValidNumber precision s text q) :
    column precision s q = .ok (Scaled.ofRat s q) := by
  unfold Meta.column
  rw [if_pos h.fits]

theorem ValidNumber.decimal (h : ValidNumber precision s text q) (field : String) :
    decimal (some (.str text)) field = .ok q := by
  unfold Meta.decimal jsText jsNumber
  simp only [h.reads]
  rw [if_neg h.shown, if_neg (not_lt.mpr h.nonneg)]

variable {ν : Type}

theorem numberOrBase_map {sent : Option ℚ} {base : Option ν} {column : ν → Scaled s}
    (h : numberOrBase sent ((base.map column).map (·.value)) = .ok q) :
    numberOrBase sent (base.map fun b => (column b).value) = .ok q := by
  rw [Option.map_map] at h
  exact h

/-- Sent or inherited, a valid number passes. -/
theorem ValidNumber.accepts (h : ValidNumber precision s text q) (hs : SendsNumber body field text old) :
    ∃ sent, decimalIfPresent body field = .ok sent ∧ numberOrBase sent (old.map (·.value)) = .ok q ∧
      (∀ x ∈ old, ∃ y, columnOr precision s sent x = .ok y) ∧ (sent = none ∨ sent = some q) := by
  unfold decimalIfPresent hasProvidedField Body.has
  rcases hs.cases with hsent | ⟨x, rfl, rfl, hkept⟩
  · rw [hsent]
    refine ⟨some q, ?_, rfl, fun x _ => ⟨_, h.column⟩, .inr rfl⟩
    rw [h.decimal]
    rfl
  · rw [hkept]
    refine ⟨none, rfl, ?_, fun y _ => ⟨y, rfl⟩, .inl rfl⟩
    show Except.ok x.value = _
    rw [Option.some.inj ((textNumber_text x).symm.trans h.reads)]

/-! ## 3. Notes -/

/-- The stored note is the note of the draft, blanks at the ends apart. -/
def StoresNote (text : String) (note : Option String) : Prop :=
  trimmedNote (note.getD "") = trimmedNote text

/-- **A note that is sent or inherited is the note of the draft.** -/
theorem storesNote_noteOr {old : Option String}
    (h : body.get "note" = if trimmedNote text ≠ trimmedNote (old.getD "") then
      some (noteJson (trimmedNote text)) else none) : StoresNote text (noteOr body old) := by
  unfold StoresNote noteOr hasProvidedField Body.has
  split at h
  · rw [h]
    simp only [Option.isSome_some, if_true]
    unfold trimmedNote at h ⊢
    by_cases hblank : trim text = ""
    · rw [if_pos hblank]
      decide
    · rw [if_neg hblank]
      unfold noteJson nullableString optionalString jsText
      simp only
      rw [trim_trim, if_neg hblank, Option.getD_some, trim_trim, if_neg hblank]
  · rename_i hsame
    rw [h]
    exact (not_not.mp hsame).symm

/-! ## 4. Cost rules -/

structure CostStored (draft : MetaProductCostRuleDraft) (v : CostValues) : Prop where
  salePriceKrw : StoresNumber draft.salePriceKrw v.salePriceKrw
  productCostKrw : StoresNumber draft.productCostKrw v.productCostKrw
  shippingKrw : StoresNumber draft.shippingKrw v.shippingKrw
  extraCostKrw : StoresNumber draft.extraCostKrw v.extraCostKrw
  note : StoresNote draft.note v.note

/-- What a body sends of a draft, against the columns it may inherit. -/
structure CostSent (draft : MetaProductCostRuleDraft) (base : Option CostValues) (body : Body) : Prop where
  salePriceKrw : SendsNumber body "salePriceKrw" draft.salePriceKrw (base.map (·.salePriceKrw))
  productCostKrw : SendsNumber body "productCostKrw" draft.productCostKrw (base.map (·.productCostKrw))
  shippingKrw : SendsNumber body "shippingKrw" draft.shippingKrw (base.map (·.shippingKrw))
  extraCostKrw : SendsNumber body "extraCostKrw" draft.extraCostKrw (base.map (·.extraCostKrw))
  fxRateKrwPerUsd : body.get "fxRateKrwPerUsd" = none
  note : body.get "note" = if trimmedNote draft.note ≠ trimmedNote ((base.bind (·.note)).getD "") then
    some (noteJson (trimmedNote draft.note)) else none

variable {draft : MetaProductCostRuleDraft} {base : Option CostValues} {v : CostValues} {env : RuleEnv}

/-- **An accepted save stores the draft.** -/
theorem costSnapshot_stores (hs : CostSent draft base body) (h : costSnapshot env body base = .ok v) :
    CostStored draft v := by
  have hread := (costSnapshot_eq_ok h).2
  have e1 := hs.salePriceKrw.stores (hread _ (by decide))
  have e2 := hs.productCostKrw.stores (hread _ (by decide))
  have e3 := hs.shippingKrw.stores (hread _ (by decide))
  have e4 := hs.extraCostKrw.stores (hread _ (by decide))
  have e5 := storesNote_noteOr hs.note
  rw [(costSnapshot_eq_ok h).1]
  cases base with
  | none | some b => exact ⟨e1, e2, e3, e4, e5⟩

variable {old : CostValues}

/-- **An accepted correction stores the draft.** -/
theorem costCorrection_stores (hs : CostSent draft (some old) body) (h : costCorrection body old = .ok v) :
    CostStored draft v := by
  obtain ⟨rfl, hread⟩ := costCorrection_eq_ok h
  exact ⟨hs.salePriceKrw.stores (hread _ (by decide)), hs.productCostKrw.stores (hread _ (by decide)),
    hs.shippingKrw.stores (hread _ (by decide)), hs.extraCostKrw.stores (hread _ (by decide)),
    storesNote_noteOr hs.note⟩

/-- A cost draft whose amounts are numbers that fit `Decimal(14, 2)`. -/
def CostValid (draft : MetaProductCostRuleDraft) : Prop :=
  (∃ q, ValidNumber 14 2 draft.salePriceKrw q) ∧ (∃ q, ValidNumber 14 2 draft.productCostKrw q) ∧
    (∃ q, ValidNumber 14 2 draft.shippingKrw q) ∧ ∃ q, ValidNumber 14 2 draft.extraCostKrw q

/-- The columns a save takes over without the draft fit their types: VAT and rate of the base
    rule, or the latest rate. -/
def CostFits (env : RuleEnv) : Option CostValues → Prop
  | some base => base.vatKrw.units.natAbs < 10 ^ 14 ∧ base.fxRateKrwPerUsd.units.natAbs < 10 ^ 12
  | none => (Scaled.ofRat 4 ((env.latestRate.map (·.value)).getD 0)).units.natAbs < 10 ^ 12

theorem column_of_fits {x : Scaled s} (h : x.units.natAbs < 10 ^ precision) :
    column precision s x.value = .ok x := by
  unfold column
  rw [Scaled.ofRat_value, if_pos h]

/-- One tenth of a price that fits fits. -/
theorem ValidNumber.vat (h : ValidNumber precision s text q) :
    Meta.column precision s (q * (1 / 10)) = .ok (Scaled.ofRat s (q * (1 / 10))) := by
  have hq := h.nonneg
  have hp : (0 : ℚ) < 10 ^ s := by positivity
  have hle : q * (1 / 10) * 10 ^ s + 1 / 2 ≤ q * 10 ^ s + 1 / 2 := by
    have : q * (1 / 10) ≤ q := by linarith
    have := mul_le_mul_of_nonneg_right this hp.le
    linarith
  have h0 : (0 : ℚ) ≤ q * (1 / 10) * 10 ^ s + 1 / 2 := by positivity
  have hfits := h.fits
  unfold Scaled.ofRat at hfits
  rw [if_neg (not_lt.mpr hq)] at hfits
  have hnot : ¬ q * (1 / 10) < 0 := not_lt.mpr (by linarith)
  unfold Meta.column Scaled.ofRat
  rw [if_neg hnot, if_pos]
  have h1 := Int.floor_mono hle
  have h2 := Int.floor_nonneg.mpr h0
  have h3 : (Int.floor (q * (1 / 10) * 10 ^ s + 1 / 2)).natAbs ≤ (Int.floor (q * 10 ^ s + 1 / 2)).natAbs := by
    omega
  exact lt_of_le_of_lt h3 hfits

/-- **A save of a valid draft is accepted.** -/
theorem costSnapshot_accepts (hs : CostSent draft base body) (hv : CostValid draft) (hf : CostFits env base) :
    ∃ v, costSnapshot env body base = .ok v := by
  obtain ⟨⟨q1, v1⟩, ⟨q2, v2⟩, ⟨q3, v3⟩, ⟨q4, v4⟩⟩ := hv
  obtain ⟨s1, d1, n1, -, o1⟩ := v1.accepts hs.salePriceKrw
  obtain ⟨s2, d2, n2, -, -⟩ := v2.accepts hs.productCostKrw
  obtain ⟨s3, d3, n3, -, -⟩ := v3.accepts hs.shippingKrw
  obtain ⟨s4, d4, n4, -, -⟩ := v4.accepts hs.extraCostKrw
  have n1 := numberOrBase_map n1
  have n2 := numberOrBase_map n2
  have n3 := numberOrBase_map n3
  have n4 := numberOrBase_map n4
  have hvat : ∃ x, column 14 2 (snapshotVat s1 q1 base) = .ok x := by
    have hnew : column 14 2 (q1 * (1 / 10)) = .ok (Scaled.ofRat 2 (q1 * (1 / 10))) := v1.vat
    rcases o1 with rfl | rfl
    · cases base with
      | none => exact ⟨Scaled.ofRat 2 (q1 * (1 / 10)), hnew⟩
      | some b => exact ⟨b.vatKrw, column_of_fits hf.1⟩
    · cases base with
      | none | some b => exact ⟨Scaled.ofRat 2 (q1 * (1 / 10)), hnew⟩
  have hrate : ∃ n x, baseFxRate env body base = .ok n ∧ column 12 4 n = .ok x := by
    cases base with
    | some b =>
      have hfits : b.fxRateKrwPerUsd.units.natAbs < 10 ^ 12 := hf.2
      exact ⟨b.fxRateKrwPerUsd.value, b.fxRateKrwPerUsd, rfl, column_of_fits hfits⟩
    | none =>
      refine ⟨(env.latestRate.map (·.value)).getD 0,
        Scaled.ofRat 4 ((env.latestRate.map (·.value)).getD 0), ?_, ?_⟩
      · unfold baseFxRate
        rw [hs.fxRateKrwPerUsd]
        rfl
      · exact if_pos hf
  obtain ⟨vat, hvat⟩ := hvat
  obtain ⟨n, rate, hn, hrate⟩ := hrate
  refine exists_bind_eq_ok d1 (exists_bind_eq_ok n1 ?_)
  refine exists_bind_eq_ok d2 (exists_bind_eq_ok n2 ?_)
  refine exists_bind_eq_ok d3 (exists_bind_eq_ok n3 (exists_bind_eq_ok d4 (exists_bind_eq_ok n4 ?_)))
  refine exists_bind_eq_ok hn (exists_bind_eq_ok v1.column (exists_bind_eq_ok hvat ?_))
  refine exists_bind_eq_ok v2.column (exists_bind_eq_ok v3.column (exists_bind_eq_ok v4.column ?_))
  exact exists_bind_eq_ok hrate ⟨_, rfl⟩

/-- **A correction to a valid draft is accepted.** -/
theorem costCorrection_accepts (hs : CostSent draft (some old) body) (hv : CostValid draft) :
    ∃ v, costCorrection body old = .ok v := by
  obtain ⟨⟨q1, v1⟩, ⟨q2, v2⟩, ⟨q3, v3⟩, ⟨q4, v4⟩⟩ := hv
  obtain ⟨s1, d1, -, c1, o1⟩ := v1.accepts hs.salePriceKrw
  obtain ⟨s2, d2, -, c2, -⟩ := v2.accepts hs.productCostKrw
  obtain ⟨s3, d3, -, c3, -⟩ := v3.accepts hs.shippingKrw
  obtain ⟨s4, d4, -, c4, -⟩ := v4.accepts hs.extraCostKrw
  obtain ⟨x1, c1⟩ := c1 _ rfl
  obtain ⟨x2, c2⟩ := c2 _ rfl
  obtain ⟨x3, c3⟩ := c3 _ rfl
  obtain ⟨x4, c4⟩ := c4 _ rfl
  have hvat : ∃ x, columnOr 14 2 (s1.map (· * (1 / 10))) old.vatKrw = .ok x := by
    rcases o1 with rfl | rfl
    · exact ⟨old.vatKrw, rfl⟩
    · exact ⟨Scaled.ofRat 2 (q1 * (1 / 10)), v1.vat⟩
  have hrate : decimalIfPresent body "fxRateKrwPerUsd" = .ok none := by
    unfold decimalIfPresent hasProvidedField Body.has
    rw [hs.fxRateKrwPerUsd]
    rfl
  obtain ⟨vat, hvat⟩ := hvat
  refine exists_bind_eq_ok d1 ?_
  refine exists_bind_eq_ok d2 (exists_bind_eq_ok d3 (exists_bind_eq_ok d4 ?_))
  refine exists_bind_eq_ok hrate (exists_bind_eq_ok c1 (exists_bind_eq_ok hvat ?_))
  refine exists_bind_eq_ok c2 (exists_bind_eq_ok c3 (exists_bind_eq_ok c4 ?_))
  exact exists_bind_eq_ok (rfl : columnOr 12 4 none old.fxRateKrwPerUsd = .ok _) ⟨_, rfl⟩

/-! ## 5. CPA rules -/

structure CpaStored (draft : MetaProductCpaRuleDraft) (v : CpaValues) : Prop where
  targetRatio : StoresNumber draft.targetRatio v.targetRatio
  watchRatio : StoresNumber draft.watchRatio v.watchRatio
  stopRatio : StoresNumber draft.stopRatio v.stopRatio
  note : StoresNote draft.note v.note

structure CpaSent (draft : MetaProductCpaRuleDraft) (base : Option CpaValues) (body : Body) : Prop where
  targetRatio : SendsNumber body "targetRatio" draft.targetRatio (base.map (·.targetRatio))
  watchRatio : SendsNumber body "watchRatio" draft.watchRatio (base.map (·.watchRatio))
  stopRatio : SendsNumber body "stopRatio" draft.stopRatio (base.map (·.stopRatio))
  note : body.get "note" = if trimmedNote draft.note ≠ trimmedNote ((base.bind (·.note)).getD "") then
    some (noteJson (trimmedNote draft.note)) else none

/-- **An accepted save stores the draft.** -/
theorem cpaSnapshot_stores {draft : MetaProductCpaRuleDraft} (env : RuleEnv)
    {base : Option CpaValues} {v : CpaValues} (hs : CpaSent draft base body)
    (h : cpaSnapshot env body base = .ok v) : CpaStored draft v := by
  have hread := (cpaSnapshot_eq_ok h).2
  have e1 := hs.targetRatio.stores (hread _ (by decide))
  have e2 := hs.watchRatio.stores (hread _ (by decide))
  have e3 := hs.stopRatio.stores (hread _ (by decide))
  have e4 := storesNote_noteOr hs.note
  rw [(cpaSnapshot_eq_ok h).1]
  cases base with
  | none | some b => exact ⟨e1, e2, e3, e4⟩

/-- **An accepted correction stores the draft.** -/
theorem cpaCorrection_stores {draft : MetaProductCpaRuleDraft} {old v : CpaValues}
    (hs : CpaSent draft (some old) body) (h : cpaCorrection body old = .ok v) :
    CpaStored draft v := by
  obtain ⟨rfl, hread⟩ := cpaCorrection_eq_ok h
  exact ⟨hs.targetRatio.stores (hread _ (by decide)), hs.watchRatio.stores (hread _ (by decide)),
    hs.stopRatio.stores (hread _ (by decide)), storesNote_noteOr hs.note⟩

/-- A CPA draft whose ratios are numbers that fit `Decimal(6, 4)`. -/
def CpaValid (draft : MetaProductCpaRuleDraft) : Prop :=
  (∃ q, ValidNumber 6 4 draft.targetRatio q) ∧ (∃ q, ValidNumber 6 4 draft.watchRatio q) ∧
    ∃ q, ValidNumber 6 4 draft.stopRatio q

/-- **A save of a valid draft is accepted.** -/
theorem cpaSnapshot_accepts {draft : MetaProductCpaRuleDraft} (env : RuleEnv)
    {base : Option CpaValues} (hs : CpaSent draft base body) (hv : CpaValid draft) :
    ∃ v, cpaSnapshot env body base = .ok v := by
  obtain ⟨⟨q1, v1⟩, ⟨q2, v2⟩, ⟨q3, v3⟩⟩ := hv
  obtain ⟨s1, d1, n1, -, -⟩ := v1.accepts hs.targetRatio
  obtain ⟨s2, d2, n2, -, -⟩ := v2.accepts hs.watchRatio
  obtain ⟨s3, d3, n3, -, -⟩ := v3.accepts hs.stopRatio
  have n1 := numberOrBase_map n1
  have n2 := numberOrBase_map n2
  have n3 := numberOrBase_map n3
  refine exists_bind_eq_ok d1 (exists_bind_eq_ok n1 (exists_bind_eq_ok d2 (exists_bind_eq_ok n2 ?_)))
  refine exists_bind_eq_ok d3 (exists_bind_eq_ok n3 (exists_bind_eq_ok v1.column ?_))
  exact exists_bind_eq_ok v2.column (exists_bind_eq_ok v3.column ⟨_, rfl⟩)

/-- **A correction to a valid draft is accepted.** -/
theorem cpaCorrection_accepts {draft : MetaProductCpaRuleDraft} {old : CpaValues}
    (hs : CpaSent draft (some old) body) (hv : CpaValid draft) :
    ∃ v, cpaCorrection body old = .ok v := by
  obtain ⟨⟨q1, v1⟩, ⟨q2, v2⟩, ⟨q3, v3⟩⟩ := hv
  obtain ⟨s1, d1, -, c1, -⟩ := v1.accepts hs.targetRatio
  obtain ⟨s2, d2, -, c2, -⟩ := v2.accepts hs.watchRatio
  obtain ⟨s3, d3, -, c3, -⟩ := v3.accepts hs.stopRatio
  obtain ⟨x1, c1⟩ := c1 _ rfl
  obtain ⟨x2, c2⟩ := c2 _ rfl
  obtain ⟨x3, c3⟩ := c3 _ rfl
  refine exists_bind_eq_ok d1 (exists_bind_eq_ok d2 (exists_bind_eq_ok d3 ?_))
  exact exists_bind_eq_ok c1 (exists_bind_eq_ok c2 (exists_bind_eq_ok c3 ⟨_, rfl⟩))

/-! ## 6. What a correction may throw -/

/-- The codes of a column or a number that is refused. -/
def IsNumberError (e : RuleError) : Prop := e.code = "INVALID_NUMBER" ∨ e.code = "22003"

theorem throws_decimal (value : Option Json) (field : String) :
    Throws IsNumberError (decimal value field) := by
  have hinvalid : Throws IsNumberError (refuse "INVALID_NUMBER" (field ++ " 숫자 값이 올바르지 않습니다.") :
      Except RuleError ℚ) := Throws.error (.inl rfl)
  unfold decimal
  split
  · exact hinvalid
  · exact hinvalid
  · exact hinvalid
  · split
    · exact hinvalid
    · split
      · exact hinvalid
      · split
        · exact hinvalid
        · exact Throws.ok _ _

theorem throws_decimalIfPresent (body : Body) (field : String) :
    Throws IsNumberError (decimalIfPresent body field) := by
  unfold decimalIfPresent
  split
  · exact (throws_decimal _ _).map
  · exact Throws.ok _ _

theorem throws_columnOr (precision : Nat) (q : Option ℚ) (old : Scaled s) :
    Throws IsNumberError (columnOr precision s q old) := by
  unfold columnOr
  split
  · unfold column
    split
    · exact Throws.ok _ _
    · exact Throws.error (.inr rfl)
  · exact Throws.ok _ _

theorem throws_costCorrection (body : Body) (old : CostValues) :
    Throws IsNumberError (costCorrection body old) := by
  refine (throws_decimalIfPresent _ _).bind fun _ => ?_
  refine (throws_decimalIfPresent _ _).bind fun _ => (throws_decimalIfPresent _ _).bind fun _ => ?_
  refine (throws_decimalIfPresent _ _).bind fun _ => (throws_decimalIfPresent _ _).bind fun _ => ?_
  refine (throws_columnOr _ _ _).bind fun _ => (throws_columnOr _ _ _).bind fun _ => ?_
  refine (throws_columnOr _ _ _).bind fun _ => (throws_columnOr _ _ _).bind fun _ => ?_
  exact (throws_columnOr _ _ _).bind fun _ => (throws_columnOr _ _ _).bind fun _ => Throws.ok _ _

theorem throws_cpaCorrection (body : Body) (old : CpaValues) :
    Throws IsNumberError (cpaCorrection body old) := by
  refine (throws_decimalIfPresent _ _).bind fun _ => ?_
  refine (throws_decimalIfPresent _ _).bind fun _ => (throws_decimalIfPresent _ _).bind fun _ => ?_
  refine (throws_columnOr _ _ _).bind fun _ => (throws_columnOr _ _ _).bind fun _ => ?_
  exact (throws_columnOr _ _ _).bind fun _ => Throws.ok _ _

/-! ## 7. The bodies of the forms -/

section Forms

variable {mode : MetaProductRulePayloadMode} {start : String}

/-- The numeric fields of the forms. -/
def costFields : List (String × (MetaProductCostRuleDraft → String)) :=
  [("salePriceKrw", (·.salePriceKrw)), ("productCostKrw", (·.productCostKrw)),
    ("shippingKrw", (·.shippingKrw)), ("extraCostKrw", (·.extraCostKrw))]

def cpaFields : List (String × (MetaProductCpaRuleDraft → String)) :=
  [("targetRatio", (·.targetRatio)), ("watchRatio", (·.watchRatio)), ("stopRatio", (·.stopRatio))]

theorem costFields_names : FieldNames costFields := ⟨by decide, by decide, by decide⟩

theorem cpaFields_names : FieldNames cpaFields := ⟨by decide, by decide, by decide⟩

variable {τ : Type}

/-- A number is sent when its text is not the text of the column. -/
theorem sendsNumber_of_payload {ρ : Type} {effectiveFrom note : τ → String}
    {fields : List (String × (τ → String))} {draft : τ} {source : Option ρ} {shown : ρ → τ} {values : ρ → ν}
    (column : ν → Scaled s) (h : FieldNames fields) {field : String × (τ → String)}
    (hfield : field ∈ fields) (hshown : ∀ r, field.2 (shown r) = (column (values r)).text) :
    SendsNumber (changedRulePayload effectiveFrom note fields draft (source.map shown) mode) field.1
      (field.2 draft) ((source.map values).map column) := by
  unfold SendsNumber
  rw [payload_number h hfield]
  unfold isChanged
  cases source with
  | none => rfl
  | some r =>
    simp only [Option.map_some, Option.all_some, hshown]

theorem note_of_payload {effectiveFrom note : τ → String} {fields : List (String × (τ → String))}
    {draft : τ} {source : Option ν} {shown : ν → τ} {column : ν → Option String} (h : FieldNames fields)
    (hshown : ∀ r, note (shown r) = (column r).getD "") :
    Body.get (changedRulePayload effectiveFrom note fields draft (source.map shown) mode) "note" =
      if trimmedNote (note draft) ≠ trimmedNote ((source.bind column).getD "") then
        some (noteJson (trimmedNote (note draft)))
      else none := by
  rw [payload_note h]
  cases source with
  | none => rfl
  | some r =>
    simp only [Option.map_some, Option.bind_some, hshown]

theorem costSent_payload (draft : MetaProductCostRuleDraft) (source : Option (ProductRule CostValues))
    (start : String) (mode : MetaProductRulePayloadMode) :
    CostSent draft (source.map (·.values)) (metaProductCostRulePayload draft
      (source.map fun r => costRuleDraft (some (ruleJson costTexts r)) start) mode) where
  salePriceKrw := sendsNumber_of_payload CostValues.salePriceKrw costFields_names (.head _) fun _ => rfl
  productCostKrw := sendsNumber_of_payload CostValues.productCostKrw costFields_names
    (.tail _ (.head _)) fun _ => rfl
  shippingKrw := sendsNumber_of_payload CostValues.shippingKrw costFields_names
    (.tail _ (.tail _ (.head _))) fun _ => rfl
  extraCostKrw := sendsNumber_of_payload CostValues.extraCostKrw costFields_names
    (.tail _ (.tail _ (.tail _ (.head _)))) fun _ => rfl
  fxRateKrwPerUsd := payload_other (by decide) (by decide) (by decide)
  note := by
    rw [Option.bind_map]
    exact note_of_payload costFields_names fun _ => rfl

theorem cpaSent_payload (draft : MetaProductCpaRuleDraft) (source : Option (ProductRule CpaValues))
    (start : String) (mode : MetaProductRulePayloadMode) :
    CpaSent draft (source.map (·.values)) (metaProductCpaRulePayload draft
      (source.map fun r => cpaRuleDraft (some (ruleJson cpaTexts r)) start) mode) where
  targetRatio := sendsNumber_of_payload CpaValues.targetRatio cpaFields_names (.head _) fun _ => rfl
  watchRatio := sendsNumber_of_payload CpaValues.watchRatio cpaFields_names
    (.tail _ (.head _)) fun _ => rfl
  stopRatio := sendsNumber_of_payload CpaValues.stopRatio cpaFields_names
    (.tail _ (.tail _ (.head _))) fun _ => rfl
  note := by
    rw [Option.bind_map]
    exact note_of_payload cpaFields_names fun _ => rfl

end Forms

end AdsManagement.Web
