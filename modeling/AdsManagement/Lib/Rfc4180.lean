/-
  File:      Lib/Rfc4180.lean
  Subject:   READING COMMA-SEPARATED RECORDS: the reader of RFC 4180 as a machine over characters.

  A field that starts with a quote ends with one, and two quotes in it stand for one; elsewhere a
  quote or a line break alone is an error. A line break at the end opens no record.

  * `readCsv` -- the records of a text;
  * `Writes` -- a text that the reader takes for one field;
  * `readCsv_records` -- records of written fields, two or more each, are read back.
-/
import AdsManagement.Lib.Separated

namespace AdsManagement.Lib.Rfc4180

open List

inductive Mode where
  /-- Before a field. -/
  | start
  | plain
  | quoted
  /-- After a quote in a quoted field. -/
  | closing
  | carriage
deriving DecidableEq

structure Reader where
  records : List (List (List Char))
  fields : List (List Char)
  field : List Char
  mode : Mode

def Reader.init : Reader := ⟨[], [], [], .start⟩

/-- `[",\r\n]`. -/
def isSpecial (c : Char) : Bool := c = '"' || c = ',' || c = '\r' || c = '\n'

/-- What may follow a field. -/
def Reader.separator (r : Reader) (c : Char) : Option Reader :=
  if c = ',' then some ⟨r.records, r.fields ++ [r.field], [], .start⟩
  else if c = '\r' then some { r with mode := .carriage }
  else none

def Reader.step (r : Reader) (c : Char) : Option Reader :=
  let append (mode : Mode) : Option Reader := some { r with field := r.field ++ [c], mode := mode }
  match r.mode with
  | .start =>
    if c = '"' then some { r with mode := .quoted }
    else if isSpecial c then r.separator c
    else append .plain
  | .plain => if isSpecial c then r.separator c else append .plain
  | .quoted => if c = '"' then some { r with mode := .closing } else append .quoted
  | .closing => if c = '"' then append .quoted else r.separator c
  | .carriage =>
    if c = '\n' then some ⟨r.records ++ [r.fields ++ [r.field]], [], [], .start⟩ else none

def Reader.finish (r : Reader) : Option (List (List (List Char))) :=
  if r.mode = .quoted || r.mode = .carriage then none
  else if r.mode = .start && r.fields = [] then some r.records
  else some (r.records ++ [r.fields ++ [r.field]])

def readCsv (text : List Char) : Option (List (List (List Char))) :=
  (text.foldlM Reader.step .init).bind Reader.finish

/-! ## What is written -/

/-- Behind a field: `,` and `\r` end it, and the end of the text does. -/
def Reader.Behind (r : Reader) (records : List (List (List Char))) (fields : List (List Char))
    (field : List Char) : Prop :=
  r.records = records ∧ r.fields = fields ∧ r.field = field ∧ r.mode ≠ .quoted ∧ r.mode ≠ .carriage

/-- A text that the reader takes for one field. -/
def Writes (text field : List Char) : Prop :=
  ∀ records fields, ∃ r : Reader,
    text.foldlM Reader.step ⟨records, fields, [], .start⟩ = some r ∧ r.Behind records fields field

variable {records : List (List (List Char))} {fields : List (List Char)} {text field : List Char}

theorem writes_plain (h : ∀ c ∈ text, isSpecial c = false) : Writes text text := by
  intro records fields
  have hrun : ∀ (l front : List Char), (∀ c ∈ l, isSpecial c = false) →
      l.foldlM Reader.step ⟨records, fields, front, .plain⟩ =
        some ⟨records, fields, front ++ l, .plain⟩ := by
    intro l
    induction l with
    | nil => simp
    | cons c l ih =>
      intro front hl
      have hc : isSpecial c = false := hl c mem_cons_self
      rw [foldlM_cons, show Reader.step ⟨records, fields, front, .plain⟩ c =
        some ⟨records, fields, front ++ [c], .plain⟩ from if_neg (ne_true_of_eq_false hc)]
      exact (ih _ fun x hx => hl x (mem_cons_of_mem _ hx)).trans (by simp)
  cases text with
  | nil => exact ⟨_, rfl, rfl, rfl, rfl, by simp⟩
  | cons c l =>
    have hc : isSpecial c = false := h c mem_cons_self
    have hq : c ≠ '"' := by
      rintro rfl
      cases hc
    refine ⟨⟨records, fields, c :: l, .plain⟩, ?_, rfl, rfl, rfl, by simp⟩
    rw [foldlM_cons, show Reader.step ⟨records, fields, [], .start⟩ c =
      some ⟨records, fields, [c], .plain⟩ from (if_neg hq).trans (if_neg (ne_true_of_eq_false hc))]
    exact hrun l [c] fun x hx => h x (mem_cons_of_mem _ hx)

/-- A quoted text, each quote in it doubled. -/
theorem writes_quoted (text : List Char) : Writes
    ('"' :: text.flatMap (fun c => if c = '"' then ['"', '"'] else [c]) ++ ['"']) text := by
  intro records fields
  have hrun : ∀ l front : List Char,
      (l.flatMap fun c => if c = '"' then ['"', '"'] else [c]).foldlM Reader.step
        ⟨records, fields, front, .quoted⟩ = some ⟨records, fields, front ++ l, .quoted⟩ := by
    intro l
    induction l with
    | nil => simp
    | cons c l ih =>
      intro front
      have hc : (if c = '"' then ['"', '"'] else [c]).foldlM Reader.step
          ⟨records, fields, front, .quoted⟩ = some ⟨records, fields, front ++ [c], .quoted⟩ := by
        by_cases e : c = '"'
        · rw [e]
          rfl
        · rw [if_neg e, foldlM_cons, show Reader.step ⟨records, fields, front, .quoted⟩ c =
            some ⟨records, fields, front ++ [c], .quoted⟩ from if_neg e]
          rfl
      rw [flatMap_cons, foldlM_append, hc]
      exact (ih _).trans (by simp)
  refine ⟨⟨records, fields, text, .closing⟩, ?_, rfl, rfl, rfl, by simp⟩
  rw [cons_append, foldlM_cons, show Reader.step ⟨records, fields, [], .start⟩ '"' =
    some ⟨records, fields, [], .quoted⟩ from rfl]
  simp only [Option.bind_eq_bind, Option.bind_some, foldlM_append, hrun]
  rfl

theorem Reader.Behind.separator {r : Reader} (h : r.Behind records fields field) {c : Char}
    (hc : c = ',' ∨ c = '\r') : r.step c = r.separator c := by
  obtain ⟨-, -, -, hq, hr⟩ := h
  unfold Reader.step
  rcases hc with rfl | rfl <;> cases hm : r.mode <;> simp_all [isSpecial]

/-- A record from the fields before it on. -/
theorem run_record {texts values : List (List Char)} (h : Forall₂ Writes texts values)
    (hne : texts ≠ []) : ∀ records fields, ∃ (r : Reader) (init : List (List Char)) (last : List Char),
      (join ',' texts).foldlM Reader.step ⟨records, fields, [], .start⟩ = some r ∧
        values = init ++ [last] ∧ r.Behind records (fields ++ init) last := by
  induction h with
  | nil => exact absurd rfl hne
  | @cons text field texts values hw hrest ih =>
    intro records fields
    obtain ⟨r, hr, hb⟩ := hw records fields
    cases hrest with
    | nil =>
      refine ⟨r, [], field, ?_, rfl, by rwa [append_nil]⟩
      exact (congrArg (foldlM Reader.step _) (append_nil text)).trans hr
    | @cons text' field' texts values hw' hrest =>
      obtain ⟨s, init, last, hs, hv, hbehind⟩ := ih (cons_ne_nil _ _) records (fields ++ [field])
      refine ⟨s, field :: init, last, ?_, by rw [hv]; rfl, by simpa using hbehind⟩
      have hcomma : r.step ',' = some ⟨records, fields ++ [field], [], .start⟩ := by
        rw [hb.separator (.inl rfl)]
        obtain ⟨rfl, rfl, rfl, -, -⟩ := hb
        rfl
      rw [show join ',' (text :: text' :: texts) = text ++ ',' :: join ',' (text' :: texts) by simp [join],
        foldlM_append, hr]
      simp only [Option.bind_eq_bind, Option.bind_some, foldlM_cons, hcomma, hs]

/-- **Records of written fields are read back**, if each has at least two. -/
theorem readCsv_records {table values : List (List (List Char))}
    (h : Forall₂ (Forall₂ Writes) table values) (htwo : ∀ record ∈ values, 2 ≤ record.length)
    (hne : table ≠ []) : readCsv (['\r', '\n'].intercalate (table.map (join ','))) = some values := by
  suffices hrun : ∀ records, ((['\r', '\n'].intercalate (table.map (join ','))).foldlM Reader.step
      ⟨records, [], [], .start⟩).bind Reader.finish = some (records ++ values) from hrun []
  induction h with
  | nil => exact absurd rfl hne
  | @cons texts record table values hrow hrest ih =>
    intro records
    have hlen := htwo record mem_cons_self
    have htexts : texts ≠ [] := by
      rintro rfl
      cases hrow
      exact absurd hlen (by decide)
    obtain ⟨r, init, last, hr, hv, hb⟩ := run_record hrow htexts records []
    have hinit : init ≠ [] := by
      rintro rfl
      rw [hv] at hlen
      exact absurd hlen (by simp)
    cases hrest with
    | nil =>
      rw [map_cons, map_nil, intercalate_singleton, hr]
      obtain ⟨rfl, hfields, rfl, hq, hc⟩ := hb
      rw [nil_append] at hfields
      simp [Reader.finish, hq, hc, hfields, hinit, hv]
    | @cons texts' record' table values hrow' hrest =>
      have hcarriage : r.step '\r' = some { r with mode := .carriage } := hb.separator (.inr rfl)
      have hnewline : Reader.step { r with mode := .carriage } '\n' =
        some ⟨r.records ++ [r.fields ++ [r.field]], [], [], .start⟩ := rfl
      obtain ⟨rfl, hfields, rfl, -, -⟩ := hb
      have ih := ih (fun row hrow => htwo row (mem_cons_of_mem _ hrow)) (cons_ne_nil _ _)
        (r.records ++ [record])
      rw [map_cons, map_cons, intercalate_cons_cons, append_assoc, foldlM_append, hr]
      simp only [Option.bind_eq_bind, Option.bind_some, cons_append, nil_append,
        foldlM_cons, hcarriage, hnewline]
      rw [hfields, nil_append, ← hv, ← map_cons, ih, append_assoc]
      rfl

end AdsManagement.Lib.Rfc4180
