/-
  File:      Meta/ManualMappings.lean
  Subject:   WHICH MANUAL MAPPING WINS: the matchers take the first mapping that covers the date,
             in whatever order the database answers.

  Nothing closes the range of an earlier mapping, so ranges may overlap in every way. The newest
  covering mapping is sure to win only where no covering mapping says anything else.

  * `covers_iff` -- the comparison of texts is the comparison of days;
  * `found_in_every_order_iff` -- what the first hit of an unordered list can be;
  * `newest_mapping_wins_iff` -- after any run of requests, for products and for stages.
-/
import AdsManagement.Meta.Mappings

namespace AdsManagement.Meta

open Common Lib Coupang List

/-! ## 1. Ranges -/

/-- The dates of a mapping came out of a request. -/
structure ManualHistory.Readable {α : Type} (history : ManualHistory α) : Prop where
  effectiveFrom : ReadsBack history.effectiveFrom
  effectiveTo : ∀ e ∈ history.effectiveTo, ReadsBack e

variable {d : Int}

theorem isTruthy_formatDateOnly (h : ReadsBack d) : isTruthy (some (formatDateOnly d)) = true := by
  unfold isTruthy
  simpa using formatDateOnly_ne_empty h

variable {α : Type}
variable {history : ManualHistory α}

/-- **A mapping covers a date as a text exactly when it covers it as a day.** -/
theorem covers_iff (h : history.Readable) (hd : ReadsBack d) :
    history.covers (formatDateOnly d) = true ↔
      inRange history.effectiveFrom history.effectiveTo d = true := by
  unfold ManualHistory.covers isDateInRange inRange
  rw [isTruthy_formatDateOnly h.effectiveFrom]
  have hfrom := formatDateOnly_lt_iff hd h.effectiveFrom
  cases e : history.effectiveTo with
  | none => simp [isTruthy, hfrom]
  | some stop =>
    have hstop : ReadsBack stop := h.effectiveTo stop (by rw [e]; rfl)
    have hto := formatDateOnly_lt_iff hstop hd
    simp [isTruthy_formatDateOnly hstop, hfrom, hto]

/-- The mappings of an adset that cover a day, oldest first. -/
def coveringMappings {α : Type} (metaAdsetId : Nat) (d : Int) (histories : List (ManualHistory α)) :
    List (ManualHistory α) :=
  (ofAdset metaAdsetId histories).filter fun history => inRange history.effectiveFrom history.effectiveTo d

/-- The covering mapping that was created last. -/
def newestMapping {α : Type} (metaAdsetId : Nat) (d : Int) (histories : List (ManualHistory α)) :
    Option (ManualHistory α) :=
  (coveringMappings metaAdsetId d histories).getLast?

/-! ## 2. The first hit of an unordered list -/

section AnyOrder

variable {β : Type} [DecidableEq β]

/-- An order that answers the list `l` with `b` first. -/
def bringToFront (l : List β) (b : β) (hb : b ∈ l) : RowOrder β where
  arrange m := if m = l then b :: l.erase b else m
  perm m := by
    by_cases h : m = l
    · rw [if_pos h, h]
      exact (perm_cons_erase hb).symm
    · rw [if_neg h]

/-- **Every order finds one value exactly when the hits agree on it.** -/
theorem found_in_every_order_iff {γ : Type} {l : List β} {p : β → Bool} {value : β → γ} {w : β}
    (hw : w ∈ l) (hp : p w = true) :
    (∀ order : RowOrder β, ((order.arrange l).find? p).map value = some (value w)) ↔
      ∀ b ∈ l, p b = true → value b = value w := by
  constructor
  · intro h b hb hpb
    have hfront : (bringToFront l b hb).arrange l = b :: l.erase b := if_pos rfl
    have hfound := h (bringToFront l b hb)
    rw [hfront, find?_cons_of_pos hpb] at hfound
    exact Option.some.inj hfound
  · intro h order
    cases e : (order.arrange l).find? p with
    | none =>
      have hnot := find?_eq_none.mp e w ((order.perm l).mem_iff.mpr hw)
      exact absurd hp hnot
    | some b =>
      have hb := (order.perm l).mem_iff.mp (mem_of_find?_eq_some e)
      exact congrArg some (h b hb (find?_some e))

end AnyOrder

variable {metaAdsetId : Nat}
variable {histories : List (ManualHistory α)}

theorem mem_coveringMappings :
    history ∈ coveringMappings metaAdsetId d histories ↔
      history ∈ ofAdset metaAdsetId histories ∧
        inRange history.effectiveFrom history.effectiveTo d = true := mem_filter

/-- The same for the mappings of an adset and the days they cover. -/
theorem newest_found_iff [DecidableEq α] (hread : ∀ history ∈ histories, history.Readable)
    (hd : ReadsBack d) {newest : ManualHistory α} (hn : newestMapping metaAdsetId d histories = some newest) :
    (∀ order : RowOrder (ManualHistory α),
        ((order.arrange (ofAdset metaAdsetId histories)).find? fun history =>
          history.covers (formatDateOnly d)).map (·.value) = some newest.value) ↔
      ∀ history ∈ coveringMappings metaAdsetId d histories, history.value = newest.value := by
  have hcovers : ∀ history ∈ ofAdset metaAdsetId histories,
      (history.covers (formatDateOnly d) = true ↔ inRange history.effectiveFrom history.effectiveTo d = true) :=
    fun history hm => covers_iff (hread history (mem_filter.mp hm).1) hd
  obtain ⟨hmem, hrange⟩ := mem_coveringMappings.mp (mem_of_getLast? hn)
  rw [found_in_every_order_iff hmem ((hcovers newest hmem).mpr hrange)]
  constructor
  · intro h history hm
    obtain ⟨hm', hr⟩ := mem_coveringMappings.mp hm
    exact h history hm' ((hcovers history hm').mpr hr)
  · intro h history hm hc
    exact h history (mem_coveringMappings.mpr ⟨hm, (hcovers history hm).mp hc⟩)

/-! ## 3. Runs of requests -/

theorem mappingDates_readable {body : Body} {effectiveFrom : Int} {effectiveTo : Option Int}
    (h : mappingDates body = .ok (effectiveFrom, effectiveTo)) :
    ReadsBack effectiveFrom ∧ ∀ e ∈ effectiveTo, ReadsBack e := by
  obtain ⟨text, -, h⟩ := bind_eq_ok.mp h
  obtain ⟨start, hstart, h⟩ := bind_eq_ok.mp h
  split at h
  · cases h
    exact ⟨readsBack_of_asDateOnly hstart, fun e he => by cases he⟩
  · obtain ⟨stop, hstop, h⟩ := bind_eq_ok.mp h
    cases h
    refine ⟨readsBack_of_asDateOnly hstart, fun e he => ?_⟩
    cases he
    exact readsBack_of_asDateOnly hstop

variable {db : MappingStore}

/-- **A request that succeeds adds one mapping to one of the two histories.** -/
theorem answer_cases {db' : MappingStore} {request : MappingRequest} (h : request.answer db = .ok db') :
    (∃ history, history.Readable ∧ db'.productHistories = db.productHistories ++ [history] ∧
      db'.stageHistories = db.stageHistories) ∨
    (∃ history, history.Readable ∧ db'.stageHistories = db.stageHistories ++ [history] ∧
      db'.productHistories = db.productHistories) := by
  cases request with
  | product env body =>
    obtain ⟨productId, -, h⟩ := bind_eq_ok.mp h
    obtain ⟨⟨effectiveFrom, effectiveTo⟩, hdates, h⟩ := bind_eq_ok.mp h
    obtain ⟨⟨adsets, metaAdset⟩, -, h⟩ := bind_eq_ok.mp h
    obtain ⟨-, -, h⟩ := bind_eq_ok.mp h
    cases h
    obtain ⟨h1, h2⟩ := mappingDates_readable hdates
    exact .inl ⟨⟨db.productHistories.length, metaAdset.id, productId, effectiveFrom, effectiveTo⟩,
      ⟨h1, h2⟩, rfl, rfl⟩
  | stage env body =>
    obtain ⟨stage, -, h⟩ := bind_eq_ok.mp h
    obtain ⟨⟨effectiveFrom, effectiveTo⟩, hdates, h⟩ := bind_eq_ok.mp h
    obtain ⟨⟨adsets, metaAdset⟩, -, h⟩ := bind_eq_ok.mp h
    cases h
    obtain ⟨h1, h2⟩ := mappingDates_readable hdates
    exact .inr ⟨⟨db.stageHistories.length, metaAdset.id, stage, effectiveFrom, effectiveTo⟩,
      ⟨h1, h2⟩, rfl, rfl⟩

/-- Every mapping of the two histories has dates that a request can name. -/
structure ReadableHistories (db : MappingStore) : Prop where
  products : ∀ history ∈ db.productHistories, history.Readable
  stages : ∀ history ∈ db.stageHistories, history.Readable

theorem ReadableHistories.run (h : ReadableHistories db) (request : MappingRequest) :
    ReadableHistories (request.run db) := by
  unfold MappingRequest.run
  split
  · rename_i db' e
    rcases answer_cases e with ⟨history, hr, hp, hs⟩ | ⟨history, hr, hs, hp⟩
    · refine ⟨fun x hx => ?_, fun x hx => h.stages x (hs ▸ hx)⟩
      rw [hp] at hx
      rcases mem_append.mp hx with hx | hx
      · exact h.products x hx
      · rw [mem_singleton.mp hx]
        exact hr
    · refine ⟨fun x hx => h.products x (hp ▸ hx), fun x hx => ?_⟩
      rw [hs] at hx
      rcases mem_append.mp hx with hx | hx
      · exact h.stages x hx
      · rw [mem_singleton.mp hx]
        exact hr
  · exact h

theorem ReadableHistories.runRequests (h : ReadableHistories db) (requests : List MappingRequest) :
    ReadableHistories (runRequests requests db) := by
  induction requests generalizing db with
  | nil => exact h
  | cons request rest ih => exact ih (h.run request)

/-! ## 4. The newest mapping -/

def identityOrder {α : Type} : RowOrder α := ⟨fun l => l, fun l => Perm.refl l⟩

/-- An environment that answers in the order of creation. -/
def plainMappingEnv : MappingEnv where
  now := 0
  toLowerCase := String.toLower
  toUpperCase := String.toUpper
  regexTest := fun pattern text => includesText text.toList pattern
  order := ⟨fun l => l, fun l => Perm.refl l, fun l => l, fun l => Perm.refl l⟩
  productHistories := identityOrder
  stageHistories := identityOrder
  rules := identityOrder

variable {adsetName : String} {env : MappingEnv}

theorem matchProduct_eq_manual_iff {productId : String} :
    matchProduct env db metaAdsetId adsetName d = ⟨some productId, .MANUAL, none⟩ ↔
      ((env.productHistories.arrange (ofAdset metaAdsetId db.productHistories)).find? fun history =>
        history.covers (formatDateOnly d)).map (·.value) = some productId := by
  unfold matchProduct matchAdsetProduct
  simp only
  split
  · rename_i manual e
    rw [e]
    simp
  · rename_i e
    rw [e]
    refine ⟨fun h => ?_, fun h => by cases h⟩
    split at h <;> cases h

theorem matchStage_eq_manual_iff {stage : AdStage} :
    matchStage env db metaAdsetId adsetName d = ⟨stage, .MANUAL⟩ ↔
      ((env.stageHistories.arrange (ofAdset metaAdsetId db.stageHistories)).find? fun history =>
        history.covers (formatDateOnly d)).map (·.value) = some stage := by
  unfold matchStage matchAdsetStage
  simp only
  split
  · rename_i manual e
    rw [e]
    simp
  · rename_i e
    rw [e]
    refine ⟨fun h => ?_, fun h => by cases h⟩
    split_ifs at h <;> cases h

/-- The product matcher finds the newest mapping of the adset for the day, however the rows come. -/
def NewestProductWins (db : MappingStore) (metaAdsetId : Nat) (d : Int) : Prop :=
  ∀ newest, newestMapping metaAdsetId d db.productHistories = some newest →
    ∀ (env : MappingEnv) (adsetName : String),
      matchProduct env db metaAdsetId adsetName d = ⟨some newest.value, .MANUAL, none⟩

def NewestStageWins (db : MappingStore) (metaAdsetId : Nat) (d : Int) : Prop :=
  ∀ newest, newestMapping metaAdsetId d db.stageHistories = some newest →
    ∀ (env : MappingEnv) (adsetName : String),
      matchStage env db metaAdsetId adsetName d = ⟨newest.value, .MANUAL⟩

/-- All mappings of the adset that cover the day say the same. -/
def CoveringAgree {α : Type} (metaAdsetId : Nat) (d : Int) (histories : List (ManualHistory α)) : Prop :=
  ∀ a ∈ coveringMappings metaAdsetId d histories, ∀ b ∈ coveringMappings metaAdsetId d histories,
    a.value = b.value

theorem coveringAgree_iff :
    CoveringAgree metaAdsetId d histories ↔ ∀ newest, newestMapping metaAdsetId d histories = some newest →
      ∀ a ∈ coveringMappings metaAdsetId d histories, a.value = newest.value := by
  constructor
  · intro h newest hn a ha
    exact h a ha newest (mem_of_getLast? hn)
  · intro h a ha b hb
    cases hn : newestMapping metaAdsetId d histories with
    | none =>
      rw [getLast?_eq_none_iff.mp hn] at ha
      cases ha
    | some newest => rw [h newest hn a ha, h newest hn b hb]

/-- **The newest mapping wins exactly where the covering mappings agree.** -/
theorem newest_mapping_wins_iff (requests : List MappingRequest) (db : MappingStore)
    (hp : db.productHistories = []) (hs : db.stageHistories = []) (metaAdsetId : Nat) (d : Int)
    (hd : ReadsBack d) :
    (NewestProductWins (runRequests requests db) metaAdsetId d ↔
      CoveringAgree metaAdsetId d (runRequests requests db).productHistories) ∧
    (NewestStageWins (runRequests requests db) metaAdsetId d ↔
      CoveringAgree metaAdsetId d (runRequests requests db).stageHistories) := by
  have hstart : ReadableHistories db := ⟨by simp [hp], by simp [hs]⟩
  have hread := hstart.runRequests requests
  rw [coveringAgree_iff, coveringAgree_iff]
  constructor
  · refine forall_congr' fun newest => forall_congr' fun hn => ?_
    rw [← newest_found_iff hread.products hd hn]
    refine ⟨fun h order => ?_, fun h env adsetName => matchProduct_eq_manual_iff.mpr (h env.productHistories)⟩
    exact matchProduct_eq_manual_iff.mp (h { plainMappingEnv with productHistories := order } "")
  · refine forall_congr' fun newest => forall_congr' fun hn => ?_
    rw [← newest_found_iff hread.stages hd hn]
    refine ⟨fun h order => ?_, fun h env adsetName => matchStage_eq_manual_iff.mpr (h env.stageHistories)⟩
    exact matchStage_eq_manual_iff.mp (h { plainMappingEnv with stageHistories := order } "")

/-! ## 5. A sample -/

/-- One adset and two products, no mapping yet. -/
def unmappedStore : MappingStore where
  store := { emptyStore with adsets := ⟨[unseenAdset none "s" "s" 0 0], 1⟩ }
  productHistories := []
  stageHistories := []
  rules := []
  products := [⟨"p", true⟩, ⟨"q", true⟩]

def mapTo (productId effectiveFrom : String) : MappingRequest :=
  .product plainMappingEnv [("productId", .str productId), ("effectiveFrom", .str effectiveFrom),
    ("metaAdsetId", .str "0")]

/-- Two open ranges: the adset is mapped to `p`, a day later to `q`. -/
def overlapping : MappingStore := runRequests [mapTo "p" "2026-01-01", mapTo "q" "2026-01-02"] unmappedStore

theorem newest_mapping_wins_first_day :
    CoveringAgree 0 20454 overlapping.productHistories ∧ NewestProductWins overlapping 0 20454 := by
  have hagree : CoveringAgree 0 20454 overlapping.productHistories := by
    unfold CoveringAgree
    decide +kernel
  exact ⟨hagree, (newest_mapping_wins_iff _ unmappedStore rfl rfl 0 20454 ⟨by decide, by decide⟩).1.mpr hagree⟩

/-- On the second day the older mapping is found, although the newer one covers the day too. -/
theorem older_mapping_found :
    ¬ ∀ (requests : List MappingRequest) (db : MappingStore), db.productHistories = [] →
      db.stageHistories = [] → ∀ (metaAdsetId : Nat) (d : Int), ReadsBack d →
        NewestProductWins (runRequests requests db) metaAdsetId d ∧
          NewestStageWins (runRequests requests db) metaAdsetId d := by
  intro h
  have hwins := (h [mapTo "p" "2026-01-01", mapTo "q" "2026-01-02"] unmappedStore rfl rfl 0 20455
    ⟨by decide, by decide⟩).1
  have hnewest : newestMapping 0 20455 overlapping.productHistories =
      some ⟨1, 0, "q", 20455, none⟩ := by decide +kernel
  have hfound : matchProduct plainMappingEnv overlapping 0 "s" 20455 = ⟨some "p", .MANUAL, none⟩ := by
    decide +kernel
  have hq := hwins _ hnewest plainMappingEnv "s"
  rw [show runRequests _ unmappedStore = overlapping from rfl, hfound] at hq
  exact absurd hq (by decide)

end AdsManagement.Meta
