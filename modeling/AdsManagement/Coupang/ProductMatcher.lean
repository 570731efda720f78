/-
  File:      Coupang/ProductMatcher.lean
  Subject:   THE COUPANG PRODUCT MATCHER: `CoupangProductMatcher.matchText`
             (domain/coupang-product-matcher.ts), which names the product of a text.

  `toLowerCase` and `localeCompare` follow Unicode tables and are parameters; nothing is assumed
  of them, except where the order of the candidates' labels is spoken of.

  * `collectCandidates_eq` -- the loop over the rules keeps those that match and counts those an
    exclude keyword stops;
  * `perm_tied` -- the tied candidates are the eligible rules no other is ranked before;
  * `matchText_best` -- which rule a text is given, when none, and that the order of the rules
    plays no part.
-/
import Mathlib.Data.Prod.Lex
import AdsManagement.Coupang.SalesFacts
import AdsManagement.Coupang.Rows
import AdsManagement.Lib.RankedChoice

namespace AdsManagement.Coupang.ProductMatcher

open Common Lib List

/-! ## 1. Rules -/

/-- `string | Date`. -/
inductive DateInput where
  | text (value : String)
  | date (value : Int)

structure CoupangRuleInput where
  id : String
  productId : String
  displayName : Option String
  includeKeywords : List String
  excludeKeywords : List String
  priority : Int
  validFrom : Option DateInput
  validTo : Option DateInput
  isActive : Option Bool

/-- `!value`: an empty text counts as no date. -/
def DateInput.given : Option DateInput → Option DateInput
  | some (.text "") => none
  | value => value

def DateInput.key : DateInput → String
  | .text value => String.ofList (value.toList.take 10)
  | .date value => formatDateOnly value

def dateKeyOrNull (value : Option DateInput) : Option String :=
  (DateInput.given value).map DateInput.key

def isRuleEffective (rule : CoupangRuleInput) (date : Option DateInput) : Bool :=
  match DateInput.given date with
  | none => true
  | some date =>
    let dateKey := date.key
    ((dateKeyOrNull rule.validFrom).all fun validFrom => validFrom ≤ dateKey) &&
      (dateKeyOrNull rule.validTo).all fun validTo => validTo ≥ dateKey

/-- `rule.displayName?.trim() || rule.id`. -/
def ruleLabel (rule : CoupangRuleInput) : String :=
  (orText (rule.displayName.map trim) (some rule.id)).getD ""

inductive CoupangMatchSource where
  | RULE
  | UNMATCHED
deriving DecidableEq

structure MatchTextResult extends CoupangMatchResult where
  source : CoupangMatchSource

def unmatched (reason : CoupangMatchReason) (candidates : List String) : MatchTextResult where
  productId := none
  source := .UNMATCHED
  matchRuleId := none
  reason := reason
  candidates := candidates

structure MatchCandidate where
  rule : CoupangRuleInput
  includeCount : Nat
  includeLength : Nat

section Source

variable (toLowerCase : String → String) (localeCompare : String → String → Int)

/-- `String(value ?? "").trim().split(/\s+/).join("").toLowerCase()`: what is split at the white
    space and joined again has lost it. -/
def normalizeCoupangText (value : String) : String :=
  toLowerCase (String.ofList ((trimChars value.toList).filter fun c => !isJsSpace c))

def uniqueNormalized (values : List String) : List String :=
  ((values.map (normalizeCoupangText toLowerCase)).filter (· != "")).eraseDups

structure RuleMatch where
  excluded : Bool
  matched : Bool
  includeKeywords : List String

def matchRule (normalizedTarget : String) (rule : CoupangRuleInput) : RuleMatch :=
  let includeKeywords := uniqueNormalized toLowerCase rule.includeKeywords
  let excludeKeywords := uniqueNormalized toLowerCase rule.excludeKeywords
  let excluded := excludeKeywords.any fun keyword => includesText normalizedTarget.toList keyword
  let matched := !excluded && decide (includeKeywords.length > 0) &&
    includeKeywords.all fun keyword => includesText normalizedTarget.toList keyword
  { excluded, matched, includeKeywords }

/-- One turn of the loop over the rules: the candidates and the number of excluded rules. -/
def collectCandidate (target : String) (state : List MatchCandidate × Nat)
    (rule : CoupangRuleInput) : List MatchCandidate × Nat :=
  let found := matchRule toLowerCase target rule
  let excludedCount := if found.excluded then state.2 + 1 else state.2
  if found.matched then
    (state.1 ++ [{ rule, includeCount := found.includeKeywords.length,
                   includeLength := (found.includeKeywords.map fun k => utf16Length k.toList).sum }],
      excludedCount)
  else (state.1, excludedCount)

def compareCandidates (a b : MatchCandidate) : Int :=
  if a.rule.priority - b.rule.priority ≠ 0 then a.rule.priority - b.rule.priority
  else if (b.includeCount : Int) - a.includeCount ≠ 0 then (b.includeCount : Int) - a.includeCount
  else if (b.includeLength : Int) - a.includeLength ≠ 0 then (b.includeLength : Int) - a.includeLength
  else localeCompare (ruleLabel a.rule) (ruleLabel b.rule)

def matchText (text : String) (rules : List CoupangRuleInput) (date : Option DateInput) :
    MatchTextResult :=
  let target := normalizeCoupangText toLowerCase text
  let activeRules := (rules.filter fun rule => decide (rule.isActive ≠ some false)).filter
    fun rule => isRuleEffective rule date
  let (candidates, excludedCount) := activeRules.foldl (collectCandidate toLowerCase target) ([], 0)
  match candidates.insertionSort fun a b => compareCandidates localeCompare a b ≤ 0 with
  | [] => unmatched (if excludedCount > 0 then .EXCLUDED_BY_KEYWORD else .NO_MATCH) []
  | best :: rest =>
    let tied := (best :: rest).filter fun candidate =>
      decide (candidate.rule.priority = best.rule.priority) &&
        decide (candidate.includeCount = best.includeCount) &&
        decide (candidate.includeLength = best.includeLength)
    if tied.length > 1 then
      unmatched .AMBIGUOUS_MATCH (tied.map fun candidate => ruleLabel candidate.rule)
    else
      { productId := some best.rule.productId
        source := .RULE
        matchRuleId := some best.rule.id
        reason := .MATCHED
        candidates := [ruleLabel best.rule] }

/-- The matcher as the import of ad rows calls it, for rules it has read. -/
def matcher (rules : List CoupangRuleInput) : MatchText := fun text date =>
  (matchText toLowerCase localeCompare text rules (date.map .date)).toCoupangMatchResult

end Source

/-! ## 2. Eligible rules and their rank -/

section Spec

variable (toLowerCase : String → String) (localeCompare : String → String → Int)

/-- A rule that may name the product of a text on a date. -/
structure Eligible (text : String) (date : Option DateInput) (rule : CoupangRuleInput) : Prop where
  active : rule.isActive ≠ some false
  effective : isRuleEffective rule date = true
  notExcluded : ∀ keyword ∈ uniqueNormalized toLowerCase rule.excludeKeywords,
    includesText (normalizeCoupangText toLowerCase text).toList keyword = false
  hasKeyword : uniqueNormalized toLowerCase rule.includeKeywords ≠ []
  included : ∀ keyword ∈ uniqueNormalized toLowerCase rule.includeKeywords,
    includesText (normalizeCoupangText toLowerCase text).toList keyword = true

variable {rule : CoupangRuleInput}

theorem matchRule_matched_iff {target : String} :
    (matchRule toLowerCase target rule).matched = true ↔
      (∀ keyword ∈ uniqueNormalized toLowerCase rule.excludeKeywords,
        includesText target.toList keyword = false) ∧
      uniqueNormalized toLowerCase rule.includeKeywords ≠ [] ∧
      ∀ keyword ∈ uniqueNormalized toLowerCase rule.includeKeywords,
        includesText target.toList keyword = true := by
  simp only [matchRule, Bool.and_eq_true, Bool.not_eq_true', any_eq_false, all_eq_true,
    decide_eq_true_eq, length_pos_iff, and_assoc, Bool.not_eq_true]

theorem eligible_iff {text : String} {date : Option DateInput} :
    Eligible toLowerCase text date rule ↔ rule.isActive ≠ some false ∧
      isRuleEffective rule date = true ∧
      (matchRule toLowerCase (normalizeCoupangText toLowerCase text) rule).matched = true := by
  rw [matchRule_matched_iff]
  exact ⟨fun h => ⟨h.active, h.effective, h.notExcluded, h.hasKeyword, h.included⟩,
    fun ⟨h1, h2, h3, h4, h5⟩ => ⟨h1, h2, h3, h4, h5⟩⟩

instance (text : String) (date : Option DateInput) (rule : CoupangRuleInput) :
    Decidable (Eligible toLowerCase text date rule) :=
  decidable_of_iff _ (eligible_iff toLowerCase).symm

def eligibleRules (text : String) (rules : List CoupangRuleInput) (date : Option DateInput) :
    List CoupangRuleInput :=
  rules.filter fun rule => decide (Eligible toLowerCase text date rule)

/-- Priority ascending, then the number and the length of the include keywords descending. -/
def ruleRank (rule : CoupangRuleInput) : ℤ ×ₗ ℤ ×ₗ ℤ :=
  let keywords := uniqueNormalized toLowerCase rule.includeKeywords
  toLex (rule.priority, toLex (-(keywords.length : ℤ),
    -((keywords.map fun k => utf16Length k.toList).sum : ℤ)))

section

variable (text : String) (rules : List CoupangRuleInput) (date : Option DateInput)

/-- A rule ranked strictly before every other eligible rule. -/
def StrictlyBest (rule : CoupangRuleInput) : Prop :=
  ∃ others, (eligibleRules toLowerCase text rules date).Perm (rule :: others) ∧
    ∀ other ∈ others, ruleRank toLowerCase rule < ruleRank toLowerCase other

/-- The best rank is the rank of two eligible rules or more, of one product or of several. -/
def BestShared : Prop :=
  ∃ rule twin others, (eligibleRules toLowerCase text rules date).Perm (rule :: twin :: others) ∧
    ruleRank toLowerCase rule = ruleRank toLowerCase twin ∧
    ∀ other ∈ others, ruleRank toLowerCase rule ≤ ruleRank toLowerCase other

end

/-- The result that names the product of a rule. -/
def matchedBy (rule : CoupangRuleInput) : MatchTextResult where
  productId := some rule.productId
  source := .RULE
  matchRuleId := some rule.id
  reason := .MATCHED
  candidates := [ruleLabel rule]

/-! ## 3. The loop over the rules -/

def candidateOf (rule : CoupangRuleInput) : MatchCandidate :=
  let keywords := uniqueNormalized toLowerCase rule.includeKeywords
  { rule, includeCount := keywords.length,
    includeLength := (keywords.map fun k => utf16Length k.toList).sum }

def candidateRank (candidate : MatchCandidate) : ℤ ×ₗ ℤ ×ₗ ℤ :=
  toLex (candidate.rule.priority,
    toLex (-(candidate.includeCount : ℤ), -(candidate.includeLength : ℤ)))

def activeRules (rules : List CoupangRuleInput) (date : Option DateInput) : List CoupangRuleInput :=
  (rules.filter fun rule => decide (rule.isActive ≠ some false)).filter
    fun rule => isRuleEffective rule date

def excludedRules (target : String) (rules : List CoupangRuleInput) (date : Option DateInput) :
    List CoupangRuleInput :=
  (activeRules rules date).filter fun rule => (matchRule toLowerCase target rule).excluded

theorem collectCandidate_eq (target : String) (found : List MatchCandidate) (count : Nat)
    (rule : CoupangRuleInput) :
    collectCandidate toLowerCase target (found, count) rule =
      (found ++ if (matchRule toLowerCase target rule).matched then [candidateOf toLowerCase rule]
          else [],
        count + if (matchRule toLowerCase target rule).excluded then 1 else 0) := by
  have hcount : (if (matchRule toLowerCase target rule).excluded then count + 1 else count) =
      count + if (matchRule toLowerCase target rule).excluded then 1 else 0 := by
    split
    · rfl
    · rfl
  unfold collectCandidate
  by_cases hm : (matchRule toLowerCase target rule).matched = true
  · rw [if_pos hm, if_pos hm, ← hcount]
    rfl
  · rw [if_neg hm, if_neg hm, append_nil, ← hcount]

/-- **What the loop collects.** -/
theorem collectCandidates_eq (target : String) (rules : List CoupangRuleInput) :
    rules.foldl (collectCandidate toLowerCase target) ([], 0) =
      ((rules.filter fun rule => (matchRule toLowerCase target rule).matched).map
          (candidateOf toLowerCase),
        (rules.filter fun rule => (matchRule toLowerCase target rule).excluded).length) := by
  have run : ∀ (rules : List CoupangRuleInput) (found : List MatchCandidate) (count : Nat),
      rules.foldl (collectCandidate toLowerCase target) (found, count) =
        (found ++ (rules.filter fun rule => (matchRule toLowerCase target rule).matched).map
            (candidateOf toLowerCase),
          count + (rules.filter fun rule => (matchRule toLowerCase target rule).excluded).length) := by
    intro rules
    induction rules with
    | nil => intro found count; simp
    | cons rule rest ih =>
      intro found count
      rw [foldl_cons, collectCandidate_eq, ih]
      cases hm : (matchRule toLowerCase target rule).matched <;>
        cases he : (matchRule toLowerCase target rule).excluded <;>
        simp [hm, he, Nat.add_assoc, Nat.add_comm]
  simpa using run rules [] 0

theorem filter_matched_activeRules (text : String) (rules : List CoupangRuleInput)
    (date : Option DateInput) :
    (activeRules rules date).filter (fun rule =>
        (matchRule toLowerCase (normalizeCoupangText toLowerCase text) rule).matched) =
      eligibleRules toLowerCase text rules date := by
  unfold activeRules
  rw [filter_filter, filter_filter]
  refine filter_congr fun rule _ => ?_
  rw [Bool.eq_iff_iff, decide_eq_true_eq, eligible_iff, Bool.and_eq_true, Bool.and_eq_true,
    decide_eq_true_eq]
  tauto

/-! ## 4. The tied candidates -/

theorem compareCandidates_le_iff (a b : MatchCandidate) :
    compareCandidates localeCompare a b ≤ 0 ↔ RankOrder candidateRank
      (fun a b => localeCompare (ruleLabel a.rule) (ruleLabel b.rule)) a b := by
  simp only [RankOrder, compareCandidates, candidateRank, Prod.Lex.toLex_lt_toLex,
    EmbeddingLike.apply_eq_iff_eq, Prod.mk.injEq]
  split
  · omega
  · split
    · omega
    · split
      · omega
      · omega

section

variable (text : String) (rules : List CoupangRuleInput) (date : Option DateInput)

/-- The candidates in the order of the sort. -/
def orderedCandidates : List MatchCandidate :=
  ((eligibleRules toLowerCase text rules date).map (candidateOf toLowerCase)).insertionSort
    fun a b => compareCandidates localeCompare a b ≤ 0

theorem perm_orderedCandidates : (orderedCandidates toLowerCase localeCompare text rules date).Perm
      ((eligibleRules toLowerCase text rules date).map (candidateOf toLowerCase)) :=
  perm_insertionSort _ _

def tiedCandidates : List MatchCandidate :=
  match orderedCandidates toLowerCase localeCompare text rules date with
  | [] => []
  | best :: rest => (best :: rest).filter fun c => decide (candidateRank c = candidateRank best)

/-- The best eligible rules. -/
def bestRules : List CoupangRuleInput :=
  minimals (ruleRank toLowerCase) (eligibleRules toLowerCase text rules date)

/-- **The tied candidates are the best eligible rules**, in some order. -/
theorem perm_tied : (tiedCandidates toLowerCase localeCompare text rules date).Perm
      ((bestRules toLowerCase text rules date).map (candidateOf toLowerCase)) := by
  have hmap := minimals_map candidateRank (candidateOf toLowerCase)
    (eligibleRules toLowerCase text rules date)
  unfold tiedCandidates
  cases hs : orderedCandidates toLowerCase localeCompare text rules date with
  | nil =>
    have hperm := perm_orderedCandidates toLowerCase localeCompare text rules date
    rw [hs] at hperm
    have hnil : eligibleRules toLowerCase text rules date = [] :=
      map_eq_nil_iff.mp hperm.symm.eq_nil
    unfold bestRules
    rw [hnil]
    exact Perm.refl _
  | cons best rest =>
    exact ((refinesRank_of_iff (compareCandidates_le_iff localeCompare)).perm_minimals hs).trans
      (Perm.of_eq hmap)

/-- What an excluded text is told. -/
def unmatchedReason : CoupangMatchReason :=
  if (excludedRules toLowerCase (normalizeCoupangText toLowerCase text) rules date).length > 0 then
    .EXCLUDED_BY_KEYWORD
  else .NO_MATCH

end

/-- The result for tied candidates. -/
def resultOf (reason : CoupangMatchReason) : List MatchCandidate → MatchTextResult
  | [] => unmatched reason []
  | [best] => matchedBy best.rule
  | tied => unmatched .AMBIGUOUS_MATCH (tied.map fun candidate => ruleLabel candidate.rule)

/-- **The result, from the tied candidates.** -/
theorem matchText_eq (text : String) (rules : List CoupangRuleInput) (date : Option DateInput) :
    matchText toLowerCase localeCompare text rules date =
      resultOf (unmatchedReason toLowerCase text rules date)
        (tiedCandidates toLowerCase localeCompare text rules date) := by
  have hloop := collectCandidates_eq toLowerCase (normalizeCoupangText toLowerCase text)
    (activeRules rules date)
  rw [filter_matched_activeRules] at hloop
  have hactive : (rules.filter fun rule => decide (rule.isActive ≠ some false)).filter
      (fun rule => isRuleEffective rule date) = activeRules rules date := rfl
  have hsort : ((eligibleRules toLowerCase text rules date).map (candidateOf toLowerCase)).insertionSort
      (fun a b => compareCandidates localeCompare a b ≤ 0) =
        orderedCandidates toLowerCase localeCompare text rules date := rfl
  unfold matchText tiedCandidates
  simp only
  rw [hactive, hloop]
  rw [hsort]
  cases hs : orderedCandidates toLowerCase localeCompare text rules date with
  | nil => rfl
  | cons best rest =>
    have htest : ∀ c : MatchCandidate,
        (decide (c.rule.priority = best.rule.priority) &&
          decide (c.includeCount = best.includeCount) &&
          decide (c.includeLength = best.includeLength)) =
        decide (candidateRank c = candidateRank best) := by
      intro c
      rw [Bool.eq_iff_iff]
      simp only [candidateRank, Bool.and_eq_true, decide_eq_true_eq, EmbeddingLike.apply_eq_iff_eq,
        Prod.mk.injEq]
      omega
    have hcons : (best :: rest).filter (fun c => decide (candidateRank c = candidateRank best)) =
        best :: rest.filter fun c => decide (candidateRank c = candidateRank best) :=
      filter_cons_of_pos (by simp)
    simp only [htest]
    rw [hcons]
    cases rest.filter (fun c => decide (candidateRank c = candidateRank best)) with
    | nil | cons twin others => rfl

/-! ## 5. The result -/

variable {text : String} {rules rules' : List CoupangRuleInput} {date : Option DateInput}

theorem matchText_of_strictlyBest (h : StrictlyBest toLowerCase text rules date rule) :
    matchText toLowerCase localeCompare text rules date = matchedBy rule := by
  have hbest : bestRules toLowerCase text rules date = [rule] := minimals_eq_singleton_iff.mpr h
  have htied := perm_tied toLowerCase localeCompare text rules date
  rw [hbest] at htied
  rw [matchText_eq, perm_singleton.mp htied]
  rfl

section

variable (text : String) (rules : List CoupangRuleInput) (date : Option DateInput)

/-- The three ways out, each with the best rules it is taken for. -/
theorem matchText_cases : (bestRules toLowerCase text rules date = [] ∧
      matchText toLowerCase localeCompare text rules date =
        unmatched (unmatchedReason toLowerCase text rules date) []) ∨
    (∃ rule, bestRules toLowerCase text rules date = [rule] ∧
      matchText toLowerCase localeCompare text rules date = matchedBy rule) ∨
    (1 < (bestRules toLowerCase text rules date).length ∧
      matchText toLowerCase localeCompare text rules date = unmatched .AMBIGUOUS_MATCH
        ((tiedCandidates toLowerCase localeCompare text rules date).map fun c => ruleLabel c.rule)) := by
  have htied := perm_tied toLowerCase localeCompare text rules date
  have hlen := htied.length_eq
  rw [matchText_eq]
  cases hb : bestRules toLowerCase text rules date with
  | nil =>
    rw [hb] at htied
    rw [htied.eq_nil]
    exact .inl ⟨rfl, rfl⟩
  | cons rule others =>
    cases others with
    | nil =>
      rw [hb] at htied
      rw [perm_singleton.mp htied]
      exact .inr (.inl ⟨rule, rfl, rfl⟩)
    | cons twin others =>
      rw [hb] at hlen
      refine .inr (.inr ⟨by simp, ?_⟩)
      match ht : tiedCandidates toLowerCase localeCompare text rules date with
      | [] => rw [ht] at hlen; simp at hlen
      | [_] => rw [ht] at hlen; simp at hlen
      | _ :: _ :: _ => rfl

theorem reason_unmatchedReason : unmatchedReason toLowerCase text rules date = .EXCLUDED_BY_KEYWORD ∨
      unmatchedReason toLowerCase text rules date = .NO_MATCH := by
  unfold unmatchedReason
  split
  · exact .inl rfl
  · exact .inr rfl

end

theorem reason_eq_matched_iff :
    (matchText toLowerCase localeCompare text rules date).reason = .MATCHED ↔
      ∃ rule, bestRules toLowerCase text rules date = [rule] := by
  rcases matchText_cases toLowerCase localeCompare text rules date with
    ⟨hb, h⟩ | ⟨rule, hb, h⟩ | ⟨hb, h⟩
  · rw [h, hb]
    refine ⟨fun e => ?_, fun ⟨_, e⟩ => (nomatch e)⟩
    rcases reason_unmatchedReason toLowerCase text rules date with hr | hr <;> cases hr.symm.trans e
  · rw [h, hb]
    exact ⟨fun _ => ⟨rule, rfl⟩, fun _ => rfl⟩
  · rw [h]
    refine ⟨nofun, fun ⟨rule, e⟩ => ?_⟩
    rw [e] at hb
    exact absurd hb (by simp)

theorem reason_eq_ambiguous_iff :
    (matchText toLowerCase localeCompare text rules date).reason = .AMBIGUOUS_MATCH ↔
      1 < (bestRules toLowerCase text rules date).length := by
  rcases matchText_cases toLowerCase localeCompare text rules date with
    ⟨hb, h⟩ | ⟨rule, hb, h⟩ | ⟨hb, h⟩
  · rw [h, hb]
    refine ⟨fun e => ?_, fun e => absurd e (by simp)⟩
    rcases reason_unmatchedReason toLowerCase text rules date with hr | hr <;> cases hr.symm.trans e
  · rw [h, hb]
    exact ⟨nofun, fun e => absurd e (by simp)⟩
  · rw [h]
    exact ⟨fun _ => hb, fun _ => rfl⟩

/-! ## 6. The order of the rules -/

/-- `localeCompare` orders the texts and tells the labels of the rules apart. -/
structure OrdersLabels (rules : List CoupangRuleInput) : Prop extends IsComparator localeCompare where
  tellsApart : ∀ r ∈ rules, ∀ s ∈ rules, localeCompare (ruleLabel r) (ruleLabel s) ≤ 0 →
    localeCompare (ruleLabel s) (ruleLabel r) ≤ 0 → ruleLabel r = ruleLabel s

/-- The tied candidates stand in the order of their labels. -/
theorem OrdersLabels.pairwise_tied (h : OrdersLabels localeCompare rules) (text : String)
    (date : Option DateInput) :
    ((tiedCandidates toLowerCase localeCompare text rules date).map fun c => ruleLabel c.rule).Pairwise
      fun a b => localeCompare a b ≤ 0 := by
  have hsorted : (orderedCandidates toLowerCase localeCompare text rules date).Pairwise
      fun a b => compareCandidates localeCompare a b ≤ 0 :=
    (h.toIsComparator.comap fun c : MatchCandidate => ruleLabel c.rule).pairwise_insertionSort
      (compareCandidates_le_iff localeCompare) _
  rw [pairwise_map]
  unfold tiedCandidates
  cases hs : orderedCandidates toLowerCase localeCompare text rules date with
  | nil => exact Pairwise.nil
  | cons best rest =>
    rw [hs] at hsorted
    refine (Pairwise.filter _ hsorted).imp_of_mem fun ha hb hab => ?_
    have hrank : ∀ {c}, c ∈ (best :: rest).filter (fun c => decide (candidateRank c =
        candidateRank best)) → candidateRank c = candidateRank best :=
      fun hc => of_decide_eq_true (mem_filter.mp hc).2
    rcases (compareCandidates_le_iff localeCompare _ _).mp hab with hlt | ⟨_, hl⟩
    · exact absurd hlt (by rw [hrank ha, hrank hb]; exact lt_irrefl _)
    · exact hl

section

variable (h : rules.Perm rules') (text : String) (date : Option DateInput)
include h

theorem perm_eligibleRules :
    (eligibleRules toLowerCase text rules date).Perm (eligibleRules toLowerCase text rules' date) :=
  h.filter _

theorem perm_tied_of_perm : (tiedCandidates toLowerCase localeCompare text rules date).Perm
      (tiedCandidates toLowerCase localeCompare text rules' date) := by
  have hbest : (bestRules toLowerCase text rules date).Perm
      (bestRules toLowerCase text rules' date) :=
    minimals_perm _ (perm_eligibleRules toLowerCase h text date)
  exact (perm_tied ..).trans ((hbest.map _).trans (perm_tied ..).symm)

theorem unmatchedReason_perm :
    unmatchedReason toLowerCase text rules date = unmatchedReason toLowerCase text rules' date := by
  have hactive : (activeRules rules date).Perm (activeRules rules' date) := (h.filter _).filter _
  have hlen := (hactive.filter fun rule =>
    (matchRule toLowerCase (normalizeCoupangText toLowerCase text) rule).excluded).length_eq
  unfold unmatchedReason excludedRules
  rw [hlen]

end

theorem mem_rules_of_mem_tied {c : MatchCandidate}
    (h : c ∈ tiedCandidates toLowerCase localeCompare text rules date) : c.rule ∈ rules := by
  obtain ⟨rule, hrule, rfl⟩ := mem_map.mp ((perm_tied ..).subset h)
  exact (mem_filter.mp (mem_filter.mp hrule).1).1

/-- Two results that differ at most in the order of the candidates' labels. -/
structure SameOutcome (r r' : MatchTextResult) : Prop where
  reason : r'.reason = r.reason
  source : r'.source = r.source
  productId : r'.productId = r.productId
  matchRuleId : r'.matchRuleId = r.matchRuleId
  candidates : r'.candidates.Perm r.candidates

theorem SameOutcome.eq {r r' : MatchTextResult} (h : SameOutcome r r')
    (hc : r'.candidates = r.candidates) : r' = r := by
  obtain ⟨⟨p', m', q', c'⟩, s'⟩ := r'
  obtain ⟨h1, h2, h3, h4, _⟩ := h
  cases h1
  cases h2
  cases h3
  cases h4
  cases hc
  rfl

theorem candidates_resultOf (reason : CoupangMatchReason) (tied : List MatchCandidate) :
    (resultOf reason tied).candidates = tied.map fun c => ruleLabel c.rule := by
  match tied with
  | [] => rfl
  | [_] => rfl
  | _ :: _ :: _ => rfl

theorem sameOutcome_resultOf {tied tied' : List MatchCandidate} (reason : CoupangMatchReason)
    (h : tied.Perm tied') : SameOutcome (resultOf reason tied) (resultOf reason tied') := by
  have hlabels : (resultOf reason tied').candidates.Perm (resultOf reason tied).candidates := by
    rw [candidates_resultOf, candidates_resultOf]
    exact h.symm.map _
  match tied, tied' with
  | [], [] => exact ⟨rfl, rfl, rfl, rfl, hlabels⟩
  | [a], [b] =>
    cases perm_singleton.mp h
    exact ⟨rfl, rfl, rfl, rfl, hlabels⟩
  | _ :: _ :: _, _ :: _ :: _ => exact ⟨rfl, rfl, rfl, rfl, hlabels⟩
  | [], _ :: _ => exact absurd h.symm.eq_nil (cons_ne_nil _ _)
  | _ :: _, [] => exact absurd h.eq_nil (cons_ne_nil _ _)
  | [_], _ :: _ :: _ => exact absurd h.length_eq (by simp)
  | _ :: _ :: _, [_] => exact absurd h.length_eq (by simp)

/-- **The order of the rules plays no part.** -/
theorem sameOutcome_of_perm (h : rules.Perm rules') :
    SameOutcome (matchText toLowerCase localeCompare text rules date)
      (matchText toLowerCase localeCompare text rules' date) := by
  rw [matchText_eq, matchText_eq, ← unmatchedReason_perm toLowerCase h]
  exact sameOutcome_resultOf _ (perm_tied_of_perm toLowerCase localeCompare h text date)

/-- The labels themselves, where `localeCompare` orders them. -/
theorem OrdersLabels.matchText_perm (h : OrdersLabels localeCompare rules)
    (hperm : rules.Perm rules') :
    matchText toLowerCase localeCompare text rules' date =
      matchText toLowerCase localeCompare text rules date := by
  have h' : OrdersLabels localeCompare rules' :=
    ⟨h.toIsComparator, fun r hr s hs => h.tellsApart r (hperm.mem_iff.mpr hr) s (hperm.mem_iff.mpr hs)⟩
  have hlabels : ((tiedCandidates toLowerCase localeCompare text rules' date).map
      fun c => ruleLabel c.rule) =
      (tiedCandidates toLowerCase localeCompare text rules date).map fun c => ruleLabel c.rule := by
    refine Perm.eq_of_pairwise (fun a b ha hb hab hba => ?_)
      (h'.pairwise_tied toLowerCase localeCompare text date)
      (h.pairwise_tied toLowerCase localeCompare text date)
      ((perm_tied_of_perm toLowerCase localeCompare hperm text date).symm.map _)
    obtain ⟨c, hc, rfl⟩ := mem_map.mp ha
    obtain ⟨d, hd, rfl⟩ := mem_map.mp hb
    exact h.tellsApart _ (hperm.mem_iff.mpr (mem_rules_of_mem_tied toLowerCase localeCompare hc)) _
      (mem_rules_of_mem_tied toLowerCase localeCompare hd) hab hba
  have hcandidates : (matchText toLowerCase localeCompare text rules' date).candidates =
      (matchText toLowerCase localeCompare text rules date).candidates := by
    rw [matchText_eq, matchText_eq, candidates_resultOf, candidates_resultOf, hlabels]
  have hsame : SameOutcome (matchText toLowerCase localeCompare text rules date)
      (matchText toLowerCase localeCompare text rules' date) :=
    sameOutcome_of_perm toLowerCase localeCompare hperm
  exact hsame.eq hcandidates

/-- **What `matchText` finds.** A rule is returned when it is ranked strictly before every other
    eligible rule, and only then; the text is ambiguous when the best rank is shared; and the order
    of the rules plays no part, not even for the labels that are listed where `localeCompare`
    orders them. -/
theorem matchText_best (text : String) (rules : List CoupangRuleInput) (date : Option DateInput) :
    (∀ rule, StrictlyBest toLowerCase text rules date rule →
      matchText toLowerCase localeCompare text rules date = matchedBy rule) ∧
    ((matchText toLowerCase localeCompare text rules date).reason = .MATCHED →
      ∃ rule, StrictlyBest toLowerCase text rules date rule ∧
        matchText toLowerCase localeCompare text rules date = matchedBy rule) ∧
    ((matchText toLowerCase localeCompare text rules date).reason = .AMBIGUOUS_MATCH ↔
      BestShared toLowerCase text rules date) ∧
    ∀ rules', rules.Perm rules' →
      SameOutcome (matchText toLowerCase localeCompare text rules date)
        (matchText toLowerCase localeCompare text rules' date) ∧
      (OrdersLabels localeCompare rules → matchText toLowerCase localeCompare text rules' date =
        matchText toLowerCase localeCompare text rules date) := by
  refine ⟨fun rule => matchText_of_strictlyBest toLowerCase localeCompare, fun h => ?_, ?_,
    fun rules' hperm => ⟨sameOutcome_of_perm toLowerCase localeCompare hperm,
      fun h => h.matchText_perm toLowerCase localeCompare hperm⟩⟩
  · obtain ⟨rule, hbest⟩ := (reason_eq_matched_iff toLowerCase localeCompare).mp h
    have hstrict : StrictlyBest toLowerCase text rules date rule :=
      minimals_eq_singleton_iff.mp hbest
    exact ⟨rule, hstrict, matchText_of_strictlyBest toLowerCase localeCompare hstrict⟩
  · rw [reason_eq_ambiguous_iff]
    exact one_lt_length_minimals_iff

end Spec

def alphaRule (id : String) : CoupangRuleInput where
  id := id
  productId := "p"
  displayName := none
  includeKeywords := ["alpha"]
  excludeKeywords := []
  priority := 10
  validFrom := none
  validTo := none
  isActive := some true

/-- Two equally good rules of one product leave the text without a product, although no rule of
    another product competes. -/
theorem tied_rules_of_one_product :
    (matchText id asciiCompare "alpha beta" [alphaRule "a", alphaRule "b"] none).reason =
        .AMBIGUOUS_MATCH ∧
      Eligible id "alpha beta" none (alphaRule "a") ∧
      ∀ rule ∈ [alphaRule "a", alphaRule "b"], rule.productId = "p" := by
  decide +kernel

end AdsManagement.Coupang.ProductMatcher
