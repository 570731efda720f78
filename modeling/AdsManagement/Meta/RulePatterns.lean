/-
  File:      Meta/RulePatterns.lean
  Subject:   WHAT THE MATCH RULES OF PRODUCTS MEAN: `AdsetProductMatcher.match` of
             domain/matching.ts against the pattern of a rule as it was written.

  A rule that contains or equals is stored with the key of its pattern. The pattern of a
  regular expression is stored as it is, but the matcher makes a key of it too: blanks are
  collapsed and every letter is lowered, the letters of its escapes among them. `RegExp` is
  outside; what it reads in a pattern is the tree that the pattern spells (`RegExpReads`).

  * `matches_regex` -- a pattern that survives the key means what it says;
  * `product_match_rules_mean` -- the four kinds of statements about the matcher;
  * `product_match_rule_not_digit` -- `\D` is read as `\d`.
-/
import Mathlib.Data.Bool.AllAny
import AdsManagement.Lib.Regex
import AdsManagement.Lib.RankedChoice
import AdsManagement.Meta.ManualMappings
import Mathlib.Data.List.Infix

namespace AdsManagement.Meta

open Common Lib Lib.Regex Coupang List

/-! ## 1. Pieces of a pattern -/

/-- The letters of the language: lower case, and the canonical form under the flag `i`. -/
structure CaseFolding where
  lower : Char → Char
  canonicalize : Char → Char
  lower_ascii : ∀ c : Char, c.toNat < 128 → lower c = c.toLower

/-- `\w`. -/
def isWordChar (c : Char) : Bool := c.isAlphanum || c = '_'

/-- What an escape stands for. -/
def escapeSet (escape c : Char) : Prop :=
  match escape with
  | 'd' => c.isDigit = true
  | 'D' => c.isDigit = false
  | 'w' => isWordChar c = true
  | 'W' => isWordChar c = false
  | 's' => isJsSpace c = true
  | 'S' => isJsSpace c = false
  | 't' => c.toNat = 9
  | 'n' => c.toNat = 10
  | 'v' => c.toNat = 11
  | 'f' => c.toNat = 12
  | 'r' => c.toNat = 13
  | 'b' => c.toNat = 8
  | escape => c = escape

/-- An item of `[…]`. -/
inductive ClassItem where
  | chr (c : Char)
  | range (low high : Char)
  | esc (c : Char)

def ClassItem.set : ClassItem → Char → Prop
  | chr a, c => c = a
  | range low high, c => low ≤ c ∧ c ≤ high
  | esc a, c => escapeSet a c

/-- A literal, `.`, an escape, a class, `^`, `$`. -/
inductive Piece where
  | chr (c : Char)
  | dot
  | esc (c : Char)
  | cls (negated : Bool) (items : List ClassItem)
  | start
  | stop

def ClassItem.spell : ClassItem → List Char
  | chr c => [c]
  | range low high => [low, '-', high]
  | esc c => ['\\', c]

def Piece.spell : Piece → List Char
  | chr c => [c]
  | dot => ['.']
  | esc c => ['\\', c]
  | cls negated items => '[' :: ((if negated then ['^'] else []) ++ (items.flatMap ClassItem.spell ++ [']']))
  | start => ['^']
  | stop => ['$']

variable (folding : CaseFolding)

/-- A set under the flag `i`. -/
def CaseFolding.Accepts (set : Char → Prop) (c : Char) : Prop :=
  ∃ a, set a ∧ folding.canonicalize a = folding.canonicalize c

/-- One character of the word. -/
def CharStep (p : Char → Prop) (w : List Char) (i j : Nat) : Prop :=
  ∃ c, w[i]? = some c ∧ j = i + 1 ∧ p c

def AtBoundary (w : List Char) (i : Nat) : Prop :=
  ((i != 0) && w[i - 1]?.any isWordChar) ≠ w[i]?.any isWordChar

def Piece.step : Piece → List Char → Nat → Nat → Prop
  | chr a, w, i, j => CharStep (folding.Accepts fun c => c = a) w i j
  | dot, w, i, j => CharStep (folding.Accepts fun c => isLineTerminator c = false) w i j
  | esc 'b', w, i, j => i = j ∧ AtBoundary w i
  | esc 'B', w, i, j => i = j ∧ ¬ AtBoundary w i
  | esc a, w, i, j => CharStep (folding.Accepts (escapeSet a)) w i j
  | cls negated items, w, i, j =>
    CharStep (fun c => if negated then ¬ folding.Accepts (fun a => ∃ item ∈ items, item.set a) c
      else folding.Accepts (fun a => ∃ item ∈ items, item.set a) c) w i j
  | start, _, i, j => i = j ∧ i = 0
  | stop, w, i, j => i = j ∧ i = w.length

/-- A pattern. -/
abbrev Pattern := Disjunction Piece

def patternText (p : Pattern) : String := String.ofList (p.text Piece.spell)

/-- `new RegExp(pattern, "i").test(text)` on the text of a tree. Without the flag u the units of the
    text are those of UTF-16, so this is asked of one text at a time. -/
def RegExpReads (regexTest : String → String → Bool) (p : Pattern) (text : String) : Prop :=
  regexTest (patternText p) text = true ↔ p.Search (Piece.step folding) text.toList

/-! ## 2. The key of a pattern -/

def ClassItem.lower : ClassItem → ClassItem
  | chr c => chr (folding.lower c)
  | range low high => range (folding.lower low) (folding.lower high)
  | esc c => esc (folding.lower c)

def Piece.lower : Piece → Piece
  | chr c => chr (folding.lower c)
  | dot => dot
  | esc c => esc (folding.lower c)
  | cls negated items => cls negated (items.map (ClassItem.lower folding))
  | start => start
  | stop => stop

/-- A piece matches the same in lower case. -/
def Piece.KeepsMeaning (s : Piece) : Prop :=
  ∀ w i j, (s.lower folding).step folding w i j ↔ s.step folding w i j

/-- What the key of a pattern leaves as it is: no blanks to collapse, letters lowered one by one, and
    pieces that mean the same in lower case. -/
structure SurvivesKey (toLowerCase : String → String) (p : Pattern) : Prop where
  blanks : AdsetNameNormalizer.normalizeName (patternText p) = patternText p
  letters : toLowerCase (patternText p) = String.ofList ((p.text Piece.spell).map folding.lower)
  pieces : ∀ s ∈ p.pieces, s.KeepsMeaning folding

theorem lower_of_ascii {c : Char} (h : c.toNat < 128) (hfix : c.toLower = c) : folding.lower c = c := by
  rw [folding.lower_ascii c h, hfix]

theorem spell_lower (s : Piece) : (s.lower folding).spell = s.spell.map folding.lower := by
  have hfix : ∀ c ∈ ['.', '\\', '[', '^', ']', '$', '-'], folding.lower c = c := by
    intro c hc
    have hall : ∀ c ∈ ['.', '\\', '[', '^', ']', '$', '-'], c.toNat < 128 ∧ c.toLower = c :=
      all_iff_forall_prop.mp (by decide)
    exact lower_of_ascii folding (hall c hc).1 (hall c hc).2
  have hitem : ∀ item : ClassItem, (item.lower folding).spell = item.spell.map folding.lower := by
    intro item
    cases item <;> simp [ClassItem.lower, ClassItem.spell, hfix]
  cases s with
  | chr c => rfl
  | dot | esc c | start | stop => simp [Piece.lower, Piece.spell, hfix]
  | cls negated items =>
    have hitems : (items.map (ClassItem.lower folding)).flatMap ClassItem.spell =
        (items.flatMap ClassItem.spell).map folding.lower := by
      rw [flatMap_map, map_flatMap]
      exact flatMap_congr fun item _ => hitem item
    simp only [Piece.lower, Piece.spell, hitems]
    cases negated <;> simp [hfix]

theorem lower_operator (c : Char) (h : IsOperatorChar c) : folding.lower c = c := by
  rcases h with h | h
  · have hbounds : 48 ≤ c.toNat ∧ c.toNat ≤ 57 := by
      simp only [Char.isDigit, Bool.and_eq_true, decide_eq_true_eq] at h
      exact ⟨UInt32.le_iff_toNat_le.mp h.1, UInt32.le_iff_toNat_le.mp h.2⟩
    refine lower_of_ascii folding (by omega) ?_
    unfold Char.toLower
    rw [dif_neg]
    intro hup
    have := UInt32.le_iff_toNat_le.mp hup.1
    have : 65 ≤ c.toNat := this
    omega
  · have hall : ∀ c ∈ ['(', ')', '|', '?', ':', '*', '+', '{', '}', ','], c.toNat < 128 ∧ c.toLower = c :=
      all_iff_forall_prop.mp (by decide)
    exact lower_of_ascii folding (hall c h).1 (hall c h).2

/-- The text of a pattern in lower case is the text of the pattern with its pieces in lower case. -/
theorem text_lower (p : Pattern) :
    (p.map (Piece.lower folding)).text Piece.spell = (p.text Piece.spell).map folding.lower :=
  Disjunction.text_map (lower_operator folding) p fun s _ => spell_lower folding s

/-! ## 3. Pieces that keep their meaning -/

variable {folding}

/-- An escape that has no upper-case letter keeps its meaning. -/
theorem keepsMeaning_esc {c : Char} (h : folding.lower c = c) : (Piece.esc c).KeepsMeaning folding := by
  have hlower : (Piece.esc c).lower folding = Piece.esc c := congrArg Piece.esc h
  intro w i j
  rw [hlower]

/-! ## 4. What a rule matches -/

theorem includesText_iff {text : List Char} {part : String} :
    includesText text part = true ↔ ∃ front back, text = front ++ part.toList ++ back := by
  unfold includesText
  rw [any_eq_true]
  constructor
  · rintro ⟨rest, hrest, hprefix⟩
    obtain ⟨front, rfl⟩ := (mem_tails _ _).mp hrest
    obtain ⟨back, rfl⟩ := isPrefixOf_iff_prefix.mp hprefix
    exact ⟨front, back, (append_assoc _ _ _).symm⟩
  · rintro ⟨front, back, rfl⟩
    refine ⟨part.toList ++ back, (mem_tails _ _).mpr ⟨front, (append_assoc _ _ _).symm⟩, ?_⟩
    exact isPrefixOf_iff_prefix.mpr (prefix_append _ _)

variable {env : MappingEnv}

/-- The pattern a rule is matched by, when its key is the one a request stores or none. -/
def ProductMatchRule.KeyOfPattern (env : MappingEnv) (rule : ProductMatchRule) : Prop :=
  rule.patternKey = none ∨ rule.patternKey = some (AdsetNameNormalizer.toKey env.toLowerCase rule.pattern)

variable {rule : ProductMatchRule}

theorem ProductMatchRule.KeyOfPattern.getD (h : rule.KeyOfPattern env) :
    rule.patternKey.getD (AdsetNameNormalizer.toKey env.toLowerCase rule.pattern) =
      AdsetNameNormalizer.toKey env.toLowerCase rule.pattern := by
  rcases h with h | h <;> rw [h] <;> rfl

/-- **A pattern that survives the key means what it says.** -/
theorem matches_regex {p : Pattern} (htype : rule.matchType = .REGEX) (hkey : rule.KeyOfPattern env)
    (hpattern : rule.pattern = patternText p) (hsurvives : SurvivesKey folding env.toLowerCase p)
    {nameKey : String} (hreads : RegExpReads folding env.regexTest (p.map (Piece.lower folding)) nameKey) :
    rule.matches env nameKey = true ↔ p.Search (Piece.step folding) nameKey.toList := by
  have hkeyText : AdsetNameNormalizer.toKey env.toLowerCase rule.pattern =
      patternText (p.map (Piece.lower folding)) := by
    unfold AdsetNameNormalizer.toKey patternText
    rw [text_lower, hpattern, hsurvives.blanks, hsurvives.letters]
  unfold ProductMatchRule.matches
  rw [hkey.getD, htype, hkeyText]
  refine hreads.trans ?_
  exact p.search_map fun s hs => hsurvives.pieces s hs nameKey.toList

theorem matches_contains (htype : rule.matchType = .CONTAINS) (hkey : rule.KeyOfPattern env)
    (nameKey : String) :
    rule.matches env nameKey = true ↔ ∃ front back, nameKey.toList =
      front ++ (AdsetNameNormalizer.toKey env.toLowerCase rule.pattern).toList ++ back := by
  unfold ProductMatchRule.matches
  rw [hkey.getD, htype]
  exact includesText_iff

theorem matches_exact (htype : rule.matchType = .EXACT) (hkey : rule.KeyOfPattern env) (nameKey : String) :
    rule.matches env nameKey = true ↔ nameKey = AdsetNameNormalizer.toKey env.toLowerCase rule.pattern := by
  unfold ProductMatchRule.matches
  rw [hkey.getD, htype]
  exact decide_eq_true_iff

/-! ## 5. The rule that is chosen -/

/-- The rules the matcher asks on a day. -/
def ProductMatchRule.validOn (date : String) (rule : ProductMatchRule) : Bool :=
  rule.isActive && isDateInRange date (some (formatDateOnly rule.validFrom)) (rule.validTo.map formatDateOnly)

/-- The valid rules by priority. -/
def rankedRules (date : String) (rules : List ProductMatchRule) : List ProductMatchRule :=
  (rules.filter (ProductMatchRule.validOn date)).insertionSort fun a b => a.priority ≤ b.priority

variable {rules : List ProductMatchRule} {date : String}

theorem mem_rankedRules :
    rule ∈ rankedRules date rules ↔ rule ∈ rules ∧ rule.validOn date = true := by
  unfold rankedRules
  rw [mem_insertionSort, mem_filter]

theorem pairwise_rankedRules (date : String) (rules : List ProductMatchRule) :
    (rankedRules date rules).Pairwise fun a b => a.priority ≤ b.priority := by
  exact pairwise_insertionSort _ _

theorem matchAdsetProduct_of_no_manual {histories : List (ManualHistory String)}
    (h : (histories.find? fun history => history.covers date) = none) (adsetName : String)
    (rules : List ProductMatchRule) :
    matchAdsetProduct env adsetName date histories rules =
      match (rankedRules date rules).find?
        (ProductMatchRule.matches env (AdsetNameNormalizer.toKey env.toLowerCase adsetName)) with
      | some rule => ⟨some rule.productId, .RULE, some rule.id⟩
      | none => ⟨none, .UNMATCHED, none⟩ := by
  unfold matchAdsetProduct
  rw [h]
  rfl

/-- The rule found first has the smallest priority of all that match. -/
theorem find?_rankedRules {nameKey : String}
    (h : (rankedRules date rules).find? (ProductMatchRule.matches env nameKey) = some rule) :
    rule ∈ rules ∧ rule.validOn date = true ∧ rule.matches env nameKey = true ∧
      ∀ other ∈ rules, other.validOn date = true → other.matches env nameKey = true →
        rule.priority ≤ other.priority := by
  obtain ⟨hmatch, before, after, hsplit, hbefore⟩ := find?_eq_some_iff_append.mp h
  obtain ⟨hmem, hvalid⟩ := mem_rankedRules.mp (mem_of_find?_eq_some h)
  refine ⟨hmem, hvalid, hmatch, ?_⟩
  intro other hother hothervalid hothermatch
  have hin := mem_rankedRules.mpr ⟨hother, hothervalid⟩
  have hsorted := pairwise_rankedRules date rules
  rw [hsplit] at hin hsorted
  rcases mem_append.mp hin with hin | hin
  · have := hbefore other hin
    rw [hothermatch] at this
    cases this
  · rcases mem_cons.mp hin with rfl | hin
    · exact le_refl _
    · exact (pairwise_cons.mp (pairwise_append.mp hsorted).2.1).1 other hin

/-- Rules of different priority may change places. -/
theorem rankedRules_congr {rules' : List ProductMatchRule}
    (h : ∀ k, rules.filter (fun rule => rule.priority = k) = rules'.filter fun rule => rule.priority = k) :
    rankedRules date rules = rankedRules date rules' := by
  refine insertionSort_congr fun k => ?_
  rw [filter_comm, h, filter_comm]

/-- **What a match rule means**: the pattern of a regular expression that survives the key matches as it
    is written, the other patterns by their keys; of the valid rules that match, one of the smallest
    priority is chosen, whatever the order of rules of different priority. -/
theorem product_match_rules_mean (env : MappingEnv) (folding : CaseFolding) :
    (∀ rule : ProductMatchRule, rule.KeyOfPattern env →
      (∀ p : Pattern, rule.matchType = .REGEX → rule.pattern = patternText p →
        SurvivesKey folding env.toLowerCase p → ∀ adsetName,
        RegExpReads folding env.regexTest (p.map (Piece.lower folding))
          (AdsetNameNormalizer.toKey env.toLowerCase adsetName) →
        (rule.matches env (AdsetNameNormalizer.toKey env.toLowerCase adsetName) = true ↔
          p.Search (Piece.step folding) (AdsetNameNormalizer.toKey env.toLowerCase adsetName).toList)) ∧
      (rule.matchType = .CONTAINS → ∀ adsetName,
        (rule.matches env (AdsetNameNormalizer.toKey env.toLowerCase adsetName) = true ↔
          ∃ front back, (AdsetNameNormalizer.toKey env.toLowerCase adsetName).toList =
            front ++ (AdsetNameNormalizer.toKey env.toLowerCase rule.pattern).toList ++ back)) ∧
      (rule.matchType = .EXACT → ∀ adsetName,
        (rule.matches env (AdsetNameNormalizer.toKey env.toLowerCase adsetName) = true ↔
          AdsetNameNormalizer.toKey env.toLowerCase adsetName =
            AdsetNameNormalizer.toKey env.toLowerCase rule.pattern))) ∧
    (∀ (adsetName date : String) (histories : List (ManualHistory String)) (rules : List ProductMatchRule),
      (histories.find? fun history => history.covers date) = none →
      (∀ chosen ∈ rules, chosen.validOn date = true →
        chosen.matches env (AdsetNameNormalizer.toKey env.toLowerCase adsetName) = true →
        ∃ rule ∈ rules, matchAdsetProduct env adsetName date histories rules =
            ⟨some rule.productId, .RULE, some rule.id⟩ ∧
          rule.validOn date = true ∧
          rule.matches env (AdsetNameNormalizer.toKey env.toLowerCase adsetName) = true ∧
          rule.priority ≤ chosen.priority) ∧
      (∀ rules', (∀ k, rules.filter (fun rule => rule.priority = k) =
          rules'.filter fun rule => rule.priority = k) →
        matchAdsetProduct env adsetName date histories rules =
          matchAdsetProduct env adsetName date histories rules')) := by
  constructor
  · intro rule hkey
    refine ⟨?_, ?_, ?_⟩
    · intro p htype hpattern hsurvives adsetName hreads
      exact matches_regex htype hkey hpattern hsurvives hreads
    · intro htype adsetName
      exact matches_contains htype hkey _
    · intro htype adsetName
      exact matches_exact htype hkey _
  · intro adsetName date histories rules hmanual
    constructor
    · intro chosen hchosen hvalid hmatch
      rw [matchAdsetProduct_of_no_manual hmanual]
      cases hfind : (rankedRules date rules).find?
          (ProductMatchRule.matches env (AdsetNameNormalizer.toKey env.toLowerCase adsetName)) with
      | none =>
        have := find?_eq_none.mp hfind chosen (mem_rankedRules.mpr ⟨hchosen, hvalid⟩)
        exact absurd hmatch this
      | some rule =>
        obtain ⟨hmem, hrule, hrulematch, hleast⟩ := find?_rankedRules hfind
        exact ⟨rule, hmem, rfl, hrule, hrulematch, hleast chosen hchosen hvalid hmatch⟩
    · intro rules' h
      rw [matchAdsetProduct_of_no_manual hmanual, matchAdsetProduct_of_no_manual hmanual,
        rankedRules_congr h]

/-! ## 6. Two patterns of digits -/

/-- The letters of ASCII. -/
def asciiFolding : CaseFolding := ⟨Char.toLower, Char.toUpper, fun _ _ => rfl⟩

/-- `\e` for a letter `e`. -/
def escapePattern (e : Char) : Pattern := .last (.cons (.piece (.esc e)) none .empty)

/-- `RegExp` on the patterns `\d` and `\D`. -/
def digitTest (pattern text : String) : Bool :=
  if pattern = "\\d" then text.toList.any Char.isDigit
  else pattern = "\\D" && text.toList.any fun c => !c.isDigit

def digitEnv : MappingEnv := { plainMappingEnv with regexTest := digitTest }

def digitRule (pattern : String) : ProductMatchRule where
  id := "r1"
  productId := "p1"
  matchType := .REGEX
  pattern := pattern
  patternKey := none
  priority := 1
  validFrom := 0
  validTo := none
  isActive := true

theorem isDigit_toUpper (c : Char) : c.toUpper.isDigit = c.isDigit := by
  unfold Char.toUpper
  split
  · rename_i h
    have hlow : 97 ≤ c.toNat := UInt32.le_iff_toNat_le.mp h.1
    have hhigh : c.toNat ≤ 122 := UInt32.le_iff_toNat_le.mp h.2
    have hall : ∀ n, 97 ≤ n → n ≤ 122 → (Char.ofNat n).toUpper.isDigit = (Char.ofNat n).isDigit := by
      intro n h1 h2
      interval_cases n <;> decide
    have hc := hall c.toNat hlow hhigh
    rw [Char.ofNat_toNat] at hc
    unfold Char.toUpper at hc
    rwa [dif_pos h] at hc
  · rfl

/-- A search for one escape is a search for one of its characters. -/
theorem search_escape {e : Char} {b : Bool} (he : ∀ c, escapeSet e c ↔ c.isDigit = b)
    (hstep : ∀ w i j, (Piece.esc e).step asciiFolding w i j ↔
      CharStep (asciiFolding.Accepts (escapeSet e)) w i j) (w : List Char) :
    (escapePattern e).Search (Piece.step asciiFolding) w ↔ ∃ c ∈ w, c.isDigit = b := by
  constructor
  · rintro ⟨i, j, -, m, hrun, -⟩
    obtain ⟨c, hc, -, a, ha, hcanon⟩ := (hstep w i m).mp hrun
    refine ⟨c, mem_of_getElem? hc, ?_⟩
    rw [← isDigit_toUpper, ← (he a).mp ha, ← isDigit_toUpper a]
    exact congrArg Char.isDigit hcanon.symm
  · rintro ⟨c, hc, hb⟩
    obtain ⟨i, hi⟩ := mem_iff_getElem?.mp hc
    have hlt : i < w.length := (List.getElem?_eq_some_iff.mp hi).1
    exact ⟨i, i + 1, hlt.le, i + 1, (hstep w i (i + 1)).mpr ⟨c, hi, rfl, c, (he c).mpr hb, rfl⟩, rfl⟩

theorem reads_digit (text : String) : RegExpReads asciiFolding digitTest (escapePattern 'd') text := by
  have h := search_escape (e := 'd') (fun c => Iff.rfl) (fun _ _ _ => Iff.rfl) text.toList
  rw [RegExpReads, h]
  show (if "\\d" = "\\d" then text.toList.any Char.isDigit else _) = true ↔ _
  rw [if_pos rfl, any_eq_true]

theorem reads_not_digit (text : String) : RegExpReads asciiFolding digitTest (escapePattern 'D') text := by
  have h := search_escape (e := 'D') (fun c => Iff.rfl) (fun _ _ _ => Iff.rfl) text.toList
  rw [RegExpReads, h]
  show (if "\\D" = "\\d" then _ else "\\D" = "\\D" && text.toList.any fun c => !c.isDigit) = true ↔ _
  rw [if_neg (by decide), decide_eq_true rfl, Bool.true_and, any_eq_true]
  simp only [Bool.not_eq_true']

/-- `\d` finds the digit of a name. -/
theorem product_match_rules_mean_digit :
    (digitRule "\\d").matches digitEnv (AdsetNameNormalizer.toKey digitEnv.toLowerCase "Set 3") = true := by
  have hsurvives : SurvivesKey asciiFolding digitEnv.toLowerCase (escapePattern 'd') := by
    refine ⟨by decide +kernel, by decide +kernel, ?_⟩
    intro s hs
    rw [show s = Piece.esc 'd' by simpa [escapePattern, Disjunction.pieces, Alternative.pieces,
      Atom.pieces] using hs]
    exact keepsMeaning_esc (by decide)
  have hmean := ((product_match_rules_mean digitEnv asciiFolding).1 (digitRule "\\d") (.inl rfl)).1
    (escapePattern 'd') rfl (by decide +kernel) hsurvives "Set 3" (reads_digit _)
  rw [hmean]
  exact (search_escape (e := 'd') (fun c => Iff.rfl) (fun _ _ _ => Iff.rfl) _).mpr
    ⟨'3', by decide +kernel, by decide⟩

/-- `\D` finds a letter in `abc`, and the matcher asks for `\d`, which finds none. -/
theorem product_match_rule_not_digit :
    (digitRule "\\D").matches digitEnv (AdsetNameNormalizer.toKey digitEnv.toLowerCase "abc") = false ∧
      (escapePattern 'D').Search (Piece.step asciiFolding)
        (AdsetNameNormalizer.toKey digitEnv.toLowerCase "abc").toList ∧
      ¬ ∀ (rule : ProductMatchRule) (p : Pattern) (adsetName : String), rule.matchType = .REGEX →
        rule.KeyOfPattern digitEnv → rule.pattern = patternText p →
        (∀ text, RegExpReads asciiFolding digitEnv.regexTest p text) →
        (∀ text, RegExpReads asciiFolding digitEnv.regexTest (p.map (Piece.lower asciiFolding)) text) →
        (rule.matches digitEnv (AdsetNameNormalizer.toKey digitEnv.toLowerCase adsetName) = true ↔
          p.Search (Piece.step asciiFolding)
            (AdsetNameNormalizer.toKey digitEnv.toLowerCase adsetName).toList) := by
  have hfalse : (digitRule "\\D").matches digitEnv
      (AdsetNameNormalizer.toKey digitEnv.toLowerCase "abc") = false := by decide +kernel
  have hsearch : (escapePattern 'D').Search (Piece.step asciiFolding)
      (AdsetNameNormalizer.toKey digitEnv.toLowerCase "abc").toList :=
    (search_escape (e := 'D') (fun c => Iff.rfl) (fun _ _ _ => Iff.rfl) _).mpr
      ⟨'a', by decide +kernel, by decide⟩
  refine ⟨hfalse, hsearch, ?_⟩
  intro h
  have hmatch := (h (digitRule "\\D") (escapePattern 'D') "abc" rfl (.inl rfl) (by decide +kernel)
    reads_not_digit reads_digit).mpr hsearch
  rw [hfalse] at hmatch
  cases hmatch

end AdsManagement.Meta
