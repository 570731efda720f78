/-
  File:      Meta/CreativeNames.lean
  Subject:   NAMES OF ADS AND THE CREATIVES THEY NAME: `CreativeNameParser.parse` of
             domain/creative-name-parser.ts on the names the naming rule writes.

  A name is an optional date, the parts of a product, a material number and an optional
  platform, joined with `_`; the token of the marketing method may stand anywhere after the
  date. The parser takes the platform off the end before it removes the method, so a method
  behind the platform hides it; the rule that finds it again asks for a date.

  * `cut_join` -- a joined name is cut into its trimmed tokens;
  * `creative_name_parses_back_iff` -- the names that give product and material back;
  * `creative_name_method_last` -- a platform taken for a material.
-/
import Mathlib.Data.Bool.AllAny
import AdsManagement.Lib.Separated
import AdsManagement.Meta.Entities

namespace AdsManagement.Meta.CreativeNameParser

open Common Lib List

/-! ## 1. Names -/

def methodToken : String := "인플연동"

/-- `toUpperCase` on ASCII letters, and on Hangul, which has no case. -/
def UpperCases (toUpperCase : String → String) : Prop :=
  ∀ s : String, (∀ c ∈ s.toList, c.toNat < 128 ∨ (0xAC00 ≤ c.toNat ∧ c.toNat ≤ 0xD7A3)) →
    toUpperCase s = String.ofList (s.toList.map Char.toUpper)

/-- What an ad is named after. The parts of the product are read without the blanks around them. -/
structure CreativeName where
  date : Option String
  productParts : List String
  materialNo : String
  suffix : Option String
  /-- How many tokens stand between the date and the method token. -/
  method : Option Nat
  date_isDate : ∀ d ∈ date, isDatePrefix d = true
  parts_ne_nil : productParts ≠ []
  part_nonblank : ∀ p ∈ productParts, trim p ≠ ""
  part_no_separator : ∀ p ∈ productParts, '_' ∉ p.toList
  part_no_method : ∀ p ∈ productParts, isMethodToken (trim p) = false
  first_no_date : ∀ p ∈ productParts.head?, isDatePrefix (trim p) = false
  material_isMaterial : isMaterialNo materialNo = true
  suffix_isPlatform : ∀ s ∈ suffix, String.ofList (s.toList.map Char.toUpper) ∈ SETTING_SUFFIXES
  method_le : ∀ k ∈ method, k ≤ productParts.length + 1 + suffix.toList.length

namespace CreativeName

variable (name : CreativeName)

/-- The tokens after the date, the method token left out. -/
def body : List String := name.productParts ++ [name.materialNo] ++ name.suffix.toList

/-- The method token among the tokens of a list. -/
def insertMethod (tokens : List String) : Option Nat → List String
  | none => tokens
  | some k => tokens.take k ++ methodToken :: tokens.drop k

def tokens : List String := name.date.toList ++ insertMethod name.body name.method

/-- The name as it is written. -/
def text : String := String.ofList (join '_' (name.tokens.map String.toList))

def product : String := String.intercalate "_" (name.productParts.map trim)

/-- The method stands behind the platform. -/
def MethodLast : Prop := name.suffix.isSome = true ∧ name.method = some name.body.length

instance : Decidable name.MethodLast := inferInstanceAs (Decidable (_ ∧ _))

end CreativeName

/-- The parser gives the product and the material of the name back. -/
structure ParsesBack (toUpperCase : String → String) (name : CreativeName) : Prop where
  status : (parse toUpperCase name.text).parseStatus = .PARSED
  product : (parse toUpperCase name.text).productName = some name.product
  material : (parse toUpperCase name.text).materialNo = some name.materialNo
  key : (parse toUpperCase name.text).creativeKey = name.product ++ "_" ++ name.materialNo

/-! ## 2. Tokens -/

variable {c : Char}

theorem toNat_bounds {low high : Char} (h : low ≤ c ∧ c ≤ high) :
    low.toNat ≤ c.toNat ∧ c.toNat ≤ high.toNat :=
  ⟨UInt32.le_iff_toNat_le.mp h.1, UInt32.le_iff_toNat_le.mp h.2⟩

theorem isDigits_spec {l : List Char} (h : isDigits l = true) :
    (∀ c ∈ l, 48 ≤ c.toNat ∧ c.toNat ≤ 57) ∧ ∃ c ∈ l, 48 ≤ c.toNat ∧ c.toNat ≤ 57 := by
  unfold isDigits at h
  simp only [Bool.and_eq_true, bne_iff_ne, all_eq_true, decide_eq_true_eq] at h
  obtain ⟨hne, hall⟩ := h
  obtain ⟨c, rest, rfl⟩ := exists_cons_of_ne_nil hne
  exact ⟨fun x hx => toNat_bounds (hall x hx), c, mem_cons_self,
    toNat_bounds (hall c mem_cons_self)⟩

/-- The characters of a material number. -/
def IsMaterialChar (c : Char) : Prop :=
  (48 ≤ c.toNat ∧ c.toNat ≤ 57) ∨ (65 ≤ c.toNat ∧ c.toNat ≤ 90) ∨ (97 ≤ c.toNat ∧ c.toNat ≤ 122) ∨
    c = '번' ∨ c = '소' ∨ c = '재'

/-- A material number has a digit. -/
theorem isMaterialNo_spec {m : String} (h : isMaterialNo m = true) :
    (∀ c ∈ m.toList, IsMaterialChar c) ∧ ∃ c ∈ m.toList, 48 ≤ c.toNat ∧ c.toNat ≤ 57 := by
  unfold isMaterialNo at h
  simp only [Bool.or_eq_true, Bool.and_eq_true, beq_iff_eq] at h
  rcases h with h | ⟨hend, h⟩
  · split at h
    · rename_i hletter
      obtain ⟨hall, c, hc, hd⟩ := isDigits_spec h
      refine ⟨fun x hx => ?_, c, mem_of_mem_tail hc, hd⟩
      cases hm : m.toList with
      | nil =>
        rw [hm] at hx
        cases hx
      | cons a rest =>
        rw [hm] at hletter hall hx
        rcases mem_cons.mp hx with rfl | hx
        · simp only [head?_cons, Option.any_some, Bool.or_eq_true, Bool.and_eq_true,
            decide_eq_true_eq] at hletter
          rcases hletter with hx | hx
          · exact .inr (.inl (toNat_bounds hx))
          · exact .inr (.inr (.inl (toNat_bounds hx)))
        · exact .inl (hall x hx)
    · obtain ⟨hall, c, hc, hd⟩ := isDigits_spec h
      exact ⟨fun x hx => .inl (hall x hx), c, hc, hd⟩
  · obtain ⟨hall, c, hc, hd⟩ := isDigits_spec h
    refine ⟨fun x hx => ?_, c, mem_of_mem_take hc, hd⟩
    rw [← take_append_drop (m.toList.length - 3) m.toList, hend] at hx
    rcases mem_append.mp hx with hx | hx
    · exact .inl (hall x hx)
    · have hx : x = '번' ∨ x = '소' ∨ x = '재' := by simpa using hx
      exact .inr (.inr (.inr hx))

theorem isJsSpace_of_graphic (hlow : 33 ≤ c.toNat) (hhigh : c.toNat < 128) :
    isJsSpace c = false := by
  by_contra h
  rw [Bool.not_eq_false] at h
  simp only [isJsSpace, Bool.or_eq_true, Bool.and_eq_true, decide_eq_true_eq, beq_iff_eq] at h
  omega

theorem isJsSpace_of_material (h : IsMaterialChar c) : isJsSpace c = false := by
  rcases h with h | h | h | rfl | rfl | rfl
  · exact isJsSpace_of_graphic (by omega) (by omega)
  · exact isJsSpace_of_graphic (by omega) (by omega)
  · exact isJsSpace_of_graphic (by omega) (by omega)
  · decide
  · decide
  · decide

variable {s : String}

/-- A text without white space is its own `trim`. -/
theorem trim_of_no_space (h : ∀ c ∈ s.toList, isJsSpace c = false) : trim s = s := by
  unfold trim
  rw [trimChars_of_ends (fun c hc => h c (mem_of_mem_head? hc))
    fun c hc => h c (mem_of_mem_getLast? hc), String.ofList_toList]

theorem toUpper_cases (c : Char) : c.toUpper = c ∨ (97 ≤ c.toNat ∧ c.toNat ≤ 122) := by
  unfold Char.toUpper
  split
  · next h => exact .inr ⟨UInt32.le_iff_toNat_le.mp h.1, UInt32.le_iff_toNat_le.mp h.2⟩
  · exact .inl rfl

/-- The characters of a platform, in either case. -/
theorem platform_char (h : String.ofList (s.toList.map Char.toUpper) ∈ SETTING_SUFFIXES) (hc : c ∈ s.toList) :
    33 ≤ c.toNat ∧ c.toNat < 128 ∧ c ≠ '_' ∧ ¬ (48 ≤ c.toNat ∧ c.toNat ≤ 57) := by
  have hup : c.toUpper ∈ (String.ofList (s.toList.map Char.toUpper)).toList := by
    rw [String.toList_ofList]
    exact mem_map_of_mem hc
  have hall : ∀ t ∈ SETTING_SUFFIXES, t.toList.all fun d =>
      33 ≤ d.toNat ∧ d.toNat < 128 ∧ d ≠ '_' ∧ ¬ (48 ≤ d.toNat ∧ d.toNat ≤ 57) := by decide
  rcases toUpper_cases c with e | hlow
  · have := all_iff_forall_prop.mp (hall _ h) _ hup
    rwa [e] at this
  · refine ⟨by omega, by omega, ?_, by omega⟩
    rintro rfl
    exact absurd hlow (by decide)

section
variable {toUpperCase : String → String} (hcase : UpperCases toUpperCase) {m : String}

theorem trim_platform (h : String.ofList (s.toList.map Char.toUpper) ∈ SETTING_SUFFIXES) : trim s = s :=
  trim_of_no_space fun _ hc => isJsSpace_of_graphic (platform_char h hc).1 (platform_char h hc).2.1

theorem trim_material (h : isMaterialNo m = true) : trim m = m :=
  trim_of_no_space fun c hc => isJsSpace_of_material ((isMaterialNo_spec h).1 c hc)

theorem trim_date (h : isDatePrefix s = true) : trim s = s := by
  unfold isDatePrefix at h
  rw [Bool.and_eq_true] at h
  refine trim_of_no_space fun c hc => ?_
  have := (isDigits_spec h.1).1 c hc
  exact isJsSpace_of_graphic (by omega) (by omega)

theorem material_not_platform (h : isMaterialNo m = true) :
    String.ofList (m.toList.map Char.toUpper) ∉ SETTING_SUFFIXES := by
  intro hmem
  obtain ⟨-, c, hc, hdigit⟩ := isMaterialNo_spec h
  exact (platform_char hmem hc).2.2.2 hdigit

theorem platform_not_material (h : String.ofList (s.toList.map Char.toUpper) ∈ SETTING_SUFFIXES) :
    isMaterialNo s = false := by
  by_contra hm
  rw [Bool.not_eq_false] at hm
  exact material_not_platform hm h

theorem material_not_method (h : isMaterialNo m = true) : isMethodToken m = false := by
  by_contra hm
  have e : m = "인플연동" := by simpa [isMethodToken, METHOD_TOKENS] using hm
  rw [e] at h
  exact absurd h (by decide)

theorem platform_not_method (h : String.ofList (s.toList.map Char.toUpper) ∈ SETTING_SUFFIXES) :
    isMethodToken s = false := by
  by_contra hm
  have e : s = "인플연동" := by simpa [isMethodToken, METHOD_TOKENS] using hm
  rw [e] at h
  exact absurd h (by decide)

include hcase

theorem isSettingSuffix_platform (h : String.ofList (s.toList.map Char.toUpper) ∈ SETTING_SUFFIXES) :
    isSettingSuffix toUpperCase s = true := by
  unfold isSettingSuffix
  rw [hcase s fun c hc => .inl (platform_char h hc).2.1]
  exact contains_iff_mem.mpr h

theorem isSettingSuffix_material (h : isMaterialNo m = true) : isSettingSuffix toUpperCase m = false := by
  have hchars : ∀ c ∈ m.toList, c.toNat < 128 ∨ (0xAC00 ≤ c.toNat ∧ c.toNat ≤ 0xD7A3) := by
    intro c hc
    rcases (isMaterialNo_spec h).1 c hc with hc | hc | hc | rfl | rfl | rfl
    · exact .inl (by omega)
    · exact .inl (by omega)
    · exact .inl (by omega)
    · decide
    · decide
    · decide
  unfold isSettingSuffix
  rw [hcase m hchars, Bool.eq_false_iff, ne_eq, contains_iff_mem]
  exact material_not_platform h

theorem isSettingSuffix_method : isSettingSuffix toUpperCase methodToken = false := by
  unfold isSettingSuffix
  rw [hcase methodToken (all_iff_forall_prop.mp (by decide))]
  decide

end

/-! ## 3. Cutting a name -/

/-- The tokens the parser starts from. -/
def cut (adName : String) : List String :=
  (((trim adName).toList.splitOn '_').map fun part => trim (String.ofList part)).filter (· != "")

/-- Trimming the name first changes no trimmed piece. -/
theorem splitOn_trimChars (l : List Char) :
    ((trimChars l).splitOn '_').map trimChars = (l.splitOn '_').map trimChars := by
  obtain ⟨front, back, hl, hfront, hback⟩ := trimChars_split l
  have hnot : ∀ w : List Char, (∀ c ∈ w, isJsSpace c = true) → '_' ∉ w := by
    intro w hw hc
    exact absurd (hw '_' hc) (by decide)
  obtain ⟨init, last, hmid, hright⟩ := splitOn_append_back (hnot back hback) (front ++ trimChars l)
  obtain ⟨head, tail, hcore, hleft⟩ := splitOn_append_front (hnot front hfront) (trimChars l)
  have hfrontOf : trimChars (front ++ head) = trimChars head := by
    have := @trimChars_surround front [] hfront nofun head
    rwa [append_nil] at this
  have hbackOf : trimChars (last ++ back) = trimChars last :=
    @trimChars_surround [] back nofun hback last
  conv_rhs => rw [hl, hright, map_append, map_cons, map_nil, hbackOf]
  have hjoin : (init ++ [last]).map trimChars = ((front ++ head) :: tail).map trimChars := by
    rw [← hmid, hleft]
  rw [map_append, map_cons, map_nil] at hjoin
  rw [hjoin, hcore, map_cons, map_cons, hfrontOf]

variable {tokens : List String}

/-- **A joined name is cut into its trimmed tokens.** -/
theorem cut_join (hne : tokens ≠ []) (htokens : ∀ t ∈ tokens, '_' ∉ t.toList ∧ trim t ≠ "") :
    cut (String.ofList (join '_' (tokens.map String.toList))) = tokens.map trim := by
  have hsplit : (join '_' (tokens.map String.toList)).splitOn '_' = tokens.map String.toList := by
    refine splitOn_intercalate '_' ?_ (by simpa using hne)
    intro l hl
    obtain ⟨t, ht, rfl⟩ := mem_map.mp hl
    exact (htokens t ht).1
  have hpieces := splitOn_trimChars (join '_' (tokens.map String.toList))
  rw [hsplit] at hpieces
  have hmap : ∀ l : List (List Char), (l.map fun part => trim (String.ofList part)) =
      (l.map trimChars).map String.ofList := by
    intro l
    rw [map_map]
    refine map_congr_left fun part _ => ?_
    unfold trim
    rw [String.toList_ofList]
    rfl
  unfold cut
  rw [toList_trim, String.toList_ofList, hmap, hpieces, map_map, map_map]
  refine filter_eq_self.mpr ?_
  intro t ht
  obtain ⟨token, htoken, rfl⟩ := mem_map.mp ht
  exact bne_iff_ne.mpr (htokens token htoken).2

/-! ## 4. The tokens of a name -/

namespace CreativeName

variable (name : CreativeName)

/-- The tokens after the date as the parser reads them. -/
def readBody : List String := name.productParts.map trim ++ [name.materialNo] ++ name.suffix.toList

theorem map_trim_body : name.body.map trim = name.readBody := by
  have hsuffix : name.suffix.toList.map trim = name.suffix.toList := by
    cases h : name.suffix with
    | none => rfl
    | some s =>
      have := trim_platform (name.suffix_isPlatform s h)
      simp [this]
  unfold body readBody
  rw [map_append, map_append, map_singleton, trim_material name.material_isMaterial, hsuffix]

theorem length_readBody : name.readBody.length = name.body.length := by
  rw [← map_trim_body, length_map]

theorem length_body : name.body.length = name.productParts.length + 1 + name.suffix.toList.length := by
  unfold body
  rw [length_append, length_append, length_singleton]

theorem trim_methodToken : trim methodToken = methodToken := by decide

theorem map_trim_insertMethod (tokens : List String) (method : Option Nat) :
    (insertMethod tokens method).map trim = insertMethod (tokens.map trim) method := by
  cases method with
  | none => rfl
  | some k =>
    unfold insertMethod
    rw [map_append, map_cons, trim_methodToken, map_take, map_drop]

variable {t : String} {method : Option Nat}

theorem mem_insertMethod (h : t ∈ insertMethod tokens method) : t ∈ tokens ∨ t = methodToken := by
  cases method with
  | none => exact .inl h
  | some k =>
    rcases mem_append.mp h with h | h
    · exact .inl (mem_of_mem_take h)
    · rcases mem_cons.mp h with h | h
      · exact .inr h
      · exact .inl (mem_of_mem_drop h)

/-- No token is blank and none has a separator. -/
theorem tokens_spec (h : t ∈ name.tokens) : '_' ∉ t.toList ∧ trim t ≠ "" := by
  have hdigits : ∀ {s : String} {c : Char}, (∀ x ∈ s.toList, IsMaterialChar x) → c ∈ s.toList →
      '_' ∉ s.toList ∧ s ≠ "" := by
    intro s c hall hc
    constructor
    · intro hu
      have h := hall '_' hu
      unfold IsMaterialChar at h
      revert h
      decide
    · rintro rfl
      cases hc
  rcases mem_append.mp h with h | h
  · have hdate := name.date_isDate t (Option.mem_toList.mp h)
    have htrim := trim_date hdate
    unfold isDatePrefix at hdate
    rw [Bool.and_eq_true] at hdate
    obtain ⟨hall, c, hc, -⟩ := isDigits_spec hdate.1
    rw [htrim]
    exact hdigits (fun x hx => .inl (hall x hx)) hc
  · rcases mem_insertMethod h with h | rfl
    · unfold body at h
      simp only [mem_append, mem_singleton, Option.mem_toList] at h
      rcases h with (h | rfl) | h
      · exact ⟨name.part_no_separator t h, name.part_nonblank t h⟩
      · rw [trim_material name.material_isMaterial]
        obtain ⟨hall, c, hc, -⟩ := isMaterialNo_spec name.material_isMaterial
        exact hdigits hall hc
      · have hplatform := name.suffix_isPlatform t h
        rw [trim_platform hplatform]
        refine ⟨fun hu => (platform_char hplatform hu).2.2.1 rfl, ?_⟩
        rintro rfl
        exact absurd hplatform (by decide)
    · decide

theorem cut_text : cut name.text = name.date.toList ++ insertMethod name.readBody name.method := by
  have hne : name.tokens ≠ [] := by
    unfold tokens body insertMethod
    cases name.method <;> simp
  have hdate : name.date.toList.map trim = name.date.toList := by
    cases h : name.date with
    | none => rfl
    | some d =>
      have := trim_date (name.date_isDate d h)
      simp [this]
  unfold text
  rw [cut_join hne fun _ ht => name.tokens_spec ht]
  unfold tokens
  rw [map_append, hdate, map_trim_insertMethod, map_trim_body]

/-- The first token after the date is no date. -/
theorem head_readBody : ∃ first rest, insertMethod name.readBody name.method = first :: rest ∧
    isDatePrefix first = false := by
  obtain ⟨p, ps, hparts⟩ := exists_cons_of_ne_nil name.parts_ne_nil
  have hp := name.first_no_date p (by rw [hparts]; rfl)
  have hbody : name.readBody = trim p :: (ps.map trim ++ [name.materialNo] ++ name.suffix.toList) := by
    unfold readBody
    rw [hparts]
    rfl
  rw [hbody]
  cases name.method with
  | none => exact ⟨_, _, rfl, hp⟩
  | some k =>
    cases k with
    | zero => exact ⟨methodToken, _, rfl, by decide⟩
    | succ k => exact ⟨trim p, _, rfl, hp⟩

theorem readBody_no_method (h : t ∈ name.readBody) : isMethodToken t = false := by
  unfold readBody at h
  simp only [mem_append, mem_singleton, Option.mem_toList, mem_map] at h
  rcases h with (⟨p, hp, rfl⟩ | rfl) | h
  · exact name.part_no_method p hp
  · exact material_not_method name.material_isMaterial
  · exact platform_not_method (name.suffix_isPlatform t h)

/-- Without the method token the tokens are the others. -/
theorem filter_insertMethod (tokens : List String) (htokens : ∀ t ∈ tokens, isMethodToken t = false)
    (method : Option Nat) :
    (insertMethod tokens method).filter (fun part => !isMethodToken part) = tokens := by
  have hkeep : ∀ l : List String, (∀ t ∈ l, t ∈ tokens) → l.filter (fun part => !isMethodToken part) = l := by
    intro l hl
    refine filter_eq_self.mpr fun t ht => ?_
    rw [htokens t (hl t ht)]
    rfl
  cases method with
  | none => exact hkeep tokens fun _ h => h
  | some k =>
    unfold insertMethod
    rw [filter_append, filter_cons_of_neg (by decide),
      hkeep _ fun _ h => mem_of_mem_take h, hkeep _ fun _ h => mem_of_mem_drop h,
      take_append_drop]

/-- The last token is the last of the others, unless the method stands behind it. -/
theorem getLast?_insertMethod (hle : ∀ k ∈ method, k ≤ tokens.length) :
    (insertMethod tokens method).getLast? =
      if method = some tokens.length then some methodToken else tokens.getLast? := by
  cases method with
  | none => rfl
  | some k =>
    have hk := hle k rfl
    unfold insertMethod
    by_cases hlast : k = tokens.length
    · subst hlast
      simp
    · have hdrop : tokens.drop k ≠ [] := by
        rw [ne_eq, drop_eq_nil_iff]
        omega
      rw [if_neg (by simpa using hlast), getLast?_append, getLast?_cons]
      have htokens : tokens.getLast? = (tokens.drop k).getLast? := by
        conv_lhs => rw [← take_append_drop k tokens]
        rw [getLast?_append]
        cases h : (tokens.drop k).getLast? with
        | none => exact absurd (getLast?_eq_none_iff.mp h) hdrop
        | some x => rfl
      rw [htokens]
      cases h : (tokens.drop k).getLast? with
      | none => exact absurd (getLast?_eq_none_iff.mp h) hdrop
      | some x => rfl

end CreativeName

/-! ## 5. What the parser keeps -/

/-- The fields of a name once the date, the platform and the method are gone: `final` is what is
    left when a trailing setting is too. -/
theorem parse_final {toUpperCase : String → String} {adName : String} {date suffix : Option String}
    {rest kept final : List String}
    (hdate : (cut adName).head?.filter isDatePrefix = date)
    (hrest : (if date.isSome then (cut adName).tail else cut adName) = rest)
    (hsuffix : rest.getLast?.filter (isSettingSuffix toUpperCase) = suffix)
    (hkept : ((if suffix.isSome then rest.dropLast else rest).filter fun part => !isMethodToken part) = kept)
    (hfinal : (if (suffix.isNone && date.isSome && 3 ≤ kept.length &&
      kept.dropLast.getLast?.any isMaterialNo && !kept.getLast?.any isMaterialNo) = true
      then kept.dropLast else kept) = final)
    (hlen : 2 ≤ final.length) :
    (parse toUpperCase adName).parseStatus = .PARSED ∧
    (parse toUpperCase adName).productName = some (String.intercalate "_" final.dropLast) ∧
    (parse toUpperCase adName).materialNo = some (final.getLast?.getD "") ∧
    (parse toUpperCase adName).creativeKey =
      String.intercalate "_" final.dropLast ++ "_" ++ final.getLast?.getD "" := by
  subst hdate hrest hsuffix hkept
  have hparse : parse toUpperCase adName =
      { originalName := trim adName
        dateCode := (cut adName).head?.filter isDatePrefix
        productName := some (String.intercalate "_" final.dropLast)
        materialNo := some (final.getLast?.getD "")
        setting := (parse toUpperCase adName).setting
        creativeKey := String.intercalate "_" final.dropLast ++ "_" ++ final.getLast?.getD ""
        displayName := String.intercalate "_" final.dropLast ++ "_" ++ final.getLast?.getD ""
        parseStatus := .PARSED } := by
    have hnot : ¬ final.length < 2 := by omega
    subst hfinal
    unfold parse
    unfold cut at hnot ⊢
    rw [if_neg hnot]
  rw [hparse]
  exact ⟨rfl, rfl, rfl, rfl⟩

section
variable {toUpperCase : String → String} (hcase : UpperCases toUpperCase) (name : CreativeName)

/-- The parts of the product and the material number. -/
def CreativeName.kept : List String := name.productParts.map trim ++ [name.materialNo]

theorem CreativeName.two_le_kept : 2 ≤ name.kept.length := by
  have := length_pos_iff.mpr name.parts_ne_nil
  unfold kept
  rw [length_append, length_map, length_singleton]
  omega

theorem CreativeName.getLast?_kept : name.kept.getLast? = some name.materialNo :=
  getLast?_concat

theorem CreativeName.dropLast_kept : name.kept.dropLast = name.productParts.map trim :=
  dropLast_concat

theorem CreativeName.readBody_eq : name.readBody = name.kept ++ name.suffix.toList := rfl

/-- The date is taken off the front, and nothing else. -/
theorem date_cut : (cut name.text).head?.filter isDatePrefix = name.date ∧
    (if name.date.isSome then (cut name.text).tail else cut name.text) =
      CreativeName.insertMethod name.readBody name.method := by
  obtain ⟨first, rest, hfirst, hno⟩ := name.head_readBody
  rw [name.cut_text]
  cases hdate : name.date with
  | none =>
    rw [hfirst]
    refine ⟨?_, rfl⟩
    show (some first).filter isDatePrefix = none
    rw [Option.filter_some, if_neg (by rw [hno]; decide)]
  | some d =>
    refine ⟨?_, rfl⟩
    show (some d).filter isDatePrefix = some d
    rw [Option.filter_some, if_pos (name.date_isDate d hdate)]

theorem getLast?_tokens : (CreativeName.insertMethod name.readBody name.method).getLast? =
    if name.method = some name.body.length then some methodToken else name.readBody.getLast? := by
  rw [← name.length_readBody]
  refine CreativeName.getLast?_insertMethod fun k hk => ?_
  rw [name.length_readBody, name.length_body]
  exact name.method_le k hk

/-- A material number at the end is no setting. -/
theorem no_trailing (suffix : Option String) (dated : Bool) :
    (if (suffix.isNone && dated && 3 ≤ name.kept.length && name.kept.dropLast.getLast?.any isMaterialNo &&
      !name.kept.getLast?.any isMaterialNo) = true then name.kept.dropLast else name.kept) = name.kept := by
  rw [name.getLast?_kept, Option.any_some, name.material_isMaterial]
  simp

include hcase

/-- What is left when no method hides the platform. -/
theorem final_of_not_methodLast (h : ¬ name.MethodLast) : ∃ suffix : Option String,
    (CreativeName.insertMethod name.readBody name.method).getLast?.filter (isSettingSuffix toUpperCase) =
      suffix ∧
    ((if suffix.isSome then (CreativeName.insertMethod name.readBody name.method).dropLast
      else CreativeName.insertMethod name.readBody name.method).filter fun part => !isMethodToken part) =
      name.kept := by
  have hfilter := CreativeName.filter_insertMethod name.readBody (fun _ ht => name.readBody_no_method ht)
    name.method
  have hlast := getLast?_tokens name
  cases hs : name.suffix with
  | none =>
    have hbody : name.readBody = name.kept := by
      rw [name.readBody_eq, hs]
      exact append_nil _
    refine ⟨none, ?_, by rw [if_neg (by decide), hfilter, hbody]⟩
    rw [hlast]
    split
    · rw [Option.filter_some, if_neg (by rw [isSettingSuffix_method hcase]; decide)]
    · rw [hbody, name.getLast?_kept, Option.filter_some,
        if_neg (by rw [isSettingSuffix_material hcase name.material_isMaterial]; decide)]
  | some s =>
    have hplatform := name.suffix_isPlatform s hs
    have hbody : name.readBody = name.kept ++ [s] := by
      rw [name.readBody_eq, hs]
      rfl
    have hnot : ¬ name.method = some name.body.length := fun hm => h ⟨by rw [hs]; rfl, hm⟩
    rw [if_neg hnot, hbody, getLast?_concat] at hlast
    refine ⟨some s, ?_, ?_⟩
    · rw [hbody, hlast, Option.filter_some, if_pos (isSettingSuffix_platform hcase hplatform)]
    · have hsplit := dropLast_append_getLast? s hlast
      rw [hbody, ← hsplit, filter_append, filter_cons_of_pos
        (by rw [platform_not_method hplatform]; rfl)] at hfilter
      rw [Option.isSome_some, hbody]
      exact append_cancel_right hfilter

/-- A name whose method does not hide the platform is read back. -/
theorem parsesBack_of_not_methodLast (h : ¬ name.MethodLast) : ParsesBack toUpperCase name := by
  obtain ⟨hdate, hrest⟩ := date_cut name
  obtain ⟨suffix, hsuffix, hkept⟩ := final_of_not_methodLast hcase name h
  obtain ⟨h1, h2, h3, h4⟩ := parse_final hdate hrest hsuffix hkept
    (no_trailing name suffix name.date.isSome) name.two_le_kept
  rw [name.dropLast_kept] at h2 h4
  rw [name.getLast?_kept] at h3 h4
  exact ⟨h1, h2, h3, h4⟩

/-- A platform hidden by the method is taken for a setting when a date stands in front, and for the
    material otherwise. -/
theorem parse_of_methodLast (hs : name.suffix = some s) (hm : name.method = some name.body.length) :
    (name.date.isSome = true → ParsesBack toUpperCase name) ∧
    (name.date = none → (parse toUpperCase name.text).materialNo = some s) := by
  obtain ⟨hdate, hrest⟩ := date_cut name
  have hplatform := name.suffix_isPlatform s hs
  have hbody : name.readBody = name.kept ++ [s] := by
    rw [name.readBody_eq, hs]
    rfl
  have hsuffix : (CreativeName.insertMethod name.readBody name.method).getLast?.filter
      (isSettingSuffix toUpperCase) = none := by
    rw [getLast?_tokens name, if_pos hm, Option.filter_some,
      if_neg (by rw [isSettingSuffix_method hcase]; decide)]
  have hkept : ((if (none : Option String).isSome
      then (CreativeName.insertMethod name.readBody name.method).dropLast
      else CreativeName.insertMethod name.readBody name.method).filter fun part => !isMethodToken part) =
      name.kept ++ [s] := by
    rw [if_neg (by decide), CreativeName.filter_insertMethod name.readBody
      (fun _ ht => name.readBody_no_method ht), hbody]
  have hlen := name.two_le_kept
  have hfinal : (if ((none : Option String).isNone && name.date.isSome && 3 ≤ (name.kept ++ [s]).length &&
      (name.kept ++ [s]).dropLast.getLast?.any isMaterialNo &&
      !(name.kept ++ [s]).getLast?.any isMaterialNo) = true
      then (name.kept ++ [s]).dropLast else name.kept ++ [s]) =
      if name.date.isSome = true then name.kept else name.kept ++ [s] := by
    rw [dropLast_concat, getLast?_concat, name.getLast?_kept, Option.any_some, Option.any_some,
      name.material_isMaterial, platform_not_material hplatform]
    have : 3 ≤ name.kept.length + 1 := by omega
    simp [this]
  constructor
  · intro hd
    obtain ⟨h1, h2, h3, h4⟩ :=
      parse_final hdate hrest hsuffix hkept (hfinal.trans (if_pos hd)) hlen
    rw [name.dropLast_kept] at h2 h4
    rw [name.getLast?_kept] at h3 h4
    exact ⟨h1, h2, h3, h4⟩
  · intro hd
    obtain ⟨-, -, h3, -⟩ := parse_final hdate hrest hsuffix hkept
      (hfinal.trans (if_neg (by simp [hd]))) (by rw [length_append]; omega)
    rw [getLast?_concat] at h3
    exact h3

/-- **Product and material are read back unless** the method stands behind the platform of a name
    without a date; names of one product and material then have one key. -/
theorem creative_name_parses_back_iff :
    (ParsesBack toUpperCase name ↔ ¬ (name.date = none ∧ name.MethodLast)) ∧
    (∀ other : CreativeName, other.productParts = name.productParts →
      other.materialNo = name.materialNo → ¬ (name.date = none ∧ name.MethodLast) →
      ¬ (other.date = none ∧ other.MethodLast) →
      (parse toUpperCase other.text).creativeKey = (parse toUpperCase name.text).creativeKey) := by
  have hback : ∀ name : CreativeName, ¬ (name.date = none ∧ name.MethodLast) → ParsesBack toUpperCase name := by
    intro name h
    by_cases hlast : name.MethodLast
    · obtain ⟨hs, hm⟩ := hlast
      obtain ⟨s, hs'⟩ := Option.isSome_iff_exists.mp hs
      refine (parse_of_methodLast hcase name hs' hm).1 ?_
      rw [← Option.ne_none_iff_isSome]
      exact fun hd => h ⟨hd, hs, hm⟩
    · exact parsesBack_of_not_methodLast hcase name hlast
  refine ⟨⟨?_, hback name⟩, ?_⟩
  · rintro hparses ⟨hd, hs, hm⟩
    obtain ⟨s, hs'⟩ := Option.isSome_iff_exists.mp hs
    have hmaterial := (parse_of_methodLast hcase name hs' hm).2 hd
    rw [hparses.material] at hmaterial
    have hplatform := platform_not_material (name.suffix_isPlatform s hs')
    rw [← Option.some.inj hmaterial, name.material_isMaterial] at hplatform
    cases hplatform
  · intro other hparts hmaterial hname hother
    rw [(hback name hname).key, (hback other hother).key, hmaterial]
    unfold CreativeName.product
    rw [hparts]

end

/-- The name of one product part, material 1 and a platform, with the method at a place. -/
def platformName (method : Nat) (h : method ≤ 3) : CreativeName where
  date := none
  productParts := ["상품"]
  materialNo := "1"
  suffix := some "ig"
  method := some method
  date_isDate := nofun
  parts_ne_nil := by decide
  part_nonblank := by decide +kernel
  part_no_separator := by decide +kernel
  part_no_method := by decide +kernel
  first_no_date := by decide +kernel
  material_isMaterial := by decide +kernel
  suffix_isPlatform := by decide +kernel
  method_le := by
    intro k hk
    cases hk
    exact h

/-- `상품_인플연동_1_ig`. -/
theorem creative_name_parses_back_method_inside : ParsesBack asciiUpperCase (platformName 1 (by decide)) :=
  (creative_name_parses_back_iff (fun _ _ => rfl) (platformName 1 (by decide))).1.mpr
    fun h => absurd h.2.2 (by decide +kernel)

/-- In `상품_1_ig_인플연동` the platform is taken for the material. -/
theorem creative_name_method_last :
    (platformName 3 (by decide)).text = "상품_1_ig_인플연동" ∧
      (parse asciiUpperCase "상품_1_ig_인플연동").materialNo = some "ig" ∧
      (parse asciiUpperCase "상품_1_ig_인플연동").creativeKey = "상품_1_ig" ∧
      ¬ ∀ name, ParsesBack asciiUpperCase name := by
  have htext : (platformName 3 (by decide)).text = "상품_1_ig_인플연동" := by decide +kernel
  have hmaterial : (parse asciiUpperCase "상품_1_ig_인플연동").materialNo = some "ig" := by decide +kernel
  refine ⟨htext, hmaterial, by decide +kernel, ?_⟩
  intro h
  have hone := (h (platformName 3 (by decide))).material
  exact absurd hone (by decide +kernel)

end AdsManagement.Meta.CreativeNameParser
