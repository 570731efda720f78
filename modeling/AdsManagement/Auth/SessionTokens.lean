/-
  File:      Auth/SessionTokens.lean
  Subject:   THE TEXT OF A LOCAL SESSION TOKEN (local-auth.service.ts): its hash, and the session it
             says it belongs to.

  A token is the id of its session, a proof of that id and a random part, joined by dots. Two
  HMACs are functions of Node; `TokenCrypto.Sound` is what is relied on.

  * `tokenHash`, `createSessionToken`, `validSessionFamilyId`;
  * `tokenHash_text_inj` -- only the token itself has its hash;
  * `validSessionFamilyId_text` -- a token names its session.
-/
import AdsManagement.Common.Patterns
import AdsManagement.Lib.Separated

namespace AdsManagement.Auth

open Lib Common

/-- The HMACs, their keys applied. -/
structure TokenCrypto where
  /-- Of `session\0` and the token, in hexadecimal digits. -/
  sessionHmac : String → String
  /-- `sessionFamilyProof`. -/
  familyProof : String → String

/-- `"0".repeat(64)`. -/
def zeroHash : String := String.ofList (List.replicate 64 '0')

structure TokenCrypto.Sound (crypto : TokenCrypto) : Prop where
  injective : Function.Injective crypto.sessionHmac
  notZero : ∀ token, crypto.sessionHmac token ≠ zeroHash
  proofForm : ∀ id, isBase64UrlOf 43 (crypto.familyProof id) = true

/-- The parts of a token. -/
def tokenParts (token : String) : List String := (token.toList.splitOn '.').map String.ofList

/-- `[0-9a-f-]{36}` in either case. -/
def isSessionIdPart (s : String) : Bool := s.toList.length = 36 && s.toList.all fun c => isHex c || c = '-'

/-- The pattern `tokenHash` checks for a session token. -/
def isSessionToken (token : String) : Bool :=
  match tokenParts token with
  | [id, proof, nonce] => isSessionIdPart id && isBase64UrlOf 43 proof && isBase64UrlOf 43 nonce
  | _ => false

def tokenHash (crypto : TokenCrypto) (token : String) : String :=
  if isSessionToken token then crypto.sessionHmac token else zeroHash

def createSessionToken (crypto : TokenCrypto) (sessionId nonce : String) : String :=
  String.ofList (join '.' [sessionId.toList, (crypto.familyProof sessionId).toList, nonce.toList])

/-- `/^…-[1-8]…-[89ab]…-…$/i`, the id of a family. -/
def isFamilyId (s : String) : Bool := isUuid ['1', '2', '3', '4', '5', '6', '7', '8'] s

def validSessionFamilyId (crypto : TokenCrypto) (token : String) : Option String :=
  let part (i : Nat) : String := ((tokenParts token)[i]?).getD ""
  if part 3 ≠ "" ∨ part 0 = "" ∨ part 1 = "" ∨ part 2 = "" ∨ !isFamilyId (part 0) ∨
      !isBase64UrlOf 43 (part 1) ∨ !isBase64UrlOf 43 (part 2) then none
  else if part 1 = crypto.familyProof (part 0) then some (part 0)
  else none

/-- A token that was issued: the session, and the random part. -/
structure SessionToken where
  sessionId : String
  nonce : String
deriving DecidableEq

def SessionToken.text (crypto : TokenCrypto) (token : SessionToken) : String :=
  createSessionToken crypto token.sessionId token.nonce

/-- The forms of `randomUUID` and of 32 random bytes. -/
structure SessionToken.WellFormed (token : SessionToken) : Prop where
  idPart : isSessionIdPart token.sessionId = true
  familyId : isFamilyId token.sessionId = true
  nonce : isBase64UrlOf 43 token.nonce = true

variable {crypto : TokenCrypto} {token : SessionToken}

section

variable (hc : crypto.Sound) (ht : token.WellFormed)
include hc ht

theorem tokenParts_text : tokenParts (token.text crypto) =
      [token.sessionId, crypto.familyProof token.sessionId, token.nonce] := by
  have hid := ht.idPart
  have hproof := hc.proofForm token.sessionId
  have hnonce := ht.nonce
  simp only [isSessionIdPart, isBase64UrlOf, Bool.and_eq_true] at hid hproof hnonce
  have hparts : ∀ l ∈ [token.sessionId.toList, (crypto.familyProof token.sessionId).toList,
      token.nonce.toList], '.' ∉ l := by
    intro l hl
    simp only [List.mem_cons, List.not_mem_nil, or_false] at hl
    rcases hl with rfl | rfl | rfl
    · exact dot_not_mem_of_all (by decide) hid.2
    · exact dot_not_mem_of_all (by decide) hproof.2
    · exact dot_not_mem_of_all (by decide) hnonce.2
  unfold tokenParts SessionToken.text createSessionToken
  rw [String.toList_ofList, splitOn_join (List.cons_ne_nil _ _), pieces_of_not_mem hparts]
  simp

theorem isSessionToken_text : isSessionToken (token.text crypto) = true := by
  unfold isSessionToken
  rw [tokenParts_text hc ht]
  simp only [ht.idPart, hc.proofForm, ht.nonce, Bool.and_self]

/-- **Only the token itself has its hash.** -/
theorem tokenHash_text_inj {presented : String}
    (h : tokenHash crypto presented = tokenHash crypto (token.text crypto)) :
    presented = token.text crypto := by
  unfold tokenHash at h
  rw [if_pos (isSessionToken_text hc ht)] at h
  split at h
  · exact hc.injective h
  · exact absurd h.symm (hc.notZero _)

end

theorem SessionToken.text_inj (hc : crypto.Sound) {token' : SessionToken} (ht : token.WellFormed)
    (ht' : token'.WellFormed) (h : token.text crypto = token'.text crypto) : token = token' := by
  have hparts := tokenParts_text hc ht
  rw [h, tokenParts_text hc ht'] at hparts
  cases token'
  simp_all

/-- **A token names its session.** -/
theorem validSessionFamilyId_text (hc : crypto.Sound) (ht : token.WellFormed) :
    validSessionFamilyId crypto (token.text crypto) = some token.sessionId := by
  have hne : ∀ s : String, isBase64UrlOf 43 s = true → s ≠ "" := by
    rintro s hs rfl
    cases hs
  have hid : token.sessionId ≠ "" := by
    intro he
    have := ht.idPart
    rw [he] at this
    cases this
  unfold validSessionFamilyId
  simp only [tokenParts_text hc ht]
  simp [hid, hne _ (hc.proofForm _), hne _ ht.nonce, ht.familyId, hc.proofForm, ht.nonce]

end AdsManagement.Auth
