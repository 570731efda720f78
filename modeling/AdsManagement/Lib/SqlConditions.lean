/-
  File:      Lib/SqlConditions.lean
  Subject:   CONDITIONS IN SQL TEXT: the tokens, the grammar and the meaning of conditions made of
             comparisons of a column with a literal, LIKE, AND and OR.

  * `lexSql`, `parseSql` -- the condition a text is;
  * `SqlCondition.holds` -- its meaning in a row;
  * `lexFrom_quoted` -- a quoted literal is read back, whatever it holds;
  * `likeMatches_prefix` -- a pattern that ends in its only wildcard matches by prefix.
-/
import Mathlib.Data.List.Infix

namespace AdsManagement.Lib

open List

/-! ## 1. Tokens -/

inductive SqlToken where
  | word (name : List Char)
  | literal (text : List Char)
  | open
  | close
  | equals

def isSqlWordChar (c : Char) : Bool := c.isAlphanum || c = '_'

/-- Between tokens or in a word, or in a literal; with the characters read so far, last first. -/
inductive LexState where
  | plain (word : List Char)
  | quoted (text : List Char)

/-- The tokens of a text after those already read, last first. -/
def lexFrom (done : List SqlToken) : LexState → List Char → Option (List SqlToken)
  | .plain _, [] => some done
  | .quoted _, [] => none
  | .quoted text, '\'' :: '\'' :: rest => lexFrom done (.quoted ('\'' :: text)) rest
  | .quoted text, '\'' :: rest => lexFrom (.literal text.reverse :: done) (.plain []) rest
  | .quoted text, c :: rest => lexFrom done (.quoted (c :: text)) rest
  | .plain word, c :: rest =>
    if isSqlWordChar c then
      if rest.head?.any isSqlWordChar then lexFrom done (.plain (c :: word)) rest
      else lexFrom (.word (c :: word).reverse :: done) (.plain []) rest
    else
      match c with
      | ' ' => lexFrom done (.plain []) rest
      | '(' => lexFrom (.open :: done) (.plain []) rest
      | ')' => lexFrom (.close :: done) (.plain []) rest
      | '=' => lexFrom (.equals :: done) (.plain []) rest
      | '\'' => lexFrom done (.quoted []) rest
      | _ => none

def lexSql (text : List Char) : Option (List SqlToken) := (lexFrom [] (.plain []) text).map reverse

/-- Every quote is doubled. -/
def sqlEscape (text : List Char) : List Char := text.flatMap fun c => if c = '\'' then ['\'', '\''] else [c]

def sqlQuoted (text : List Char) : List Char := '\'' :: (sqlEscape text ++ ['\''])

theorem lexFrom_escaped (text : List Char) : ∀ (done : List SqlToken) (read rest : List Char),
    rest.head? ≠ some '\'' → lexFrom done (.quoted read) (sqlEscape text ++ '\'' :: rest) =
      lexFrom (.literal (read.reverse ++ text) :: done) (.plain []) rest := by
  induction text with
  | nil =>
    intro done read rest hrest
    rw [append_nil]
    cases rest with
    | nil => rfl
    | cons d rest =>
      have hd : d ≠ '\'' := fun h => hrest (by rw [h]; rfl)
      show lexFrom done (.quoted read) ('\'' :: d :: rest) = _
      rw [lexFrom]
      exact fun _ h => hd (cons.inj h).1
  | cons c text ih =>
    intro done read rest hrest
    by_cases hc : c = '\''
    · have hescape : sqlEscape (c :: text) = '\'' :: '\'' :: sqlEscape text := by
        unfold sqlEscape
        rw [flatMap_cons, if_pos hc]
        rfl
      rw [hescape, cons_append, cons_append, lexFrom, ih _ _ _ hrest, reverse_cons,
        append_assoc, hc]
      rfl
    · have hescape : sqlEscape (c :: text) = c :: sqlEscape text := by
        unfold sqlEscape
        rw [flatMap_cons, if_neg hc]
        rfl
      rw [hescape, cons_append, lexFrom, ih _ _ _ hrest, reverse_cons, append_assoc]
      · rfl
      · exact fun _ h => absurd h hc
      · exact hc

/-- **A quoted literal is read back.** -/
theorem lexFrom_quoted (done : List SqlToken) (text : List Char) {rest : List Char}
    (hrest : rest.head? ≠ some '\'') :
    lexFrom done (.plain []) (sqlQuoted text ++ rest) =
      lexFrom (.literal text :: done) (.plain []) rest := by
  unfold sqlQuoted
  rw [cons_append, append_assoc]
  exact lexFrom_escaped text done [] rest hrest

/-! ## 2. Conditions -/

inductive SqlCondition where
  | equals (column text : List Char)
  | like (column pattern : List Char)
  | and (a b : SqlCondition)
  | or (a b : SqlCondition)

/-- `LIKE`: `%` stands for any text, `_` for any character, a backslash for the next character. -/
def likeMatches : List Char → List Char → Bool
  | [], text => text.isEmpty
  | '%' :: pattern, text => text.tails.any fun rest => likeMatches pattern rest
  | '_' :: pattern, _ :: text => likeMatches pattern text
  | '\\' :: c :: pattern, d :: text => c = d && likeMatches pattern text
  | c :: pattern, d :: text => c = d && likeMatches pattern text
  | _ :: _, [] => false

def SqlCondition.holds (row : List Char → List Char) : SqlCondition → Bool
  | .equals column text => row column = text
  | .like column pattern => likeMatches pattern (row column)
  | .and a b => a.holds row && b.holds row
  | .or a b => a.holds row || b.holds row

mutual
def parseOr : Nat → List SqlToken → Option (SqlCondition × List SqlToken)
  | 0, _ => none
  | fuel + 1, tokens => do
    let (a, tokens) ← parseAnd fuel tokens
    match tokens with
    | .word ['O', 'R'] :: tokens => do
      let (b, tokens) ← parseOr fuel tokens
      return (.or a b, tokens)
    | tokens => return (a, tokens)

def parseAnd : Nat → List SqlToken → Option (SqlCondition × List SqlToken)
  | 0, _ => none
  | fuel + 1, tokens => do
    let (a, tokens) ← parseAtom fuel tokens
    match tokens with
    | .word ['A', 'N', 'D'] :: tokens => do
      let (b, tokens) ← parseAnd fuel tokens
      return (.and a b, tokens)
    | tokens => return (a, tokens)

def parseAtom : Nat → List SqlToken → Option (SqlCondition × List SqlToken)
  | 0, _ => none
  | fuel + 1, .open :: tokens => do
    let (a, tokens) ← parseOr fuel tokens
    match tokens with
    | .close :: tokens => return (a, tokens)
    | _ => none
  | _ + 1, .word column :: .equals :: .literal text :: tokens => some (.equals column text, tokens)
  | _ + 1, .word column :: .word ['L', 'I', 'K', 'E'] :: .literal pattern :: tokens =>
    some (.like column pattern, tokens)
  | _ + 1, _ => none
end

/-- The condition of a text; three levels of the grammar for each token are enough. -/
def parseSql (text : List Char) : Option SqlCondition := do
  let tokens ← lexSql text
  let (condition, rest) ← parseOr (3 * tokens.length + 3) tokens
  if rest = [] then some condition else none

/-- A pattern whose only wildcard ends it matches by prefix. -/
theorem likeMatches_prefix {p : List Char} (hp : ∀ c ∈ p, c ≠ '%' ∧ c ≠ '_' ∧ c ≠ '\\') (text : List Char) :
    likeMatches (p ++ ['%']) text = p.isPrefixOf text := by
  induction p generalizing text with
  | nil =>
    show text.tails.any (fun rest => rest.isEmpty) = true
    rw [any_eq_true]
    exact ⟨[], (mem_tails _ _).mpr (nil_suffix), rfl⟩
  | cons c p ih =>
    obtain ⟨h1, h2, h3⟩ := hp c mem_cons_self
    have ih' := ih fun d hd => hp d (mem_cons_of_mem _ hd)
    rw [cons_append]
    cases text with
    | nil => simp [likeMatches]
    | cons d text =>
      rw [isPrefixOf, ← ih' text, likeMatches]
      · rfl
      · exact h1
      · exact h2
      · exact fun _ _ h _ => h3 h

end AdsManagement.Lib
