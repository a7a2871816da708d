/-
A parser that goes on after errors.

* **`Parser.Call`, `Parser.after`** — what a parser is asked for, and its state behind some calls;
* **`Parser.Resumes`** — what a call comes to, compared with that of a new parser at the same token;
* **`Parser.Undisturbed`** — every call returns what a new parser returns, and leaves the links as
  they were;
* **`Parser.resumes_after`** — all calls resume, and they are undisturbed exactly if none of them
  leaves links behind.

Design notes: the levels of nesting are an argument of the productions, so no call can change them;
the links are part of the state, and a chain that ends with an error does not set them back.
-/
import Mathlib.Data.Nat.Find
import PathQuery.Proofs.Parser.Links
import PathQuery.Proofs.Parser.Query

namespace PathQuery

namespace Parser

/-- What a parser is asked for. -/
inductive Call where
  | expression
  | query
deriving DecidableEq, Repr

/-- The production behind a call. -/
def Call.parser : Call → Parser Expr
  | .expression => Parser.expression
  | .query => Parser.query

/-- The answer to a call and the state behind it. -/
def Call.run (call : Call) (s : ParserState) : Except ParseError Expr × ParserState :=
  call.parser.runOn s

/-- The state behind calls in turn, whatever their answers are. -/
def after (s : ParserState) (calls : List Call) : ParserState :=
  calls.foldl (fun s call => (call.run s).2) s

/-- What a call comes to in a state: with few enough links from earlier calls it is that of a new
parser at the same token, with more it is an error. -/
structure Resumes (call : Call) (s : ParserState) : Prop where
  links_le : s.links ≤ maxChain
  exists_room : ∃ room, ∀ links ≤ maxChain,
    (links ≤ room → call.run (s.withLinks links) =
      ((call.run (s.withLinks 0)).1, (call.run (s.withLinks 0)).2.raised links)) ∧
    (room < links → ∃ position,
      (call.run (s.withLinks links)).1 = .error ⟨.tooDeep maxChain, position⟩)
  links_of_ok : ∀ e, (call.run s).1 = .ok e → (call.run s).2.links = s.links
  le_links : s.links ≤ (call.run s).2.links

/-- Every call returns what a new parser at the same token returns, and leaves the links as they
were. -/
def Undisturbed : ParserState → List Call → Prop
  | _, [] => True
  | s, call :: calls =>
    call.run s = ((call.run (s.withLinks 0)).1, (call.run (s.withLinks 0)).2.withLinks s.links) ∧
      Undisturbed (call.run s).2 calls

/-- No call, made by a new parser at its token, leaves links behind. -/
def LeavesNone : ParserState → List Call → Prop
  | _, [] => True
  | s, call :: calls =>
    (call.run (s.withLinks 0)).2.links = 0 ∧ LeavesNone (call.run s).2 calls

/-! ### One call -/

theorem counts_call (call : Call) : Counts call.parser := by
  cases call with
  | expression => exact counts_expression
  | query => exact counts_query

/-- A query only looks at the token behind its expression. -/
theorem runOn_expression_of_call {call : Call} {s s' : ParserState} {e : Expr}
    (h : call.run s = (.ok e, s')) : expression.runOn s = (.ok e, s') := by
  cases call with
  | expression => exact h
  | query =>
    rw [Call.run, Call.parser, query] at h
    obtain ⟨e', s₁, hrun, hend⟩ := runOn_bind_eq_ok.1 h
    rw [runOn_bind_of_ok (runOn_peek s₁)] at hend
    split at hend
    case h_1 =>
      obtain ⟨rfl, rfl⟩ := runOn_pure_eq_ok.1 hend
      exact hrun
    case h_2 => exact absurd hend (by simp)
    case h_3 => exact absurd hend (by simp)
    case h_4 => exact absurd hend runOn_unexpected_ne_ok

theorem links_of_call_ok {call : Call} {s s' : ParserState} {e : Expr} (hs : s.links ≤ maxChain)
    (h : call.run s = (.ok e, s')) : s'.links = s.links := by
  obtain ⟨t, ht⟩ := derives_expression hs (runOn_expression_of_call h)
  exact ht.links

/-! ### Room for links -/

variable {α : Type}

/-- Whether an answer is that the links are used up. -/
def IsFull (r : Except ParseError α × ParserState) : Prop :=
  ∃ position, r.1 = .error ⟨.tooDeep maxChain, position⟩

/-- Where the links are used up, so are they with more of them. -/
theorem Shifted.isFull {n : Nat} {r r' : Except ParseError α × ParserState} (h : Shifted n r r')
    (hr : IsFull r) : IsFull r' := by
  cases h with
  | same answer s => exact hr
  | full r position s => exact ⟨position, rfl⟩

/-- For each run there are as many links as it has room for: with so many more it comes to the same,
and with more than that the links are used up. -/
theorem Counts.exists_room {p : Parser α} (hp : Counts p) (s : ParserState) (limit : Nat) :
    ∃ room, ∀ n ≤ limit,
      (n ≤ room → runOn p (s.raised n) = ((runOn p s).1, (runOn p s).2.raised n)) ∧
      (room < n → IsFull (runOn p (s.raised n))) := by
  have hcases : ∀ n, runOn p (s.raised n) = ((runOn p s).1, (runOn p s).2.raised n) ∨
      IsFull (runOn p (s.raised n)) := by
    intro n
    have hshifted := hp.shifted s n
    generalize runOn p s = r, runOn p (s.raised n) = r' at hshifted ⊢
    cases hshifted with
    | same answer s' => exact .inl rfl
    | full r position s' => exact .inr ⟨position, rfl⟩
  have hmono : ∀ m n, m ≤ n → IsFull (runOn p (s.raised m)) → IsFull (runOn p (s.raised n)) := by
    intro m n hmn hm
    have hshifted := hp.shifted (s.raised m) (n - m)
    rw [s.raised_raised, Nat.add_sub_cancel' hmn] at hshifted
    exact hshifted.isFull hm
  by_cases hfull : IsFull (runOn p s)
  · -- Without any more links they are used up already.
    refine ⟨0, fun n _ => ⟨fun h0 => ?_, fun _ => hmono 0 n (Nat.zero_le n) hfull⟩⟩
    rw [Nat.le_zero.1 h0]
    rfl
  · classical
    -- The most links with which the run comes to the same.
    let room := Nat.findGreatest (fun n => ¬ IsFull (runOn p (s.raised n))) limit
    have hroom : ¬ IsFull (runOn p (s.raised room)) :=
      Nat.findGreatest_spec (P := fun n => ¬ IsFull (runOn p (s.raised n))) (Nat.zero_le limit)
        hfull
    refine ⟨room, fun n hn => ⟨fun hle => ?_, fun hlt => ?_⟩⟩
    · exact (hcases n).resolve_right fun h => hroom (hmono n room hle h)
    · exact not_not.1 (Nat.findGreatest_is_greatest hlt hn)

theorem resumes {s : ParserState} (hs : s.links ≤ maxChain) (call : Call) : Resumes call s where
  links_le := hs
  exists_room := by
    obtain ⟨room, hroom⟩ := (counts_call call).exists_room (s.withLinks 0) maxChain
    refine ⟨room, fun links hlinks => ?_⟩
    rw [← s.raised_withLinks_zero links]
    exact hroom links hlinks
  links_of_ok e he := links_of_call_ok hs (Prod.ext he rfl)
  le_links := (counts_call call).le s

/-! ### Calls in turn -/

/-- The links stay within the limit, by induction on the calls. -/
theorem links_after_le (calls : List Call) {s : ParserState} (hs : s.links ≤ maxChain) :
    (after s calls).links ≤ maxChain := by
  induction calls generalizing s with
  | nil => exact hs
  | cons call calls ih => exact ih ((counts_call call).le_maxChain s hs)

/-- A parser without links is a new one, and stays one as long as no call leaves links behind. -/
theorem undisturbed_iff (calls : List Call) {s : ParserState} (hs : s.links = 0) :
    Undisturbed s calls ↔ LeavesNone s calls := by
  induction calls generalizing s with
  | nil => exact Iff.rfl
  | cons call calls ih =>
    have hnew : s.withLinks 0 = s := hs ▸ rfl
    rw [Undisturbed, LeavesNone, hnew, hs]
    constructor
    · rintro ⟨hcall, hcalls⟩
      have hzero : (call.run s).2.links = 0 := congrArg (fun r => r.2.links) hcall
      exact ⟨hzero, (ih hzero).1 hcalls⟩
    · rintro ⟨hzero, hcalls⟩
      have hsame : (call.run s).2.withLinks 0 = (call.run s).2 := hzero ▸ rfl
      rw [hsame]
      exact ⟨rfl, (ih hzero).2 hcalls⟩

/-- Whatever a parser has been asked before, and whatever the errors were, a call comes to what it
comes to in a new parser at the same token, unless the links that earlier errors have left leave it
too little room.  All calls are as in new parsers exactly if none of them leaves links behind. -/
theorem resumes_after (stream : TokenStream) (calls : List Call) :
    (∀ call, Resumes call (after ⟨stream, 0⟩ calls)) ∧
      (Undisturbed ⟨stream, 0⟩ calls ↔ LeavesNone ⟨stream, 0⟩ calls) :=
  ⟨resumes (links_after_le calls (Nat.zero_le maxChain)), undisturbed_iff calls rfl⟩

/-- A sum of as many operators as a chain may have, without its last operand, and a short sum behind
it. -/
def brokenSum : List Char := '1' :: ((List.replicate 255 ['+', '1']).flatten ++ "+)1+1".toList)

/-- Whether a call fails for its links only because of those that are there already. -/
def isDisturbed (call : Call) (s : ParserState) : Bool :=
  match (call.run (s.withLinks 0)).1, (call.run s).1 with
  | .ok _, .error ⟨.tooDeep limit, _⟩ => limit == maxChain
  | _, _ => false

theorem exists_of_isDisturbed {call : Call} {s : ParserState} (h : isDisturbed call s = true) :
    ∃ e position, (call.run (s.withLinks 0)).1 = .ok e ∧
      (call.run s).1 = .error ⟨.tooDeep maxChain, position⟩ := by
  rw [isDisturbed] at h
  split at h
  · rename_i e limit position hnew hrun
    obtain rfl : limit = maxChain := by simpa using h
    exact ⟨e, position, hnew, hrun⟩
  · exact absurd h Bool.false_ne_true

/-- The first sum leaves its links behind, so the short one behind it is too long. -/
theorem exists_disturbed_call : ∃ stream e position, tokenize (.ofList brokenSum) = .ok stream ∧
    (Call.expression.run ((after ⟨stream, 0⟩ [.expression]).withLinks 0)).1 = .ok e ∧
    (Call.expression.run (after ⟨stream, 0⟩ [.expression])).1 =
      .error ⟨.tooDeep maxChain, position⟩ := by
  have h : (tokenize (.ofList brokenSum)).toOption.any
      (fun stream => isDisturbed .expression (after ⟨stream, 0⟩ [.expression])) = true := by
    rw [tokenize_ofList]
    decide +kernel
  cases htokens : tokenize (.ofList brokenSum) with
  | error e => rw [htokens] at h; exact absurd h Bool.false_ne_true
  | ok stream =>
    rw [htokens] at h
    obtain ⟨e, position, hnew, hrun⟩ := exists_of_isDisturbed h
    exact ⟨stream, e, position, rfl, hnew, hrun⟩

end Parser

end PathQuery
