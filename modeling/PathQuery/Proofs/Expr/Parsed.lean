/-
Which trees can be parsed.

* **`Derivation.isWritable_tree`** — a derivation of the tokens of a text has a tree that can be
  written again;
* **`Expr.questionDot_tokens`** — the canonical text has a question mark right in front of a point
  exactly where a null-safe step is by number;
* **`Expr.indexIsPlain_of_derivation`** — such a text has no derivation.

Design notes: a null-safe mark in front of a digit is read as a question mark and a point, so that
the tree of `a?.b.0` is written as a text that has no derivation.
-/
import PathQuery.Proofs.Derivation.Tokens
import PathQuery.Proofs.Expr.Tokens

namespace PathQuery

/-! ### Writable trees -/

theorem isIndex_toString {n : Int64} (h : ¬ n < 0) : isIndex (toString n.toInt) = true := by
  rw [Int64.lt_iff_toInt_lt, Int64.toInt_zero, Int.not_lt] at h
  have hlt : n.toInt < 2 ^ 63 := Int64.toInt_lt n
  refine isIndex_iff.2 ⟨n.toInt.toNat, by omega, ?_⟩
  rw [← Int.toNat_of_nonneg h, Int.toNat_natCast]
  exact Nat.toList_repr

theorem MemberName.isWritable_text {m : MemberName} (h : m.token.IsLexed) :
    (isName m.text || isIndex m.text) = true := by
  cases m with
  | identifier name => rw [text, isName_iff.2 h, Bool.true_or]
  | index n nonneg => rw [text, isIndex_toString nonneg, Bool.or_true]

theorem Literal.isWritable_of_isLexed {v : Literal} (h : v.token.IsLexed) :
    Expr.isWritable (.literal v) = true := by
  cases v with
  | number x =>
    cases x with
    | integer n =>
      have hne : n ≠ Int64.minValue := by
        rintro rfl
        exact h (by decide)
      simpa [Expr.isWritable] using hne
    | float x => simp [Expr.isWritable, h.1]
  | _ => rfl

theorem Expr.isWritable_operation (op : BinaryOp) {l r : Expr} (hl : l.all isWritable = true)
    (hr : r.all isWritable = true) : (op.join l r).all isWritable = true := by
  rw [all_join, isWritable_join, hl, hr]
  rfl

/-- A minus sign keeps a tree writable. -/
theorem Expr.isWritable_negated {e : Expr} (h : e.all isWritable = true) :
    e.negated.all isWritable = true := by
  have hzero : all isWritable (.literal (.number (.integer 0))) = true := by decide
  cases e with
  | literal v =>
    cases v with
    | number x =>
      cases x with
      | integer n =>
        have hne : n ≠ Int64.minValue := by simpa [all, isWritable] using h
        -- Only the smallest integer is its own opposite.
        have hneg : -n ≠ Int64.minValue := by
          intro hn
          exact hne (by rw [← Int64.neg_neg (a := n), hn]; rfl)
        simpa [negated, all, isWritable] using hneg
      | float x =>
        have hnan : x.isNaN = false := by simpa [all, isWritable] using h
        simpa [negated, all, isWritable] using hnan
    | _ => exact isWritable_operation (.arithmetic .subtract) hzero h
  | _ => exact isWritable_operation (.arithmetic .subtract) hzero h

theorem isWritable_parameters {params : List String} (trailing : Bool)
    (h : ∀ k ∈ parameterTokens params trailing, k.IsLexed) : params.all isName = true := by
  induction params with
  | nil => rfl
  | cons name params ih =>
    cases params with
    | nil =>
      simp only [List.all_cons, List.all_nil, Bool.and_true]
      exact isName_iff.2 (h (.identifier name) (by simp [parameterTokens]))
    | cons next params =>
      rw [List.all_cons, Bool.and_eq_true]
      refine ⟨isName_iff.2 (h (.identifier name) (by simp [parameterTokens])), ih fun k hk => ?_⟩
      exact h k (by rw [parameterTokens]; exact .tail _ (.tail _ hk))

mutual

/-- The tree of tokens that a text can have is writable. -/
theorem Derivation.isWritable_tree : {n : Nonterminal} → (t : Derivation n) →
    (∀ k ∈ t.tokens, k.IsLexed) → t.tree.all Expr.isWritable = true
  | _, .condition c, h => c.isWritable_tree h
  | _, .elvis c o, h => by
    have hc := c.isWritable_tree fun k hk => h k (by simp [Derivation.tokens, hk])
    have ho := o.isWritable_tree fun k hk => h k (by simp [Derivation.tokens, hk])
    simp [Derivation.tree, Expr.all, Expr.isWritable, hc, ho]
  | _, .ternary c t o, h => by
    have hc := c.isWritable_tree fun k hk => h k (by simp [Derivation.tokens, hk])
    have ht := t.isWritable_tree fun k hk => h k (by simp [Derivation.tokens, hk])
    have ho := o.isWritable_tree fun k hk => h k (by simp [Derivation.tokens, hk])
    simp [Derivation.tree, Expr.all, Expr.isWritable, hc, ht, ho]
  | _, .operand _ x, h => x.isWritable_tree h
  | _, .operation _ op _ l r, h => by
    have hl := l.isWritable_tree fun k hk => h k (by simp [Derivation.tokens, hk])
    have hr := r.isWritable_tree fun k hk => h k (by simp [Derivation.tokens, hk])
    exact Expr.isWritable_operation op hl hr
  | _, .path p, h => p.isWritable_tree h
  | _, .minus x, h =>
    Expr.isWritable_negated (x.isWritable_tree fun k hk => h k (.tail _ hk))
  | _, .primary p, h => p.isWritable_tree h
  | _, .step o s m, h => by
    have ho := o.isWritable_tree fun k hk => h k (by simp [Derivation.tokens, hk])
    have hm := m.isWritable_text (h _ (by simp [Derivation.tokens]))
    simp [Derivation.tree, Expr.all, Expr.isWritable, hm, ho]
  | _, .stepCall o s m args, h => by
    have ho := o.isWritable_tree fun k hk => h k (by simp [Derivation.tokens, hk])
    have hm := m.isWritable_text (h _ (by simp [Derivation.tokens]))
    have hargs := args.isWritable_trees fun k hk => h k (by simp [Derivation.tokens, hk])
    simp [Derivation.tree, Expr.all, Expr.isWritable, hm, ho, hargs]
  | _, .literal v, h => Literal.isWritable_of_isLexed (h v.token (.head _))
  | _, .name m, h => isName_iff.2 (h (.identifier m) (.head _))
  | _, .call m args, h => by
    have hm := isName_iff.2 (h (.identifier m) (.head _))
    have hargs := args.isWritable_trees fun k hk => h k (by simp [Derivation.tokens, hk])
    simp [Derivation.tree, Expr.all, Expr.isWritable, hm, hargs]
  | _, .group e, h => e.isWritable_tree fun k hk => h k (by simp [Derivation.tokens, hk])
  | _, .list es, h => by
    have hes := es.isWritable_trees fun k hk => h k (by simp [Derivation.tokens, hk])
    simp [Derivation.tree, Expr.all, Expr.isWritable, hes]
  | _, .closure keyword params trailing body, h => by
    have hparams : params.all isName = true := by
      refine isWritable_parameters trailing fun k hk => h k ?_
      simp [Derivation.tokens, closureHead, hk]
    have hbody := body.isWritable_tree fun k hk => h k (by simp [Derivation.tokens, hk])
    simp only [Derivation.tree, Expr.all, Expr.isWritable, hparams, hbody, Bool.and_self]

theorem Items.isWritable_trees : (es : Items) → (∀ k ∈ es.tokens, k.IsLexed) →
    Expr.allList Expr.isWritable es.trees = true
  | .none, _ => rfl
  | .last e, h => by
    simp [Items.trees, Expr.allList, e.isWritable_tree h]
  | .more e rest, h => by
    have he := e.isWritable_tree fun k hk => h k (by simp [Items.tokens, hk])
    have hrest := rest.isWritable_trees fun k hk => h k (by simp [Items.tokens, hk])
    simp [Items.trees, Expr.allList, he, hrest]

end

/-! ### Question marks in front of a point -/

/-- Whether a question mark stands right in front of a point. -/
def questionDot : List TokenKind → Bool
  | [] => false
  | k :: ks => (k == .symbol .question && ks.head? == some (.symbol .dot)) || questionDot ks

theorem questionDot_cons {k : TokenKind} (h : k ≠ .symbol .question) (ks : List TokenKind) :
    questionDot (k :: ks) = questionDot ks := by
  simp [questionDot, h]

theorem questionDot_question {k : TokenKind} (h : k ≠ .symbol .dot) (ks : List TokenKind) :
    questionDot (.symbol .question :: k :: ks) = questionDot (k :: ks) := by
  simp [questionDot, h]

theorem ne_question_of_isPlain {k : TokenKind} (h : k.isPlain = true) :
    k ≠ .symbol .question := by
  rintro rfl
  exact absurd h (by decide)

/-- What follows a question mark in a derivation is a colon or the start of an expression. -/
theorem passesOver_questionDot : PassesOver questionDot where
  plain hk ks := questionDot_cons (ne_question_of_isPlain hk) ks
  parentheses h rest := by
    rw [questionDot_cons (by simp), h, questionDot_cons (by simp)]
  question hk ks := questionDot_question hk ks

theorem Derivation.questionDot_tokens {n : Nonterminal} (t : Derivation n) :
    questionDot t.tokens = false := by
  rw [← List.append_nil t.tokens, passesOver_questionDot.derivation t]
  rfl

/-- Tokens with a question mark in front of a point or not, and not as the last token. -/
def Marked (ks : List TokenKind) (marked : Bool) : Prop :=
  ∀ rest, questionDot (ks ++ rest) = (marked || questionDot rest)

namespace Marked

variable {ks ls : List TokenKind} {a b : Bool}

theorem nil : Marked [] false := fun _ => rfl

theorem append (hk : Marked ks a) (hl : Marked ls b) : Marked (ks ++ ls) (a || b) := by
  intro rest
  rw [List.append_assoc, hk, hl, Bool.or_assoc]

theorem cons {k : TokenKind} (h : k ≠ .symbol .question) (hk : Marked ks a) :
    Marked (k :: ks) a := fun rest => (questionDot_cons h _).trans (hk rest)

theorem question (hk : Marked ks a) (hhead : ∃ k ks', ks = k :: ks' ∧ k ≠ .symbol .dot) :
    Marked (.symbol .question :: ks) a := by
  intro rest
  obtain ⟨k, ks', rfl, hne⟩ := hhead
  exact (questionDot_question hne _).trans (hk rest)

theorem concat {k : TokenKind} (hk : Marked ks a) (h : k ≠ .symbol .question) :
    Marked (ks ++ [k]) a := by
  have happend := hk.append (.cons h .nil)
  rwa [Bool.or_false] at happend

/-- Tokens between two others. -/
theorem between {k l : TokenKind} (hk : k ≠ .symbol .question) (h : Marked ks a)
    (hl : l ≠ .symbol .question) : Marked (k :: (ks ++ [l])) a := .cons hk (h.concat hl)

theorem parenthesizeTokens (needed : Bool) (hk : Marked ks a) :
    Marked (parenthesizeTokens needed ks) a := by
  cases needed with
  | false => exact hk
  | true => exact .between (by simp) hk (by simp)

theorem operationTokens (op : BinaryOp) (hk : Marked ks a) (hl : Marked ls b) :
    Marked (operationTokens op ks ls) (a || b) :=
  .cons (by simp)
    (hk.append (.cons (ne_question_of_isPlain op.isPlain_symbol) (hl.concat (by simp))))

end Marked

theorem marked_stepTokens (nullSafe : Bool) (m : String) :
    Marked (stepTokens nullSafe m) (nullSafe && isIndex m) := by
  have hname : (MemberName.ofText m).token ≠ .symbol .question :=
    ne_question_of_isPlain (MemberName.isPlain_token _)
  intro rest
  rw [stepTokens]
  split
  case isTrue h => simp [questionDot, h]
  case isFalse h =>
    have hdot : TokenKind.symbol (dotSymbol nullSafe) ≠ .symbol .question :=
      ne_question_of_isPlain (isPlain_dotSymbol nullSafe)
    simp [h, questionDot_cons hdot, questionDot_cons hname]

theorem marked_signedTokens (negative : Bool) {k : TokenKind} (h : k ≠ .symbol .question) :
    Marked (signedTokens negative k) false := by
  cases negative with
  | false => exact .cons h .nil
  | true => exact .cons (by simp) (.cons h .nil)

theorem marked_literal (v : Literal) : Marked v.tokens false := by
  cases v with
  | number x =>
    cases x with
    | integer n => exact marked_signedTokens _ (by simp)
    | float x =>
      refine marked_signedTokens _ ?_
      rw [Binary64.magnitudeToken]
      split <;> simp
  | _ => exact .cons (by simp [Literal.token]) .nil

theorem marked_closureHead (params : List String) : Marked (closureHead true params false) false :=
  fun rest => passesOver_questionDot.closureHead true params false rest

theorem exists_head_signedTokens (negative : Bool) {k : TokenKind} (h : k ≠ .symbol .dot) :
    ∃ k' ks, signedTokens negative k = k' :: ks ∧ k' ≠ .symbol .dot := by
  cases negative with
  | false => exact ⟨k, [], rfl, h⟩
  | true => exact ⟨_, _, rfl, by simp⟩

theorem exists_head_parenthesizeTokens {ks : List TokenKind} (needed : Bool)
    (h : ∃ k ks', ks = k :: ks' ∧ k ≠ .symbol .dot) (rest : List TokenKind) :
    ∃ k ks', parenthesizeTokens needed ks ++ rest = k :: ks' ∧ k ≠ .symbol .dot := by
  obtain ⟨k, ks', rfl, hk⟩ := h
  cases needed with
  | false => exact ⟨k, _, rfl, hk⟩
  | true => exact ⟨_, _, rfl, by simp⟩

namespace Expr

theorem exists_head_literal (v : Literal) : ∃ k ks, v.tokens = k :: ks ∧ k ≠ .symbol .dot := by
  cases v with
  | number x =>
    cases x with
    | integer n => exact exists_head_signedTokens _ (by simp)
    | float x =>
      refine exists_head_signedTokens _ ?_
      rw [Binary64.magnitudeToken]
      split <;> simp
  | _ => exact ⟨_, _, rfl, by simp [Literal.token]⟩

/-- The canonical text does not start with a point. -/
theorem exists_head_tokens (e : Expr) : ∃ k ks, e.tokens = k :: ks ∧ k ≠ .symbol .dot := by
  cases e with
  | literal v =>
    rw [tokens]
    exact exists_head_literal v
  | member o m s =>
    rw [tokens]
    exact exists_head_parenthesizeTokens _ (exists_head_tokens o) _
  | memberCall o m args s =>
    rw [tokens]
    exact exists_head_parenthesizeTokens _ (exists_head_tokens o) _
  | _ =>
    rw [tokens]
    exact ⟨_, _, rfl, by simp⟩

theorem marked_tokensRest {es : List Expr}
    (h : ∀ e ∈ es, Marked e.tokens (!e.all indexIsPlain)) :
    Marked (tokensRest es) (!allList indexIsPlain es) := by
  induction es with
  | nil => exact .nil
  | cons e rest ih =>
    rw [List.forall_mem_cons] at h
    have happend := h.1.append (ih h.2)
    simpa [tokensRest, allList] using happend.cons (k := .symbol .comma) (by simp)

theorem marked_tokensList {es : List Expr}
    (h : ∀ e ∈ es, Marked e.tokens (!e.all indexIsPlain)) :
    Marked (tokensList es) (!allList indexIsPlain es) := by
  cases es with
  | nil => exact .nil
  | cons e rest =>
    rw [List.forall_mem_cons] at h
    simpa [tokensList, allList] using h.1.append (marked_tokensRest h.2)

/-- The canonical text has a question mark right in front of a point exactly where a null-safe step
is by number. -/
theorem marked_tokens (e : Expr) : Marked e.tokens (!e.all indexIsPlain) := by
  -- A list of trees between two tokens that are no question marks.
  have items {k l : TokenKind} {es : List Expr}
      (ih : ∀ e ∈ es, Marked e.tokens (!e.all indexIsPlain)) (hk : k ≠ .symbol .question)
      (hl : l ≠ .symbol .question) :
      Marked (k :: (tokensList es ++ [l])) (!allList indexIsPlain es) :=
    .between hk (marked_tokensList ih) hl
  induction e using treeInduction with
  | literal v => rw [tokens]; exact marked_literal v
  | name m => rw [tokens]; exact .cons (by simp) .nil
  | list es ih =>
    rw [tokens]
    exact items ih (by simp) (by simp)
  | arguments es ih =>
    rw [tokens]
    exact items ih (by simp) (by simp)
  | member o m s ho =>
    have h := (ho.parenthesizeTokens (o.isNumber || o.isClosure)).append (marked_stepTokens s m)
    simpa [tokens, all, indexIsPlain, Bool.or_comm] using h
  | memberCall o m args s ho ih =>
    have hargs := items (k := .symbol .leftParen) (l := .symbol .rightParen) ih (by simp) (by simp)
    have h := (ho.parenthesizeTokens (o.isNumber || o.isClosure)).append
      ((marked_stepTokens s m).append hargs)
    simpa [tokens, all, indexIsPlain, Bool.or_left_comm, Bool.or_assoc] using h
  | call m args ih =>
    rw [tokens]
    exact .cons (by simp) (items ih (by simp) (by simp))
  | operation op l r hl hr =>
    have h := (hl.parenthesizeTokens l.isClosure).operationTokens op
      (hr.parenthesizeTokens r.isClosure)
    simpa [tokens_join, all_join] using h
  | ternary c t o hc ht ho =>
    -- What follows the question mark is the start of a tree, and so no point.
    have hbranches := ((ht.parenthesizeTokens t.isClosure).append
      (Marked.cons (k := .symbol .colon) (by simp)
        (ho.concat (k := .symbol .rightParen) (by simp)))).question
      (exists_head_parenthesizeTokens _ (exists_head_tokens t) _)
    have h := (hc.parenthesizeTokens c.isClosure).append hbranches
    simpa [tokens, all, indexIsPlain, Bool.or_assoc] using
      h.cons (k := .symbol .leftParen) (by simp)
  | elvis c o hc ho =>
    -- What follows the question mark is the colon.
    have hbranch := (Marked.cons (k := .symbol .colon) (by simp)
      (ho.concat (k := .symbol .rightParen) (by simp))).question ⟨_, _, rfl, by simp⟩
    have h := (hc.parenthesizeTokens c.isClosure).append hbranch
    simpa [tokens, all, indexIsPlain] using h.cons (k := .symbol .leftParen) (by simp)
  | closure params body hbody =>
    have h := (marked_closureHead params).append hbody
    simpa [tokens, all, indexIsPlain] using h

theorem questionDot_tokens (e : Expr) : questionDot e.tokens = !e.all indexIsPlain := by
  rw [← List.append_nil e.tokens, marked_tokens e]
  exact Bool.or_false _

/-- The tokens of the canonical text have a derivation only if no null-safe step is by number. -/
theorem indexIsPlain_of_derivation {e : Expr} {n : Nonterminal} {t : Derivation n}
    (h : t.tokens = e.tokens) : e.all indexIsPlain = true := by
  have hmark : questionDot e.tokens = false := by rw [← h, t.questionDot_tokens]
  rw [questionDot_tokens] at hmark
  simpa using hmark

end Expr

end PathQuery
