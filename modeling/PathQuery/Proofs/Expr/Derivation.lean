/-
The derivation of the canonical text.

* **`Expr.derivation`** — how the canonical text of a tree is derived;
* **`Expr.tokens_derivation`** — what it derives are the tokens of the canonical text, if no
  null-safe step is by number;
* **`Expr.isGreedy_derivation`** — the parentheses of the canonical text leave no closure body open
  in front of more tokens;
* **`Expr.tree_derivation`, `Expr.same_derivation`** — whether the tree of the derivation is the
  tree that was written.

Design notes: operands in the canonical text are unary expressions, which are lifted to whatever
nonterminal stands in their place.
-/
import PathQuery.Proofs.Expr.Tokens

namespace PathQuery

namespace Derivation

/-! ### Unary expressions in other places -/

/-- A unary expression as an operand of a level. -/
def asOperand (x : Derivation .unary) : (level : Level) → Derivation level.operand
  | .multiplicative => x
  | .additive => .operand .multiplicative x
  | .comparison => .operand .additive (.operand .multiplicative x)
  | .conjunction => .operand .comparison (.operand .additive (.operand .multiplicative x))
  | .disjunction =>
    .operand .conjunction (.operand .comparison (.operand .additive (.operand .multiplicative x)))
  | .coalesce =>
    .operand .disjunction (.operand .conjunction (.operand .comparison
      (.operand .additive (.operand .multiplicative x))))

/-- The operations of a level as an expression. -/
def asExpression : (level : Level) → Derivation (.binary level) → Derivation .expression
  | .coalesce, t => .condition t
  | .disjunction, t => .condition (.operand .coalesce t)
  | .conjunction, t => .condition (.operand .coalesce (.operand .disjunction t))
  | .comparison, t =>
    .condition (.operand .coalesce (.operand .disjunction (.operand .conjunction t)))
  | .additive, t =>
    .condition (.operand .coalesce (.operand .disjunction (.operand .conjunction
      (.operand .comparison t))))
  | .multiplicative, t =>
    .condition (.operand .coalesce (.operand .disjunction (.operand .conjunction
      (.operand .comparison (.operand .additive t)))))

/-- A unary expression as a condition. -/
def asCondition (x : Derivation .unary) : Derivation (.binary .coalesce) :=
  .operand .coalesce (x.asOperand .coalesce)

/-- A unary expression as an expression. -/
def ofUnary (x : Derivation .unary) : Derivation .expression := .condition x.asCondition

/-- A primary expression as a unary one. -/
def ofPrimary (p : Derivation .primary) : Derivation .unary := .path (.primary p)

def parenthesized (needed : Bool) (x : Derivation .unary) : Derivation .unary :=
  if needed then ofPrimary (.group x.ofUnary) else x

/-- A unary expression as the object of a member step; a minus sign is put into parentheses. -/
def asPath : Derivation .unary → Derivation .path
  | .path p => p
  | .minus x => .primary (.group (ofUnary (.minus x)))

/-- An operation on two unary expressions, in parentheses. -/
def operate (op : BinaryOp) (l r : Derivation .unary) : Derivation .unary :=
  ofPrimary (.group (asExpression op.level
    (.operation op.level op rfl (.operand op.level (l.asOperand op.level))
      (r.asOperand op.level))))

section

variable (x : Derivation .unary) (level : Level) (t : Derivation (.binary level))

@[simp] theorem tokens_asOperand : (x.asOperand level).tokens = x.tokens := by cases level <;> rfl

@[simp] theorem tree_asOperand : (x.asOperand level).tree = x.tree := by cases level <;> rfl

@[simp] theorem isOpen_asOperand : (x.asOperand level).isOpen = x.isOpen := by cases level <;> rfl

@[simp] theorem isGreedy_asOperand : (x.asOperand level).IsGreedy ↔ x.IsGreedy := by
  cases level <;> rfl

@[simp] theorem tokens_asExpression : (asExpression level t).tokens = t.tokens := by
  cases level <;> rfl

@[simp] theorem tree_asExpression : (asExpression level t).tree = t.tree := by cases level <;> rfl

@[simp] theorem isGreedy_asExpression : (asExpression level t).IsGreedy ↔ t.IsGreedy := by
  cases level <;> rfl

@[simp] theorem tokens_asCondition : x.asCondition.tokens = x.tokens := tokens_asOperand x _

@[simp] theorem tree_asCondition : x.asCondition.tree = x.tree := tree_asOperand x _

@[simp] theorem isOpen_asCondition : x.asCondition.isOpen = x.isOpen := isOpen_asOperand x _

@[simp] theorem isGreedy_asCondition : x.asCondition.IsGreedy ↔ x.IsGreedy :=
  isGreedy_asOperand x _

@[simp] theorem tokens_ofUnary : x.ofUnary.tokens = x.tokens := tokens_asOperand x _

@[simp] theorem tree_ofUnary : x.ofUnary.tree = x.tree := tree_asOperand x _

@[simp] theorem isGreedy_ofUnary : x.ofUnary.IsGreedy ↔ x.IsGreedy := isGreedy_asOperand x _

end

end Derivation

/-! ### Derivations of trees -/

/-- A number with its sign. -/
def Derivation.signed (negative : Bool) (p : Derivation .primary) : Derivation .unary :=
  if negative then .minus (.ofPrimary p) else .ofPrimary p

def Literal.derivation : Literal → Derivation .unary
  | .number (.integer n) =>
    .signed (n < 0) (.literal (.number (.integer (if n < 0 then -n else n))))
  | .number (.float x) =>
    .signed x.isNegative
      (if x.isFinite then .literal (.number (.float (.ofMagnitude x.magnitudeBits)))
      else .name "inf")
  | v => .ofPrimary (.literal v)

namespace Expr

open PathQuery.Derivation

attribute [simp] same sameList

mutual

/-- How the canonical text is derived.  An argument list on its own is not; a list stands for it. -/
@[simp] def derivation : Expr → Derivation .unary
  | .literal v => v.derivation
  | .variable m => ofPrimary (.name m)
  | .list es => ofPrimary (.list (derivations es))
  | .arguments es => ofPrimary (.list (derivations es))
  | .member o m s =>
    .path (.step (parenthesized (o.isNumber || o.isClosure) (derivation o)).asPath s (.ofText m))
  | .memberCall o m args s =>
    .path (.stepCall (parenthesized (o.isNumber || o.isClosure) (derivation o)).asPath s (.ofText m)
      (derivations args))
  | .call m args => ofPrimary (.call m (derivations args))
  | .arithmetic op l r =>
    operate (.arithmetic op) (parenthesized l.isClosure (derivation l))
      (parenthesized r.isClosure (derivation r))
  | .comparison op l r =>
    operate (.comparison op) (parenthesized l.isClosure (derivation l))
      (parenthesized r.isClosure (derivation r))
  | .logical op l r =>
    operate (.logical op) (parenthesized l.isClosure (derivation l))
      (parenthesized r.isClosure (derivation r))
  | .coalesce l r =>
    operate .coalesce (parenthesized l.isClosure (derivation l))
      (parenthesized r.isClosure (derivation r))
  | .ternary c t o =>
    ofPrimary (.group (.ternary (parenthesized c.isClosure (derivation c)).asCondition
      (parenthesized t.isClosure (derivation t)).ofUnary (derivation o).ofUnary))
  | .elvis c o =>
    ofPrimary (.group (.elvis (parenthesized c.isClosure (derivation c)).asCondition
      (derivation o).ofUnary))
  | .closure params body => ofPrimary (.closure true params false (derivation body).ofUnary)

/-- The items of a list. -/
@[simp] def derivations : List Expr → Items
  | [] => .none
  | [e] => .last (derivation e).ofUnary
  | e :: next :: rest => .more (derivation e).ofUnary (derivations (next :: rest))

end

theorem derivation_join (op : BinaryOp) (l r : Expr) :
    (op.join l r).derivation = operate op (parenthesized l.isClosure l.derivation)
      (parenthesized r.isClosure r.derivation) := by
  cases op <;> simp only [BinaryOp.join, derivation]

/-! ### Closures at the end -/

theorem isOpen_signed (negative : Bool) (p : Derivation .primary) :
    (signed negative p).isOpen = p.isOpen := by
  cases negative <;> rfl

/-- Only a closure is open. -/
theorem isOpen_derivation (e : Expr) : e.derivation.isOpen = e.isClosure := by
  cases e with
  | literal v =>
    rw [derivation]
    cases v with
    | number x =>
      cases x with
      | integer n => exact isOpen_signed _ _
      | float x =>
        rw [Literal.derivation, isOpen_signed]
        split <;> rfl
    | _ => rfl
  | closure params body => rw [derivation]; rfl
  | _ => simp only [derivation]; rfl

theorem isOpen_parenthesized {needed : Bool} {e : Expr} (h : e.isClosure = true → needed = true) :
    (parenthesized needed e.derivation).isOpen = false := by
  cases needed with
  | true => rfl
  | false =>
    have hclosure : e.isClosure = false := by simpa using h
    exact (isOpen_derivation e).trans hclosure

theorem isOpen_asPath {x : Derivation .unary} (h : x.isOpen = false) : x.asPath.isOpen = false := by
  cases x with
  | path p => exact h
  | minus x => rfl

theorem isOpen_object (e : Expr) :
    (parenthesized (e.isNumber || e.isClosure) e.derivation).asPath.isOpen = false :=
  isOpen_asPath (isOpen_parenthesized fun h => by rw [h, Bool.or_true])

theorem isGreedy_parenthesized {x : Derivation .unary} (h : x.IsGreedy) (needed : Bool) :
    (parenthesized needed x).IsGreedy := by
  cases needed with
  | true => exact (isGreedy_ofUnary x).2 h
  | false => exact h

theorem isGreedy_asPath {x : Derivation .unary} (h : x.IsGreedy) : x.asPath.IsGreedy := by
  cases x with
  | path p => exact h
  | minus x => exact (isGreedy_ofUnary (.minus x)).2 h

theorem isGreedy_operate (op : BinaryOp) {l r : Derivation .unary} (hclosed : l.isOpen = false)
    (hl : l.IsGreedy) (hr : r.IsGreedy) : (operate op l r).IsGreedy := by
  refine (isGreedy_asExpression _ _).2 ⟨?_, ?_, ?_⟩
  · exact (isOpen_asOperand l _).trans hclosed
  · exact (isGreedy_asOperand l _).2 hl
  · exact (isGreedy_asOperand r _).2 hr

theorem isGreedy_literal (v : Literal) : v.derivation.IsGreedy := by
  cases v with
  | number x =>
    cases x with
    | integer n =>
      rw [Literal.derivation, signed]
      split <;> trivial
    | float x =>
      rw [Literal.derivation, signed]
      split <;> split <;> trivial
  | _ => trivial

theorem isGreedy_derivations : {es : List Expr} → (∀ e ∈ es, e.derivation.IsGreedy) →
    (derivations es).IsGreedy
  | [], _ => by rw [derivations]; trivial
  | [e], h => by rw [derivations]; exact (isGreedy_ofUnary _).2 (h e List.mem_cons_self)
  | e :: next :: rest, h => by
    rw [derivations]
    rw [List.forall_mem_cons] at h
    exact ⟨(isGreedy_ofUnary _).2 h.1, isGreedy_derivations h.2⟩

/-- The canonical text is derived greedily: no closure is open in front of more tokens. -/
theorem isGreedy_derivation (e : Expr) : e.derivation.IsGreedy := by
  induction e using treeInduction with
  | literal v => rw [derivation]; exact isGreedy_literal v
  | name m => rw [derivation]; trivial
  | list es ih => rw [derivation]; exact isGreedy_derivations ih
  | arguments es ih => rw [derivation]; exact isGreedy_derivations ih
  | member o m s ho =>
    rw [derivation]
    exact ⟨isOpen_object o, isGreedy_asPath (isGreedy_parenthesized ho _)⟩
  | memberCall o m args s ho ih =>
    rw [derivation]
    exact ⟨isOpen_object o, isGreedy_asPath (isGreedy_parenthesized ho _), isGreedy_derivations ih⟩
  | call m args ih => rw [derivation]; exact isGreedy_derivations ih
  | operation op l r hl hr =>
    rw [derivation_join]
    exact isGreedy_operate op (isOpen_parenthesized id) (isGreedy_parenthesized hl _)
      (isGreedy_parenthesized hr _)
  | ternary c t o hc ht ho =>
    rw [derivation]
    refine ⟨(isOpen_asCondition _).trans (isOpen_parenthesized id), ?_, ?_, ?_⟩
    · exact (isGreedy_asCondition _).2 (isGreedy_parenthesized hc _)
    · exact (isGreedy_ofUnary _).2 (isGreedy_parenthesized ht _)
    · exact (isGreedy_ofUnary _).2 ho
  | elvis c o hc ho =>
    rw [derivation]
    refine ⟨(isOpen_asCondition _).trans (isOpen_parenthesized id), ?_, ?_⟩
    · exact (isGreedy_asCondition _).2 (isGreedy_parenthesized hc _)
    · exact (isGreedy_ofUnary _).2 ho
  | closure params body hbody =>
    rw [derivation]
    exact (isGreedy_ofUnary _).2 hbody

/-! ### Tokens -/

theorem tokens_parenthesized (needed : Bool) (x : Derivation .unary) :
    (parenthesized needed x).tokens = parenthesizeTokens needed x.tokens := by
  cases needed with
  | true => simp [parenthesized, parenthesizeTokens, ofPrimary, Derivation.tokens]
  | false => rfl

theorem tokens_signed (negative : Bool) {p : Derivation .primary} {token : TokenKind}
    (h : p.tokens = [token]) : (signed negative p).tokens = signedTokens negative token := by
  cases negative with
  | true => exact congrArg (TokenKind.symbol .minus :: ·) h
  | false => exact h

theorem tokens_literal (v : Literal) : v.derivation.tokens = v.tokens := by
  cases v with
  | number x =>
    cases x with
    | integer n => exact tokens_signed _ rfl
    | float x =>
      refine tokens_signed _ ?_
      rw [Binary64.magnitudeToken]
      split <;> rfl
  | _ => rfl

theorem tokens_operate (op : BinaryOp) (l r : Derivation .unary) :
    (operate op l r).tokens = operationTokens op l.tokens r.tokens := by
  simp [operate, ofPrimary, Derivation.tokens, operationTokens]

/-- The object of a member step is a member chain: a number, which might have a sign, is in
parentheses. -/
theorem exists_object (e : Expr) :
    ∃ p, parenthesized (e.isNumber || e.isClosure) e.derivation = .path p := by
  cases hneeded : e.isNumber || e.isClosure with
  | true => exact ⟨_, rfl⟩
  | false =>
    cases e with
    | literal v =>
      cases v with
      | number x => exact absurd hneeded (by simp [isNumber])
      | _ => exact ⟨_, rfl⟩
    | _ => simp only [parenthesized, derivation]; exact ⟨_, rfl⟩

theorem tokens_object {e : Expr} (h : e.derivation.tokens = e.tokens) :
    (parenthesized (e.isNumber || e.isClosure) e.derivation).asPath.tokens =
      parenthesizeTokens (e.isNumber || e.isClosure) e.tokens := by
  obtain ⟨p, hp⟩ := exists_object e
  rw [← h, ← tokens_parenthesized, hp]
  rfl

theorem stepTokens_of_plain {nullSafe : Bool} {m : String}
    (h : (!(nullSafe && isIndex m)) = true) :
    stepTokens nullSafe m = [.symbol (dotSymbol nullSafe), (MemberName.ofText m).token] := by
  rw [stepTokens, if_neg]
  intro hindex
  rw [hindex] at h
  exact absurd h (by decide)

theorem tokens_derivations : {es : List Expr} → (∀ e ∈ es, e.derivation.tokens = e.tokens) →
    (derivations es).tokens = tokensList es
  | [], _ => by rw [derivations]; rfl
  | [e], h => by simp [derivations, Items.tokens, tokensList, tokensRest, h]
  | e :: next :: rest, h => by
    rw [List.forall_mem_cons] at h
    have hrest := tokens_derivations h.2
    rw [tokensList] at hrest
    simp [derivations, Items.tokens, tokensList, tokensRest, h.1, hrest]

/-- The tokens of the canonical text are derived, if no null-safe step is by number. -/
theorem tokens_derivation (e : Expr) (hw : e.all isWritable = true)
    (hi : e.all indexIsPlain = true) : e.derivation.tokens = e.tokens := by
  have items {es : List Expr} (ih : ∀ e ∈ es, e.all isWritable = true →
      e.all indexIsPlain = true → e.derivation.tokens = e.tokens)
      (hw : allList isWritable es = true) (hi : allList indexIsPlain es = true) :
      (derivations es).tokens = tokensList es :=
    tokens_derivations fun e he => ih e he (allList_iff.1 hw e he) (allList_iff.1 hi e he)
  induction e using treeInduction with
  | literal v => rw [derivation]; exact tokens_literal v
  | name m => rw [derivation]; rfl
  | list es ih =>
    simp only [all, Bool.and_eq_true] at hw hi
    simp [derivation, ofPrimary, Derivation.tokens, tokens, items ih hw.2 hi.2]
  | arguments es => exact absurd hw (by simp [all, isWritable])
  | member o m s ho =>
    simp only [all, Bool.and_eq_true] at hw hi
    simp [derivation, Derivation.tokens, tokens, tokens_object (ho hw.2 hi.2),
      stepTokens_of_plain hi.1]
  | memberCall o m args s ho ih =>
    simp only [all, Bool.and_eq_true] at hw hi
    simp [derivation, Derivation.tokens, tokens, tokens_object (ho hw.1.2 hi.1.2),
      stepTokens_of_plain hi.1.1, items ih hw.2 hi.2]
  | call m args ih =>
    simp only [all, Bool.and_eq_true] at hw hi
    simp [derivation, ofPrimary, Derivation.tokens, tokens, items ih hw.2 hi.2]
  | operation op l r hl hr =>
    simp only [all_join, Bool.and_eq_true] at hw hi
    rw [derivation_join, tokens_operate, tokens_join, tokens_parenthesized, tokens_parenthesized,
      hl hw.1.2 hi.1.2, hr hw.2 hi.2]
  | ternary c t o hc ht ho =>
    simp only [all, Bool.and_eq_true] at hw hi
    simp [derivation, ofPrimary, Derivation.tokens, tokens, tokens_parenthesized,
      hc hw.1.1.2 hi.1.1.2, ht hw.1.2 hi.1.2, ho hw.2 hi.2]
  | elvis c o hc ho =>
    simp only [all, Bool.and_eq_true] at hw hi
    simp [derivation, ofPrimary, Derivation.tokens, tokens, tokens_parenthesized,
      hc hw.1.2 hi.1.2, ho hw.2 hi.2]
  | closure params body hbody =>
    simp only [all, Bool.and_eq_true] at hw hi
    simp [derivation, ofPrimary, Derivation.tokens, tokens, hbody hw.2 hi.2]

/-! ### Trees -/

theorem tree_signed (negative : Bool) (p : Derivation .primary) :
    (signed negative p).tree = if negative then p.tree.negated else p.tree := by
  cases negative <;> rfl

theorem tree_parenthesized (needed : Bool) (x : Derivation .unary) :
    (parenthesized needed x).tree = x.tree := by
  cases needed with
  | true => exact tree_ofUnary x
  | false => rfl

theorem tree_operate (op : BinaryOp) (l r : Derivation .unary) :
    (operate op l r).tree = op.join l.tree r.tree := by
  simp [operate, ofPrimary, Derivation.tree]

theorem tree_object (e : Expr) :
    (parenthesized (e.isNumber || e.isClosure) e.derivation).asPath.tree = e.derivation.tree := by
  obtain ⟨p, hp⟩ := exists_object e
  rw [← tree_parenthesized (e.isNumber || e.isClosure), hp]
  rfl

/-- A finite literal is read back as itself; infinity is read as a name. -/
theorem tree_literal {v : Literal} (h : isFiniteFloat (.literal v) = true) :
    v.derivation.tree = .literal v := by
  cases v with
  | number x =>
    cases x with
    | integer n =>
      rw [Literal.derivation, tree_signed]
      by_cases hn : n < 0
      · simp [hn, Derivation.tree, negated]
      · simp [hn, Derivation.tree]
    | float x =>
      have hfinite : x.isFinite = true := h
      rw [Literal.derivation, tree_signed, if_pos hfinite]
      cases hx : x.isNegative with
      | true =>
        rw [← Binary64.neg_eq_ofMagnitude hx]
        simp [Derivation.tree, negated, Binary64.neg_neg]
      | false =>
        rw [← Binary64.eq_ofMagnitude hx]
        rfl
  | _ => rfl

/-- A chain is null-safe behind a step if the step is, or if the chain of its object is, which no
plain step may follow. -/
theorem nullSafe_step {chain safe nullSafe : Bool} (hchain : chain = safe)
    (hkeeps : (nullSafe || !safe) = true) : (chain || nullSafe) = nullSafe := by
  cases nullSafe with
  | true => exact Bool.or_true _
  | false =>
    rw [Bool.false_or, Bool.not_eq_true'] at hkeeps
    rw [hchain, hkeeps]
    rfl

/-- The chain of an object is null-safe if its last step is, since no plain step follows a
null-safe one. -/
theorem nullSafe_object (e : Expr) (h : e.all isReread = true) :
    (parenthesized (e.isNumber || e.isClosure) e.derivation).asPath.nullSafe =
      e.isNullSafeStep := by
  induction e using treeInduction with
  | member o m s ho =>
    simp only [all, Bool.and_eq_true] at h
    rw [derivation]
    exact nullSafe_step (ho h.2) h.1
  | memberCall o m args s ho =>
    simp only [all, Bool.and_eq_true] at h
    rw [derivation]
    exact nullSafe_step (ho h.1.2) h.1.1
  | literal v =>
    cases v with
    | number x => rfl
    | _ => rw [derivation]; rfl
  | closure params body => rfl
  | operation op l r => cases op <;> (rw [derivation_join]; rfl)
  | _ => rw [derivation]; rfl

theorem trees_eq : {es : List Expr} → (∀ e ∈ es, e.derivation.tree = e) →
    (derivations es).trees = es
  | [], _ => by rw [derivations]; rfl
  | [e], h => by simp [derivations, Items.trees, h]
  | e :: next :: rest, h => by
    rw [List.forall_mem_cons] at h
    rw [derivations, Items.trees, tree_ofUnary, h.1, trees_eq h.2]

/-- Where numbers are finite and null-safe steps have no plain ones behind them, the tree is read
back as itself. -/
theorem tree_derivation (e : Expr) (hw : e.all isWritable = true) (hr : e.all isReread = true) :
    e.derivation.tree = e := by
  have items {es : List Expr} (ih : ∀ e ∈ es, e.all isWritable = true → e.all isReread = true →
      e.derivation.tree = e) (hw : allList isWritable es = true)
      (hr : allList isReread es = true) : (derivations es).trees = es :=
    trees_eq fun e he => ih e he (allList_iff.1 hw e he) (allList_iff.1 hr e he)
  induction e using treeInduction with
  | literal v => rw [derivation, tree_literal (Bool.and_eq_true_iff.1 hr).1]
  | name m => rw [derivation]; rfl
  | list es ih =>
    simp only [all, Bool.and_eq_true] at hw hr
    simp [derivation, ofPrimary, Derivation.tree, items ih hw.2 hr.2]
  | arguments es => exact absurd hw (by simp [all, isWritable])
  | member o m s ho =>
    -- The flag of the chain that is read back is that of the step.
    have hnull := nullSafe_object (.member o m s) hr
    rw [derivation] at hnull ⊢
    simp only [all, Bool.and_eq_true] at hw hr
    simp only [Derivation.tree, tree_object, ho hw.2 hr.2, MemberName.text_ofText]
    exact congrArg (Expr.member o m) hnull
  | memberCall o m args s ho ih =>
    have hnull := nullSafe_object (.memberCall o m args s) hr
    rw [derivation] at hnull ⊢
    simp only [all, Bool.and_eq_true] at hw hr
    simp only [Derivation.tree, tree_object, ho hw.1.2 hr.1.2, MemberName.text_ofText,
      items ih hw.2 hr.2]
    exact congrArg (Expr.memberCall o m args) hnull
  | call m args ih =>
    simp only [all, Bool.and_eq_true] at hw hr
    simp [derivation, ofPrimary, Derivation.tree, items ih hw.2 hr.2]
  | operation op l r hl hright =>
    simp only [all_join, Bool.and_eq_true] at hw hr
    rw [derivation_join, tree_operate, tree_parenthesized, tree_parenthesized, hl hw.1.2 hr.1.2,
      hright hw.2 hr.2]
  | ternary c t o hc ht ho =>
    simp only [all, Bool.and_eq_true] at hw hr
    simp [derivation, ofPrimary, Derivation.tree, tree_parenthesized, hc hw.1.1.2 hr.1.1.2,
      ht hw.1.2 hr.1.2, ho hw.2 hr.2]
  | elvis c o hc ho =>
    simp only [all, Bool.and_eq_true] at hw hr
    simp [derivation, ofPrimary, Derivation.tree, tree_parenthesized, hc hw.1.2 hr.1.2,
      ho hw.2 hr.2]
  | closure params body hbody =>
    simp only [all, Bool.and_eq_true] at hw hr
    simp [derivation, ofPrimary, Derivation.tree, hbody hw.2 hr.2]

/-! ### Equality up to the sign of zero -/

theorem same_self_literal {v : Literal} (hw : isWritable (.literal v) = true) :
    v.same v = true := by
  cases v with
  | number x =>
    cases x with
    | integer n => simp [Literal.same]
    | float x =>
      have hnan : x.isNaN = false := by simpa [isWritable] using hw
      have hrank : compare x.rank x.rank = .eq := by simp
      rw [Literal.same, Binary64.eqv, Binary64.compare?, hnan, hrank]
      rfl
  | _ => simp [Literal.same]

theorem same_literal {v : Literal} (hw : isWritable (.literal v) = true) :
    v.derivation.tree.same (.literal v) = isReread (.literal v) := by
  -- A literal is no step, so only the number counts.
  have hreread : isReread (.literal v) = isFiniteFloat (.literal v) := by
    simp [isReread, keepsNullSafe]
  rw [hreread]
  cases hf : isFiniteFloat (.literal v) with
  | true =>
    rw [tree_literal hf, same]
    exact same_self_literal hw
  | false =>
    cases v with
    | number x =>
      cases x with
      | integer n => exact absurd hf (by simp [isFiniteFloat])
      | float x =>
        have hinfinite : ¬ x.isFinite = true := by simpa [isFiniteFloat] using hf
        rw [Literal.derivation, tree_signed, if_neg hinfinite]
        cases x.isNegative <;> rfl
    | _ => exact absurd hf (by simp [isFiniteFloat])

/-- The flag of a step is read back if the chain of its object is null-safe only where the step is,
and that of the object too. -/
theorem same_step {object chain safe : Bool} (nullSafe : Bool)
    (hchain : object = true → chain = safe) :
    (object && ((chain || nullSafe) == nullSafe)) = ((nullSafe || !safe) && object) := by
  cases object with
  | false => simp
  | true =>
    rw [hchain rfl]
    cases safe <;> cases nullSafe <;> rfl

theorem same_join (op : BinaryOp) (a b l r : Expr) :
    (op.join a b).same (op.join l r) = (a.same l && b.same r) := by
  cases op <;> simp [BinaryOp.join, same]

theorem sameList_derivations : {es : List Expr} →
    (∀ e ∈ es, e.derivation.tree.same e = e.all isReread) →
      sameList (derivations es).trees es = allList isReread es
  | [], _ => by rw [derivations]; rfl
  | [e], h => by simp [derivations, Items.trees, sameList, allList, h]
  | e :: next :: rest, h => by
    rw [List.forall_mem_cons] at h
    rw [derivations, Items.trees, sameList, sameList_derivations h.2, tree_ofUnary, h.1]
    rfl

/-- The tree that is read back is the same exactly where all floats are finite and no plain step
stands directly on a null-safe one. -/
theorem same_derivation (e : Expr) (hw : e.all isWritable = true) :
    e.derivation.tree.same e = e.all isReread := by
  have items {es : List Expr} (ih : ∀ e ∈ es, e.all isWritable = true →
      e.derivation.tree.same e = e.all isReread) (hw : allList isWritable es = true) :
      sameList (derivations es).trees es = allList isReread es :=
    sameList_derivations fun e he => ih e he (allList_iff.1 hw e he)
  induction e using treeInduction with
  | literal v => rw [derivation, same_literal hw, all]
  | name m =>
    rw [derivation]
    exact beq_self_eq_true m
  | list es ih =>
    simp only [all, Bool.and_eq_true] at hw
    rw [derivation]
    exact items ih hw.2
  | arguments es => exact absurd hw (by simp [all, isWritable])
  | member o m s ho =>
    simp only [all, Bool.and_eq_true] at hw
    -- Where the object is read back, the flag of its chain is known.
    have h := same_step s (nullSafe_object o)
    simp only [derivation, Derivation.tree, tree_object, MemberName.text_ofText, same, ho hw.2,
      beq_self_eq_true, Bool.and_true, all]
    exact h
  | memberCall o m args s ho ih =>
    simp only [all, Bool.and_eq_true] at hw
    have h := same_step s (nullSafe_object o)
    simp only [derivation, Derivation.tree, tree_object, MemberName.text_ofText, same, ho hw.1.2,
      items ih hw.2, beq_self_eq_true, Bool.and_true, all]
    rw [Bool.and_right_comm, h]
    rfl
  | call m args ih =>
    simp only [all, Bool.and_eq_true] at hw
    simp [derivation, ofPrimary, Derivation.tree, same, all, isReread, isFiniteFloat, keepsNullSafe,
      items ih hw.2]
  | operation op l r hl hr =>
    simp only [all_join, Bool.and_eq_true] at hw
    rw [derivation_join, tree_operate, tree_parenthesized, tree_parenthesized, same_join,
      hl hw.1.2, hr hw.2, all_join, isReread_join, Bool.true_and]
  | ternary c t o hc ht ho =>
    simp only [all, Bool.and_eq_true] at hw
    simp [derivation, ofPrimary, Derivation.tree, tree_parenthesized, same, all, isReread,
      isFiniteFloat, keepsNullSafe, hc hw.1.1.2, ht hw.1.2, ho hw.2]
  | elvis c o hc ho =>
    simp only [all, Bool.and_eq_true] at hw
    simp [derivation, ofPrimary, Derivation.tree, tree_parenthesized, same, all, isReread,
      isFiniteFloat, keepsNullSafe, hc hw.1.2, ho hw.2]
  | closure params body hbody =>
    simp only [all, Bool.and_eq_true] at hw
    simp [derivation, ofPrimary, Derivation.tree, same, all, isReread, isFiniteFloat, keepsNullSafe,
      hbody hw.2]

end Expr

end PathQuery
