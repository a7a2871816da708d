/-
Derivations with one step made null-safe.

* **`Derivation.mark`** — the derivation in which the step of one dot is null-safe;
* **`Derivation.treeFrom`** — the tree of a derivation with the steps of a chain null-safe from one
  dot on;
* **`Derivation.tokens_mark`** — marking changes that dot and no other token;
* **`Derivation.alike_mark`** — nor does it change what the parser counts;
* **`Derivation.tree_mark`** — the tree is that with the chain null-safe from the dot on.

Design notes: a dot is given by its number among the tokens.  As subderivations have their tokens
somewhere in the middle, each function is told the number of the first token.
-/
import PathQuery.Proofs.Derivation.Tokens

namespace PathQuery

/-! ### Marks -/

mutual

/-- The derivation in which the step whose dot is token number `k` is null-safe; the first token has
the number `start`. -/
def Derivation.mark (k : Nat) : {n : Nonterminal} → (start : Nat) → Derivation n → Derivation n
  | _, start, .condition c => .condition (c.mark k start)
  | _, start, .elvis c o => .elvis (c.mark k start) (o.mark k (start + c.tokens.length + 2))
  | _, start, .ternary c t o =>
    .ternary (c.mark k start) (t.mark k (start + c.tokens.length + 1))
      (o.mark k (start + c.tokens.length + 1 + t.tokens.length + 1))
  | _, start, .operand level x => .operand level (x.mark k start)
  | _, start, .operation level op ofLevel l r =>
    .operation level op ofLevel (l.mark k start) (r.mark k (start + l.tokens.length + 1))
  | _, start, .path p => .path (p.mark k start)
  | _, start, .minus x => .minus (x.mark k (start + 1))
  | _, start, .primary p => .primary (p.mark k start)
  | _, start, .step o s name => .step (o.mark k start) (s || start + o.tokens.length == k) name
  | _, start, .stepCall o s name args =>
    .stepCall (o.mark k start) (s || start + o.tokens.length == k) name
      (args.mark k (start + o.tokens.length + 3))
  | _, _, .literal v => .literal v
  | _, _, .name name => .name name
  | _, start, .call name args => .call name (args.mark k (start + 2))
  | _, start, .group e => .group (e.mark k (start + 1))
  | _, start, .list es => .list (es.mark k (start + 1))
  | _, start, .closure keyword params trailing body =>
    .closure keyword params trailing
      (body.mark k (start + (closureHead keyword params trailing).length))

def Items.mark (k : Nat) : (start : Nat) → Items → Items
  | _, .none => .none
  | start, .last e => .last (e.mark k start)
  | start, .more e rest => .more (e.mark k start) (rest.mark k (start + e.tokens.length + 1))

end

/-- Whether the dot with number `k` belongs to a chain of member steps. -/
def Derivation.chainHas (k : Nat) : {n : Nonterminal} → (start : Nat) → Derivation n → Bool
  | _, start, .step o _ _ => o.chainHas k start || start + o.tokens.length == k
  | _, start, .stepCall o _ _ _ => o.chainHas k start || start + o.tokens.length == k
  | _, _, _ => false

mutual

/-- The tree of a derivation, but for the step whose dot is token number `k` and the later steps of
the same chain, which are null-safe. -/
def Derivation.treeFrom (k : Nat) : {n : Nonterminal} → (start : Nat) → Derivation n → Expr
  | _, start, .condition c => c.treeFrom k start
  | _, start, .elvis c o =>
    .elvis (c.treeFrom k start) (o.treeFrom k (start + c.tokens.length + 2))
  | _, start, .ternary c t o =>
    .ternary (c.treeFrom k start) (t.treeFrom k (start + c.tokens.length + 1))
      (o.treeFrom k (start + c.tokens.length + 1 + t.tokens.length + 1))
  | _, start, .operand _ x => x.treeFrom k start
  | _, start, .operation _ op _ l r =>
    op.join (l.treeFrom k start) (r.treeFrom k (start + l.tokens.length + 1))
  | _, start, .path p => p.treeFrom k start
  | _, start, .minus x => (x.treeFrom k (start + 1)).negated
  | _, start, .primary p => p.treeFrom k start
  | _, start, .step o s name =>
    .member (o.treeFrom k start) name.text
      ((o.nullSafe || s) || (Derivation.step o s name).chainHas k start)
  | _, start, .stepCall o s name args =>
    .memberCall (o.treeFrom k start) name.text (args.treesFrom k (start + o.tokens.length + 3))
      ((o.nullSafe || s) || (Derivation.stepCall o s name args).chainHas k start)
  | _, _, .literal v => .literal v
  | _, _, .name name => .variable name
  | _, start, .call name args => .call name (args.treesFrom k (start + 2))
  | _, start, .group e => e.treeFrom k (start + 1)
  | _, start, .list es => .list (es.treesFrom k (start + 1))
  | _, start, .closure keyword params trailing body =>
    .closure params (body.treeFrom k (start + (closureHead keyword params trailing).length))

def Items.treesFrom (k : Nat) : (start : Nat) → Items → List Expr
  | _, .none => []
  | start, .last e => [e.treeFrom k start]
  | start, .more e rest =>
    e.treeFrom k start :: rest.treesFrom k (start + e.tokens.length + 1)

end

/-! ### Tokens -/

/-- The tokens in which the dot with number `k` is null-safe. -/
def markDot (k : Nat) : (start : Nat) → List TokenKind → List TokenKind
  | _, [] => []
  | start, kind :: kinds =>
    (if start = k ∧ kind = .symbol .dot then .symbol .nullSafeDot else kind) ::
      markDot k (start + 1) kinds

theorem markDot_append (k : Nat) (ks ls : List TokenKind) : ∀ start : Nat,
    markDot k start (ks ++ ls) = markDot k start ks ++ markDot k (start + ks.length) ls := by
  induction ks with
  | nil => exact fun _ => rfl
  | cons kind ks ih =>
    intro start
    rw [List.cons_append, markDot, markDot, ih, List.cons_append, List.length_cons,
      Nat.add_assoc start 1, Nat.add_comm 1]

/-- Tokens that are no dots stay. -/
theorem markDot_cons {kind : TokenKind} (h : kind ≠ .symbol .dot) (k start : Nat)
    (ks : List TokenKind) : markDot k start (kind :: ks) = kind :: markDot k (start + 1) ks := by
  rw [markDot, if_neg fun hdot => h hdot.2]

theorem markDot_dotSymbol (k start : Nat) (s : Bool) (ks : List TokenKind) :
    markDot k start (.symbol (dotSymbol s) :: ks) =
      .symbol (dotSymbol (s || start == k)) :: markDot k (start + 1) ks := by
  rw [markDot]
  cases s with
  | true => rw [if_neg fun hdot => absurd hdot.2 (by decide)]; rfl
  | false =>
    by_cases hk : start = k
    · rw [if_pos ⟨hk, rfl⟩, beq_iff_eq.2 hk]
      rfl
    · rw [if_neg fun hdot => hk hdot.1, beq_eq_false_iff_ne.2 hk]
      rfl

theorem markDot_of_not_mem {ks : List TokenKind} (h : .symbol .dot ∉ ks) (k start : Nat) :
    markDot k start ks = ks := by
  induction ks generalizing start with
  | nil => rfl
  | cons kind ks ih =>
    rw [List.mem_cons, not_or] at h
    rw [markDot_cons (Ne.symm h.1), ih h.2]

/-- Behind the dot all tokens stay. -/
theorem markDot_of_lt {k start : Nat} (h : k < start) (ks : List TokenKind) :
    markDot k start ks = ks := by
  induction ks generalizing start with
  | nil => rfl
  | cons kind ks ih =>
    rw [markDot, if_neg fun hdot => Nat.ne_of_gt h hdot.1, ih (Nat.lt_succ_of_lt h)]

theorem markDot_eq {ks : List TokenKind} : ∀ {k : Nat}, ks[k]? = some (.symbol .dot) →
    ∀ start : Nat, markDot (start + k) start ks =
      ks.take k ++ .symbol .nullSafeDot :: ks.drop (k + 1) := by
  induction ks with
  | nil => exact fun h => absurd h (by simp)
  | cons kind ks ih =>
    rintro (_ | k) h start
    · obtain rfl := Option.some.inj h
      rw [markDot, if_pos ⟨rfl, rfl⟩, markDot_of_lt (Nat.lt_succ_self _)]
      rfl
    · have hne : ¬ (start = start + (k + 1) ∧ kind = .symbol .dot) := fun hdot => by omega
      rw [markDot, if_neg hne, ← Nat.add_assoc, Nat.add_right_comm, ih h]
      rfl

theorem dot_not_mem_parameterTokens (params : List String) (trailing : Bool) :
    TokenKind.symbol .dot ∉ parameterTokens params trailing := by
  induction params with
  | nil => exact List.not_mem_nil
  | cons name params ih =>
    cases params with
    | nil => cases trailing <;> simp [parameterTokens]
    | cons next params => simpa [parameterTokens] using ih

theorem dot_not_mem_closureHead (keyword : Bool) (params : List String) (trailing : Bool) :
    TokenKind.symbol .dot ∉ closureHead keyword params trailing := by
  have hparams := dot_not_mem_parameterTokens params trailing
  cases keyword <;> simpa [closureHead] using hparams

theorem BinaryOp.symbol_ne_dot (op : BinaryOp) : TokenKind.symbol op.symbol ≠ .symbol .dot := by
  intro h
  have hle := Level.tightness_le op.level
  have hstrength := op.strength_symbol
  rw [h] at hstrength
  exact absurd hstrength (by rw [TokenKind.strength]; omega)

theorem MemberName.token_ne_dot (m : MemberName) : m.token ≠ .symbol .dot := by
  cases m <;> simp [token]

theorem Literal.token_ne_dot (v : Literal) : v.token ≠ .symbol .dot := by
  cases v with
  | number x => cases x <;> simp [token]
  | _ => simp [token]

mutual

/-- Marking a step makes its dot null-safe and keeps all other tokens. -/
theorem Derivation.tokens_mark (k : Nat) : {n : Nonterminal} → (t : Derivation n) →
    (start : Nat) → (t.mark k start).tokens = markDot k start t.tokens
  | _, .condition c, start => c.tokens_mark k start
  | _, .elvis c o, start => by
    rw [Derivation.mark, Derivation.tokens, Derivation.tokens, c.tokens_mark, o.tokens_mark,
      markDot_append, markDot_cons (by simp), markDot_cons (by simp)]
  | _, .ternary c t o, start => by
    rw [Derivation.mark, Derivation.tokens, Derivation.tokens, c.tokens_mark, t.tokens_mark,
      o.tokens_mark, markDot_append, markDot_cons (by simp), markDot_append,
      markDot_cons (by simp)]
  | _, .operand _ x, start => x.tokens_mark k start
  | _, .operation _ op _ l r, start => by
    rw [Derivation.mark, Derivation.tokens, Derivation.tokens, l.tokens_mark, r.tokens_mark,
      markDot_append, markDot_cons op.symbol_ne_dot]
  | _, .path p, start => p.tokens_mark k start
  | _, .minus x, start => by
    rw [Derivation.mark, Derivation.tokens, Derivation.tokens, x.tokens_mark,
      markDot_cons (by simp)]
  | _, .primary p, start => p.tokens_mark k start
  | _, .step o s m, start => by
    rw [Derivation.mark, Derivation.tokens, Derivation.tokens, o.tokens_mark, markDot_append,
      markDot_dotSymbol, markDot_cons m.token_ne_dot, markDot]
  | _, .stepCall o s m args, start => by
    rw [Derivation.mark, Derivation.tokens, Derivation.tokens, o.tokens_mark, args.tokens_mark,
      markDot_append, markDot_dotSymbol, markDot_cons m.token_ne_dot, markDot_cons (by simp),
      markDot_append, markDot_cons (by simp), markDot]
  | _, .literal v, start => by
    rw [Derivation.mark, Derivation.tokens, markDot_cons v.token_ne_dot, markDot]
  | _, .name _, start => by
    rw [Derivation.mark, Derivation.tokens, markDot_cons (by simp), markDot]
  | _, .call _ args, start => by
    rw [Derivation.mark, Derivation.tokens, Derivation.tokens, args.tokens_mark,
      markDot_cons (by simp), markDot_cons (by simp), markDot_append, markDot_cons (by simp),
      markDot]
  | _, .group e, start => by
    rw [Derivation.mark, Derivation.tokens, Derivation.tokens, e.tokens_mark,
      markDot_cons (by simp), markDot_append, markDot_cons (by simp), markDot]
  | _, .list es, start => by
    rw [Derivation.mark, Derivation.tokens, Derivation.tokens, es.tokens_mark,
      markDot_cons (by simp), markDot_append, markDot_cons (by simp), markDot]
  | _, .closure keyword params trailing body, start => by
    rw [Derivation.mark, Derivation.tokens, Derivation.tokens, body.tokens_mark, markDot_append,
      markDot_of_not_mem (dot_not_mem_closureHead keyword params trailing)]

theorem Items.tokens_mark (k : Nat) : (es : Items) → (start : Nat) →
    (es.mark k start).tokens = markDot k start es.tokens
  | .none, _ => rfl
  | .last e, start => e.tokens_mark k start
  | .more e rest, start => by
    rw [Items.mark, Items.tokens, Items.tokens, e.tokens_mark, rest.tokens_mark, markDot_append,
      markDot_cons (by simp)]

end

/-! ### Counts -/

/-- What the parser counts, and how far closures reach, is the same for two derivations. -/
structure Derivation.Alike {n : Nonterminal} (t t' : Derivation n) : Prop where
  isOpen : t'.isOpen = t.isOpen
  isGreedy : t.IsGreedy → t'.IsGreedy
  nesting : t'.nesting = t.nesting
  rounds : t'.rounds = t.rounds
  links : t'.links = t.links

structure Items.Alike (es es' : Items) : Prop where
  isGreedy : es.IsGreedy → es'.IsGreedy
  nesting : es'.nesting = es.nesting
  links : es'.links = es.links

mutual

/-- The parser counts the same for a derivation with a mark. -/
theorem Derivation.alike_mark (k : Nat) : {n : Nonterminal} → (t : Derivation n) →
    (start : Nat) → t.Alike (t.mark k start)
  | _, .condition c, start => by
    have hc := c.alike_mark k start
    exact ⟨hc.isOpen, hc.isGreedy, hc.nesting, rfl, hc.links⟩
  | _, .elvis c o, start => by
    have hc := c.alike_mark k start
    have ho := o.alike_mark k (start + c.tokens.length + 2)
    refine ⟨ho.isOpen, fun h => ?_, ?_, rfl, ?_⟩
    · exact ⟨hc.isOpen.trans h.1, hc.isGreedy h.2.1, ho.isGreedy h.2.2⟩
    · rw [Derivation.mark, Derivation.nesting, Derivation.nesting, hc.nesting, ho.nesting]
    · rw [Derivation.mark, Derivation.links, Derivation.links, hc.links, ho.links]
  | _, .ternary c t o, start => by
    have hc := c.alike_mark k start
    have ht := t.alike_mark k (start + c.tokens.length + 1)
    have ho := o.alike_mark k (start + c.tokens.length + 1 + t.tokens.length + 1)
    refine ⟨ho.isOpen, fun h => ?_, ?_, rfl, ?_⟩
    · exact ⟨hc.isOpen.trans h.1, hc.isGreedy h.2.1, ht.isGreedy h.2.2.1, ho.isGreedy h.2.2.2⟩
    · rw [Derivation.mark, Derivation.nesting, Derivation.nesting, hc.nesting, ht.nesting,
        ho.nesting]
    · rw [Derivation.mark, Derivation.links, Derivation.links, hc.links, ht.links, ho.links]
  | _, .operand _ x, start => by
    have hx := x.alike_mark k start
    exact ⟨hx.isOpen, hx.isGreedy, hx.nesting, rfl, hx.links⟩
  | _, .operation _ op _ l r, start => by
    have hl := l.alike_mark k start
    have hr := r.alike_mark k (start + l.tokens.length + 1)
    refine ⟨hr.isOpen, fun h => ?_, ?_, congrArg (· + 1) hl.rounds, ?_⟩
    · exact ⟨hl.isOpen.trans h.1, hl.isGreedy h.2.1, hr.isGreedy h.2.2⟩
    · rw [Derivation.mark, Derivation.nesting, Derivation.nesting, hl.nesting, hr.nesting]
    · rw [Derivation.mark, Derivation.links, Derivation.links, hl.links, hl.rounds, hr.links]
  | _, .path p, start => by
    have hp := p.alike_mark k start
    exact ⟨hp.isOpen, hp.isGreedy, hp.nesting, rfl, hp.links⟩
  | _, .minus x, start => by
    have hx := x.alike_mark k (start + 1)
    exact ⟨hx.isOpen, hx.isGreedy, congrArg (· + 1) hx.nesting, rfl, hx.links⟩
  | _, .primary p, start => by
    have hp := p.alike_mark k start
    exact ⟨hp.isOpen, hp.isGreedy, hp.nesting, rfl, hp.links⟩
  | _, .step o s m, start => by
    have ho := o.alike_mark k start
    refine ⟨rfl, fun h => ?_, ho.nesting, congrArg (· + 1) ho.rounds, ?_⟩
    · exact ⟨ho.isOpen.trans h.1, ho.isGreedy h.2⟩
    · rw [Derivation.mark, Derivation.links, Derivation.links, ho.links, ho.rounds]
  | _, .stepCall o s m args, start => by
    have ho := o.alike_mark k start
    have hargs := args.alike_mark k (start + o.tokens.length + 3)
    refine ⟨rfl, fun h => ?_, ?_, congrArg (· + 1) ho.rounds, ?_⟩
    · exact ⟨ho.isOpen.trans h.1, ho.isGreedy h.2.1, hargs.isGreedy h.2.2⟩
    · rw [Derivation.mark, Derivation.nesting, Derivation.nesting, ho.nesting, hargs.nesting]
    · rw [Derivation.mark, Derivation.links, Derivation.links, ho.links, ho.rounds, hargs.links]
  | _, .literal _, _ => ⟨rfl, id, rfl, rfl, rfl⟩
  | _, .name _, _ => ⟨rfl, id, rfl, rfl, rfl⟩
  | _, .call _ args, start => by
    have hargs := args.alike_mark k (start + 2)
    exact ⟨rfl, hargs.isGreedy, hargs.nesting, rfl, hargs.links⟩
  | _, .group e, start => by
    have he := e.alike_mark k (start + 1)
    exact ⟨rfl, he.isGreedy, congrArg (· + 1) he.nesting, rfl, he.links⟩
  | _, .list es, start => by
    have hes := es.alike_mark k (start + 1)
    exact ⟨rfl, hes.isGreedy, hes.nesting, rfl, hes.links⟩
  | _, .closure keyword params trailing body, start => by
    have hbody := body.alike_mark k (start + (closureHead keyword params trailing).length)
    exact ⟨rfl, hbody.isGreedy, congrArg (· + 1) hbody.nesting, rfl, hbody.links⟩

theorem Items.alike_mark (k : Nat) : (es : Items) → (start : Nat) → es.Alike (es.mark k start)
  | .none, _ => ⟨id, rfl, rfl⟩
  | .last e, start => by
    have he := e.alike_mark k start
    exact ⟨he.isGreedy, congrArg (· + 1) he.nesting, he.links⟩
  | .more e rest, start => by
    have he := e.alike_mark k start
    have hrest := rest.alike_mark k (start + e.tokens.length + 1)
    refine ⟨fun h => ⟨he.isGreedy h.1, hrest.isGreedy h.2⟩, ?_, ?_⟩
    · rw [Items.mark, Items.nesting, Items.nesting, he.nesting, hrest.nesting]
    · rw [Items.mark, Items.links, Items.links, he.links, hrest.links]

end

/-! ### Trees -/

/-- With a mark a chain is null-safe also behind the dot. -/
theorem Derivation.nullSafe_mark (k : Nat) : {n : Nonterminal} → (t : Derivation n) →
    (start : Nat) → (t.mark k start).nullSafe = (t.nullSafe || t.chainHas k start)
  | _, .step o s m, start => by
    rw [Derivation.mark, Derivation.nullSafe, Derivation.nullSafe, Derivation.chainHas,
      o.nullSafe_mark, Bool.or_assoc, Bool.or_assoc, Bool.or_left_comm s]
  | _, .stepCall o s m args, start => by
    rw [Derivation.mark, Derivation.nullSafe, Derivation.nullSafe, Derivation.chainHas,
      o.nullSafe_mark, Bool.or_assoc, Bool.or_assoc, Bool.or_left_comm s]
  | _, .condition _, _ => rfl
  | _, .elvis _ _, _ => rfl
  | _, .ternary _ _ _, _ => rfl
  | _, .operand _ _, _ => rfl
  | _, .operation _ _ _ _ _, _ => rfl
  | _, .path _, _ => rfl
  | _, .minus _, _ => rfl
  | _, .primary _, _ => rfl
  | _, .literal _, _ => rfl
  | _, .name _, _ => rfl
  | _, .call _ _, _ => rfl
  | _, .group _, _ => rfl
  | _, .list _, _ => rfl
  | _, .closure _ _ _ _, _ => rfl

mutual

/-- The tree of a derivation with a mark has the steps of the chain null-safe from the dot on. -/
theorem Derivation.tree_mark (k : Nat) : {n : Nonterminal} → (t : Derivation n) →
    (start : Nat) → (t.mark k start).tree = t.treeFrom k start
  | _, .condition c, start => c.tree_mark k start
  | _, .elvis c o, start => by
    rw [Derivation.mark, Derivation.tree, Derivation.treeFrom, c.tree_mark, o.tree_mark]
  | _, .ternary c t o, start => by
    rw [Derivation.mark, Derivation.tree, Derivation.treeFrom, c.tree_mark, t.tree_mark,
      o.tree_mark]
  | _, .operand _ x, start => x.tree_mark k start
  | _, .operation _ op _ l r, start => by
    rw [Derivation.mark, Derivation.tree, Derivation.treeFrom, l.tree_mark, r.tree_mark]
  | _, .path p, start => p.tree_mark k start
  | _, .minus x, start => by
    rw [Derivation.mark, Derivation.tree, Derivation.treeFrom, x.tree_mark]
  | _, .primary p, start => p.tree_mark k start
  | _, .step o s m, start => by
    have hflag := (Derivation.step o s m).nullSafe_mark k start
    rw [Derivation.mark, Derivation.nullSafe, Derivation.nullSafe] at hflag
    rw [Derivation.mark, Derivation.tree, Derivation.treeFrom, o.tree_mark, hflag]
  | _, .stepCall o s m args, start => by
    have hflag := (Derivation.stepCall o s m args).nullSafe_mark k start
    rw [Derivation.mark, Derivation.nullSafe, Derivation.nullSafe] at hflag
    rw [Derivation.mark, Derivation.tree, Derivation.treeFrom, o.tree_mark, args.trees_mark,
      hflag]
  | _, .literal _, _ => rfl
  | _, .name _, _ => rfl
  | _, .call _ args, start => by
    rw [Derivation.mark, Derivation.tree, Derivation.treeFrom, args.trees_mark]
  | _, .group e, start => e.tree_mark k (start + 1)
  | _, .list es, start => by
    rw [Derivation.mark, Derivation.tree, Derivation.treeFrom, es.trees_mark]
  | _, .closure keyword params trailing body, start => by
    rw [Derivation.mark, Derivation.tree, Derivation.treeFrom, body.tree_mark]

theorem Items.trees_mark (k : Nat) : (es : Items) → (start : Nat) →
    (es.mark k start).trees = es.treesFrom k start
  | .none, _ => rfl
  | .last e, start => by
    rw [Items.mark, Items.trees, Items.treesFrom, e.tree_mark]
  | .more e rest, start => by
    rw [Items.mark, Items.trees, Items.treesFrom, e.tree_mark, rest.trees_mark]

end

end PathQuery
