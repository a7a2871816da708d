/-
What the parser accepts is derived by the grammar.

* **`Parser.Derives`** — every answer of a parser is the tree of a greedy derivation whose tokens
  have been taken;
* **`Parser.derives_expression`** — the parser of expressions has this property.

Design notes: the invariant of a production also says that the token behind it does not continue
it, which is what makes closure bodies reach as far as they can, and that the links are as they
were, so that the limit on a chain is met before the limit on its rounds.
-/
import PathQuery.Proofs.Parser.Productions

namespace PathQuery

/-- An answer `e` of a run from `s` to `s'` is the tree of the derivation `t`, which is greedy and
does not go on at `s'`. -/
structure Derivation.Taken {n : Nonterminal} (t : Derivation n) (e : Expr) (s s' : ParserState) :
    Prop where
  greedy : t.IsGreedy
  tree : t.tree = e
  kinds : s.kinds = t.tokens ++ s'.kinds
  links : s'.links = s.links
  head : headStrength s'.kinds ≤ t.hold

namespace Parser

/-- Every answer of `p` is the tree of a greedy derivation from `n`. -/
def Derives (p : Parser Expr) (n : Nonterminal) : Prop :=
  ∀ ⦃s s' : ParserState⦄ ⦃e : Expr⦄, s.links ≤ maxChain → runOn p s = (.ok e, s') →
    ∃ t : Derivation n, t.Taken e s s'

/-! ### Chains -/

/-- The rounds of a chain.  The induction is on the rounds left, which outnumber the links left;
what has been read so far is the derivation `left`. -/
theorem derives_chainRest {level : Level} {operand : Parser Expr}
    (hoperand : Derives operand level.operand) (limit : Nat) :
    ∀ {s s' : ParserState} {e : Expr} (left : Derivation (.binary level)),
      s.links ≤ maxChain → maxChain < s.links + limit → left.IsGreedy →
      headStrength s.kinds ≤ (if left.isOpen then 0 else level.operand.tightness) →
      runOn (chainRest level.operator operand limit left.tree) s = (.ok e, s') →
      ∃ t : Derivation (.binary level), t.IsGreedy ∧ t.tree = e ∧
        left.tokens ++ s.kinds = t.tokens ++ s'.kinds ∧ headStrength s'.kinds ≤ t.hold := by
  induction limit with
  | zero =>
    intro s s' e left hl hlimit
    -- There are at least as many rounds left as links, so the links run out first.
    omega
  | succ limit ih =>
    intro s s' e left hl hlimit hg hs hrun
    rw [chainRest, runOn_bind_of_ok (runOn_peek s)] at hrun
    cases hop : level.operator s.stream.peek.kind with
    | none =>
      simp only [hop, runOn_pure, Prod.mk.injEq, Except.ok.injEq] at hrun
      obtain ⟨rfl, rfl⟩ := hrun
      -- No operator of the level follows: what has been read is whole.
      refine ⟨left, hg, rfl, rfl, ?_⟩
      have hne := Level.operator_eq_none.1 hop
      rw [s.strength_peek] at hne
      rw [Derivation.hold]
      rw [Level.tightness_operand] at hs
      split at hs <;> rename_i ho
      · rw [if_pos ho]
        exact hs
      · rw [if_neg ho]
        show _ ≤ level.tightness
        omega
    | some join =>
      obtain ⟨op, hlevel, hk, rfl⟩ := Level.operator_eq_some hop
      have hstrength : headStrength s.kinds = level.tightness + 1 := by
        rw [← s.strength_peek, hk, op.strength_symbol, hlevel]
      -- A closure at the end of the left side would have taken the operator into its body.
      have hclosed : left.isOpen = false := by
        by_contra ho
        rw [if_pos (by simpa using ho)] at hs
        omega
      have hkinds := s.kinds_eq_cons (by simp [hk])
      rw [hk] at hkinds
      simp only [hop] at hrun
      obtain ⟨_, s₁, hlink, hrun⟩ := runOn_bind_eq_ok.1 hrun
      obtain ⟨hlt, rfl⟩ := runOn_link_eq_ok.1 hlink
      rw [runOn_bind_of_ok (runOn_discard_advance _)] at hrun
      obtain ⟨right, s₂, hright, hrun⟩ := runOn_bind_eq_ok.1 hrun
      obtain ⟨r, hr⟩ := hoperand (show s.links + 1 ≤ maxChain from hlt) hright
      obtain ⟨hrg, rfl, hrk, hrl, hrh⟩ := hr
      have hlinks : s₂.links = s.links + 1 := hrl
      obtain ⟨t, htg, hte, htk, hth⟩ := ih (.operation level op hlevel left r) (by omega) (by omega)
        ⟨hclosed, hg, hrg⟩ hrh hrun
      refine ⟨t, htg, hte, ?_, hth⟩
      rw [← htk, hkinds, Derivation.tokens, List.append_assoc, List.cons_append, ← hrk]
      rfl

theorem derives_chain {level : Level} {operand : Parser Expr}
    (hoperand : Derives operand level.operand) :
    Derives (chain level.operator operand) (.binary level) := by
  intro s s' e hl hrun
  rw [chain] at hrun
  obtain ⟨first, s₁, hfirst, hrun⟩ := runOn_bind_eq_ok.1 hrun
  obtain ⟨x, hxg, rfl, hxk, hxl, hxh⟩ := hoperand hl hfirst
  rw [runOn_bind_of_ok (runOn_get s₁)] at hrun
  obtain ⟨result, s₂, hrest, hrun⟩ := runOn_bind_eq_ok.1 hrun
  rw [runOn_bind_of_ok (runOn_withLinks _ s₂)] at hrun
  obtain ⟨rfl, rfl⟩ := runOn_pure_eq_ok.1 hrun
  obtain ⟨t, htg, hte, htk, hth⟩ := derives_chainRest hoperand (maxChain + 1) (.operand level x)
    (by omega) (by omega) hxg hxh hrest
  exact ⟨t, htg, hte, hxk.trans htk, hxl, hth⟩

/-! ### Lists -/

theorem runOn_items_closer {expression : Parser Expr} {delimiter : Delimiter} {opened : Position}
    {limit : Nat} {s s' : ParserState} {es : List Expr}
    (h : s.stream.peek.kind = .symbol delimiter.closer)
    (hrun : runOn (items expression delimiter opened limit) s = (.ok es, s')) :
    es = [] ∧ s' = s.advanced := by
  cases limit with
  | zero => exact absurd hrun (by simp [items])
  | succ limit =>
    rw [items, runOn_bind_of_ok (runOn_peek s), if_pos h,
      runOn_bind_of_ok (runOn_discard_advance s)] at hrun
    obtain ⟨rfl, rfl⟩ := runOn_pure_eq_ok.1 hrun
    exact ⟨rfl, rfl⟩

/-- The items up to the closing delimiter, which has been taken. -/
theorem derives_items {expression : Parser Expr} (hexpression : Derives expression .expression)
    {delimiter : Delimiter} {opened : Position} (limit : Nat) :
    ∀ {s s' : ParserState} {es : List Expr}, s.links ≤ maxChain →
      runOn (items expression delimiter opened limit) s = (.ok es, s') →
      ∃ t : Items, t.IsGreedy ∧ t.trees = es ∧
        s.kinds = t.tokens ++ .symbol delimiter.closer :: s'.kinds ∧ s'.links = s.links := by
  induction limit with
  | zero =>
    intro s s' es _ hrun
    exact absurd hrun (by simp [items])
  | succ limit ih =>
    intro s s' es hl hrun
    rw [items, runOn_bind_of_ok (runOn_peek s)] at hrun
    by_cases hclose : s.stream.peek.kind = .symbol delimiter.closer
    · rw [if_pos hclose, runOn_bind_of_ok (runOn_discard_advance s)] at hrun
      obtain ⟨rfl, rfl⟩ := runOn_pure_eq_ok.1 hrun
      have hkinds := s.kinds_eq_cons (by simp [hclose])
      exact ⟨.none, trivial, rfl, by rw [← hclose]; exact hkinds, rfl⟩
    · rw [if_neg hclose] at hrun
      by_cases hend : s.stream.peek.kind = .endOfInput
      · rw [if_pos hend] at hrun
        exact absurd hrun (by simp)
      rw [if_neg hend] at hrun
      obtain ⟨first, s₁, hfirst, hrun⟩ := runOn_bind_eq_ok.1 hrun
      obtain ⟨e, heg, rfl, hek, hel, -⟩ := hexpression hl hfirst
      rw [runOn_bind_of_ok (runOn_peek s₁)] at hrun
      -- Behind an item stands a comma or the closing delimiter; all else is an error.
      by_cases hcomma : s₁.stream.peek.kind = .symbol .comma
      · simp only [if_pos hcomma] at hrun
        rw [runOn_bind_of_ok (runOn_discard_advance s₁)] at hrun
        obtain ⟨rest, s₂, hrest, hrun⟩ := runOn_bind_eq_ok.1 hrun
        obtain ⟨rfl, rfl⟩ := runOn_pure_eq_ok.1 hrun
        obtain ⟨t, htg, rfl, htk, htl⟩ := ih (show s₁.advanced.links ≤ maxChain from hel ▸ hl) hrest
        have hkinds := s₁.kinds_eq_cons (by simp [hcomma])
        refine ⟨.more e t, ⟨heg, htg⟩, rfl, ?_, htl.trans hel⟩
        rw [hek, hkinds, hcomma, htk, Items.tokens, List.append_assoc, List.cons_append]
      · simp only [if_neg hcomma] at hrun
        by_cases hclose₁ : s₁.stream.peek.kind = .symbol delimiter.closer
        · simp only [if_pos hclose₁] at hrun
          obtain ⟨rest, s₂, hrest, hrun⟩ := runOn_bind_eq_ok.1 hrun
          obtain ⟨rfl, rfl⟩ := runOn_pure_eq_ok.1 hrun
          obtain ⟨rfl, rfl⟩ := runOn_items_closer hclose₁ hrest
          have hkinds := s₁.kinds_eq_cons (by simp [hclose₁])
          exact ⟨.last e, heg, rfl, by rw [hek, hkinds, hclose₁]; rfl, hel⟩
        · simp only [if_neg hclose₁] at hrun
          split at hrun
          · exact absurd hrun (by simp)
          · obtain ⟨_, _, hbad, -⟩ := runOn_bind_eq_ok.1 hrun
            exact absurd hbad runOn_unexpected_ne_ok

theorem derives_list {nested : Nested} (hexpression : Derives nested.expression .expression)
    {delimiter : Delimiter} {opened : Position} {s s' : ParserState} {es : List Expr}
    (hl : s.links ≤ maxChain) (hrun : runOn (list nested delimiter opened) s = (.ok es, s')) :
    ∃ t : Items, t.IsGreedy ∧ t.trees = es ∧
      s.kinds = t.tokens ++ .symbol delimiter.closer :: s'.kinds ∧ s'.links = s.links := by
  rw [list, runOn_bind_of_ok (runOn_remaining s)] at hrun
  exact derives_items hexpression _ hl hrun

/-! ### Closures -/

/-- The names up to the closing parenthesis, which stays. -/
theorem derives_parameters (limit : Nat) : ∀ {s s' : ParserState} {names : List String},
    runOn (parameters limit) s = (.ok names, s') →
    (∃ trailing, s.kinds = parameterTokens names trailing ++ s'.kinds) ∧
      s'.stream.peek.kind = .symbol .rightParen ∧ s'.links = s.links := by
  induction limit with
  | zero =>
    intro s s' names hrun
    exact absurd hrun runOn_unexpected_ne_ok
  | succ limit ih =>
    intro s s' names hrun
    rw [parameters, runOn_bind_of_ok (runOn_isNext _ s)] at hrun
    by_cases hclose : s.stream.peek.kind = .symbol .rightParen
    · rw [if_pos (by simpa using hclose)] at hrun
      obtain ⟨rfl, rfl⟩ := runOn_pure_eq_ok.1 hrun
      exact ⟨⟨false, rfl⟩, hclose, rfl⟩
    · rw [if_neg (by simpa using hclose), runOn_bind_of_ok (runOn_peek s)] at hrun
      split at hrun
      case h_2 => exact absurd hrun runOn_unexpected_ne_ok
      case h_1 name hname =>
        have hkinds := s.kinds_eq_cons (by simp [hname])
        rw [hname] at hkinds
        rw [runOn_bind_of_ok (runOn_discard_advance s),
          runOn_bind_of_ok (runOn_isNext _ s.advanced)] at hrun
        by_cases hclose₁ : s.advanced.stream.peek.kind = .symbol .rightParen
        · simp only [hclose₁, beq_self_eq_true, Bool.not_true, Bool.false_eq_true, if_false] at hrun
          obtain ⟨rest, s₂, hrest, hrun⟩ := runOn_bind_eq_ok.1 hrun
          obtain ⟨rfl, rfl⟩ := runOn_pure_eq_ok.1 hrun
          -- The next round stops at the closing parenthesis.
          have hnil : rest = [] ∧ s₂ = s.advanced := by
            cases limit with
            | zero => exact absurd hrest runOn_unexpected_ne_ok
            | succ limit =>
              rw [parameters, runOn_bind_of_ok (runOn_isNext _ _), if_pos (by simpa using hclose₁)]
                at hrest
              obtain ⟨rfl, rfl⟩ := runOn_pure_eq_ok.1 hrest
              exact ⟨rfl, rfl⟩
          obtain ⟨rfl, rfl⟩ := hnil
          exact ⟨⟨false, hkinds⟩, hclose₁, rfl⟩
        · rw [if_pos (by simpa using hclose₁)] at hrun
          obtain ⟨_, s₁, hcomma, hrun⟩ := runOn_bind_eq_ok.1 hrun
          obtain ⟨hcomma, rfl⟩ := runOn_expect_eq_ok.1 hcomma
          obtain ⟨rest, s₂, hrest, hrun⟩ := runOn_bind_eq_ok.1 hrun
          obtain ⟨rfl, rfl⟩ := runOn_pure_eq_ok.1 hrun
          obtain ⟨⟨trailing, hk⟩, hpeek, hlinks⟩ := ih hrest
          refine ⟨?_, hpeek, hlinks⟩
          rw [hkinds, hcomma, hk]
          -- A comma with no name behind it is the trailing one.
          cases rest with
          | nil => exact ⟨true, rfl⟩
          | cons next rest => exact ⟨trailing, rfl⟩

theorem runOn_close_eq_ok {delimiter : Delimiter} {opened : Position} {s s' : ParserState} :
    runOn (close delimiter opened) s = (.ok (), s') →
      s.kinds = .symbol delimiter.closer :: s'.kinds ∧ s.advanced = s' := by
  intro hrun
  rw [close, runOn_bind_of_ok (runOn_peek s)] at hrun
  by_cases hclose : s.stream.peek.kind = .symbol delimiter.closer
  · rw [if_pos hclose] at hrun
    simp only [runOn_discard_advance, Prod.mk.injEq, true_and] at hrun
    have hkinds := s.kinds_eq_cons (by simp [hclose])
    rw [hclose, hrun] at hkinds
    exact ⟨hkinds, hrun⟩
  · rw [if_neg hclose] at hrun
    split at hrun
    · exact absurd hrun (by simp)
    · exact absurd hrun runOn_unexpected_ne_ok

/-- A closure behind its opening parenthesis; the body goes as far as an expression does. -/
theorem derives_closure {nested : Nested} (hexpression : Derives nested.expression .expression)
    {opened : Position} {s s' : ParserState} {e : Expr} (hl : s.links ≤ maxChain)
    (hrun : runOn (closure nested opened) s = (.ok e, s')) :
    ∃ params trailing, ∃ body : Derivation .expression, body.IsGreedy ∧
      .closure params body.tree = e ∧
      .symbol .leftParen :: s.kinds
        = closureHead false params trailing ++ (body.tokens ++ s'.kinds) ∧
      s'.links = s.links ∧ headStrength s'.kinds = 0 := by
  rw [closure, runOn_bind_of_ok (runOn_remaining s)] at hrun
  obtain ⟨params, s₁, hparams, hrun⟩ := runOn_bind_eq_ok.1 hrun
  obtain ⟨⟨trailing, hk⟩, -, hlinks⟩ := derives_parameters _ hparams
  obtain ⟨_, s₂, hclose, hrun⟩ := runOn_bind_eq_ok.1 hrun
  obtain ⟨hclose, rfl⟩ := runOn_close_eq_ok hclose
  obtain ⟨_, s₃, harrow, hrun⟩ := runOn_bind_eq_ok.1 hrun
  obtain ⟨harrow, rfl⟩ := runOn_expect_eq_ok.1 harrow
  obtain ⟨body, s₄, hbody, hrun⟩ := runOn_bind_eq_ok.1 hrun
  obtain ⟨rfl, rfl⟩ := runOn_pure_eq_ok.1 hrun
  obtain ⟨t, htg, rfl, htk, htl, hth⟩ :=
    hexpression (show s₁.advanced.advanced.links ≤ maxChain from hlinks ▸ hl) hbody
  refine ⟨params, trailing, t, htg, rfl, ?_, htl.trans hlinks,
    Nat.le_zero.1 (Nat.le_trans hth t.hold_le)⟩
  rw [hk, hclose, harrow, htk]
  simp [closureHead, Delimiter.closer]

/-! ### Primary expressions -/

theorem headStrength_le (ks : List TokenKind) : headStrength ks ≤ 8 := by
  cases ks with
  | nil => exact Nat.zero_le _
  | cons k ks => exact strength_le k

/-- A primary expression of a single token. -/
theorem taken_single {t : Derivation .primary} {s : ParserState} {e : Expr}
    (hgreedy : t.IsGreedy) (htree : t.tree = e) (hclosed : t.isOpen = false)
    (htokens : t.tokens = [s.stream.peek.kind]) (hend : s.stream.peek.kind ≠ .endOfInput) :
    t.Taken e s s.advanced where
  greedy := hgreedy
  tree := htree
  kinds := by rw [htokens]; exact s.kinds_eq_cons hend
  links := rfl
  head := by rw [Derivation.hold_of_closed hclosed]; exact headStrength_le _

theorem derives_literal {s s' : ParserState} {e : Expr} (v : Literal)
    (hk : s.stream.peek.kind = v.token)
    (hrun : runOn (pure (.literal v) : Parser Expr) s.advanced = (.ok e, s')) :
    ∃ t : Derivation .primary, t.Taken e s s' := by
  obtain ⟨rfl, rfl⟩ := runOn_pure_eq_ok.1 hrun
  refine ⟨.literal v, taken_single trivial rfl rfl (by rw [hk]; rfl) ?_⟩
  rw [hk]
  cases v with
  | number x => cases x <;> simp [Literal.token]
  | _ => simp [Literal.token]

/-- An identifier with no parenthesis behind it is a name; with one, a closure or a call. -/
theorem derives_identifier {nested : Nested} (hexpression : Derives nested.expression .expression)
    {s s' : ParserState} {e : Expr} {name : String} (hl : s.links ≤ maxChain)
    (hk : s.stream.peek.kind = .identifier name) (hrun : runOn (primary nested) s = (.ok e, s')) :
    ∃ t : Derivation .primary, t.Taken e s s' := by
  rw [primary, runOn_bind_of_ok (runOn_advance s), hk] at hrun
  have hkinds := s.kinds_eq_cons (by simp [hk])
  rw [hk] at hkinds
  rw [runOn_bind_of_ok (runOn_isNext _ _)] at hrun
  by_cases hopen : s.advanced.stream.peek.kind = .symbol .leftParen
  · have hkinds₁ := s.advanced.kinds_eq_cons (by simp [hopen])
    rw [hopen] at hkinds₁
    rw [if_neg (by simp [hopen]), runOn_bind_of_ok (runOn_advance _)] at hrun
    simp only [] at hrun
    rw [runOn_bind_of_ok (runOn_get _)] at hrun
    -- The word of closures with an arrow behind the parentheses, or the name of a function.
    split at hrun
    case isTrue hfn =>
      obtain ⟨params, trailing, body, hg, rfl, hbody, hlinks, hhead⟩ :=
        derives_closure hexpression (show s.advanced.advanced.links ≤ maxChain from hl) hrun
      obtain ⟨rfl, -⟩ : name = "fn" ∧ _ := by simpa using hfn
      refine ⟨.closure true params trailing body, hg, rfl, ?_, hlinks, Nat.le_of_eq hhead⟩
      rw [hkinds, hkinds₁, hbody]
      simp [Derivation.tokens, closureHead]
    case isFalse =>
      obtain ⟨args, s₁, hargs, hrun⟩ := runOn_bind_eq_ok.1 hrun
      obtain ⟨rfl, rfl⟩ := runOn_pure_eq_ok.1 hrun
      obtain ⟨t, htg, rfl, htk, htl⟩ :=
        derives_list hexpression (show s.advanced.advanced.links ≤ maxChain from hl) hargs
      refine ⟨.call name t, htg, rfl, ?_, htl, headStrength_le _⟩
      rw [hkinds, hkinds₁, htk]
      simp [Derivation.tokens, Delimiter.closer]
  · rw [if_pos (by simpa using hopen)] at hrun
    obtain ⟨rfl, rfl⟩ := runOn_pure_eq_ok.1 hrun
    exact ⟨.name name, taken_single trivial rfl rfl (by rw [hk]; rfl) (by simp [hk])⟩

/-- A parenthesis opens the parameters of a closure or an expression in parentheses. -/
theorem derives_parenthesis {nested : Nested} (hexpression : Derives nested.expression .expression)
    {s s' : ParserState} {e : Expr} (hl : s.links ≤ maxChain)
    (hk : s.stream.peek.kind = .symbol .leftParen)
    (hrun : runOn (primary nested) s = (.ok e, s')) :
    ∃ t : Derivation .primary, t.Taken e s s' := by
  rw [primary, runOn_bind_of_ok (runOn_advance s), hk] at hrun
  have hkinds := s.kinds_eq_cons (by simp [hk])
  rw [hk] at hkinds
  rw [runOn_bind_of_ok (runOn_get _)] at hrun
  split at hrun
  case isTrue =>
    obtain ⟨params, trailing, body, hg, rfl, hbody, hlinks, hhead⟩ :=
      derives_closure hexpression (show s.advanced.links ≤ maxChain from hl) hrun
    refine ⟨.closure false params trailing body, hg, rfl, ?_, hlinks, Nat.le_of_eq hhead⟩
    rw [hkinds, hbody, Derivation.tokens, List.append_assoc]
  case isFalse =>
    obtain ⟨inner, s₁, hinner, hrun⟩ := runOn_bind_eq_ok.1 hrun
    obtain ⟨t, htg, rfl, htk, htl, -⟩ :=
      hexpression (show s.advanced.links ≤ maxChain from hl) hinner
    obtain ⟨_, s₂, hclose, hrun⟩ := runOn_bind_eq_ok.1 hrun
    obtain ⟨hclose, rfl⟩ := runOn_close_eq_ok hclose
    obtain ⟨rfl, rfl⟩ := runOn_pure_eq_ok.1 hrun
    refine ⟨.group t, htg, rfl, ?_, htl, headStrength_le _⟩
    rw [hkinds, htk, hclose]
    simp [Derivation.tokens, Delimiter.closer]

/-- A bracket opens a list. -/
theorem derives_bracket {nested : Nested} (hexpression : Derives nested.expression .expression)
    {s s' : ParserState} {e : Expr} (hl : s.links ≤ maxChain)
    (hk : s.stream.peek.kind = .symbol .leftBracket)
    (hrun : runOn (primary nested) s = (.ok e, s')) :
    ∃ t : Derivation .primary, t.Taken e s s' := by
  rw [primary, runOn_bind_of_ok (runOn_advance s), hk] at hrun
  have hkinds := s.kinds_eq_cons (by simp [hk])
  rw [hk] at hkinds
  obtain ⟨elements, s₁, helements, hrun⟩ := runOn_bind_eq_ok.1 hrun
  obtain ⟨rfl, rfl⟩ := runOn_pure_eq_ok.1 hrun
  obtain ⟨t, htg, rfl, htk, htl⟩ :=
    derives_list hexpression (show s.advanced.links ≤ maxChain from hl) helements
  refine ⟨.list t, htg, rfl, ?_, htl, headStrength_le _⟩
  rw [hkinds, htk]
  simp [Derivation.tokens, Delimiter.closer]

theorem derives_primary {nested : Nested} (hexpression : Derives nested.expression .expression) :
    Derives (primary nested) .primary := by
  intro s s' e hl hrun
  have hprimary := hrun
  rw [primary, runOn_bind_of_ok (runOn_advance s)] at hrun
  cases hk : s.stream.peek.kind <;> rw [hk] at hrun
  case integer n => exact derives_literal (.number (.integer n)) hk hrun
  case float x => exact derives_literal (.number (.float x)) hk hrun
  case string c => exact derives_literal (.string c) hk hrun
  case boolean b => exact derives_literal (.boolean b) hk hrun
  case null => exact derives_literal .null hk hrun
  case endOfInput => exact absurd hrun runOn_unexpectedAt_ne_ok
  case identifier name => exact derives_identifier hexpression hl hk hprimary
  case symbol symbol =>
    cases symbol
    case leftParen => exact derives_parenthesis hexpression hl hk hprimary
    case leftBracket => exact derives_bracket hexpression hl hk hprimary
    case rightParen => exact absurd hrun (by simp)
    case rightBracket => exact absurd hrun (by simp)
    -- No other symbol starts a primary expression.
    all_goals exact absurd hrun runOn_unexpectedAt_ne_ok

/-! ### Member chains -/

theorem runOn_memberName_eq_ok {s s' : ParserState} {name : String}
    (hrun : runOn memberName s = (.ok name, s')) :
    ∃ m : MemberName, m.text = name ∧ s.kinds = m.token :: s'.kinds ∧ s'.links = s.links := by
  rw [memberName, runOn_bind_of_ok (runOn_peek s)] at hrun
  split at hrun
  case h_1 name hk =>
    rw [runOn_bind_of_ok (runOn_discard_advance s)] at hrun
    obtain ⟨rfl, rfl⟩ := runOn_pure_eq_ok.1 hrun
    have hkinds := s.kinds_eq_cons (by simp [hk])
    rw [hk] at hkinds
    exact ⟨.identifier name, rfl, hkinds, rfl⟩
  case h_2 n hk =>
    by_cases hn : n < 0
    · simp only [if_pos hn] at hrun
      obtain ⟨_, _, hbad, -⟩ := runOn_bind_eq_ok.1 hrun
      exact absurd hbad runOn_unexpected_ne_ok
    · simp only [if_neg hn] at hrun
      rw [runOn_bind_of_ok (runOn_discard_advance s)] at hrun
      obtain ⟨rfl, rfl⟩ := runOn_pure_eq_ok.1 hrun
      have hkinds := s.kinds_eq_cons (by simp [hk])
      rw [hk] at hkinds
      exact ⟨.index n hn, rfl, hkinds, rfl⟩
  case h_3 => exact absurd hrun runOn_unexpected_ne_ok

/-- The member steps behind an object; what has been read so far is the derivation `object`. -/
theorem derives_members {nested : Nested} (hexpression : Derives nested.expression .expression)
    (limit : Nat) :
    ∀ {s s' : ParserState} {e : Expr} (object : Derivation .path),
      s.links ≤ maxChain → maxChain < s.links + limit → object.IsGreedy →
      (object.isOpen = true → headStrength s.kinds = 0) →
      runOn (members nested limit object.tree object.nullSafe) s = (.ok e, s') →
      ∃ t : Derivation .path, t.IsGreedy ∧ t.tree = e ∧
        object.tokens ++ s.kinds = t.tokens ++ s'.kinds ∧ headStrength s'.kinds ≤ t.hold := by
  induction limit with
  | zero =>
    intro s s' e object hl hlimit
    omega
  | succ limit ih =>
    intro s s' e object hl hlimit hg hs hrun
    rw [members, runOn_bind_of_ok (runOn_peek s)] at hrun
    simp only [] at hrun
    cases hdot : s.stream.peek.kind.isDot with
    | false =>
      rw [if_pos (by simp [hdot])] at hrun
      obtain ⟨rfl, rfl⟩ := runOn_pure_eq_ok.1 hrun
      refine ⟨object, hg, rfl, rfl, ?_⟩
      rw [Derivation.hold]
      split
      · exact Nat.le_of_eq (hs ‹_›)
      · rw [← s.strength_peek]
        exact strength_le_of_not_isDot hdot
    | true =>
      obtain ⟨nullSafe, hk, hsafe⟩ := exists_dotSymbol hdot
      rw [if_neg (by simp [hdot]), ← hsafe] at hrun
      have hkinds := s.kinds_eq_cons (by rw [hk]; simp)
      rw [hk] at hkinds
      -- A closure at the end of the object would have taken the step into its body.
      have hclosed : object.isOpen = false := by
        by_contra ho
        have := hs (by simpa using ho)
        rw [hkinds, headStrength_cons, strength_dotSymbol] at this
        omega
      obtain ⟨_, s₁, hlink, hrun⟩ := runOn_bind_eq_ok.1 hrun
      obtain ⟨hlt, rfl⟩ := runOn_link_eq_ok.1 hlink
      rw [runOn_bind_of_ok (runOn_discard_advance _)] at hrun
      obtain ⟨name, s₂, hname, hrun⟩ := runOn_bind_eq_ok.1 hrun
      obtain ⟨m, rfl, hmk, hml⟩ := runOn_memberName_eq_ok hname
      have hlinks : s₂.links = s.links + 1 := hml
      rw [runOn_bind_of_ok (runOn_isNext _ _)] at hrun
      by_cases hopen : s₂.stream.peek.kind = .symbol .leftParen
      · have hkinds₂ := s₂.kinds_eq_cons (by simp [hopen])
        rw [hopen] at hkinds₂
        rw [if_pos (by simp [hopen]), runOn_bind_of_ok (runOn_advance _)] at hrun
        obtain ⟨args, s₃, hargs, hrun⟩ := runOn_bind_eq_ok.1 hrun
        obtain ⟨as, hasg, rfl, hask, hasl⟩ :=
          derives_list hexpression (show s₂.advanced.links ≤ maxChain from hlinks ▸ hlt) hargs
        have hlinks₃ : s₃.links = s.links + 1 := hasl.trans hlinks
        obtain ⟨t, htg, hte, htk, hth⟩ := ih (.stepCall object nullSafe m as) (by omega) (by omega)
          ⟨hclosed, hg, hasg⟩ (by simp [Derivation.isOpen]) hrun
        refine ⟨t, htg, hte, ?_, hth⟩
        rw [← htk, hkinds, Derivation.tokens, show s.advanced.kinds = m.token :: s₂.kinds from hmk,
          hkinds₂, hask]
        simp [Delimiter.closer]
      · rw [if_neg (by simpa using hopen)] at hrun
        obtain ⟨t, htg, hte, htk, hth⟩ := ih (.step object nullSafe m) (by omega) (by omega)
          ⟨hclosed, hg⟩ (by simp [Derivation.isOpen]) hrun
        refine ⟨t, htg, hte, ?_, hth⟩
        rw [← htk, hkinds, Derivation.tokens, show s.advanced.kinds = m.token :: s₂.kinds from hmk]
        simp

theorem derives_path {nested : Nested} (hexpression : Derives nested.expression .expression) :
    Derives (path nested) .path := by
  intro s s' e hl hrun
  rw [path] at hrun
  obtain ⟨object, s₁, hobject, hrun⟩ := runOn_bind_eq_ok.1 hrun
  obtain ⟨p, hpg, rfl, hpk, hpl, hph⟩ := derives_primary hexpression hl hobject
  rw [runOn_bind_of_ok (runOn_get s₁)] at hrun
  obtain ⟨result, s₂, hmembers, hrun⟩ := runOn_bind_eq_ok.1 hrun
  rw [runOn_bind_of_ok (runOn_withLinks _ s₂)] at hrun
  obtain ⟨rfl, rfl⟩ := runOn_pure_eq_ok.1 hrun
  have hopen : (Derivation.primary p).isOpen = true → headStrength s₁.kinds = 0 := by
    intro ho
    rw [Derivation.hold_of_open (show p.isOpen = true from ho)] at hph
    exact Nat.le_zero.1 hph
  obtain ⟨t, htg, hte, htk, hth⟩ := derives_members hexpression (maxChain + 1) (.primary p)
    (by omega) (by omega) hpg hopen hmembers
  exact ⟨t, htg, hte, hpk.trans htk, hpl, hth⟩

/-! ### Unary minus and conditionals -/

theorem derives_unary {nested : Nested} (hexpression : Derives nested.expression .expression)
    (hunary : Derives nested.unary .unary) : Derives (unary nested) .unary := by
  intro s s' e hl hrun
  rw [unary, runOn_bind_of_ok (runOn_isNext _ s)] at hrun
  by_cases hminus : s.stream.peek.kind = .symbol .minus
  · have hkinds := s.kinds_eq_cons (by simp [hminus])
    rw [hminus] at hkinds
    rw [if_pos (by simp [hminus]), runOn_bind_of_ok (runOn_discard_advance s)] at hrun
    obtain ⟨operand, s₁, hoperand, hrun⟩ := runOn_bind_eq_ok.1 hrun
    obtain ⟨rfl, rfl⟩ := runOn_pure_eq_ok.1 hrun
    obtain ⟨t, htg, rfl, htk, htl, hth⟩ :=
      hunary (show s.advanced.links ≤ maxChain from hl) hoperand
    refine ⟨.minus t, htg, rfl, ?_, htl, hth⟩
    rw [hkinds, htk]
    rfl
  · rw [if_neg (by simpa using hminus)] at hrun
    obtain ⟨t, htg, hte, htk, htl, hth⟩ := derives_path hexpression hl hrun
    exact ⟨.path t, htg, hte, htk, htl, hth⟩

theorem derives_level {nested : Nested} (level : Level)
    (hoperand : Derives (production nested level.operand) level.operand) :
    Derives (production nested (.binary level)) (.binary level) := by
  rw [production_binary]
  exact derives_chain hoperand

/-- All levels, from the tightest on. -/
theorem derives_binary {nested : Nested} (hunary : Derives (production nested .unary) .unary)
    (level : Level) : Derives (production nested (.binary level)) (.binary level) := by
  have multiplicative := derives_level .multiplicative hunary
  have additive := derives_level .additive multiplicative
  have comparison := derives_level .comparison additive
  have conjunction := derives_level .conjunction comparison
  have disjunction := derives_level .disjunction conjunction
  have coalesce := derives_level .coalesce disjunction
  match level with
  | .coalesce => exact coalesce
  | .disjunction => exact disjunction
  | .conjunction => exact conjunction
  | .comparison => exact comparison
  | .additive => exact additive
  | .multiplicative => exact multiplicative

theorem derives_conditional {nested : Nested}
    (hexpression : Derives nested.expression .expression)
    (hcoalesce : Derives (coalesce nested) (.binary .coalesce)) :
    Derives (conditional nested) .expression := by
  intro s s' e hl hrun
  rw [conditional] at hrun
  obtain ⟨condition, s₁, hcondition, hrun⟩ := runOn_bind_eq_ok.1 hrun
  obtain ⟨c, hcg, rfl, hck, hcl, hch⟩ := hcoalesce hl hcondition
  rw [runOn_bind_of_ok (runOn_isNext _ s₁)] at hrun
  by_cases hquestion : s₁.stream.peek.kind = .symbol .question
  · have hkinds := s₁.kinds_eq_cons (by simp [hquestion])
    rw [hquestion] at hkinds
    -- A closure at the end of the condition would have taken the question mark.
    have hclosed : c.isOpen = false :=
      Derivation.isOpen_eq_false (by rw [hkinds]; exact Nat.zero_lt_one) hch
    rw [if_neg (by simp [hquestion]), runOn_bind_of_ok (runOn_discard_advance s₁),
      runOn_bind_of_ok (runOn_isNext _ _)] at hrun
    by_cases hcolon : s₁.advanced.stream.peek.kind = .symbol .colon
    · have hkinds₁ := s₁.advanced.kinds_eq_cons (by simp [hcolon])
      rw [hcolon] at hkinds₁
      rw [if_pos (by simp [hcolon]), runOn_bind_of_ok (runOn_discard_advance _)] at hrun
      obtain ⟨otherwise, s₂, hotherwise, hrun⟩ := runOn_bind_eq_ok.1 hrun
      obtain ⟨rfl, rfl⟩ := runOn_pure_eq_ok.1 hrun
      obtain ⟨o, hog, rfl, hok, hol, hoh⟩ :=
        hexpression (show s₁.advanced.advanced.links ≤ maxChain from hcl ▸ hl) hotherwise
      refine ⟨.elvis c o, ⟨hclosed, hcg, hog⟩, rfl, ?_, hol.trans hcl,
        Nat.le_trans hoh (Nat.le_trans o.hold_le (Nat.zero_le _))⟩
      rw [hck, hkinds, hkinds₁, hok]
      simp [Derivation.tokens]
    · rw [if_neg (by simpa using hcolon)] at hrun
      obtain ⟨whenTrue, s₂, hwhenTrue, hrun⟩ := runOn_bind_eq_ok.1 hrun
      obtain ⟨t, htg, rfl, htk, htl, -⟩ :=
        hexpression (show s₁.advanced.links ≤ maxChain from hcl ▸ hl) hwhenTrue
      obtain ⟨_, s₃, hcolon₂, hrun⟩ := runOn_bind_eq_ok.1 hrun
      obtain ⟨hcolon₂, rfl⟩ := runOn_expect_eq_ok.1 hcolon₂
      obtain ⟨otherwise, s₃, hotherwise, hrun⟩ := runOn_bind_eq_ok.1 hrun
      obtain ⟨rfl, rfl⟩ := runOn_pure_eq_ok.1 hrun
      have hlinks : s₂.links = s.links := htl.trans hcl
      obtain ⟨o, hog, rfl, hok, hol, hoh⟩ :=
        hexpression (show s₂.advanced.links ≤ maxChain from hlinks ▸ hl) hotherwise
      refine ⟨.ternary c t o, ⟨hclosed, hcg, htg, hog⟩, rfl, ?_, hol.trans hlinks,
        Nat.le_trans hoh (Nat.le_trans o.hold_le (Nat.zero_le _))⟩
      rw [hck, hkinds, htk, hcolon₂, hok]
      simp [Derivation.tokens]
  · rw [if_pos (by simpa using hquestion)] at hrun
    obtain ⟨rfl, rfl⟩ := runOn_pure_eq_ok.1 hrun
    refine ⟨.condition c, hcg, rfl, hck, hcl, ?_⟩
    -- A coalescing chain stops at a question mark at most, and this is none.
    have hle := Nat.le_trans hch c.hold_le
    have hne : headStrength s₁.kinds ≠ 1 := by
      rw [← s₁.strength_peek]
      exact fun h => hquestion (eq_question_of_strength h)
    have hzero : headStrength s₁.kinds = 0 := by
      change _ ≤ 1 at hle
      omega
    rw [hzero]
    exact Nat.zero_le _

/-! ### Nesting -/

theorem derives_tooDeep (n : Nonterminal) : Derives tooDeep n := by
  intro s s' e _ hrun
  rw [tooDeep, runOn_bind_of_ok (runOn_peek s)] at hrun
  exact absurd hrun (by simp)

/-- Both nesting productions derive what they read, whatever levels are left.  The induction is on
the levels. -/
theorem derives_nestedAt (levels : Nat) :
    Derives (nestedAt levels).expression .expression ∧ Derives (nestedAt levels).unary .unary := by
  induction levels with
  | zero => exact ⟨derives_tooDeep _, derives_tooDeep _⟩
  | succ levels ih =>
    have hunary : Derives (unary (nestedAt levels)) .unary := derives_unary ih.1 ih.2
    exact ⟨derives_conditional ih.1 (derives_binary hunary .coalesce), hunary⟩

/-- Every production derives what it reads. -/
theorem derives_production (levels : Nat) (n : Nonterminal) :
    Derives (production (nestedAt levels) n) n := by
  obtain ⟨hexpression, hunary⟩ := derives_nestedAt levels
  have unary : Derives (unary (nestedAt levels)) .unary := derives_unary hexpression hunary
  match n with
  | .expression => exact derives_conditional hexpression (derives_binary unary .coalesce)
  | .binary level => exact derives_binary unary level
  | .unary => exact unary
  | .path => exact derives_path hexpression
  | .primary => exact derives_primary hexpression

theorem derives_expression : Derives expression .expression := (derives_nestedAt maxNesting).1

end Parser

end PathQuery
