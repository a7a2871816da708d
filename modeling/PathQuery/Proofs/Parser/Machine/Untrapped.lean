/-
No text stops the machine.

* **`Machine.readsAs_expression`, `Machine.readsAs_query`** — the productions of the machine go as
  those of the parser;
* **`Machine.callAll_untrapped`** — calls in turn on the tokens of a text meet no trap, give the
  answers of the parser, and leave the machine in a sound state.

Design notes: a loop of the machine has more rounds than there are tokens, one of the parser as many
as there are tokens or links left.  A round takes a token, and in a chain a link as well, so neither
runs out of rounds before the loop ends by itself.
-/
import PathQuery.Proofs.Parser.Machine.RunsAs

namespace PathQuery

/-! ### The least integer -/

theorem minValue_lt_iff {n : Int64} : Int64.minValue < n ↔ n ≠ Int64.minValue :=
  ⟨fun h => (Int64.ne_of_lt h).symm, fun h => Int64.lt_of_le_of_ne n.minValue_le h.symm⟩

namespace Expr

theorem isAboveLeast_literal {k : TokenKind} (hk : k.IsLexed) {v : Literal} (hv : k = v.token) :
    (Expr.literal v).all isAboveLeast = true := by
  cases v with
  | number x =>
    cases x with
    | integer n =>
      rw [hv] at hk
      -- An integer of a text has no sign.
      have hne : n ≠ Int64.minValue := by
        rintro rfl
        exact hk (by decide)
      exact decide_eq_true (minValue_lt_iff.2 hne)
    | float x => rfl
  | _ => rfl

/-- The least integer is its own negative, and of no other one. -/
theorem all_negate {e : Expr} (he : e.all isAboveLeast = true) :
    (Parser.negate e).all isAboveLeast = true := by
  rw [Parser.negate.eq_def]
  split
  case h_1 n =>
    have hn : n ≠ Int64.minValue := minValue_lt_iff.1 (of_decide_eq_true he)
    refine decide_eq_true (minValue_lt_iff.2 fun hneg => hn ?_)
    rw [← Int64.neg_inj, hneg]
    rfl
  case h_2 => rfl
  case h_3 =>
    have hzero : Int64.minValue < 0 := by decide
    simp [all, isAboveLeast, he, hzero]

@[simp] theorem isAboveLeast_join (op : BinaryOp) (l r : Expr) :
    isAboveLeast (op.join l r) = true := by cases op <;> rfl

end Expr

/-- The answers of a parser to calls in turn, going on after errors. -/
def Parser.answers : ParserState → List Call → List (Except ParseError Expr)
  | _, [] => []
  | s, call :: calls => (call.run s).1 :: answers (call.run s).2 calls

theorem Parser.arrowBehindClose_cons (depth : Nat) (token : Token) (rest : List Token) :
    Parser.arrowBehindClose depth (token :: rest) =
      if token.kind = .symbol .leftParen then Parser.arrowBehindClose (depth + 1) rest
      else if token.kind = .symbol .rightParen then
        match depth with
        | 0 => rest.head?.any (·.kind == .symbol .arrow)
        | depth + 1 => Parser.arrowBehindClose depth rest
      else Parser.arrowBehindClose depth rest := by
  cases depth <;> rfl

namespace Machine

variable {ts : List Token} {d : Nat} {c : State} {s : ParserState}

/-! ### Chains -/

/-- The operators of a chain are tokens, and join trees without the least integer to such trees. -/
def Joins (operator : TokenKind → Option (Expr → Expr → Expr)) : Prop :=
  ∀ k join, operator k = some join → k ≠ .endOfInput ∧
    ∀ l r : Expr, l.all Expr.isAboveLeast = true → r.all Expr.isAboveLeast = true →
      (join l r).all Expr.isAboveLeast = true

theorem joins_operator (level : Level) : Joins level.operator := by
  intro k join h
  obtain ⟨op, -, rfl, rfl⟩ := Level.operator_eq_some h
  refine ⟨TokenKind.noConfusion, fun l r hl hr => ?_⟩
  rw [Expr.all_join, Expr.isAboveLeast_join, hl, hr]
  rfl

section

variable {operator : TokenKind → Option (Expr → Expr → Expr)} {operand : Machine Expr}
  {operand' : Parser Expr}

/-- The rounds of a chain, by induction on those of the machine. -/
theorem runsAs_chainRest (hoperator : Joins operator) (hoperand : ReadsAs ts d operand operand')
    (limit : Nat) : ∀ {limit' : Nat} {left : Expr} {c : State} {s : ParserState},
      StandsAt ts d c s → left ∈ c.built → s.kinds.length < limit → maxChain < s.links + limit' →
        RunsAs ts d (chainRest operator operand limit left)
          (Parser.chainRest operator operand' limit' left) c s fun e built s' =>
            e ∈ built ∧ s'.kinds.length ≤ s.kinds.length := by
  induction limit with
  | zero => exact fun _ _ hlimit => absurd hlimit (Nat.not_lt_zero _)
  | succ limit ih =>
    intro limit' left c s h hleft hlimit hlimit'
    have hlinks := h.links_le
    obtain ⟨limit', rfl⟩ : ∃ n, limit' = n + 1 := ⟨limit' - 1, by omega⟩
    rw [chainRest, Parser.chainRest]
    refine .peek h ?_
    cases hop : operator s.stream.peek.kind with
    | none => exact .pure h ⟨hleft, Nat.le_refl _⟩
    | some join =>
      obtain ⟨hend, hjoin⟩ := hoperator _ _ hop
      refine .link h fun hlt => ?_
      have h₁ := h.linked hlt
      refine .discardAdvance h₁ hend ?_
      refine (hoperand _ _ (h₁.advanced hend)).bind fun right c₂ s₂ h₂ hright => ?_
      obtain ⟨hright, hbehind⟩ := hright
      obtain ⟨hlinks₂, hlength⟩ := hbehind.of_linked hend
      have htree := hjoin left right (h.built left hleft) (h₂.built right hright)
      refine .step (runOn_build _ _) (List.suffix_cons _ _) ?_
      refine (ih (h₂.withTree htree) List.mem_cons_self (by omega) (by omega)).mono ?_
      exact fun e built s' he => ⟨he.1, Nat.le_trans he.2 (Nat.le_of_lt hlength)⟩

theorem ReadsAs.chain (hoperator : Joins operator) (hoperand : ReadsAs ts d operand operand') :
    ReadsAs ts d (Machine.chain operator operand) (Parser.chain operator operand') := by
  intro c s h
  refine .restoring (hoperand c s h) fun first c₁ s₁ h₁ hfirst => ?_
  obtain ⟨hfirst, hbehind⟩ := hfirst
  refine (runsAs_chainRest hoperator hoperand _ h₁ hfirst h₁.kinds_length_lt (by omega)).mono ?_
  rintro e built s₂ ⟨he, hle⟩
  exact ⟨he, hbehind.links, Nat.lt_of_le_of_lt hle hbehind.lt⟩

end

/-! ### Lists -/

/-- Trees without the least integer, for which a token at least has been taken. -/
def AreRead (s : ParserState) (es : List Expr) (s' : ParserState) : Prop :=
  (∀ e ∈ es, e.all Expr.isAboveLeast = true) ∧ s.Behind s'

theorem runsAs_items {expression : Machine Expr} {expression' : Parser Expr}
    (hexpression : ReadsAs ts d expression expression') (delimiter : Delimiter) (opened : Position)
    (limit : Nat) : ∀ {limit' : Nat} {c : State} {s : ParserState}, StandsAt ts d c s →
      s.kinds.length < limit → s.kinds.length ≤ limit' →
        RunsAs ts d (items expression delimiter opened limit)
          (Parser.items expression' delimiter opened limit') c s fun es _ s' =>
            AreRead s es s' := by
  induction limit with
  | zero => exact fun _ hlimit => absurd hlimit (Nat.not_lt_zero _)
  | succ limit ih =>
    intro limit' c s h hlimit hlimit'
    rw [items]
    cases limit' with
    | zero =>
      -- The parser has no round left, and the machine is in front of the end.
      have hnil : s.kinds = [] := List.eq_nil_of_length_eq_zero (Nat.le_zero.1 hlimit')
      have hend : s.stream.peek.kind = .endOfInput := ParserState.kind_peek_of_kinds_eq_nil hnil
      refine .look h.runOn_peek ?_
      rw [if_neg (by simp [hend]), if_pos hend]
      exact .throw h
    | succ limit' =>
      rw [Parser.items]
      refine .peek h ?_
      by_cases hclose : s.stream.peek.kind = .symbol delimiter.closer
      · have hend : s.stream.peek.kind ≠ .endOfInput := by simp [hclose]
        rw [if_pos hclose, if_pos hclose]
        refine .discardAdvance h hend (.pure (h.advanced hend) ⟨?_, s.behind_advanced hend⟩)
        exact fun e he => absurd he List.not_mem_nil
      · rw [if_neg hclose, if_neg hclose]
        by_cases hend : s.stream.peek.kind = .endOfInput
        · rw [if_pos hend, if_pos hend]
          exact .throw h
        · rw [if_neg hend, if_neg hend]
          refine (hexpression c s h).bind fun first c₁ s₁ h₁ hfirst => ?_
          obtain ⟨hfirst, hbehind⟩ := hfirst
          have hrest : ∀ {c₂ : State} {s₂ : ParserState}, StandsAt ts d c₂ s₂ → s.Behind s₂ →
              RunsAs ts d
                (do
                  let rest ← items expression delimiter opened limit
                  return first :: rest)
                (do
                  let rest ← Parser.items expression' delimiter opened limit'
                  return first :: rest) c₂ s₂ fun es _ s' => AreRead s es s' := by
            intro c₂ s₂ h₂ hbehind₂
            have hlt := hbehind₂.lt
            refine (ih h₂ (by omega) (by omega)).bind fun rest c₃ s₃ h₃ hrest => ?_
            refine .pure h₃ ⟨List.forall_mem_cons.2 ⟨?_, hrest.1⟩, hbehind₂.trans hrest.2⟩
            exact h₁.built first hfirst
          refine .peek h₁ ?_
          by_cases hcomma : s₁.stream.peek.kind = .symbol .comma
          · have hend₁ : s₁.stream.peek.kind ≠ .endOfInput := by simp [hcomma]
            simp only [if_pos hcomma]
            refine .discardAdvance h₁ hend₁ (hrest (h₁.advanced hend₁) ?_)
            exact hbehind.trans (s₁.behind_advanced hend₁)
          · simp only [if_neg hcomma]
            by_cases hclose₁ : s₁.stream.peek.kind = .symbol delimiter.closer
            · simp only [if_pos hclose₁]
              exact hrest h₁ hbehind
            · simp only [if_neg hclose₁]
              by_cases hend₁ : s₁.stream.peek.kind = .endOfInput
              · simp only [if_pos hend₁]
                exact .stop (.throw h₁)
              · simp only [if_neg hend₁]
                exact .stop (.unexpected h₁ _)

/-! ### Closures -/

/-- The search of the machine counts the parenthesis that the parser has behind it, so its counter
stays above zero. -/
theorem runOn_arrowBehindClose {tokens : List Token} (hproper : ∀ t ∈ tokens, t.kind ≠ .endOfInput)
    (stop : Position) (depth : Nat) (c : State) :
    runOn (arrowBehindClose (depth + 1) (tokens ++ [⟨.endOfInput, stop⟩])) c =
      .ok (.ok (Parser.arrowBehindClose depth tokens), c) := by
  induction tokens generalizing depth with
  | nil => rfl
  | cons token rest ih =>
    obtain ⟨hend, hrest⟩ := List.forall_mem_cons.1 hproper
    rw [List.cons_append, arrowBehindClose, Parser.arrowBehindClose_cons]
    by_cases hopen : token.kind = .symbol .leftParen
    · rw [if_pos hopen, if_pos hopen]
      exact ih hrest (depth + 1)
    · rw [if_neg hopen, if_neg hopen]
      by_cases hclose : token.kind = .symbol .rightParen
      · rw [if_pos hclose, if_pos hclose]
        cases depth with
        | zero => cases rest <;> rfl
        | succ depth => exact ih hrest depth
      · rw [if_neg hclose, if_neg hclose, if_neg hend]
        exact ih hrest depth

/-- The parenthesis at the front is looked at, also from one step behind it. -/
theorem StandsAt.runOn_closureAhead (h : StandsAt ts d c s)
    (hopen : s.stream.peek.kind = .symbol .leftParen) {c' : State} (hc' : c'.tokens = ts) :
    runOn (closureAhead c.current) c' =
      .ok (.ok (Parser.arrowBehindClose 0 s.advanced.stream.tokens), c') := by
  have hend : s.stream.peek.kind ≠ .endOfInput := by simp [hopen]
  have hproper : ∀ t ∈ s.advanced.stream.tokens, t.kind ≠ .endOfInput := by
    intro t ht hkind
    have hlexed := (h.advanced hend).lexed t.kind (List.mem_map_of_mem ht)
    rw [hkind] at hlexed
    exact hlexed
  have htoken : runOn (discard (tokenAt c.current)) c' = .ok (.ok (), c') := by
    show runOn (tokenAt c.current >>= fun _ => Pure.pure ()) c' = _
    rw [runOn_bind_of_ok (runOn_tokenAt (by rw [hc']; exact h.getElem?_current))]
    rfl
  rw [closureAhead, runOn_bind_of_ok htoken, runOn_bind_of_ok (runOn_get c'), hc',
    h.drop_current hend, arrowBehindClose, if_pos hopen]
  exact runOn_arrowBehindClose hproper _ 0 c'

theorem runsAs_parameters (limit : Nat) : ∀ {limit' : Nat} {c : State} {s : ParserState},
    StandsAt ts d c s → s.kinds.length < limit → s.kinds.length ≤ limit' →
      RunsAs ts d (parameters limit) (Parser.parameters limit') c s fun _ _ s' =>
        s'.links = s.links ∧ s'.kinds.length ≤ s.kinds.length := by
  induction limit with
  | zero => exact fun _ hlimit => absurd hlimit (Nat.not_lt_zero _)
  | succ limit ih =>
    intro limit' c s h hlimit hlimit'
    rw [parameters]
    cases limit' with
    | zero =>
      have hnil : s.kinds = [] := List.eq_nil_of_length_eq_zero (Nat.le_zero.1 hlimit')
      have hend : s.stream.peek.kind = .endOfInput := ParserState.kind_peek_of_kinds_eq_nil hnil
      refine .look (h.runOn_isNext _) ?_
      rw [hend, if_neg (by decide)]
      refine .look h.runOn_peek ?_
      rw [hend]
      exact .unexpected h _
    | succ limit' =>
      rw [Parser.parameters]
      refine .isNext h ?_
      split
      · exact .pure h ⟨rfl, Nat.le_refl _⟩
      · refine .peek h ?_
        cases hkind : s.stream.peek.kind with
        | identifier name =>
          have hend : s.stream.peek.kind ≠ .endOfInput := by simp [hkind]
          have hbehind := s.behind_advanced hend
          have hrest : ∀ {c₁ : State} {s₁ : ParserState}, StandsAt ts d c₁ s₁ → s.Behind s₁ →
              RunsAs ts d
                (do
                  let rest ← parameters limit
                  return name :: rest)
                (do
                  let rest ← Parser.parameters limit'
                  return name :: rest) c₁ s₁ fun _ _ s' =>
                    s'.links = s.links ∧ s'.kinds.length ≤ s.kinds.length := by
            intro c₁ s₁ h₁ hbehind₁
            have hlt := hbehind₁.lt
            refine (ih h₁ (by omega) (by omega)).bind fun rest c₂ s₂ h₂ hrest => ?_
            exact .pure h₂ ⟨hrest.1.trans hbehind₁.links, by omega⟩
          refine .discardAdvance h hend (.isNext (h.advanced hend) ?_)
          split
          · refine (RunsAs.expect (h.advanced hend) _ _).bind fun _ c₂ s₂ h₂ hcomma => ?_
            exact hrest h₂ (hbehind.trans hcomma.2)
          · exact hrest (h.advanced hend) hbehind
        | _ => exact .unexpected h _

/-! ### Productions -/

section

variable {inner : Nested} {inner' : Parser.Nested}
  (hexpression : ReadsAs ts d inner.expression inner'.expression)
include hexpression

theorem runsAs_list (h : StandsAt ts d c s) (delimiter : Delimiter) (opened : Position) :
    RunsAs ts d (list inner delimiter opened) (Parser.list inner' delimiter opened) c s
      fun es _ s' => AreRead s es s' := by
  refine .look (runOn_rounds c) (.parser (Parser.runOn_remaining s) ?_)
  rw [h.tokens]
  exact runsAs_items hexpression delimiter opened _ h h.kinds_length_lt (Nat.le_refl _)

theorem runsAs_closure (h : StandsAt ts d c s) (opened : Position) :
    RunsAs ts d (closure inner opened) (Parser.closure inner' opened) c s (Took s) := by
  refine .look (runOn_rounds c) (.parser (Parser.runOn_remaining s) ?_)
  rw [h.tokens]
  refine (runsAs_parameters _ h h.kinds_length_lt (Nat.le_refl _)).bind
    fun params c₁ s₁ h₁ hparams => ?_
  refine (RunsAs.close h₁ _ opened).bind fun _ c₂ s₂ h₂ hclose => ?_
  refine (RunsAs.expect h₂ _ _).bind fun _ c₃ s₃ h₃ harrow => ?_
  refine (hexpression c₃ s₃ h₃).bind fun body c₄ s₄ h₄ hbody => ?_
  have hbehind : s₁.Behind s₄ := (hclose.2.trans harrow.2).trans hbody.behind
  have htree : (Expr.closure params body).all Expr.isAboveLeast = true := by
    simp [Expr.all, Expr.isAboveLeast, h₄.built body hbody.mem]
  refine .build h₄ htree ⟨List.mem_cons_self, hbehind.links.trans hparams.1, ?_⟩
  exact Nat.lt_of_lt_of_le hbehind.lt hparams.2

/-- Behind a name with a parenthesis: a closure, if an arrow follows, or a call. -/
theorem runsAs_call (h : StandsAt ts d c s) (hopen : s.stream.peek.kind = .symbol .leftParen)
    (name : String) :
    RunsAs ts d (call inner name)
      (do
        let opened := (← Parser.advance).position
        if name = "fn" && Parser.arrowBehindClose 0 (← get).stream.tokens then
          Parser.closure inner' opened
        else return .call name (← Parser.list inner' .parenthesis opened)) c s (Took s) := by
  have hend : s.stream.peek.kind ≠ .endOfInput := by simp [hopen]
  have h₁ := h.advanced hend
  have hbehind := s.behind_advanced hend
  have hlist : RunsAs ts d
      (do build (.call name (← list inner .parenthesis s.stream.peek.position)))
      (do return .call name (← Parser.list inner' .parenthesis s.stream.peek.position))
      c.advanced s.advanced (Took s) := by
    refine (runsAs_list hexpression h₁ _ _).bind fun args c₂ s₂ h₂ hargs => ?_
    refine .build h₂ ?_ ⟨List.mem_cons_self, hbehind.trans hargs.2⟩
    simp [Expr.all, Expr.isAboveLeast, Expr.allList_iff.2 hargs.1]
  rw [call]
  by_cases hname : name = "fn"
  · rw [if_pos hname]
    refine .look (runOn_get c) (.look (h.runOn_closureAhead hopen h.tokens) ?_)
    cases harrow : Parser.arrowBehindClose 0 s.advanced.stream.tokens with
    | true =>
      rw [if_pos rfl]
      refine .advance h hend (.parser (Parser.runOn_get _) ?_)
      rw [if_pos (by simp [hname, harrow])]
      exact (runsAs_closure hexpression h₁ _).mono fun _ _ _ => .from_behind hbehind
    | false =>
      rw [if_neg Bool.false_ne_true]
      refine .advance h hend (.parser (Parser.runOn_get _) ?_)
      rw [if_neg (by simp [harrow])]
      exact hlist
  · rw [if_neg hname]
    refine .advance h hend (.parser (Parser.runOn_get _) ?_)
    rw [if_neg (by simp [hname])]
    exact hlist

/-- Behind a parenthesis, which the machine looks at again from one step behind it: a closure, if an
arrow follows, or a group. -/
theorem runsAs_group (h : StandsAt ts d c s) (hopen : s.stream.peek.kind = .symbol .leftParen)
    (opened : Position) :
    RunsAs ts d (group inner opened)
      (do
        if Parser.arrowBehindClose 0 (← get).stream.tokens then Parser.closure inner' opened
        else
          let result ← inner'.expression
          Parser.close .parenthesis opened
          return result) c.advanced s.advanced (Took s) := by
  have hend : s.stream.peek.kind ≠ .endOfInput := by simp [hopen]
  have h₁ := h.advanced hend
  have hbehind := s.behind_advanced hend
  have hback : runOn (decrement c.advanced.current) c.advanced = .ok (.ok c.current, c.advanced) :=
    rfl
  refine .look (runOn_get _) (.look hback ?_)
  refine .look (h.runOn_closureAhead hopen h₁.tokens) (.parser (Parser.runOn_get _) ?_)
  by_cases harrow : Parser.arrowBehindClose 0 s.advanced.stream.tokens = true
  · rw [if_pos harrow, if_pos harrow]
    exact (runsAs_closure hexpression h₁ _).mono fun _ _ _ => .from_behind hbehind
  · rw [if_neg harrow, if_neg harrow]
    refine (hexpression _ _ h₁).bind fun e c₂ s₂ h₂ he => ?_
    refine (RunsAs.close h₂ _ _).bind fun _ c₃ s₃ h₃ hclose => ?_
    exact .pure h₃ ⟨hclose.1 ▸ he.mem, hbehind.trans (he.behind.trans hclose.2)⟩

theorem ReadsAs.primary : ReadsAs ts d (Machine.primary inner) (Parser.primary inner') := by
  intro c s h
  by_cases hend : s.stream.peek.kind = .endOfInput
  · refine .look (h.runOn_advance_end hend) (.parser (Parser.runOn_advance s) ?_)
    rw [hend, h.advanced_eq hend]
    exact .throw h
  have h₁ := h.advanced hend
  have hbehind := s.behind_advanced hend
  have hlexed := h.isLexed_peek hend
  refine .advance h hend ?_
  cases hkind : s.stream.peek.kind with
  | integer n =>
    have htree := Expr.isAboveLeast_literal hlexed (v := .number (.integer n)) hkind
    exact .build h₁ htree ⟨List.mem_cons_self, hbehind⟩
  | identifier name =>
    refine .isNext h₁ ?_
    cases hopen : s.advanced.stream.peek.kind == .symbol .leftParen with
    | false => exact .build h₁ rfl ⟨List.mem_cons_self, hbehind⟩
    | true =>
      exact (runsAs_call hexpression h₁ (eq_of_beq hopen) name).mono fun _ _ _ =>
        .from_behind hbehind
  | symbol symbol =>
    cases symbol with
    | leftParen => exact runsAs_group hexpression h hkind _
    | leftBracket =>
      refine (runsAs_list hexpression h₁ _ _).bind fun es c₂ s₂ h₂ hes => ?_
      refine .build h₂ ?_ ⟨List.mem_cons_self, hbehind.trans hes.2⟩
      simp [Expr.all, Expr.isAboveLeast, Expr.allList_iff.2 hes.1]
    -- A closing delimiter is unbalanced here, and no other symbol starts a primary expression.
    | _ => exact .throw h₁
  | endOfInput => exact absurd hkind hend
  | _ => exact .build h₁ rfl ⟨List.mem_cons_self, hbehind⟩

omit hexpression in
theorem runsAs_memberName (h : StandsAt ts d c s) :
    RunsAs ts d memberName Parser.memberName c s fun _ built s' =>
      built = c.built ∧ s.Behind s' := by
  refine .peek h ?_
  cases hkind : s.stream.peek.kind with
  | identifier name =>
    have hend : s.stream.peek.kind ≠ .endOfInput := by simp [hkind]
    exact .discardAdvance h hend (.pure (h.advanced hend) ⟨rfl, s.behind_advanced hend⟩)
  | integer n =>
    have hend : s.stream.peek.kind ≠ .endOfInput := by simp [hkind]
    by_cases hn : n < 0
    · simp only [if_pos hn]
      exact .stop (.unexpected h _)
    · simp only [if_neg hn]
      exact .discardAdvance h hend (.pure (h.advanced hend) ⟨rfl, s.behind_advanced hend⟩)
  | _ => exact .unexpected h _

/-- The member steps behind an object, by induction on the rounds of the machine. -/
theorem runsAs_members (limit : Nat) : ∀ {limit' : Nat} {object : Expr} {nullSafe : Bool}
    {c : State} {s : ParserState}, StandsAt ts d c s → object ∈ c.built →
      s.kinds.length < limit → maxChain < s.links + limit' →
        RunsAs ts d (members inner limit object nullSafe)
          (Parser.members inner' limit' object nullSafe) c s fun e built s' =>
            e ∈ built ∧ s'.kinds.length ≤ s.kinds.length := by
  induction limit with
  | zero => exact fun _ _ hlimit => absurd hlimit (Nat.not_lt_zero _)
  | succ limit ih =>
    intro limit' object nullSafe c s h hobject hlimit hlimit'
    have hlinks := h.links_le
    obtain ⟨limit', rfl⟩ : ∃ n, limit' = n + 1 := ⟨limit' - 1, by omega⟩
    rw [members, Parser.members]
    refine .peek h ?_
    dsimp only
    split
    case isTrue => exact .pure h ⟨hobject, Nat.le_refl _⟩
    case isFalse hdot =>
      have hend : s.stream.peek.kind ≠ .endOfInput := by
        intro hend
        exact hdot (by rw [hend]; rfl)
      -- A step behind the object, without arguments or with some.
      have hstep : ∀ {e : Expr} {nullSafe : Bool} {c₂ : State} {s₂ : ParserState},
          StandsAt ts d c₂ s₂ → e.all Expr.isAboveLeast = true → s.linked.advanced.Behind s₂ →
            RunsAs ts d (do members inner limit (← build e) nullSafe)
              (Parser.members inner' limit' e nullSafe) c₂ s₂ fun e built s' =>
                e ∈ built ∧ s'.kinds.length ≤ s.kinds.length := by
        intro e nullSafe c₂ s₂ h₂ he hbehind
        obtain ⟨hlinks₂, hlength⟩ := hbehind.of_linked hend
        refine .step (runOn_build e c₂) (List.suffix_cons _ _) ?_
        refine (ih (h₂.withTree he) List.mem_cons_self (by omega) (by omega)).mono ?_
        exact fun e built s' he => ⟨he.1, Nat.le_trans he.2 (Nat.le_of_lt hlength)⟩
      refine .link h fun hlt => ?_
      have h₁ := h.linked hlt
      refine .discardAdvance h₁ hend ?_
      refine (runsAs_memberName (h₁.advanced hend)).bind fun name c₂ s₂ h₂ hname => ?_
      have hobject₂ : object.all Expr.isAboveLeast = true := h.built object hobject
      refine .isNext h₂ ?_
      cases hopen : s₂.stream.peek.kind == .symbol .leftParen with
      | true =>
        have hend₂ : s₂.stream.peek.kind ≠ .endOfInput := by simp [eq_of_beq hopen]
        refine .advance h₂ hend₂ ?_
        refine (runsAs_list hexpression (h₂.advanced hend₂) _ _).bind fun args c₃ s₃ h₃ hargs => ?_
        refine hstep h₃ ?_ (hname.2.trans ((s₂.behind_advanced hend₂).trans hargs.2))
        simp [Expr.all, Expr.isAboveLeast, hobject₂, Expr.allList_iff.2 hargs.1]
      | false =>
        refine hstep h₂ ?_ hname.2
        simp [Expr.all, Expr.isAboveLeast, hobject₂]

theorem ReadsAs.path : ReadsAs ts d (Machine.path inner) (Parser.path inner') := by
  intro c s h
  refine .restoring (ReadsAs.primary hexpression c s h) fun object c₁ s₁ h₁ hobject => ?_
  obtain ⟨hobject, hbehind⟩ := hobject
  refine (runsAs_members hexpression _ h₁ hobject h₁.kinds_length_lt (by omega)).mono ?_
  rintro e built s₂ ⟨he, hle⟩
  exact ⟨he, hbehind.links, Nat.lt_of_le_of_lt hle hbehind.lt⟩

omit hexpression in
/-- A negative has the sign changed of a literal that is not the least integer. -/
theorem runOn_negate {e : Expr} (he : e.all Expr.isAboveLeast = true) (c : State) :
    runOn (negate e) c = runOn (build (Parser.negate e)) c := by
  rw [negate.eq_def]
  split
  case h_1 n =>
    have hn : n ≠ Int64.minValue := minValue_lt_iff.1 (of_decide_eq_true he)
    have hnegative : runOn (negative n) c = .ok (.ok (-n), c) := by
      rw [negative, if_neg hn]
      rfl
    exact runOn_bind_of_ok hnegative _
  case h_2 => rfl
  case h_3 hinteger hfloat => rw [Parser.negate.eq_3 e hinteger hfloat]

theorem ReadsAs.unary (hunary : ReadsAs ts d inner.unary inner'.unary) :
    ReadsAs ts d (Machine.unary inner) (Parser.unary inner') := by
  intro c s h
  refine .isNext h ?_
  cases hminus : s.stream.peek.kind == .symbol .minus with
  | true =>
    have hend : s.stream.peek.kind ≠ .endOfInput := by simp [eq_of_beq hminus]
    have hbehind := s.behind_advanced hend
    refine .discardAdvance h hend ?_
    refine (hunary _ _ (h.advanced hend)).bind fun operand c₂ s₂ h₂ hoperand => ?_
    have htree := h₂.built operand hoperand.mem
    rw [RunsAs, runOn_negate htree]
    exact RunsAs.build h₂ (Expr.all_negate htree) ⟨List.mem_cons_self, hbehind.trans hoperand.behind⟩
  | false => exact ReadsAs.path hexpression c s h

omit hexpression in
/-- All levels, from the tightest to the loosest one. -/
theorem ReadsAs.coalesce (hunary : ReadsAs ts d (Machine.unary inner) (Parser.unary inner')) :
    ReadsAs ts d (Machine.coalesce inner) (Parser.coalesce inner') := by
  have hmultiplicative := hunary.chain (joins_operator .multiplicative)
  have hadditive := hmultiplicative.chain (joins_operator .additive)
  have hcomparison := hadditive.chain (joins_operator .comparison)
  have hconjunction := hcomparison.chain (joins_operator .conjunction)
  have hdisjunction := hconjunction.chain (joins_operator .disjunction)
  exact hdisjunction.chain (joins_operator .coalesce)

theorem ReadsAs.conditional (hunary : ReadsAs ts d inner.unary inner'.unary) :
    ReadsAs ts d (Machine.conditional inner) (Parser.conditional inner') := by
  intro c s h
  refine (ReadsAs.coalesce (ReadsAs.unary hexpression hunary) c s h).bind
    fun condition c₁ s₁ h₁ hcondition => ?_
  refine .isNext h₁ ?_
  cases hquestion : s₁.stream.peek.kind == .symbol .question with
  | false => exact .pure h₁ hcondition
  | true =>
    have hend₁ : s₁.stream.peek.kind ≠ .endOfInput := by simp [eq_of_beq hquestion]
    have h₂ := h₁.advanced hend₁
    have hbehind₂ := hcondition.behind.trans (s₁.behind_advanced hend₁)
    have hfirst := h₁.built condition hcondition.mem
    refine .discardAdvance h₁ hend₁ (.isNext h₂ ?_)
    cases hcolon : s₁.advanced.stream.peek.kind == .symbol .colon with
    | true =>
      have hend₂ : s₁.advanced.stream.peek.kind ≠ .endOfInput := by simp [eq_of_beq hcolon]
      refine .discardAdvance h₂ hend₂ ?_
      refine (hexpression _ _ (h₂.advanced hend₂)).bind fun otherwise c₃ s₃ h₃ hotherwise => ?_
      have hbehind₃ := (s₁.advanced.behind_advanced hend₂).trans hotherwise.behind
      refine .build h₃ ?_ ⟨List.mem_cons_self, hbehind₂.trans hbehind₃⟩
      simp [Expr.all, Expr.isAboveLeast, hfirst, h₃.built otherwise hotherwise.mem]
    | false =>
      refine (hexpression _ _ h₂).bind fun whenTrue c₃ s₃ h₃ hwhenTrue => ?_
      have hsecond := h₃.built whenTrue hwhenTrue.mem
      refine (RunsAs.expect h₃ _ _).bind fun _ c₄ s₄ h₄ hcolon₄ => ?_
      refine (hexpression _ _ h₄).bind fun otherwise c₅ s₅ h₅ hotherwise => ?_
      have hbehind₅ := (hwhenTrue.behind.trans hcolon₄.2).trans hotherwise.behind
      refine .build h₅ ?_ ⟨List.mem_cons_self, hbehind₂.trans hbehind₅⟩
      simp [Expr.all, Expr.isAboveLeast, hfirst, hsecond, h₅.built otherwise hotherwise.mem]

end

/-! ### Nesting -/

/-- The levels below the depth `d`, by induction on those that are left. -/
theorem readsAs_nestedAt (ts : List Token) (levels : Nat) : ∀ {d : Nat}, levels + d = maxNesting →
    ReadsAs ts d (nestedAt (levels + 1)).expression (Parser.nestedAt levels).expression ∧
      ReadsAs ts d (nestedAt (levels + 1)).unary (Parser.nestedAt levels).unary := by
  induction levels with
  | zero =>
    intro d hd
    obtain rfl : d = maxNesting := by omega
    exact ⟨fun _ _ h => .nested_tooDeep h, fun _ _ h => .nested_tooDeep h⟩
  | succ levels ih =>
    intro d hd
    obtain ⟨hexpression, hunary⟩ := ih (d := d + 1) (by omega)
    have hlt : d < maxNesting := by omega
    refine ⟨fun c s h => .nested h hlt fun c' h' => ?_, fun c s h => .nested h hlt fun c' h' => ?_⟩
    · exact ReadsAs.conditional hexpression hunary c' s h'
    · exact ReadsAs.unary hexpression hunary c' s h'

theorem readsAs_expression (ts : List Token) : ReadsAs ts 0 expression Parser.expression :=
  (readsAs_nestedAt ts maxNesting rfl).1

theorem readsAs_query (ts : List Token) : ReadsAs ts 0 query Parser.query := by
  intro c s h
  refine (readsAs_expression ts c s h).bind fun e c₁ s₁ h₁ he => .peek h₁ ?_
  cases hkind : s₁.stream.peek.kind with
  | endOfInput => exact .pure h₁ he
  | symbol symbol =>
    cases symbol with
    | rightParen => exact .throw h₁
    | rightBracket => exact .throw h₁
    | _ => exact .unexpected h₁ _
  | _ => exact .unexpected h₁ _

theorem readsAs_call (ts : List Token) (call : Parser.Call) :
    ReadsAs ts 0 (ofCall call) call.parser := by
  cases call with
  | expression => exact readsAs_expression ts
  | query => exact readsAs_query ts

/-! ### Calls in turn -/

theorem callAll_cons_of_ok {call : Parser.Call} {calls : List Parser.Call} {c₁ c₂ : State}
    {answer : Except ParseError Expr} {answers : List (Except ParseError Expr)}
    (hcall : runOn (ofCall call) c = .ok (answer, c₁))
    (hcalls : callAll calls c₁ = .ok (answers, c₂)) :
    callAll (call :: calls) c = .ok (answer :: answers, c₂) := by
  rw [callAll, hcall]
  dsimp only [bind, Except.bind]
  rw [hcalls]
  rfl

/-- The answers and the state behind any calls.  By induction on the calls; the state behind one is
sound again, whatever its answer is. -/
theorem exists_callAll (calls : List Parser.Call) : ∀ {c : State} {s : ParserState},
    StandsAt ts 0 c s → ∃ c', callAll calls c = .ok (Parser.answers s calls, c') ∧
      StandsAt ts 0 c' (Parser.after s calls) ∧ c.built <:+ c'.built ∧
      ∀ e, .ok e ∈ Parser.answers s calls → e ∈ c'.built := by
  induction calls with
  | nil => exact fun h => ⟨_, rfl, h, List.suffix_rfl, fun _ he => absurd he List.not_mem_nil⟩
  | cons call calls ih =>
    intro c s h
    obtain ⟨c₁, hcall, h₁, hkept, hanswer⟩ := readsAs_call ts call c s h
    obtain ⟨c₂, hcalls, h₂, hkept', hanswers⟩ := ih h₁
    refine ⟨c₂, callAll_cons_of_ok hcall hcalls, h₂, hkept.trans hkept', fun e he => ?_⟩
    rcases List.mem_cons.1 he with he | he
    · exact hkept'.subset (hanswer e he.symm).mem
    · exact hanswers e he

/-- A new machine stands in front of all tokens of a text. -/
theorem standsAt_start {l : Lexer} {limit : Nat} {stream : TokenStream}
    (h : l.stream limit = .ok stream) :
    StandsAt stream.withEnd 0 (start stream.withEnd) ⟨stream, 0⟩ where
  tokens := rfl
  ahead := rfl
  depth := rfl
  links := rfl
  links_le := Nat.zero_le maxChain
  lexed := Lexer.isLexed_stream limit h
  built _ he := absurd he List.not_mem_nil

/-- On the tokens of a text, any calls in turn meet no trap: no index is outside of the tokens, no
counter goes below zero, and no integer without a negative is negated.  The answers are those of the
parser, and behind each call the machine is in a sound state, in which all trees built so far, those
of the answers among them, are free of the least integer. -/
theorem callAll_untrapped {l : Lexer} {limit : Nat} {stream : TokenStream}
    (h : l.stream limit = .ok stream) (calls : List Parser.Call) :
    ∃ c, callAll calls (start stream.withEnd) = .ok (Parser.answers ⟨stream, 0⟩ calls, c) ∧
      StandsAt stream.withEnd 0 c (Parser.after ⟨stream, 0⟩ calls) ∧
      c.current < stream.withEnd.length ∧
      ∀ e, .ok e ∈ Parser.answers ⟨stream, 0⟩ calls → e ∈ c.built := by
  obtain ⟨c, hcalls, hstands, -, hanswers⟩ := exists_callAll calls (standsAt_start h)
  exact ⟨c, hcalls, hstands, hstands.current_lt, hanswers⟩

/-- The tokens of a negative number, a parenthesis that closes nothing and one that is not closed. -/
def strayParentheses : TokenStream where
  tokens := [⟨.symbol .minus, ⟨0, 1, 1⟩⟩, ⟨.integer 1, ⟨1, 1, 2⟩⟩, ⟨.symbol .rightParen, ⟨2, 1, 3⟩⟩,
    ⟨.symbol .leftParen, ⟨3, 1, 4⟩⟩]
  stop := ⟨4, 1, 5⟩

/-- Three calls, each of which fails: behind the number, at the stray parenthesis, and at the end,
where the machine stays. -/
theorem callAll_untrapped_of_strayParentheses :
    tokenize "-1)(" = .ok strayParentheses ∧
      ∃ c, callAll [.query, .expression, .expression] (start strayParentheses.withEnd) =
          .ok ([.error ⟨.unbalanced .parenthesis, ⟨2, 1, 3⟩⟩,
            .error ⟨.unbalanced .parenthesis, ⟨2, 1, 3⟩⟩,
            .error ⟨.unexpectedEnd .expression, ⟨4, 1, 5⟩⟩], c) ∧
        StandsAt strayParentheses.withEnd 0 c ⟨⟨[], ⟨4, 1, 5⟩⟩, 0⟩ ∧ c.current < 5 ∧
        c.built = [.literal (.number (.integer (-1))), .literal (.number (.integer 1))] := by
  have htokens : (Lexer.ofString "-1)(").stream 5 = .ok strayParentheses := rfl
  obtain ⟨c, hcalls, hstands, hcurrent, -⟩ :=
    callAll_untrapped htokens [.query, .expression, .expression]
  refine ⟨htokens, c, hcalls, hstands, hcurrent, ?_⟩
  have hbuilt : (callAll [.query, .expression, .expression] (start strayParentheses.withEnd)).map
      (fun r => r.2.built) = .ok [.literal (.number (.integer (-1))),
        .literal (.number (.integer 1))] := rfl
  rw [hcalls] at hbuilt
  exact Except.ok.inj hbuilt

end Machine

end PathQuery
